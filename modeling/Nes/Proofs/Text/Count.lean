import Nes.Text.Count
import Nes.Text.Numeral

/-!
# Which texts are counts

A count is read digit by digit, and every step is checked against the bound.  What is read in this
way is the number that the digits stand for, if that fits: a number that has become too large does
not become smaller by more digits, so it makes no difference that the check is made early.

## Main definitions

* `Count.Spells`: a text spells a number.

## Main statements

* `Count.parse_eq_ok_iff`: a text is read as a number exactly if it spells the number.
-/

namespace Nes.Count

/-- The value of a decimal digit. -/
def digitValue (c : Char) : Nat := c.toNat - '0'.toNat

/-- A text spells a number: it consists of decimal digits, at least one, of which the number is the
value.  A plus sign may stand before them.  The number fits in sixty-four bits. -/
structure Spells (text : String) (n : Nat) : Prop where
  digits : ∃ ds : List Char, (text.toList = ds ∨ text.toList = '+' :: ds) ∧ ds ≠ [] ∧
    (∀ c ∈ ds, c.isDigit = true) ∧ n = Numeral.ofDigits 10 (ds.map digitValue)
  fits : n < UInt64.size

theorem error_ne_ok (fault : Fault) (n : Nat) : (.error fault : Except Fault Nat) ≠ .ok n := by
  intro h
  cases h

/-- The number to which digits are appended is not made smaller by it. -/
theorem le_foldl_digits (ds : List Nat) (acc : Nat) :
    acc ≤ ds.foldl (fun acc d => acc * 10 + d) acc := by
  induction ds generalizing acc with
  | nil => exact Nat.le_refl acc
  | cons d ds ih =>
    have htail := ih (acc * 10 + d)
    rw [List.foldl_cons]
    omega

/-- **Appending digits succeeds** exactly if all are digits and the number that they lead to
fits. -/
theorem appendDigits_eq_ok_iff {acc n : Nat} {cs : List Char} (hacc : acc < bound) :
    appendDigits acc cs = .ok n ↔ (∀ c ∈ cs, c.isDigit = true) ∧
      n = (cs.map digitValue).foldl (fun acc d => acc * 10 + d) acc ∧ n < bound := by
  -- By induction on the characters: the number so far is below the bound at each of them.
  induction cs generalizing acc with
  | nil =>
    rw [appendDigits, Except.ok.injEq]
    constructor
    · rintro rfl
      exact ⟨fun c hc => absurd hc List.not_mem_nil, rfl, hacc⟩
    · exact fun h => h.2.1.symm
  | cons c cs ih =>
    rw [appendDigits, List.forall_mem_cons, List.map_cons, List.foldl_cons]
    by_cases hc : c.isDigit = true
    · rw [if_pos hc]
      have hvalue : acc * 10 + (c.toNat - '0'.toNat) = acc * 10 + digitValue c := rfl
      dsimp only
      rw [hvalue]
      by_cases hnext : acc * 10 + digitValue c < bound
      · rw [if_pos hnext, ih hnext, and_iff_right hc]
      · -- More digits would not make it fit.
        rw [if_neg hnext]
        refine ⟨fun h => absurd h (error_ne_ok _ n), ?_⟩
        rintro ⟨-, hn, hfits⟩
        have hle := le_foldl_digits (cs.map digitValue) (acc * 10 + digitValue c)
        omega
    · rw [if_neg hc]
      exact ⟨fun h => absurd h (error_ne_ok _ n), fun h => absurd h.1.1 hc⟩

/-- After an optional sign, a text of at least one character is read by its digits. -/
theorem parseChars_eq_ok_iff {cs : List Char} {n : Nat} : parseChars cs = .ok n ↔
    ∃ ds, (cs = ds ∨ cs = '+' :: ds) ∧ ds ≠ [] ∧ appendDigits 0 ds = .ok n := by
  -- A sign is no digit, so a second one is an error.
  have hsign : ∀ ds, appendDigits 0 ('+' :: ds) ≠ .ok n := by
    intro ds h
    rw [appendDigits, if_neg (by decide)] at h
    exact error_ne_ok _ n h
  -- No characters, a sign alone, a sign with digits, or digits alone
  fun_cases parseChars cs with
  | case1 =>
    refine ⟨fun h => absurd h (error_ne_ok _ n), ?_⟩
    rintro ⟨ds, rfl | h, hne, -⟩
    · exact absurd rfl hne
    · exact absurd h (List.cons_ne_nil _ _).symm
  | case2 =>
    refine ⟨fun h => absurd h (error_ne_ok _ n), ?_⟩
    rintro ⟨ds, rfl | h, hne, hds⟩
    · exact absurd hds (hsign _)
    · exact absurd (List.cons.inj h).2.symm hne
  | case3 digits hne =>
    constructor
    · exact fun h => ⟨digits, .inr rfl, fun hnil => hne (by rw [hnil]), h⟩
    · rintro ⟨ds, rfl | h, -, hds⟩
      · exact absurd hds (hsign _)
      · rw [(List.cons.inj h).2]
        exact hds
  | case4 _ hne _ hplus =>
    constructor
    · exact fun h => ⟨cs, .inl rfl, hne, h⟩
    · rintro ⟨ds, rfl | rfl, -, hds⟩
      · exact hds
      · exact absurd rfl (hplus _)

/-- **A text is read as a number exactly if it spells the number.** -/
theorem parse_eq_ok_iff {text : String} {n : Nat} : parse text = .ok n ↔ Spells text n := by
  have hbound : bound = UInt64.size := rfl
  have hzero : 0 < bound := by decide
  rw [parse, parseChars_eq_ok_iff]
  -- Both sides speak of the same digits, once as a number that was read and once as one that is
  -- spelled.
  constructor
  · rintro ⟨ds, hform, hne, hds⟩
    obtain ⟨hall, hn, hfits⟩ := (appendDigits_eq_ok_iff hzero).1 hds
    exact ⟨⟨ds, hform, hne, hall, hn⟩, hbound ▸ hfits⟩
  · rintro ⟨⟨ds, hform, hne, hall, hn⟩, hfits⟩
    exact ⟨ds, hform, hne, (appendDigits_eq_ok_iff hzero).2 ⟨hall, hn, hbound ▸ hfits⟩⟩

end Nes.Count
