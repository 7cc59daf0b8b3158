import Mathlib.Data.List.DropRight
import Nes.Proofs.Console.ReadEffect
import Nes.Proofs.Ppu.VblankHistory

/-!
# Bytes in pairs

The scroll register and the address register take two bytes each, and one note says for both of
them whose turn it is.  So the note depends on everything that was ever written to either, and a
byte for one register may be taken for the second of a pair that was begun at the other.  Reading
the status register makes an end of this: the next byte is a first one.

The note therefore tells whether the number of bytes since the last such read is odd.  And after such
a read a pair of bytes is stored as a whole, whatever was there before and whatever else happens in
between, as long as it does not touch the two registers or move the address on.

## Main definitions

* `Ppu.Action.readsStatus`, `Ppu.Action.isHalf`, `Ppu.Action.isAside`: what an action is to a pair of
  bytes.
* `Ppu.halves`: the number of bytes since the last read of the status register.
* `Ppu.latch`: the two registers and the note.

## Main statements

* `Ppu.secondWrite_act`, `Ppu.videoAddress_act`: what an action does to the note and the address.
* `Ppu.secondWrite_history`: the note tells the parity of the bytes.
* `Ppu.latch_actAll_filter`: what happens aside may be left out.
* `Ppu.pairs_of_history`: note, address and pairs after any actions.
-/

namespace Nes.Ppu

/-! ### Kinds of actions -/

namespace Action

/-- The status register is read. -/
def readsStatus : Action → Bool
  | .read _ .status => true
  | _ => false

/-- One byte of a pair is written. -/
def isHalf : Action → Bool
  | .write _ .scroll _ | .write _ .videoAddress _ => true
  | _ => false

/-- The address in picture memory is used and moves on. -/
def movesOn : Action → Bool
  | .read _ .videoData | .write _ .videoData _ => true
  | _ => false

/-- The action is none of these. -/
def isAside (a : Action) : Bool := !(a.readsStatus || a.isHalf || a.movesOn)

theorem movesOn_of_isAside {a : Action} (h : a.isAside = true) : a.movesOn = false := by
  rw [isAside, Bool.not_eq_true', Bool.or_eq_false_iff] at h
  exact h.2

theorem isAside_of_isHalf {a : Action} (h : a.isHalf = true) : a.isAside = false := by
  rw [isAside, h, Bool.or_true, Bool.true_or]
  rfl

theorem movesOn_of_isHalf {a : Action} (h : a.isHalf = true) : a.movesOn = false := by
  cases a with
  | write cart r value =>
    cases r with
    | videoData => exact absurd h Bool.false_ne_true
    | _ => rfl
  | _ => exact absurd h Bool.false_ne_true

theorem filter_of_isAside {acts : List Action} (h : ∀ a ∈ acts, a.isAside = true) :
    acts.filter (!·.isAside) = [] := by
  rw [List.filter_eq_nil_iff]
  intro a ha
  rw [h a ha]
  exact Bool.false_ne_true

end Action

/-- The number of bytes of pairs since the status register was read last, or since the beginning if
it never was. -/
def halves (acts : List Action) : Nat :=
  (acts.rtakeWhile (!·.readsStatus)).countP (·.isHalf)

theorem halves_concat (acts : List Action) (a : Action) :
    halves (acts ++ [a]) = if a.readsStatus then 0 else halves acts + a.isHalf.toNat := by
  unfold halves
  rw [List.rtakeWhile_concat]
  cases a.readsStatus with
  | true => rfl
  | false =>
    show List.countP _ (_ ++ [a]) = _ + _
    rw [List.countP_append, List.countP_singleton]
    cases a.isHalf <;> rfl

/-! ### The note -/

variable {p q : Ppu}

theorem secondWrite_writeScroll (p : Ppu) (value : UInt8) :
    (p.writeScroll value).secondWrite = !p.secondWrite := by
  rw [writeScroll_eq]

theorem secondWrite_writeAddress (p : Ppu) (value : UInt8) :
    (p.writeAddress value).secondWrite = !p.secondWrite := by
  rw [writeAddress_eq]

theorem secondWrite_writeVideo (p : Ppu) (cart : Cartridge) (addr : UInt16) (value : UInt8) :
    (p.writeVideo cart addr value).1.secondWrite = p.secondWrite := by
  obtain ⟨store, cart', h⟩ := exists_writeVideo_eq cart addr value
  rw [h]

/-- **What an action does to the note.**  Reading the status register removes it, and every byte of
a pair turns it over. -/
theorem secondWrite_act (p : Ppu) (a : Action) :
    (p.act a).secondWrite = if a.readsStatus then false else a.isHalf ^^ p.secondWrite := by
  cases a with
  | read cart r => cases r <;> exact (Bool.false_xor _).symm
  | write cart r value =>
    cases r with
    | scroll => exact (p.secondWrite_writeScroll value).trans (Bool.true_xor _).symm
    | videoAddress => exact (p.secondWrite_writeAddress value).trans (Bool.true_xor _).symm
    | videoData =>
      exact (p.secondWrite_writeVideo cart _ value).trans (Bool.false_xor _).symm
    | _ => exact (Bool.false_xor _).symm
  | writeVideo cart addr value =>
    exact (p.secondWrite_writeVideo cart addr value).trans (Bool.false_xor _).symm
  | dot | peek | takeNmiRequest | takeFrameComplete => exact (Bool.false_xor _).symm

/-- **The note tells whether the number of bytes is odd.** -/
theorem secondWrite_history (acts : List Action) :
    (powerOn.actAll acts).secondWrite = decide (halves acts % 2 = 1) := by
  induction acts using List.reverseRecOn with
  | nil => rfl
  | append_singleton acts a ih =>
    rw [actAll_append, halves_concat]
    show ((powerOn.actAll acts).act a).secondWrite = _
    rw [secondWrite_act, ih]
    cases a.readsStatus with
    | true => rfl
    | false =>
      cases a.isHalf with
      | true =>
        obtain heven | hodd := Nat.mod_two_eq_zero_or_one (halves acts)
        · simp [heven, Nat.add_mod]
        · simp [hodd, Nat.add_mod]
      | false => exact Bool.false_xor _

/-- What is neither leaves it alone. -/
theorem secondWrite_actAll {acts : List Action}
    (hacts : ∀ a ∈ acts, a.readsStatus = false ∧ a.isHalf = false) :
    (p.actAll acts).secondWrite = p.secondWrite := by
  induction acts generalizing p with
  | nil => rfl
  | cons a acts ih =>
    obtain ⟨⟨hreads, hhalf⟩, hacts⟩ := List.forall_mem_cons.1 hacts
    have hact := p.secondWrite_act a
    rw [hreads, hhalf, Bool.false_xor] at hact
    exact (ih hacts).trans hact

/-! ### The address -/

/-- The first byte of an address is the high one, of which six bits count. -/
theorem toNat_firstByte (addr : UInt16) (value : UInt8) :
    (((value.toUInt16 &&& 0x3F) <<< 8) ||| (addr &&& 0x00FF)).toNat =
      (value &&& 0x3F).toNat * 256 + addr.toNat % 256 := by
  have hhigh : ((value.toUInt16 &&& 0x3F) <<< 8).toNat = (value &&& 0x3F).toNat * 256 := by
    revert value
    apply forall_byte
    decide +kernel
  have hlow : (addr &&& 0x00FF).toNat = addr.toNat % 256 := toNat_and_low addr 8 rfl
  rw [toNat_or_page hhigh (by omega), hlow]

/-- The second byte is the low one. -/
theorem toNat_secondByte (addr : UInt16) (value : UInt8) :
    ((addr &&& 0xFF00) ||| value.toUInt16).toNat = addr.toNat / 256 * 256 + value.toNat :=
  toNat_or_page (toNat_and_page addr) value.toNat_lt

theorem videoAddress_writeAddress (h : p.videoAddress < 0x4000) (value : UInt8) :
    (p.writeAddress value).videoAddress < 0x4000 := by
  have haddress : p.videoAddress.toNat < 0x4000 := UInt16.lt_iff_toNat_lt.1 h
  have hbyte : value.toNat < 256 := value.toNat_lt
  rw [UInt16.lt_iff_toNat_lt]
  show _ < 0x4000
  unfold writeAddress
  split
  · rw [toNat_secondByte]
    omega
  · have hhigh : (value &&& 0x3F).toNat ≤ 0x3F := by
      rw [UInt8.toNat_and]
      exact Nat.and_le_right
    rw [toNat_firstByte]
    omega

/-- **The address in picture memory keeps to fourteen bits.** -/
theorem videoAddress_act (h : p.videoAddress < 0x4000) (a : Action) :
    (p.act a).videoAddress < 0x4000 := by
  -- The address that is reached by a step is masked, and so is the one that is written.
  have hnext : p.nextVideoAddress < 0x4000 := by
    rw [UInt16.lt_iff_toNat_lt, toNat_nextVideoAddress]
    exact Nat.mod_lt _ (by decide)
  cases a with
  | dot | peek | takeNmiRequest | takeFrameComplete => exact h
  | read cart r =>
    cases r with
    | videoData => exact hnext
    | _ => exact h
  | write cart r value =>
    cases r with
    | videoData => exact hnext
    | videoAddress => exact videoAddress_writeAddress h value
    | scroll =>
      show (p.writeScroll value).videoAddress < 0x4000
      rw [writeScroll_eq]
      exact h
    | _ => exact h
  | writeVideo cart addr value =>
    obtain ⟨store, cart', hstore⟩ := exists_writeVideo_eq cart addr value
    show (p.writeVideo cart addr value).1.videoAddress < 0x4000
    rw [hstore]
    exact h

theorem videoAddress_actAll (h : p.videoAddress < 0x4000) (acts : List Action) :
    (p.actAll acts).videoAddress < 0x4000 := by
  induction acts generalizing p with
  | nil => exact h
  | cons a acts ih => exact ih (videoAddress_act h a)

/-! ### Pairs -/

/-- What the bytes of pairs are stored in: the note, the scroll position and the address. -/
def latch (p : Ppu) : Bool × UInt8 × UInt8 × UInt16 :=
  (p.secondWrite, p.scrollX, p.scrollY, p.videoAddress)

/-- What happens aside leaves it alone. -/
theorem latch_act_of_isAside (p : Ppu) {a : Action} (ha : a.isAside = true) :
    (p.act a).latch = p.latch := by
  cases a with
  | read cart r =>
    cases r with
    | status | videoData => exact absurd ha Bool.false_ne_true
    | _ => rfl
  | write cart r value =>
    cases r with
    | scroll | videoAddress | videoData => exact absurd ha Bool.false_ne_true
    | _ => rfl
  | writeVideo cart addr value =>
    obtain ⟨store, cart', h⟩ := exists_writeVideo_eq cart addr value
    show (p.writeVideo cart addr value).1.latch = p.latch
    rw [h]
    rfl
  | dot | peek | takeNmiRequest | takeFrameComplete => rfl

theorem latch_writeScroll (p : Ppu) (value : UInt8) : (p.writeScroll value).latch =
    if p.secondWrite then (false, p.scrollX, value, p.videoAddress)
    else (true, value, p.scrollY, p.videoAddress) := by
  unfold writeScroll
  split <;> rfl

theorem latch_writeAddress (p : Ppu) (value : UInt8) : (p.writeAddress value).latch =
    if p.secondWrite then
      (false, p.scrollX, p.scrollY, (p.videoAddress &&& 0xFF00) ||| value.toUInt16)
    else
      (true, p.scrollX, p.scrollY,
        ((value.toUInt16 &&& 0x3F) <<< 8) ||| (p.videoAddress &&& 0x00FF)) := by
  unfold writeAddress
  split <;> rfl

/-- What an action does to it depends on nothing else, unless the address moves on. -/
theorem latch_act_congr (h : p.latch = q.latch) {a : Action} (ha : a.movesOn = false) :
    (p.act a).latch = (q.act a).latch := by
  by_cases haside : a.isAside = true
  · rw [latch_act_of_isAside p haside, latch_act_of_isAside q haside]
    exact h
  · -- What is not aside and does not move the address on is one of three accesses.
    have hparts := h
    simp only [latch, Prod.mk.injEq] at hparts
    obtain ⟨hsecond, hx, hy, haddress⟩ := hparts
    cases a with
    | read cart r =>
      cases r with
      | status => exact congrArg (fun l => (false, l.2)) h
      | videoData => exact absurd ha Bool.false_ne_true.symm
      | _ => exact absurd rfl haside
    | write cart r value =>
      cases r with
      | scroll =>
        show (p.writeScroll value).latch = (q.writeScroll value).latch
        rw [latch_writeScroll, latch_writeScroll, hsecond, hx, hy, haddress]
      | videoAddress =>
        show (p.writeAddress value).latch = (q.writeAddress value).latch
        rw [latch_writeAddress, latch_writeAddress, hsecond, hx, hy, haddress]
      | videoData => exact absurd ha Bool.false_ne_true.symm
      | _ => exact absurd rfl haside
    | _ => exact absurd rfl haside

/-- **What happens aside may be left out.** -/
theorem latch_actAll_filter (h : p.latch = q.latch) {acts : List Action}
    (hacts : ∀ a ∈ acts, a.movesOn = false) :
    (p.actAll acts).latch = (q.actAll (acts.filter (!·.isAside))).latch := by
  induction acts generalizing p q with
  | nil => exact h
  | cons a acts ih =>
    obtain ⟨ha, hacts⟩ := List.forall_mem_cons.1 hacts
    by_cases haside : a.isAside = true
    · rw [List.filter_cons_of_neg (by simp [haside])]
      exact ih ((latch_act_of_isAside p haside).trans h) hacts
    · rw [List.filter_cons_of_pos (by simp [haside])]
      exact ih (latch_act_congr h ha) hacts

/-- Two bytes after a read of the status register are stored as if nothing else had happened. -/
theorem latch_pair (p : Ppu) (cart : Cartridge) {gap₁ gap₂ : List Action} {first second : Action}
    (hgap₁ : ∀ a ∈ gap₁, a.isAside = true) (hgap₂ : ∀ a ∈ gap₂, a.isAside = true)
    (hfirst : first.isHalf = true) (hsecond : second.isHalf = true) :
    (p.actAll (.read cart .status :: (gap₁ ++ first :: (gap₂ ++ [second])))).latch =
      (p.actAll [.read cart .status, first, second]).latch := by
  have hreads : (Action.read cart .status).isAside = false := rfl
  rw [latch_actAll_filter (p := p) (q := p) rfl]
  · simp only [List.filter_cons, List.filter_append, Action.filter_of_isAside hgap₁,
      Action.filter_of_isAside hgap₂, hreads, Action.isAside_of_isHalf hfirst,
      Action.isAside_of_isHalf hsecond, Bool.not_false, if_true, List.nil_append, List.filter_nil]
  · simp only [List.forall_mem_cons, List.forall_mem_append]
    exact ⟨rfl, fun a ha => Action.movesOn_of_isAside (hgap₁ a ha), Action.movesOn_of_isHalf hfirst,
      fun a ha => Action.movesOn_of_isAside (hgap₂ a ha), Action.movesOn_of_isHalf hsecond, nofun⟩

/-- **Note, address and pairs after any actions.**  After any actions from power-on:

* the next byte of a pair is a second one if the number of bytes that were written to the scroll and
  the address register since the last read of the status register is odd;
* the address in picture memory is one of fourteen bits.

In whatever state the picture unit is, let the status register be read and then two bytes be
written, while aside dots are drawn and registers used that are neither those of pairs nor move the
address on.

* Two bytes to the address register are the address, but for the highest two bits.
* Two bytes to the scroll register are the scroll position, and the address is as it was.

A byte to the address register after one to the scroll register replaces the low byte of the address
only, whatever else happened since the status register was read. -/
theorem pairs_of_history :
    (∀ acts : List Action,
      let p := powerOn.actAll acts
      (p.secondWrite = true ↔ halves acts % 2 = 1) ∧ p.videoAddress < 0x4000) ∧
    (∀ (p : Ppu) (cart cart₁ cart₂ : Cartridge) (gap₁ gap₂ : List Action),
      (∀ a ∈ gap₁, a.isAside = true) → (∀ a ∈ gap₂, a.isAside = true) →
      let after (r : Register) (first second : UInt8) : Ppu :=
        p.actAll (.read cart .status ::
          (gap₁ ++ .write cart₁ r first :: (gap₂ ++ [.write cart₂ r second])))
      (∀ high low, (after .videoAddress high low).videoAddress.toNat =
        (high &&& 0x3F).toNat * 256 + low.toNat) ∧
      (∀ x y, (after .scroll x y).scrollX = x ∧ (after .scroll x y).scrollY = y ∧
        (after .scroll x y).videoAddress = p.videoAddress)) ∧
    (∀ (p : Ppu) (cart cart₁ cart₂ : Cartridge) (gap₁ gap₂ : List Action) (x low : UInt8),
      (∀ a ∈ gap₁ ++ gap₂, a.readsStatus = false ∧ a.isHalf = false) →
      let q := p.actAll (.read cart .status :: (gap₁ ++ .write cart₁ .scroll x :: gap₂))
      (q.act (.write cart₂ .videoAddress low)).videoAddress.toNat =
        q.videoAddress.toNat / 256 * 256 + low.toNat) := by
  refine ⟨fun acts => ⟨?_, ?_⟩, ?_, ?_⟩
  · rw [secondWrite_history, decide_eq_true_iff]
  · exact videoAddress_actAll (by decide) acts
  · intro p cart cart₁ cart₂ gap₁ gap₂ hgap₁ hgap₂ after
    have hafter {r : Register} (first second : UInt8) (h : r = .scroll ∨ r = .videoAddress) :
        (after r first second).latch =
          (p.actAll [.read cart .status, .write cart₁ r first, .write cart₂ r second]).latch := by
      obtain rfl | rfl := h <;> exact latch_pair p cart hgap₁ hgap₂ rfl rfl
    constructor
    · intro high low
      have haddress := congrArg (·.2.2.2.toNat) (hafter high low (.inr rfl))
      refine haddress.trans ((toNat_secondByte _ low).trans ?_)
      show (((high.toUInt16 &&& 0x3F) <<< 8) ||| (p.videoAddress &&& 0x00FF)).toNat / 256 * 256 +
        low.toNat = _
      rw [toNat_firstByte]
      omega
    · intro x y
      have hscroll := hafter x y (.inl rfl)
      exact ⟨congrArg (·.2.1) hscroll, congrArg (·.2.2.1) hscroll, congrArg (·.2.2.2) hscroll⟩
  · intro p cart cart₁ cart₂ gap₁ gap₂ x low hgaps q
    obtain ⟨hgap₁, hgap₂⟩ := List.forall_mem_append.1 hgaps
    have hsecond : q.secondWrite = true := by
      -- After the first gap the note is off, as the read left it, and the byte turns it on.
      show ((p.act (.read cart .status)).actAll (gap₁ ++ .write cart₁ .scroll x :: gap₂)).secondWrite
        = true
      rw [actAll_append]
      refine (secondWrite_actAll hgap₂).trans ((secondWrite_writeScroll _ x).trans ?_)
      rw [secondWrite_actAll hgap₁]
      rfl
    have haddress := congrArg (·.2.2.2.toNat) (q.latch_writeAddress low)
    rw [if_pos hsecond] at haddress
    exact haddress.trans (toNat_secondByte _ low)

/-- The first of two bytes was written when the status register is read: it is forgotten.  In the
other session the address moves on by a row between the byte of the scroll position and that of the
address. -/
theorem pairs_of_history_after_half :
    let cart := Cartridge.blank
    let p : Ppu := { powerOn with secondWrite := true, videoAddress := 0x1234 }
    let gap : List Action := [.dot, .write cart .control 0x04, .peek cart .videoData]
    let moving : List Action := .read cart .videoData :: gap
    (∀ a ∈ gap, a.isAside = true) ∧
    (∀ a ∈ gap ++ moving, a.readsStatus = false ∧ a.isHalf = false) ∧
    (p.actAll (.read cart .status :: (gap ++ .write cart .videoAddress 0xE1 ::
      (gap ++ [.write cart .videoAddress 0x05])))).videoAddress.toNat = 0x2105 ∧
    ((p.actAll (.read cart .status :: (gap ++ .write cart .scroll 0x10 :: moving))).act
      (.write cart .videoAddress 0x77)).videoAddress.toNat = 0x1277 := by
  intro cart p gap moving
  have haside : ∀ a ∈ gap, a.isAside = true := by
    simp only [gap, List.forall_mem_cons]
    exact ⟨rfl, rfl, rfl, nofun⟩
  have hneither : ∀ a ∈ gap ++ moving, a.readsStatus = false ∧ a.isHalf = false := by
    simp only [gap, moving, List.cons_append, List.nil_append, List.forall_mem_cons]
    exact ⟨⟨rfl, rfl⟩, ⟨rfl, rfl⟩, ⟨rfl, rfl⟩, ⟨rfl, rfl⟩, ⟨rfl, rfl⟩, ⟨rfl, rfl⟩, ⟨rfl, rfl⟩, nofun⟩
  obtain ⟨-, hpair, hlow⟩ := pairs_of_history
  obtain ⟨haddress, -⟩ := hpair p cart cart cart gap gap haside haside
  refine ⟨haside, hneither, haddress 0xE1 0x05, ?_⟩
  rw [hlow p cart cart cart gap moving 0x10 0x77 hneither]
  decide +kernel

end Nes.Ppu
