/-!
# Bits of bytes and words

Masks that keep the lowest bits of a word are remainders.  A fact about single bytes can be checked
for all 256 of them.

## Main statements

* `forall_byte`: facts about bytes are checked byte by byte.
* `toNat_and_low`, `toNat_and_page`: keeping the lowest bits, and the high byte.
* `toNat_or_page`: two bytes joined to a word.
-/

namespace Nes

/-- What holds of 256 numbers holds of every byte. -/
theorem forall_byte {P : UInt8 → Prop} (h : ∀ n : Fin 256, P (UInt8.ofFin n)) (v : UInt8) :
    P v := by
  have hv := h v.toFin
  rwa [UInt8.ofFin_toFin] at hv

/-- Keeping the lowest bits of a word leaves the remainder. -/
theorem toNat_and_low (a : UInt16) {mask : UInt16} (k : Nat) (h : mask.toNat = 1 <<< k - 1) :
    (a &&& mask).toNat = a.toNat % 1 <<< k := by
  rw [UInt16.toNat_and, h, Nat.one_shiftLeft, Nat.and_two_pow_sub_one_eq_mod]

/-- Masking the low byte of an address leaves the beginning of its page. -/
theorem toNat_and_page (a : UInt16) : (a &&& 0xFF00).toNat = a.toNat / 256 * 256 := by
  have hlt : a.toNat < 2 ^ 16 := a.toNat_lt
  have hmask : (0xFF00 : Nat) = (2 ^ 8 - 1) <<< 8 := by decide
  have hshift : a.toNat / 256 * 256 = (a.toNat >>> 8) <<< 8 := by
    rw [Nat.shiftLeft_eq, Nat.shiftRight_eq_div_pow]
  show a.toNat &&& 0xFF00 = a.toNat / 256 * 256
  rw [hmask, hshift]
  apply Nat.eq_of_testBit_eq
  intro i
  simp only [Nat.testBit_and, Nat.testBit_shiftLeft, Nat.testBit_shiftRight,
    Nat.testBit_two_pow_sub_one]
  by_cases h8 : 8 ≤ i
  · have hi : 8 + (i - 8) = i := by omega
    by_cases h16 : i < 16
    · simp [h8, hi, show i - 8 < 8 by omega]
    · have hbit : a.toNat.testBit i = false :=
        Nat.testBit_lt_two_pow (Nat.lt_of_lt_of_le hlt (Nat.pow_le_pow_right (by decide) (by omega)))
      simp [hi, hbit]
  · simp [h8]

/-- A beginning of a page and a number below 256 are joined to an address on the page. -/
theorem toNat_or_page {page low : UInt16} {n : Nat} (hpage : page.toNat = n * 256)
    (hlow : low.toNat < 256) : (page ||| low).toNat = n * 256 + low.toNat := by
  have hshift : n * 256 = n <<< 8 := by rw [Nat.shiftLeft_eq]
  rw [UInt16.toNat_or, hpage, hshift, ← Nat.shiftLeft_add_eq_or_of_lt hlow]

end Nes
