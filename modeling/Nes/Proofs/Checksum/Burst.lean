import Mathlib.Logic.Function.Iterate
import Nes.Checksum.Crc32
import Nes.Proofs.Bus.Ram

/-!
# Bursts of errors

A cyclic redundancy check of thirty-two bits notices every change of a message that lies within
thirty-two bits in a row.  Division by a power of `x` is linear, and since the lowest power in the
polynomial is present, it loses nothing: two remainders that differ still differ after it.  Bytes
that both messages share are of no account therefore, before the change because the remainders are
equal there, and after it because the remainders differ.  Four bytes in a row are taken into the
remainder like one word of thirty-two bits, and different bytes make different words.

## Main definitions

* `Crc32.word`: the word that some bytes make up.
* `Crc32.Accumulator`, `Crc32.Accumulator.Computes`: devices that take a message piece by piece.

## Main statements

* `Crc32.divideBit_xor`, `Crc32.divideBit_injective`: division is linear and loses nothing.
* `Crc32.foldl_feed_eq`: up to four bytes are taken in like one word.
* `Crc32.checksum_ne_of_burst`: a change within four bytes in a row is noticed.
-/

namespace Nes.Crc32

/-! ### Division by powers of x -/

theorem divideBit_of_even {r : UInt32} (h : r &&& 1 = 0) : divideBit r = r >>> 1 := if_pos h

theorem divideBit_of_odd {r : UInt32} (h : r &&& 1 = 1) :
    divideBit r = (r >>> 1) ^^^ polynomial := by
  rw [divideBit, h]
  rfl

/-- The lowest bit of a remainder. -/
theorem toNat_and_one (r : UInt32) : (r &&& 1).toNat = r.toNat % 2 :=
  (UInt32.toNat_and r 1).trans (Nat.and_one_is_mod r.toNat)

theorem even_or_odd (r : UInt32) : r &&& 1 = 0 ∨ r &&& 1 = 1 := by
  rw [← UInt32.toNat_inj, ← UInt32.toNat_inj, toNat_and_one]
  exact Nat.mod_two_eq_zero_or_one r.toNat

theorem toNat_half (r : UInt32) : (r >>> 1).toNat = r.toNat / 2 := by
  rw [UInt32.toNat_shiftRight]
  exact Nat.shiftRight_eq_div_pow r.toNat 1

/-- **Division is linear.** -/
theorem divideBit_xor (x y : UInt32) : divideBit (x ^^^ y) = divideBit x ^^^ divideBit y := by
  have hshift : (x ^^^ y) >>> 1 = (x >>> 1) ^^^ (y >>> 1) := UInt32.shiftRight_xor
  have hbit : (x ^^^ y) &&& 1 = (x &&& 1) ^^^ (y &&& 1) := by
    rw [← UInt32.toNat_inj, toNat_and_one, UInt32.toNat_xor, UInt32.toNat_xor, toNat_and_one,
      toNat_and_one]
    exact Nat.xor_mod_two_pow (n := 1)
  -- The polynomial is added once, twice or not at all, and twice is not at all.
  obtain hx | hx := even_or_odd x <;> obtain hy | hy := even_or_odd y <;> rw [hx, hy] at hbit
  · rw [divideBit_of_even hx, divideBit_of_even hy, divideBit_of_even hbit, hshift]
  · rw [divideBit_of_even hx, divideBit_of_odd hy, divideBit_of_odd hbit, hshift,
      UInt32.xor_assoc]
  · rw [divideBit_of_odd hx, divideBit_of_even hy, divideBit_of_odd hbit, hshift,
      UInt32.xor_assoc, UInt32.xor_assoc, UInt32.xor_comm polynomial]
  · rw [divideBit_of_odd hx, divideBit_of_odd hy, divideBit_of_even hbit, hshift,
      UInt32.xor_comm (y >>> 1) polynomial, UInt32.xor_assoc, ← UInt32.xor_assoc polynomial,
      UInt32.xor_self, UInt32.zero_xor]

/-- Nothing but zero leaves nothing: the highest bit of the polynomial is set, and that of a
remainder which was shifted is not. -/
theorem eq_zero_of_divideBit {r : UInt32} (h : divideBit r = 0) : r = 0 := by
  have hlt := r.toNat_lt
  rw [← UInt32.toNat_inj]
  show r.toNat = 0
  obtain hr | hr := even_or_odd r
  · rw [divideBit_of_even hr, ← UInt32.toNat_inj, toNat_half] at h
    rw [← UInt32.toNat_inj, toNat_and_one] at hr
    change r.toNat / 2 = 0 at h
    change r.toNat % 2 = 0 at hr
    omega
  · rw [divideBit_of_odd hr, UInt32.xor_eq_zero_iff, ← UInt32.toNat_inj, toNat_half] at h
    change r.toNat / 2 = 0xEDB88320 at h
    omega

/-- **Division loses nothing.** -/
theorem divideBit_injective : Function.Injective divideBit := by
  intro x y h
  rw [← UInt32.xor_eq_zero_iff]
  apply eq_zero_of_divideBit
  rw [divideBit_xor, h, UInt32.xor_self]

theorem divideByte_xor (x y : UInt32) : divideByte (x ^^^ y) = divideByte x ^^^ divideByte y := by
  simp only [divideByte, divideBit_xor]

theorem divideByte_injective : Function.Injective divideByte := by
  intro x y h
  iterate 8 replace h := divideBit_injective h
  exact h

/-- A remainder that is a multiple of `x` is shifted. -/
theorem divideBit_double {n : Nat} (h : 2 * n < 2 ^ 32) :
    divideBit (.ofNat (2 * n)) = .ofNat n := by
  have hsize : (UInt32.ofNat (2 * n)).toNat = 2 * n :=
    UInt32.toNat_ofNat'.trans (Nat.mod_eq_of_lt h)
  have heven : UInt32.ofNat (2 * n) &&& 1 = 0 := by
    rw [← UInt32.toNat_inj, toNat_and_one, hsize]
    exact Nat.mul_mod_right 2 n
  rw [divideBit_of_even heven, ← UInt32.toNat_inj, toNat_half, hsize, UInt32.toNat_ofNat']
  omega

theorem divideByte_shifted {n : Nat} (h : 256 * n < 2 ^ 32) :
    divideByte (.ofNat (256 * n)) = .ofNat n := by
  have hhalves : 256 * n = 2 * (2 * (2 * (2 * (2 * (2 * (2 * (2 * n))))))) := by omega
  rw [hhalves] at h ⊢
  rw [divideByte]
  iterate 8 rw [divideBit_double (by omega)]

/-! ### Bytes in a row -/

/-- A byte and a number beyond it are joined without a carry. -/
theorem xor_shifted (v : UInt8) (n : Nat) : v.toNat ^^^ (256 * n) = v.toNat + 256 * n := by
  have hlow : v.toNat < 2 ^ 8 := v.toNat_lt
  apply Nat.eq_of_testBit_eq
  intro i
  have hshifted := Nat.testBit_two_pow_mul_add n (Nat.two_pow_pos 8) i
  have hjoined := Nat.testBit_two_pow_mul_add n hlow i
  rw [Nat.add_zero] at hshifted
  change (256 * n).testBit i = _ at hshifted
  change (256 * n + v.toNat).testBit i = _ at hjoined
  rw [Nat.testBit_xor, Nat.add_comm, hshifted, hjoined]
  split
  · rw [Nat.zero_testBit, Bool.xor_false]
  · next hi =>
    have hbit : v.toNat.testBit i = false :=
      Nat.testBit_lt_two_pow (Nat.lt_of_lt_of_le hlow (Nat.pow_le_pow_right (by decide) (by omega)))
    rw [hbit, Bool.false_xor]

/-- The word that up to four bytes make up. -/
def word (bytes : List UInt8) : UInt32 := .ofNat (littleEndian bytes)

theorem littleEndian_lt_word {bytes : List UInt8} (h : bytes.length ≤ 4) :
    littleEndian bytes < 2 ^ 32 :=
  Nat.lt_of_lt_of_le (littleEndian_lt bytes) (Nat.pow_le_pow_right (by decide) h)

theorem word_cons (v : UInt8) {bytes : List UInt8} (h : bytes.length ≤ 3) :
    word (v :: bytes) = v.toUInt32 ^^^ .ofNat (256 * littleEndian bytes) := by
  have hlt : littleEndian (v :: bytes) < 2 ^ 32 :=
    littleEndian_lt_word (Nat.succ_le_succ h)
  rw [littleEndian_cons] at hlt
  rw [word, littleEndian_cons, ← UInt32.toNat_inj, UInt32.toNat_xor, UInt32.toNat_ofNat',
    UInt32.toNat_ofNat', Nat.mod_eq_of_lt hlt, Nat.mod_eq_of_lt (by omega), ← xor_shifted]
  rfl

/-- **Up to four bytes are taken in like one word**, after which comes a division by as many bytes.
The induction is on the bytes; what is left of the word after the first byte is its upper part. -/
theorem foldl_feed_eq {bytes : List UInt8} (h : bytes.length ≤ 4) (r : UInt32) :
    bytes.foldl feed r = divideByte^[bytes.length] (r ^^^ word bytes) := by
  induction bytes generalizing r with
  | nil => exact UInt32.xor_zero.symm
  | cons v bytes ih =>
    have hlength : bytes.length ≤ 3 := Nat.le_of_succ_le_succ h
    have hlt : littleEndian (v :: bytes) < 2 ^ 32 := littleEndian_lt_word h
    rw [littleEndian_cons] at hlt
    have hupper : divideByte (.ofNat (256 * littleEndian bytes)) = word bytes :=
      divideByte_shifted (by omega)
    rw [List.foldl_cons, ih (Nat.le_succ_of_le hlength), feed, ← hupper, ← divideByte_xor,
      UInt32.xor_assoc, ← word_cons v hlength]
    rfl

theorem word_injective {bytes bytes' : List UInt8} (hlength : bytes.length = bytes'.length)
    (h : bytes.length ≤ 4) (hword : word bytes = word bytes') : bytes = bytes' := by
  apply littleEndian_inj hlength
  rw [word, word, ← UInt32.toNat_inj, UInt32.toNat_ofNat', UInt32.toNat_ofNat',
    Nat.mod_eq_of_lt (littleEndian_lt_word h),
    Nat.mod_eq_of_lt (littleEndian_lt_word (hlength ▸ h))] at hword
  exact hword

/-- Up to four bytes can be told from others by the remainder that they leave. -/
theorem foldl_feed_ne {bytes bytes' : List UInt8} (hlength : bytes.length = bytes'.length)
    (h : bytes.length ≤ 4) (hne : bytes ≠ bytes') (r : UInt32) :
    bytes.foldl feed r ≠ bytes'.foldl feed r := by
  intro hfed
  rw [foldl_feed_eq h, foldl_feed_eq (hlength ▸ h), ← hlength] at hfed
  have hword := divideByte_injective.iterate bytes.length hfed
  exact hne (word_injective hlength h ((UInt32.xor_right_inj r).1 hword))

/-- Remainders that differ still differ after bytes that both messages share. -/
theorem foldl_feed_injective (bytes : List UInt8) :
    Function.Injective fun r => bytes.foldl feed r := by
  induction bytes with
  | nil => exact fun _ _ h => h
  | cons v bytes ih =>
    intro r r' h
    exact (UInt32.xor_left_inj _).1 (divideByte_injective (ih h))

/-! ### Messages -/

/-- **A change within four bytes in a row is noticed.** -/
theorem checksum_ne_of_burst {m m' : Array UInt8} (hsize : m.size = m'.size) (hne : m ≠ m')
    {k : Nat} (hwindow : ∀ i, m[i]? ≠ m'[i]? → k ≤ i ∧ i < k + 4) : checksum m ≠ checksum m' := by
  -- Both messages are what they share before the change, up to four bytes, and what they share
  -- after it.
  have hparts : ∀ l : List UInt8, l = l.take k ++ ((l.drop k).take 4 ++ l.drop (k + 4)) := by
    intro l
    rw [← List.drop_drop, List.take_append_drop, List.take_append_drop]
  have hbefore : m.toList.take k = m'.toList.take k := by
    apply List.ext_getElem?
    intro i
    rw [List.getElem?_take, List.getElem?_take, Array.getElem?_toList, Array.getElem?_toList]
    split
    · next hi => exact Classical.byContradiction fun h => absurd (hwindow i h).1 (Nat.not_le.2 hi)
    · rfl
  have hafter : m.toList.drop (k + 4) = m'.toList.drop (k + 4) := by
    apply List.ext_getElem?
    intro i
    rw [List.getElem?_drop, List.getElem?_drop, Array.getElem?_toList, Array.getElem?_toList]
    exact Classical.byContradiction fun h =>
      absurd (hwindow _ h).2 (Nat.not_lt.2 (Nat.le_add_right _ _))
  have hmiddle : (m.toList.drop k).take 4 ≠ (m'.toList.drop k).take 4 := by
    intro h
    apply hne
    rw [← Array.toList_inj, hparts m.toList, hparts m'.toList, hbefore, h, hafter]
  have hlength : ((m.toList.drop k).take 4).length = ((m'.toList.drop k).take 4).length := by
    simp only [List.length_take, List.length_drop, Array.length_toList, hsize]
  intro hsum
  have hfed : m.toList.foldl feed start = m'.toList.foldl feed start := by
    rw [checksum, checksum, finish, finish, UInt32.not_inj, feedAll, feedAll] at hsum
    rwa [Array.foldl_toList, Array.foldl_toList]
  rw [hparts m.toList, hparts m'.toList, hbefore, hafter] at hfed
  simp only [List.foldl_append] at hfed
  exact foldl_feed_ne hlength (List.length_take_le 4 _) hmiddle _ (foldl_feed_injective _ hfed)

/-! ### Messages in pieces -/

/-- A device that takes a message piece by piece and then gives its check value. -/
structure Accumulator where
  /-- What it keeps from one piece to the next. -/
  State : Type
  /-- What it keeps before the first piece. -/
  start : State
  /-- Takes a piece. -/
  take : State → Array UInt8 → State
  /-- The check value of what was taken. -/
  value : State → UInt32

namespace Accumulator

/-- The device gives the check value of a piece, and two pieces in turn count as one. -/
structure Computes (a : Accumulator) : Prop where
  value_take : ∀ m, a.value (a.take a.start m) = checksum m
  value_take_take : ∀ m m',
    a.value (a.take (a.take a.start m) m') = a.value (a.take a.start (m ++ m'))

/-- The device that keeps the remainder. -/
def remainder : Accumulator := ⟨UInt32, Crc32.start, feedAll, finish⟩

theorem computes_remainder : remainder.Computes where
  value_take := fun _ => rfl
  value_take_take := fun m m' => congrArg finish (feedAll_append Crc32.start m m').symm

end Accumulator

end Nes.Crc32
