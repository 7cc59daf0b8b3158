import Mathlib.Data.Nat.Digits.Defs
import Nes.Bus.Flat
import Nes.Proofs.Bus.Path

/-!
# Memory in a region of a bus

A region of a bus is memory if its bytes are read without side effects, a byte that is written there
is read back, and nothing else changes a byte of the region: neither a write to another address of
it nor a read anywhere.  All addresses of plain memory are such a region.

A list of addresses of a region holds a number, one byte at each address, the lowest first.

## Main definitions

* `Bus.RamAt`: a region is memory.
* `littleEndian`, `Bus.number`: the number with given bytes, and the number in a list of cells.

## Main statements

* `littleEndian_cons`, `littleEndian_concat`: numbers by their lowest and by their highest byte.
* `FlatMemory.ramAt`: plain memory is memory everywhere.
-/

namespace Nes

namespace Bus

/-- The addresses with the property `P` are memory. -/
structure RamAt (β : Type) [Bus β] (P : UInt16 → Prop) : Prop where
  read_ram : ∀ (bus : β) {addr : UInt16}, P addr → Bus.read bus addr = (Bus.peek bus addr, bus)
  peek_write : ∀ (bus : β) {addr other : UInt16} (value : UInt8), P addr → P other →
    Bus.peek (Bus.write bus addr value) other = if other = addr then value else Bus.peek bus other
  peek_read : ∀ (bus : β) (addr : UInt16) {other : UInt16}, P other →
    Bus.peek (Bus.read bus addr).2 other = Bus.peek bus other

variable {β : Type} [Bus β]

/-- A program changes no byte of memory to which it does not write. -/
theorem RamAt.peek_run {P : UInt16 → Prop} (hram : RamAt β P) {α : Type} {x : BusM α} {bus : β}
    {other : UInt16} (hother : P other)
    (hwrite : ∀ addr v, .write addr v ∈ x.path bus → P addr ∧ other ≠ addr) :
    Bus.peek (x.run bus).bus other = Bus.peek bus other := by
  induction x generalizing bus with
  | done a => rfl
  | read addr next ih =>
    have hrest := ih (Bus.read bus addr).1 fun a v hmem => hwrite a v (List.mem_cons_of_mem _ hmem)
    exact hrest.trans (hram.peek_read bus addr hother)
  | write addr value next ih =>
    obtain ⟨haddr, hne⟩ := hwrite addr value (List.mem_cons_self ..)
    have hrest := ih fun a v hmem => hwrite a v (List.mem_cons_of_mem _ hmem)
    exact hrest.trans ((hram.peek_write bus value haddr hother).trans (if_neg hne))
  | note e next ih => exact ih fun a v hmem => hwrite a v (List.mem_cons_of_mem _ hmem)

end Bus

/-! ### Numbers of many bytes -/

/-- The number with these bytes, the lowest first. -/
def littleEndian (bytes : List UInt8) : Nat := Nat.ofDigits 256 (bytes.map UInt8.toNat)

@[simp] theorem littleEndian_nil : littleEndian [] = 0 := rfl

@[simp] theorem littleEndian_cons (v : UInt8) (bytes : List UInt8) :
    littleEndian (v :: bytes) = v.toNat + 256 * littleEndian bytes := by
  rw [littleEndian, List.map_cons, Nat.ofDigits_cons]
  rfl

/-- The last byte is the highest. -/
theorem littleEndian_concat (bytes : List UInt8) (v : UInt8) :
    littleEndian (bytes ++ [v]) = littleEndian bytes + 256 ^ bytes.length * v.toNat := by
  rw [littleEndian, List.map_append, Nat.ofDigits_append, List.length_map, List.map_singleton,
    Nat.ofDigits_singleton]
  rfl

theorem lt_of_mem_digits (bytes : List UInt8) : ∀ d ∈ bytes.map UInt8.toNat, d < 256 := by
  intro d hd
  obtain ⟨v, -, rfl⟩ := List.mem_map.1 hd
  exact v.toNat_lt

theorem littleEndian_lt (bytes : List UInt8) : littleEndian bytes < 256 ^ bytes.length := by
  have hlt := Nat.ofDigits_lt_base_pow_length (by decide) (lt_of_mem_digits bytes)
  rwa [List.length_map] at hlt

/-- The number and the number of its bytes determine the bytes. -/
theorem littleEndian_inj {bytes bytes' : List UInt8} (hlength : bytes.length = bytes'.length)
    (h : littleEndian bytes = littleEndian bytes') : bytes = bytes' := by
  have hdigits := Nat.ofDigits_inj_of_len_eq (by decide) (by rw [List.length_map, List.length_map,
    hlength]) (lt_of_mem_digits bytes) (lt_of_mem_digits bytes') h
  exact (List.map_inj_right fun _ _ => UInt8.toNat_inj.1).1 hdigits

/-- The highest bit of numbers with at least one byte halves them. -/
theorem exists_half {n : Nat} (hn : 0 < n) : ∃ half, 256 ^ n = 2 * half := by
  obtain ⟨n, rfl⟩ := Nat.exists_eq_succ_of_ne_zero hn.ne'
  exact ⟨256 ^ n * 128, by rw [Nat.pow_succ]; omega⟩

/-- The highest bit of a number of `n` bytes. -/
theorem testBit_top {n x : Nat} (hn : 0 < n) (hx : x < 256 ^ n) :
    x.testBit (8 * n - 1) = decide (256 ^ n ≤ 2 * x) := by
  have hpow : 256 ^ n = 2 ^ (8 * n - 1 + 1) := by
    rw [Nat.sub_add_cancel (by omega), Nat.pow_mul]
  have hdouble : 256 ^ n = 2 * 2 ^ (8 * n - 1) := by rw [hpow, Nat.pow_succ, Nat.mul_comm]
  by_cases h : 256 ^ n ≤ 2 * x
  · rw [decide_eq_true h]
    exact Nat.testBit_of_two_pow_le_and_two_pow_add_one_gt (by omega) (hpow ▸ hx)
  · rw [decide_eq_false h]
    exact Nat.testBit_lt_two_pow (by omega)

/-- What does not fit into the number goes into the carry. -/
theorem eq_mod_of_carry {base z total : Nat} {carry : Bool} (hz : z < base)
    (h : z + base * carry.toNat = total) : z = total % base ∧ (carry ↔ base ≤ total) := by
  subst h
  cases carry with
  | true =>
    rw [Bool.toNat_true, Nat.mul_one, Nat.add_mod_right, Nat.mod_eq_of_lt hz]
    exact ⟨rfl, iff_of_true rfl (Nat.le_add_left _ _)⟩
  | false =>
    rw [Bool.toNat_false, Nat.mul_zero, Nat.add_zero, Nat.mod_eq_of_lt hz]
    exact ⟨rfl, iff_of_false Bool.false_ne_true (Nat.not_le.2 hz)⟩

namespace Bus

variable {β : Type} [Bus β]

/-- The number whose bytes lie in these cells, the lowest first. -/
def number (bus : β) (cells : List UInt16) : Nat := littleEndian (cells.map (Bus.peek bus))

@[simp] theorem number_nil (bus : β) : number bus [] = 0 := rfl

@[simp] theorem number_cons (bus : β) (addr : UInt16) (cells : List UInt16) :
    number bus (addr :: cells) = (Bus.peek bus addr).toNat + 256 * number bus cells :=
  littleEndian_cons _ _

theorem number_lt (bus : β) (cells : List UInt16) : number bus cells < 256 ^ cells.length := by
  have hlt := littleEndian_lt (cells.map (Bus.peek bus))
  rwa [List.length_map] at hlt

/-- The number depends on the bytes in its cells only. -/
theorem number_congr {bus bus' : β} {cells : List UInt16}
    (h : ∀ addr ∈ cells, Bus.peek bus addr = Bus.peek bus' addr) :
    number bus cells = number bus' cells := by
  rw [number, number, List.map_congr_left h]

end Bus

/-- **Plain memory is memory everywhere.** -/
theorem FlatMemory.ramAt : Bus.RamAt FlatMemory fun _ => True where
  read_ram := fun _ _ _ => rfl
  peek_write := fun mem addr other value _ _ => mem.get_set addr other value
  peek_read := fun _ _ _ _ => rfl

/-- Any bytes can be the contents of a plain memory. -/
theorem FlatMemory.exists_peek (f : UInt16 → UInt8) :
    ∃ mem : FlatMemory, ∀ addr, Bus.peek mem addr = f addr := by
  refine ⟨⟨.ofFn fun i => f (UInt16.ofNat i)⟩, fun addr => ?_⟩
  show FlatMemory.get _ addr = f addr
  rw [FlatMemory.get, Vector.getElem_ofFn, UInt16.ofNat_toNat]

end Nes
