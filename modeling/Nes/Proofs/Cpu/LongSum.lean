import Nes.Proofs.Cpu.Routine

/-!
# Sums of numbers of many bytes

The processor adds bytes.  A longer sum is put together by a routine that goes through the bytes of
both numbers from the lowest to the highest: it loads one, adds the other and stores the result, and
the carry is what one such column leaves to the next.  Loads and stores let it alone.

The flags of a longer sum are those that its highest byte leaves, but they tell about the whole
number: the carry that it has not enough bytes, the negative flag its sign, and the overflow that
the sum of the signed numbers has no representation.  This is carried from the lowest byte upwards,
since a lower byte counts without a sign.

A difference is the sum with the complement, byte by byte, so that all of this holds of differences
too.

## Main definitions

* `signedNumber`, `InSignedRange`: two's complement with a number of bytes.
* `Registers.Sums`: the flags of a sum.
* `Column`: the cells of one byte of a sum, and the actions for it.

## Main statements

* `Registers.sums_addCarry`: the sum of two bytes.
* `Registers.Sums.cons`: a sum goes on with the carry that its lowest byte leaves.
* `Column.run_actions`, `Column.run_routine`: one column, and all of them.
* `Cpu.long_sum_and_difference`: sums and differences.
-/

namespace Nes

/-! ### Signed numbers -/

/-- The number in two's complement whose `n` bytes make up the number `x`. -/
def signedNumber (n x : Nat) : Int := if 2 * x < 256 ^ n then x else x - 256 ^ n

/-- A number has a representation in two's complement with `n` bytes. -/
def InSignedRange (n : Nat) (s : Int) : Prop := -(256 ^ n / 2) ≤ s ∧ s < 256 ^ n / 2

instance (n : Nat) (s : Int) : Decidable (InSignedRange n s) := inferInstanceAs (Decidable (_ ∧ _))

section Half

variable {n half : Nat} (hhalf : 256 ^ n = 2 * half)

include hhalf

theorem signedNumber_eq (x : Nat) :
    signedNumber n x = if x < half then (x : Int) else x - 2 * half := by
  have hpow : (256 : Int) ^ n = 2 * half := by exact_mod_cast hhalf
  rw [signedNumber, hhalf, hpow]
  exact if_congr (by omega) rfl rfl

/-- The lowest byte counts without a sign. -/
theorem signedNumber_cons {x₀ : Nat} (hx₀ : x₀ < 256) (x : Nat) :
    signedNumber (n + 1) (x₀ + 256 * x) = x₀ + 256 * signedNumber n x := by
  have hhalf' : 256 ^ (n + 1) = 2 * (256 * half) := by omega
  rw [signedNumber_eq hhalf, signedNumber_eq hhalf']
  split <;> split <;> omega

theorem inSignedRange_iff (s : Int) : InSignedRange n s ↔ -half ≤ s ∧ s < half := by
  have hpow : (256 : Int) ^ n = 2 * half := by exact_mod_cast hhalf
  rw [InSignedRange, hpow]
  omega

/-- The complement of a number, byte by byte, is its negative less one. -/
theorem signedNumber_complement {y y' : Nat} (h : y + y' + 1 = 256 ^ n) :
    signedNumber n y' = -1 - signedNumber n y := by
  rw [signedNumber_eq hhalf, signedNumber_eq hhalf]
  split <;> split <;> omega

end Half

/-! ### Flags of a sum -/

namespace Registers

/-- A number of `n` bytes and the flags are those of the sum of two such numbers and a carry. -/
structure Sums (r : Registers) (n x y : Nat) (carry : Bool) (sum : Nat) : Prop where
  total : sum + 256 ^ n * (r.isSet Flag.carry).toNat = x + y + carry.toNat
  overflow : r.isSet Flag.overflow ↔
    ¬InSignedRange n (signedNumber n x + signedNumber n y + carry.toNat)
  negative : r.isSet Flag.negative ↔ 256 ^ n ≤ 2 * sum

/-- The sum depends on three flags only. -/
theorem Sums.congr {r r' : Registers} {n x y sum : Nat} {carry : Bool} (h : r.Sums n x y carry sum)
    (hkeep : Keeps [.pc] r r') : r'.Sums n x y carry sum := by
  have hcarry : r'.isSet Flag.carry = r.isSet Flag.carry := hkeep .carry (by decide)
  have hoverflow : r'.isSet Flag.overflow = r.isSet Flag.overflow := hkeep .overflow (by decide)
  have hnegative : r'.isSet Flag.negative = r.isSet Flag.negative := hkeep .negative (by decide)
  exact ⟨hcarry ▸ h.total, hoverflow ▸ h.overflow, hnegative ▸ h.negative⟩

/-! ### Two bytes -/

/-- The sum of the accumulator, a byte and the carry, as a word. -/
def wordSum (r : Registers) (v : UInt8) : UInt16 :=
  r.a.toUInt16 + v.toUInt16 + (r.isSet Flag.carry).toUInt16

variable (r : Registers) (v : UInt8)

/-- The word does not wrap around. -/
theorem toNat_wordSum :
    (r.wordSum v).toNat = r.a.toNat + v.toNat + (r.isSet Flag.carry).toNat := by
  have hbool : ∀ b : Bool, b.toUInt16.toNat = b.toNat := by decide
  have hr := r.a.toNat_lt
  have hv := v.toNat_lt
  have hc := (r.isSet Flag.carry).toNat_lt
  rw [wordSum, UInt16.toNat_add, UInt16.toNat_add, UInt8.toNat_toUInt16, UInt8.toNat_toUInt16,
    hbool]
  omega

theorem toNat_a_addCarry : (r.addCarry v).a.toNat = (r.wordSum v).toNat % 256 :=
  UInt16.toNat_toUInt8 _

theorem isSet_carry_addCarry :
    (r.addCarry v).isSet Flag.carry = decide (255 < (r.wordSum v).toNat) := by
  have hkept : (r.addCarry v).isSet Flag.carry = Registers.isSet _ Flag.carry :=
    keeps_loadA _ _ .carry (by decide)
  rw [hkept, isSet_assign_of_disjoint (by decide), isSet_assign_self (by decide)]
  exact decide_eq_decide.2 UInt16.lt_iff_toNat_lt

/-- The highest bits of a byte and of its complement. -/
theorem testBit_seven : ∀ v : UInt8, v.toNat.testBit 7 = decide (128 ≤ v.toNat) ∧
    (~~~v).toNat.testBit 7 = !v.toNat.testBit 7 := by
  apply forall_byte
  decide +kernel

/-- Both summands have the sign that the sum has not. -/
theorem isSet_overflow_addCarry : (r.addCarry v).isSet Flag.overflow ↔
    (128 ≤ r.a.toNat ↔ 128 ≤ v.toNat) ∧ ¬(128 ≤ r.a.toNat ↔ 128 ≤ (r.addCarry v).a.toNat) := by
  have hkept : (r.addCarry v).isSet Flag.overflow = Registers.isSet _ Flag.overflow :=
    keeps_loadA _ _ .overflow (by decide)
  rw [hkept, isSet_assign_self (by decide), (and_eq_testBit _).1, UInt8.toNat_and,
    Nat.testBit_and, (testBit_seven _).2, UInt8.toNat_xor, UInt8.toNat_xor, Nat.testBit_xor,
    Nat.testBit_xor, (testBit_seven _).1, (testBit_seven _).1, (testBit_seven _).1,
    Bool.and_eq_true, Bool.not_eq_true', ← Bool.not_eq_true, Bool.xor_iff_ne, Bool.xor_iff_ne,
    not_ne_iff, ne_eq, decide_eq_decide, decide_eq_decide]
  exact Iff.rfl

theorem isSet_negative_addCarry :
    (r.addCarry v).isSet Flag.negative ↔ 128 ≤ (r.addCarry v).a.toNat := by
  have hnegative : (r.addCarry v).isSet Flag.negative = (r.addCarry v).a.toNat.testBit 7 :=
    (describes_updateZN _ _).2
  rw [hnegative, (testBit_seven _).1, decide_eq_true_iff]

/-- **Adding two bytes and the carry.** -/
theorem sums_addCarry :
    (r.addCarry v).Sums 1 r.a.toNat v.toNat (r.isSet Flag.carry) (r.addCarry v).a.toNat := by
  have hhalf : 256 ^ 1 = 2 * 128 := rfl
  have hsum := r.toNat_wordSum v
  have ha := r.toNat_a_addCarry v
  have hr := r.a.toNat_lt
  have hv := v.toNat_lt
  have hc := (r.isSet Flag.carry).toNat_lt
  refine ⟨?_, ?_, ?_⟩
  · rw [ha, isSet_carry_addCarry]
    by_cases hover : 255 < (r.wordSum v).toNat
    · rw [decide_eq_true hover, Bool.toNat_true]
      omega
    · rw [decide_eq_false hover, Bool.toNat_false]
      omega
  · rw [isSet_overflow_addCarry, inSignedRange_iff hhalf, signedNumber_eq hhalf,
      signedNumber_eq hhalf, ha]
    split <;> split <;> omega
  · rw [isSet_negative_addCarry]
    omega

/-! ### From the low end to the high end -/

/-- **A sum goes on with the carry that its lowest byte leaves.** -/
theorem Sums.cons {r r' : Registers} {n x y sum x₀ y₀ sum₀ : Nat} {carry : Bool} (hn : 0 < n)
    (hx₀ : x₀ < 256) (hy₀ : y₀ < 256) (hsum₀ : sum₀ < 256) (h₀ : r.Sums 1 x₀ y₀ carry sum₀)
    (h : r'.Sums n x y (r.isSet Flag.carry) sum) :
    r'.Sums (n + 1) (x₀ + 256 * x) (y₀ + 256 * y) carry (sum₀ + 256 * sum) := by
  obtain ⟨half, hhalf⟩ := exists_half hn
  have hhalf' : 256 ^ (n + 1) = 2 * (256 * half) := by omega
  have htotal₀ := h₀.total
  have htotal := h.total
  rw [Nat.pow_one] at htotal₀
  refine ⟨?_, ?_, ?_⟩
  · rw [Nat.pow_succ, Nat.mul_right_comm]
    omega
  · rw [h.overflow, inSignedRange_iff hhalf, inSignedRange_iff hhalf', signedNumber_cons hhalf hx₀,
      signedNumber_cons hhalf hy₀]
    omega
  · rw [h.negative]
    omega

/-! ### Sums and differences -/

section Results

variable {r : Registers} {n x y z : Nat} {carry : Bool} (hn : 0 < n) (hz : z < 256 ^ n)

include hz

/-- The sum, and the carry that tells that it has not enough bytes. -/
theorem Sums.sum_eq (h : r.Sums n x y carry z) : z = (x + y + carry.toNat) % 256 ^ n ∧
    (r.isSet Flag.carry ↔ 256 ^ n ≤ x + y + carry.toNat) :=
  eq_mod_of_carry hz h.total

include hn

/-- The highest bit of the result is in the negative flag. -/
theorem Sums.negative_eq (h : r.Sums n x y carry z) :
    r.isSet Flag.negative = z.testBit (8 * n - 1) := by
  rw [testBit_top hn hz, Bool.eq_iff_iff, decide_eq_true_iff]
  exact h.negative

variable {y' : Nat} (hy' : y + y' + 1 = 256 ^ n)

include hy'

/-- Adding the complement subtracts, and one less if the carry is set. -/
theorem Sums.difference_eq (h : r.Sums n x y' carry z) :
    (z : Int) = (x - y - (!carry).toNat) % 256 ^ n ∧
      (r.isSet Flag.carry ↔ y + (!carry).toNat ≤ x) ∧
      (r.isSet Flag.overflow ↔
        ¬InSignedRange n (signedNumber n x - signedNumber n y - (!carry).toNat)) := by
  obtain ⟨half, hhalf⟩ := exists_half hn
  obtain ⟨hsum, hcarry⟩ := h.sum_eq hz
  have hborrow : (!carry).toNat + carry.toNat = 1 := by cases carry <;> rfl
  have hpow : (256 : Int) ^ n = (256 ^ n : Nat) := by push_cast; rfl
  refine ⟨?_, ?_, ?_⟩
  · have hcomplement : (x : Int) + y' + carry.toNat = x - y - (!carry).toNat + (256 ^ n : Nat) := by
      omega
    rw [hpow, hsum, Int.natCast_mod, Int.natCast_add, Int.natCast_add, hcomplement,
      Int.add_emod_right]
  · rw [hcarry]
    omega
  · rw [h.overflow, signedNumber_complement hhalf hy', inSignedRange_iff hhalf,
      inSignedRange_iff hhalf]
    omega

/-- Without a borrow, negative and overflow flag together compare signed numbers. -/
theorem Sums.lt_iff (h : r.Sums n x y' true z) (hx : x < 256 ^ n) :
    (r.isSet Flag.negative != r.isSet Flag.overflow) ↔ signedNumber n x < signedNumber n y := by
  obtain ⟨half, hhalf⟩ := exists_half hn
  have htotal := h.total
  rw [bne_iff_ne, ne_eq, Bool.eq_iff_iff, h.negative, h.overflow, inSignedRange_iff hhalf,
    signedNumber_complement hhalf hy', signedNumber_eq hhalf, signedNumber_eq hhalf,
    Bool.toNat_true]
  cases hc : r.isSet Flag.carry with
  | true =>
    rw [hc, Bool.toNat_true] at htotal
    split <;> split <;> omega
  | false =>
    rw [hc, Bool.toNat_false, Bool.toNat_true] at htotal
    split <;> split <;> omega

end Results

end Registers

/-! ### Routines that add and subtract -/

/-- The cells of one byte of a sum: of either operand and of the result. -/
structure Column where
  /-- The byte that is loaded. -/
  x : UInt16
  /-- The byte that is added or subtracted. -/
  y : UInt16
  /-- Where the result is stored. -/
  result : UInt16

namespace Column

open Cpu (Action CarriesOut)

/-- The actions for one byte: load, add or subtract, store. -/
def actions (m : Mnemonic) (c : Column) : List Action :=
  [⟨.lda, some c.x⟩, ⟨m, some c.y⟩, ⟨.sta, some c.result⟩]

/-- Storing the result of a column leaves another column alone. -/
def Spares (c d : Column) : Prop := c.result ≠ d.x ∧ c.result ≠ d.y ∧ c.result ≠ d.result

instance (c d : Column) : Decidable (c.Spares d) := inferInstanceAs (Decidable (_ ∧ _ ∧ _))

variable {β : Type} [Bus β] {P : UInt16 → Prop}

/-- The cells of a column are in memory. -/
structure InMemory (P : UInt16 → Prop) (c : Column) : Prop where
  x : P c.x
  y : P c.y
  result : P c.result

/-- The number that is added: the second bytes of the columns, each one changed by `g`. -/
def addend (g : UInt8 → UInt8) (bus : β) (columns : List Column) : Nat :=
  littleEndian (columns.map fun c => g (Bus.peek bus c.y))

@[simp] theorem addend_cons (g : UInt8 → UInt8) (bus : β) (c : Column) (columns : List Column) :
    addend g bus (c :: columns) = (g (Bus.peek bus c.y)).toNat + 256 * addend g bus columns :=
  littleEndian_cons _ _

theorem addend_congr {g : UInt8 → UInt8} {columns : List Column} {bus bus' : β}
    (h : ∀ c ∈ columns, Bus.peek bus c.y = Bus.peek bus' c.y) :
    addend g bus columns = addend g bus' columns := by
  rw [addend, addend, List.map_congr_left fun c hc => by rw [h c hc]]

theorem addend_id (bus : β) (columns : List Column) :
    addend (fun v => v) bus columns = Bus.number bus (columns.map y) := by
  rw [addend, Bus.number, List.map_map]
  rfl

/-- The complement of a number, byte by byte. -/
theorem addend_complement (bus : β) (columns : List Column) :
    Bus.number bus (columns.map y) + addend (fun v => v ^^^ 0xFF) bus columns + 1 =
      256 ^ columns.length := by
  have hbyte : ∀ v : UInt8, v.toNat + (v ^^^ 0xFF).toNat = 255 := by
    apply forall_byte
    decide +kernel
  induction columns with
  | nil => rfl
  | cons c columns ih =>
    have hc := hbyte (Bus.peek bus c.y)
    rw [List.map_cons, Bus.number_cons, addend_cons, List.length_cons, Nat.pow_succ]
    omega

theorem length_routine (m : Mnemonic) (columns : List Column) :
    (columns.flatMap (actions m)).length = 3 * columns.length := by
  induction columns with
  | nil => rfl
  | cons c columns ih =>
    rw [List.flatMap_cons, List.length_append, ih, List.length_cons, actions]
    simp only [List.length_cons, List.length_nil]
    omega

/-- A routine that is written in memory is carried out, if it stores no result in itself. -/
theorem carriesOut_routine (hram : Bus.RamAt β P) {columns : List Column}
    (hmem : ∀ c ∈ columns, c.InMemory P) {cpu : Cpu} {bus : β} (hs : cpu.Starts)
    (hn : cpu.nextInterrupt? = none) {m : Mnemonic} (hm : m = .adc ∨ m = .sbc)
    (h : Bus.HasCode bus cpu.registers.pc (columns.flatMap (actions m)))
    (hcells : ∀ cell ∈ codeCells cpu.registers.pc (3 * columns.length),
      P cell ∧ cell ∉ columns.map result) :
    CarriesOut (columns.flatMap (actions m)) cpu bus := by
  rw [← length_routine m] at hcells
  refine Cpu.carriesOut_of_hasCode hram hs hn h (fun cell hcell => (hcells cell hcell).1) ?_
  intro a ha
  obtain ⟨c, hc, hac⟩ := List.mem_flatMap.1 ha
  have hresult : c.result ∉ codeCells cpu.registers.pc (columns.flatMap (actions m)).length :=
    fun hcell => (hcells _ hcell).2 (List.mem_map_of_mem hc)
  have hc := hmem c hc
  simp only [actions, List.mem_cons, List.not_mem_nil, or_false] at hac
  rcases hac with rfl | rfl | rfl
  · exact .reads (by decide) hc.x
  · rcases hm with rfl | rfl <;> exact .reads (by decide) hc.y
  · exact .writes (by decide) hc.result hresult

variable (hram : Bus.RamAt β P) {m : Mnemonic} {g : UInt8 → UInt8}
  (hm : m.effect = .read fun r v => r.addCarry (g v))

include hram hm

/-- **One column**: the sum of two bytes and the carry is stored. -/
theorem run_actions {c : Column} (hc : c.InMemory P) {l : List Action} {cpu : Cpu} {bus : β}
    (h : CarriesOut (c.actions m ++ l) cpu bus) :
    let o := (Cpu.steps 3 cpu).run bus
    o.value.registers.Sums 1 (Bus.peek bus c.x).toNat (g (Bus.peek bus c.y)).toNat
      (cpu.registers.isSet Flag.carry) (Bus.peek o.bus c.result).toNat ∧
    (∀ {other}, P other → other ≠ c.result → Bus.peek o.bus other = Bus.peek bus other) ∧
    CarriesOut l o.value o.bus := by
  obtain ⟨hs₁, hn₁, ha₁, hs₂, hn₂, ha₂, hs₃, hn₃, ha₃, hrest⟩ := h
  have hloaded := Cpu.step_of_read hram hs₁ hn₁ ha₁ hc.x (.inl rfl)
  have hadded := Cpu.step_of_read hram hs₂ hn₂ ha₂ hc.y (.inl hm)
  have hstored := Cpu.step_of_store hram hs₃ hn₃ ha₃ hc.result rfl
  intro o
  simp only [o, Cpu.value_steps_succ, Cpu.value_steps_zero, Cpu.bus_steps_succ,
    Cpu.bus_steps_zero]
  -- What the sum depends on has not changed when the addition comes.
  have hy : Bus.peek (cpu.step.run bus).bus c.y = Bus.peek bus c.y := hloaded.2 hc.y
  set loaded := (cpu.step.run bus).value.cpu
  set bus₁ := (cpu.step.run bus).bus
  have ha : (loaded.prepared bus₁).a = Bus.peek bus c.x := by
    rw [Cpu.a_prepared, hloaded.1]
    rfl
  have hcarry : (loaded.prepared bus₁).isSet Flag.carry = cpu.registers.isSet Flag.carry := by
    rw [Cpu.isSet_prepared _ _ (by decide), hloaded.1]
    exact (cpu.keeps_prepared bus .carry (by decide)).trans
      (Registers.keeps_loadA _ _ .carry (by decide))
  -- The addition, from the registers in which it is performed
  have hsum := Registers.sums_addCarry (loaded.prepared bus₁) (g (Bus.peek bus c.y))
  rw [ha, hcarry] at hsum
  set summed := (loaded.step.run bus₁).value.cpu
  set bus₂ := (loaded.step.run bus₁).bus
  have hkept := summed.keeps_prepared bus₂
  rw [hadded.1, hy] at hkept
  -- The store keeps the flags, so they are those of the sum.
  refine ⟨?_, fun hother hne => ?_, hrest⟩
  · rw [hstored.2 hc.result, if_pos rfl, hstored.1, Cpu.a_prepared, hadded.1, hy]
    exact hsum.congr hkept
  · rw [hstored.2 hother, if_neg hne, hadded.2 hother, hloaded.2 hother]

/-- **All columns**, from the lowest byte to the highest. -/
theorem run_routine {columns : List Column} (hne : columns ≠ [])
    (hmem : ∀ c ∈ columns, c.InMemory P) (hspares : columns.Pairwise Spares) {cpu : Cpu} {bus : β}
    (h : CarriesOut (columns.flatMap (actions m)) cpu bus) :
    let o := (Cpu.steps (3 * columns.length) cpu).run bus
    o.value.registers.Sums columns.length (Bus.number bus (columns.map x)) (addend g bus columns)
      (cpu.registers.isSet Flag.carry) (Bus.number o.bus (columns.map result)) ∧
    ∀ {other}, P other → other ∉ columns.map result →
      Bus.peek o.bus other = Bus.peek bus other := by
  -- By induction on the columns: the first is run, and its carry goes into the others.
  induction columns generalizing cpu bus with
  | nil => exact absurd rfl hne
  | cons c columns ih =>
    obtain ⟨hfirst, hframe, hrest⟩ := run_actions hram hm (hmem c (.head _)) h
    have hmem' : ∀ d ∈ columns, d.InMemory P := fun d hd => hmem d (.tail _ hd)
    obtain ⟨hspare, hspares'⟩ := List.pairwise_cons.1 hspares
    have hlength : 3 * (c :: columns).length = 3 + 3 * columns.length := by
      rw [List.length_cons]
      omega
    rw [hlength]
    dsimp only
    rw [Cpu.value_steps_add, Cpu.bus_steps_add]
    set mid := (Cpu.steps 3 cpu).run bus
    simp only [List.map_cons, Bus.number_cons, addend_cons, List.length_cons, List.mem_cons,
      not_or]
    -- One column is a sum by itself; there is no sum of no columns.
    by_cases hnil : columns = []
    · subst hnil
      exact ⟨hfirst, fun hother hne => hframe hother hne.1⟩
    · obtain ⟨hsum, hkept⟩ := ih hnil hmem' hspares' hrest
      -- The first result lies in none of the cells that the other columns read or write.
      have hx : Bus.number mid.bus (columns.map x) = Bus.number bus (columns.map x) :=
        Bus.number_congr fun addr haddr => by
          obtain ⟨d, hd, rfl⟩ := List.mem_map.1 haddr
          exact hframe (hmem' d hd).x (hspare d hd).1.symm
      have hy : addend g mid.bus columns = addend g bus columns :=
        addend_congr fun d hd => hframe (hmem' d hd).y (hspare d hd).2.1.symm
      have hresult : c.result ∉ columns.map result := fun hmap => by
        obtain ⟨d, hd, heq⟩ := List.mem_map.1 hmap
        exact (hspare d hd).2.2 heq.symm
      rw [hx, hy] at hsum
      rw [hkept (hmem c (.head _)).result hresult]
      refine ⟨hfirst.cons (List.length_pos_iff.2 hnil) (UInt8.toNat_lt _) (UInt8.toNat_lt _)
        (UInt8.toNat_lt _) hsum, fun hother hne => ?_⟩
      rw [hkept hother hne.2, hframe hother hne.1]

end Column

namespace Cpu

/-- **Sums and differences of numbers of many bytes.**  Two numbers of the same length lie in memory
with the lowest byte first, and a routine adds or subtracts their bytes in order, through the
carry.  No result is stored in a cell that is still to be read.

* The sum is stored modulo the numbers of that length; the carry tells that it has not enough bytes
  and the overflow that, as a signed number, it has not.
* The carry of a difference tells that no borrow was needed, and the overflow is that of the signed
  difference.  If there was no borrow at the beginning, the carry compares the two numbers, and the
  negative and the overflow flag together compare them as signed numbers.
* The negative flag is the highest bit of the result.

Such routines are carried out if they are written in memory, wherever they lie. -/
theorem long_sum_and_difference {β : Type} [Bus β] {P : UInt16 → Prop} (hram : Bus.RamAt β P)
    {columns : List Column} (hne : columns ≠ []) (hmem : ∀ c ∈ columns, c.InMemory P)
    (hspares : columns.Pairwise Column.Spares) (cpu : Cpu) (bus : β) :
    let n := columns.length
    let routine := fun m => columns.flatMap (Column.actions m)
    let x := Bus.number bus (columns.map Column.x)
    let y := Bus.number bus (columns.map Column.y)
    let carry := cpu.registers.isSet Flag.carry
    let borrow := (!carry).toNat
    let o := (steps (3 * n) cpu).run bus
    let r := o.value.registers
    let z := Bus.number o.bus (columns.map Column.result)
    (CarriesOut (routine .adc) cpu bus →
      z = (x + y + carry.toNat) % 256 ^ n ∧
      (r.isSet Flag.carry ↔ 256 ^ n ≤ x + y + carry.toNat) ∧
      (r.isSet Flag.overflow ↔
        ¬InSignedRange n (signedNumber n x + signedNumber n y + carry.toNat)) ∧
      r.isSet Flag.negative = z.testBit (8 * n - 1)) ∧
    (CarriesOut (routine .sbc) cpu bus →
      (z : Int) = (x - y - borrow) % 256 ^ n ∧
      (r.isSet Flag.carry ↔ y + borrow ≤ x) ∧
      (r.isSet Flag.overflow ↔ ¬InSignedRange n (signedNumber n x - signedNumber n y - borrow)) ∧
      r.isSet Flag.negative = z.testBit (8 * n - 1) ∧
      (carry = true → (r.isSet Flag.carry ↔ y ≤ x) ∧
        ((r.isSet Flag.negative != r.isSet Flag.overflow) ↔
          signedNumber n x < signedNumber n y))) ∧
    (cpu.Starts → cpu.nextInterrupt? = none → ∀ m, m = .adc ∨ m = .sbc →
      Bus.HasCode bus cpu.registers.pc (routine m) →
      (∀ cell ∈ codeCells cpu.registers.pc (3 * n), P cell ∧ cell ∉ columns.map Column.result) →
      CarriesOut (routine m) cpu bus) := by
  intro n routine x y carry borrow o r z
  -- Numbers of that many bytes are in range, whatever the routine has done.
  have hn : 0 < n := List.length_pos_iff.2 hne
  have hlength : ∀ f : Column → UInt16, (columns.map f).length = n := fun f => List.length_map _
  have hx : x < 256 ^ n := hlength Column.x ▸ Bus.number_lt bus (columns.map Column.x)
  have hz : z < 256 ^ n := hlength Column.result ▸ Bus.number_lt o.bus (columns.map Column.result)
  refine ⟨fun h => ?_, fun h => ?_, fun hs hn m hm h hcells => ?_⟩
  · -- A sum adds the bytes as they are.
    have hsums := (Column.run_routine hram (m := .adc) (g := fun v => v) rfl hne hmem hspares h).1
    rw [Column.addend_id] at hsums
    obtain ⟨hsum, hcarry⟩ := hsums.sum_eq hz
    exact ⟨hsum, hcarry, hsums.overflow, hsums.negative_eq hn hz⟩
  · -- A difference adds the complements, and so a borrow is a carry that is missing.
    have hsums := (Column.run_routine hram (m := .sbc) (g := fun v => v ^^^ 0xFF) rfl hne hmem
      hspares h).1
    have hy := Column.addend_complement bus columns
    obtain ⟨hdifference, hcarry, hoverflow⟩ := hsums.difference_eq hn hz hy
    refine ⟨hdifference, hcarry, hoverflow, hsums.negative_eq hn hz, fun hset => ⟨?_, ?_⟩⟩
    · have hborrow : (!carry).toNat = 0 := by rw [hset]; rfl
      rw [hcarry, hborrow, Nat.add_zero]
    · -- Without a borrow at the beginning the flags are those of a comparison.
      have hset' : cpu.registers.isSet Flag.carry = true := hset
      rw [hset'] at hsums
      exact hsums.lt_iff hn hz hy hx
  · exact Column.carriesOut_routine hram hmem hs hn hm h hcells

/-- Two words are added; the sum leaves the signed range, and the carry of the low bytes is added to
the high ones. -/
theorem long_sum_and_difference_of_words : ∃ (mem : FlatMemory) (cpu : Cpu),
    let columns : List Column := [⟨0x10, 0x12, 0x14⟩, ⟨0x11, 0x13, 0x15⟩]
    let o := (steps 6 cpu).run mem
    (Bus.RamAt FlatMemory (fun _ => True) ∧ columns ≠ [] ∧
      (∀ c ∈ columns, c.InMemory fun _ => True) ∧ columns.Pairwise Column.Spares) ∧
    Bus.number mem [0x10, 0x11] = 0x7FFF ∧ Bus.number mem [0x12, 0x13] = 0x0001 ∧
    Bus.number o.bus [0x14, 0x15] = 0x8000 ∧
    ¬o.value.registers.isSet Flag.carry ∧ o.value.registers.isSet Flag.overflow ∧
    o.value.registers.isSet Flag.negative := by
  -- Two words at `0x10` and `0x12`, and the routine from `0x8000` on
  set bytes : UInt16 → UInt8 := fun addr => (List.lookup addr
    [(0x10, 0xFF), (0x11, 0x7F), (0x12, 0x01), (0x13, 0x00),
      (0x8000, 0xAD), (0x8001, 0x10), (0x8002, 0x00), (0x8003, 0x6D), (0x8004, 0x12),
      (0x8005, 0x00), (0x8006, 0x8D), (0x8007, 0x14), (0x8008, 0x00), (0x8009, 0xAD),
      (0x800A, 0x11), (0x800B, 0x00), (0x800C, 0x6D), (0x800D, 0x13), (0x800E, 0x00),
      (0x800F, 0x8D), (0x8010, 0x15), (0x8011, 0x00)]).getD 0
  obtain ⟨mem, hmem⟩ := FlatMemory.exists_peek bytes
  let cpu : Cpu := { registers := { pc := 0x8000 } }
  have hx : Bus.number mem [0x10, 0x11] = 0x7FFF := by
    simp only [Bus.number_cons, Bus.number_nil, hmem]
    decide
  have hy : Bus.number mem [0x12, 0x13] = 0x0001 := by
    simp only [Bus.number_cons, Bus.number_nil, hmem]
    decide
  have hlda : Instruction.ofOpcode? 0xAD = some ⟨0xAD, .lda, .absolute, 4⟩ := by decide +kernel
  have hadc : Instruction.ofOpcode? 0x6D = some ⟨0x6D, .adc, .absolute, 4⟩ := by decide +kernel
  have hsta : Instruction.ofOpcode? 0x8D = some ⟨0x8D, .sta, .absolute, 4⟩ := by decide +kernel
  have hcode : Bus.HasCode mem 0x8000
      (Column.actions .adc ⟨0x10, 0x12, 0x14⟩ ++ Column.actions .adc ⟨0x11, 0x13, 0x15⟩) := by
    refine ⟨⟨0xAD, 0x10, 4, rfl, hlda, ?_⟩, ⟨0x6D, 0x12, 4, rfl, hadc, ?_⟩,
      ⟨0x8D, 0x14, 4, rfl, hsta, ?_⟩, ⟨0xAD, 0x11, 4, rfl, hlda, ?_⟩,
      ⟨0x6D, 0x13, 4, rfl, hadc, ?_⟩, ⟨0x8D, 0x15, 4, rfl, hsta, ?_⟩, trivial⟩ <;>
    exact Bus.holds_of_all hmem (by decide +kernel)
  have hspares : [Column.mk 0x10 0x12 0x14, ⟨0x11, 0x13, 0x15⟩].Pairwise Column.Spares := by
    decide
  have hcells : ∀ c : Column, c.InMemory fun _ => True := fun _ => ⟨trivial, trivial, trivial⟩
  -- The results are stored outside of the routine.
  have hclear : ((codeCells 0x8000 6).all fun cell => cell ∉ [(0x14 : UInt16), 0x15]) = true := by
    decide
  obtain ⟨hadd, -, hcarries⟩ := long_sum_and_difference FlatMemory.ramAt
    (List.cons_ne_nil _ _) (fun c _ => hcells c) hspares cpu mem
  obtain ⟨hsum, hcarry, hoverflow, hnegative⟩ := hadd
    (hcarries ⟨rfl, rfl⟩ rfl .adc (.inl rfl) hcode fun cell hcell =>
      ⟨trivial, of_decide_eq_true (List.all_eq_true.1 hclear cell hcell)⟩)
  have hset : cpu.registers.isSet Flag.carry = false := by decide
  simp only [List.map_cons, List.map_nil, List.length_cons, List.length_nil, hx, hy, hset]
    at hsum hcarry hoverflow hnegative
  refine ⟨mem, cpu, ⟨FlatMemory.ramAt, List.cons_ne_nil _ _, fun c _ => hcells c, hspares⟩, hx, hy,
    hsum, ?_, ?_, ?_⟩
  · exact fun h => absurd (hcarry.1 h) (by decide)
  · exact hoverflow.2 (by decide)
  · exact hnegative.trans (by rw [hsum]; rfl)

end Cpu

end Nes
