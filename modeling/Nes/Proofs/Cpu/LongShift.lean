import Mathlib.Data.List.Nodup
import Mathlib.Tactic.Ring
import Nes.Proofs.Cpu.Routine

/-!
# Shifts of numbers of many bytes

A byte is shifted through the carry: the bit that leaves it goes there, and a rotation takes in the
bit that was there before.  So a number of many bytes is shifted byte by byte, to the left from the
lowest byte to the highest and to the right from the highest to the lowest.  The first operation
shifts or rotates, and all others rotate.

Memory and arithmetic are kept apart.  A routine makes of the bytes in its cells what a function of
lists of bytes makes of them; and of this function both directions keep an equation, in which what
goes in at one end and what comes out at the other count as digits beyond the number.

## Main definitions

* `Mnemonic.shifted`, `Mnemonic.givesOut`: what a shift makes of a byte, and of the carry.
* `Mnemonic.shiftAll`: the same for the bytes of a list, one after the other.
* `Cpu.chain`: the routine.

## Main statements

* `Mnemonic.littleEndian_shiftAll_left`, `Mnemonic.littleEndian_shiftAll_right`: the two equations.
* `Cpu.run_chain`: the routine does what the function does.
* `Cpu.doubled_of_chain`, `Cpu.halved_of_chain`, `Cpu.rotated_back`: the number in the cells.
* `Cpu.long_shifts`: shifts and rotations.
-/

namespace Nes

namespace Mnemonic

/-! ### Single bytes -/

/-- What a shift makes of a byte. -/
def shifted (m : Mnemonic) (carry : Bool) (v : UInt8) : UInt8 :=
  match m with
  | asl => v <<< 1
  | lsr => v >>> 1
  | rol => v <<< 1 ||| carry.toUInt8
  | ror => v >>> 1 ||| carry.toUInt8 <<< 7
  | _ => v

/-- The bit that a shift leaves in the carry. -/
def givesOut (m : Mnemonic) (v : UInt8) : Bool :=
  match m with
  | asl | rol => v &&& 0x80 != 0
  | lsr | ror => v &&& 0x01 != 0
  | _ => false

/-- What a shift takes out of the carry, as a number. -/
def takesIn (m : Mnemonic) (carry : Bool) : Nat :=
  match m with
  | rol | ror => carry.toNat
  | _ => 0

theorem takesIn_le_one (m : Mnemonic) (carry : Bool) : m.takesIn carry ≤ 1 := by
  cases m
  case rol | ror => exact carry.toNat_le
  all_goals exact Nat.zero_le 1

/-- A shift as an operation in place. -/
theorem effect_of_mem_shifters {m : Mnemonic} (h : m ∈ shifters) :
    m.effect = .modify fun r v =>
      (r.assign Flag.carry (m.givesOut v), m.shifted (r.isSet Flag.carry) v) := by
  cases m
  case asl | lsr | rol | ror => rfl
  all_goals exact absurd h (by decide)

/-- A shift to the left doubles, and the bit that leaves is worth 256. -/
theorem toNat_shifted_left {m : Mnemonic} (h : m = .asl ∨ m = .rol) (carry : Bool) (v : UInt8) :
    (m.shifted carry v).toNat + 256 * (m.givesOut v).toNat = 2 * v.toNat + m.takesIn carry := by
  have hbyte : ∀ v : UInt8, ∀ m ∈ [asl, rol], ∀ carry,
      (m.shifted carry v).toNat + 256 * (m.givesOut v).toNat = 2 * v.toNat + m.takesIn carry := by
    apply forall_byte
    decide +kernel
  exact hbyte v m (by rcases h with rfl | rfl <;> decide) carry

/-- A shift to the right halves, and the bit that enters is worth 256. -/
theorem toNat_shifted_right {m : Mnemonic} (h : m = .lsr ∨ m = .ror) (carry : Bool) (v : UInt8) :
    2 * (m.shifted carry v).toNat + (m.givesOut v).toNat = v.toNat + 256 * m.takesIn carry := by
  have hbyte : ∀ v : UInt8, ∀ m ∈ [lsr, ror], ∀ carry,
      2 * (m.shifted carry v).toNat + (m.givesOut v).toNat = v.toNat + 256 * m.takesIn carry := by
    apply forall_byte
    decide +kernel
  exact hbyte v m (by rcases h with rfl | rfl <;> decide) carry

/-! ### Many bytes -/

/-- What becomes of a list of bytes and the carry if the first byte is shifted by the operation
`first` and then all others are by the operation `rest`. -/
def shiftAll (first rest : Mnemonic) : Bool → List UInt8 → List UInt8 × Bool
  | carry, [] => ([], carry)
  | carry, v :: bytes =>
    let others := shiftAll rest rest (first.givesOut v) bytes
    (first.shifted carry v :: others.1, others.2)

/-- Rotating all bytes to the left doubles the number, from the lowest byte to the highest. -/
theorem littleEndian_rotate_left (carry : Bool) (bytes : List UInt8) :
    let o := shiftAll .rol .rol carry bytes
    littleEndian o.1 + 256 ^ bytes.length * o.2.toNat = 2 * littleEndian bytes + carry.toNat := by
  induction bytes generalizing carry with
  | nil => simp [shiftAll]
  | cons v bytes ih =>
    have hfirst : _ = _ + carry.toNat := toNat_shifted_left (.inr rfl) carry v
    have hothers := ih (rol.givesOut v)
    simp only [shiftAll, littleEndian_cons, List.length_cons]
    rw [Nat.pow_succ, Nat.mul_right_comm]
    omega

/-- **To the left**, if the first byte is shifted or rotated. -/
theorem littleEndian_shiftAll_left {first : Mnemonic} (hfirst : first = .asl ∨ first = .rol)
    (carry : Bool) {bytes : List UInt8} (hne : bytes ≠ []) :
    let o := shiftAll first .rol carry bytes
    littleEndian o.1 + 256 ^ bytes.length * o.2.toNat =
      2 * littleEndian bytes + first.takesIn carry := by
  obtain ⟨v, bytes, rfl⟩ := List.exists_cons_of_ne_nil hne
  have hv := toNat_shifted_left hfirst carry v
  have hothers := littleEndian_rotate_left (first.givesOut v) bytes
  simp only [shiftAll, littleEndian_cons, List.length_cons]
  rw [Nat.pow_succ, Nat.mul_right_comm]
  dsimp only at hothers
  omega

theorem length_shiftAll (first rest : Mnemonic) (carry : Bool) (bytes : List UInt8) :
    (shiftAll first rest carry bytes).1.length = bytes.length := by
  induction bytes generalizing first carry with
  | nil => rfl
  | cons v bytes ih => exact congrArg (· + 1) (ih rest (first.givesOut v))

/-- The bit that leaves the highest byte enters the number below, where it is worth `base`. -/
theorem halve_concat {base lower lower' v v' between into out : Nat}
    (hv : 2 * v' + between = v + 256 * into) (hlower : 2 * lower' + out = lower + base * between) :
    2 * (lower' + base * v') + out = lower + base * v + base * 256 * into := by
  calc 2 * (lower' + base * v') + out = 2 * lower' + out + base * (2 * v') := by ring
    _ = lower + base * (2 * v' + between) := by rw [hlower]; ring
    _ = lower + base * v + base * 256 * into := by rw [hv]; ring

/-- Rotating all bytes to the right halves the number, from the highest byte to the lowest. -/
theorem littleEndian_rotate_right (carry : Bool) (bytes : List UInt8) :
    let o := shiftAll .ror .ror carry bytes
    2 * littleEndian o.1.reverse + o.2.toNat =
      littleEndian bytes.reverse + 256 ^ bytes.length * carry.toNat := by
  induction bytes generalizing carry with
  | nil => simp [shiftAll]
  | cons v bytes ih =>
    have hfirst : _ = _ + 256 * carry.toNat := toNat_shifted_right (.inr rfl) carry v
    simp only [shiftAll, List.reverse_cons, littleEndian_concat, List.length_reverse,
      length_shiftAll, List.length_cons, Nat.pow_succ]
    exact halve_concat hfirst (ih _)

/-- **To the right**, if the first byte is shifted or rotated. -/
theorem littleEndian_shiftAll_right {first : Mnemonic} (hfirst : first = .lsr ∨ first = .ror)
    (carry : Bool) {bytes : List UInt8} (hne : bytes ≠ []) :
    let o := shiftAll first .ror carry bytes
    2 * littleEndian o.1.reverse + o.2.toNat =
      littleEndian bytes.reverse + 256 ^ bytes.length * first.takesIn carry := by
  obtain ⟨v, bytes, rfl⟩ := List.exists_cons_of_ne_nil hne
  simp only [shiftAll, List.reverse_cons, littleEndian_concat, List.length_reverse,
    length_shiftAll, List.length_cons, Nat.pow_succ]
  exact halve_concat (toNat_shifted_right hfirst carry v) (littleEndian_rotate_right _ bytes)

end Mnemonic

namespace Cpu

/-! ### Routines that shift -/

/-- The operation `first` on the first cell, and `rest` on all others. -/
def chain (first rest : Mnemonic) : List UInt16 → List Action
  | [] => []
  | cell :: cells => ⟨first, some cell⟩ :: chain rest rest cells

@[simp] theorem length_chain (first rest : Mnemonic) (cells : List UInt16) :
    (chain first rest cells).length = cells.length := by
  induction cells generalizing first with
  | nil => rfl
  | cons cell cells ih => rw [chain, List.length_cons, ih, List.length_cons]

/-- All actions of a chain are shifts of its cells. -/
theorem mem_chain {first rest : Mnemonic} (hfirst : first ∈ Mnemonic.shifters)
    (hrest : rest ∈ Mnemonic.shifters) {cells : List UInt16} {a : Action}
    (ha : a ∈ chain first rest cells) :
    ∃ m ∈ Mnemonic.shifters, ∃ cell ∈ cells, a = ⟨m, some cell⟩ := by
  induction cells generalizing first with
  | nil => exact absurd ha List.not_mem_nil
  | cons cell cells ih =>
    rcases List.mem_cons.1 ha with rfl | ha
    · exact ⟨first, hfirst, cell, .head _, rfl⟩
    · obtain ⟨m, hm, cell', hcell', rfl⟩ := ih hrest ha
      exact ⟨m, hm, cell', .tail _ hcell', rfl⟩

section Chains

variable {β : Type} [Bus β] {P : UInt16 → Prop} (hram : Bus.RamAt β P)

include hram

/-- **One shift in memory**: the byte, the carry, and nothing else in memory. -/
theorem step_of_shift {m : Mnemonic} (hm : m ∈ Mnemonic.shifters) {addr : UInt16} (haddr : P addr)
    {cpu : Cpu} {bus : β} (hs : cpu.Starts) (hn : cpu.nextInterrupt? = none)
    (ha : cpu.action? bus = some ⟨m, some addr⟩) :
    Bus.peek (cpu.step.run bus).bus addr =
      m.shifted (cpu.registers.isSet Flag.carry) (Bus.peek bus addr) ∧
    (cpu.step.run bus).value.cpu.registers.isSet Flag.carry = m.givesOut (Bus.peek bus addr) ∧
    ∀ {other}, P other → other ≠ addr →
      Bus.peek (cpu.step.run bus).bus other = Bus.peek bus other := by
  obtain ⟨hregisters, hmem⟩ :=
    step_of_modify hram hs hn ha haddr (Mnemonic.effect_of_mem_shifters hm)
  -- The zero and negative flags are set after the carry, and leave it alone.
  have hkept : ∀ (r : Registers) (v : UInt8),
      (r.updateZN v).isSet Flag.carry = r.isSet Flag.carry :=
    fun r v => Registers.keeps_updateZN r v .carry (by decide)
  refine ⟨?_, ?_, fun hother hne => ?_⟩
  · rw [hmem haddr, if_pos rfl, cpu.isSet_prepared bus (by decide)]
  · rw [hregisters, hkept, Registers.isSet_assign_self (by decide)]
  · rw [hmem hother, if_neg hne]

/-- **The routine does to its cells what the function does to their bytes.** -/
theorem run_chain {first rest : Mnemonic} (hfirst : first ∈ Mnemonic.shifters)
    (hrest : rest ∈ Mnemonic.shifters) {cells : List UInt16} (hmem : ∀ cell ∈ cells, P cell)
    (hnodup : cells.Nodup) {cpu : Cpu} {bus : β} (h : CarriesOut (chain first rest cells) cpu bus) :
    let o := (steps cells.length cpu).run bus
    (cells.map (Bus.peek o.bus), o.value.registers.isSet Flag.carry) =
      Mnemonic.shiftAll first rest (cpu.registers.isSet Flag.carry) (cells.map (Bus.peek bus)) ∧
    ∀ {other}, P other → other ∉ cells → Bus.peek o.bus other = Bus.peek bus other := by
  -- By induction on the cells: what the first gives out, the second takes in.
  induction cells generalizing first cpu bus with
  | nil => exact ⟨rfl, fun _ _ => rfl⟩
  | cons cell cells ih =>
    obtain ⟨hs, hn, ha, hothers⟩ := h
    obtain ⟨hbyte, hcarry, hframe⟩ := step_of_shift hram hfirst (hmem cell (.head _)) hs hn ha
    obtain ⟨hnot, hnodup'⟩ := List.nodup_cons.1 hnodup
    have hmem' : ∀ c ∈ cells, P c := fun c hc => hmem c (.tail _ hc)
    obtain ⟨hshifted, hkept⟩ := ih hrest hmem' hnodup' hothers
    -- The first cell is left alone from here on, and the others were until now.
    have hcell := (hkept (hmem cell (.head _)) hnot).trans hbyte
    have hbytes : cells.map (Bus.peek (cpu.step.run bus).bus) = cells.map (Bus.peek bus) :=
      List.map_congr_left fun c hc => hframe (hmem' c hc) (ne_of_mem_of_not_mem hc hnot)
    rw [hbytes, hcarry] at hshifted
    dsimp only
    rw [List.length_cons, value_steps_succ, bus_steps_succ, List.map_cons, List.map_cons, hcell,
      Mnemonic.shiftAll, ← hshifted]
    refine ⟨rfl, fun hother hne => ?_⟩
    rw [List.mem_cons, not_or] at hne
    rw [hkept hother hne.2, hframe hother hne.1]

/-- To the left, by the number in the cells. -/
theorem number_of_chain_left {first : Mnemonic} (hfirst : first = .asl ∨ first = .rol)
    {cells : List UInt16} (hne : cells ≠ []) (hmem : ∀ cell ∈ cells, P cell) (hnodup : cells.Nodup)
    {cpu : Cpu} {bus : β} (h : CarriesOut (chain first .rol cells) cpu bus) :
    let o := (steps cells.length cpu).run bus
    Bus.number o.bus cells + 256 ^ cells.length * (o.value.registers.isSet Flag.carry).toNat =
      2 * Bus.number bus cells + first.takesIn (cpu.registers.isSet Flag.carry) := by
  have hshift : first ∈ Mnemonic.shifters := by rcases hfirst with rfl | rfl <;> decide
  have hrun := (run_chain hram hshift (by decide) hmem hnodup h).1
  have htotal := Mnemonic.littleEndian_shiftAll_left hfirst (cpu.registers.isSet Flag.carry)
    ((List.map_eq_nil_iff (f := Bus.peek bus)).not.2 hne)
  rw [← hrun, List.length_map] at htotal
  exact htotal

/-- To the right, by the number in the cells. -/
theorem number_of_chain_right {first : Mnemonic} (hfirst : first = .lsr ∨ first = .ror)
    {cells : List UInt16} (hne : cells ≠ []) (hmem : ∀ cell ∈ cells, P cell) (hnodup : cells.Nodup)
    {cpu : Cpu} {bus : β} (h : CarriesOut (chain first .ror cells.reverse) cpu bus) :
    let o := (steps cells.length cpu).run bus
    2 * Bus.number o.bus cells + (o.value.registers.isSet Flag.carry).toNat =
      Bus.number bus cells +
        256 ^ cells.length * first.takesIn (cpu.registers.isSet Flag.carry) := by
  have hshift : first ∈ Mnemonic.shifters := by rcases hfirst with rfl | rfl <;> decide
  have hrun := (run_chain hram hshift (by decide) (fun c hc => hmem c (List.mem_reverse.1 hc))
    (List.nodup_reverse.2 hnodup) h).1
  have htotal := Mnemonic.littleEndian_shiftAll_right hfirst (cpu.registers.isSet Flag.carry)
    ((List.map_eq_nil_iff (f := Bus.peek bus)).not.2 (List.reverse_eq_nil_iff.not.2 hne))
  rw [← hrun] at htotal
  simp only [← List.map_reverse, List.reverse_reverse, List.length_map, List.length_reverse]
    at htotal
  exact htotal

/-- A shift or a rotation to the left doubles the number, and its highest bit is in the carry. -/
theorem doubled_of_chain {first : Mnemonic} (hfirst : first = .asl ∨ first = .rol)
    {cells : List UInt16} (hne : cells ≠ []) (hmem : ∀ cell ∈ cells, P cell) (hnodup : cells.Nodup)
    {cpu : Cpu} {bus : β} (h : CarriesOut (chain first .rol cells) cpu bus) :
    let x := Bus.number bus cells
    let o := (steps cells.length cpu).run bus
    Bus.number o.bus cells =
      (2 * x + first.takesIn (cpu.registers.isSet Flag.carry)) % 256 ^ cells.length ∧
    o.value.registers.isSet Flag.carry = x.testBit (8 * cells.length - 1) := by
  intro x o
  have hn : 0 < cells.length := List.length_pos_iff.2 hne
  obtain ⟨half, hhalf⟩ := exists_half hn
  have hin := first.takesIn_le_one (cpu.registers.isSet Flag.carry)
  obtain ⟨hmod, hcarry⟩ := eq_mod_of_carry (Bus.number_lt o.bus cells)
    (number_of_chain_left hram hfirst hne hmem hnodup h)
  refine ⟨hmod, ?_⟩
  -- What is taken in is less than what a digit beyond the number is worth, which is even.
  rw [testBit_top hn (Bus.number_lt bus cells), Bool.eq_iff_iff, decide_eq_true_iff, hcarry]
  omega

/-- A shift to the right halves the number, and the remainder is in the carry. -/
theorem halved_of_chain {cells : List UInt16} (hne : cells ≠ []) (hmem : ∀ cell ∈ cells, P cell)
    (hnodup : cells.Nodup) {cpu : Cpu} {bus : β}
    (h : CarriesOut (chain .lsr .ror cells.reverse) cpu bus) :
    let x := Bus.number bus cells
    let o := (steps cells.length cpu).run bus
    Bus.number o.bus cells = x / 2 ∧ o.value.registers.isSet Flag.carry = decide (x % 2 = 1) := by
  intro x o
  have htotal : 2 * Bus.number o.bus cells + (o.value.registers.isSet Flag.carry).toNat =
      x + 256 ^ cells.length * 0 := number_of_chain_right hram (.inl rfl) hne hmem hnodup h
  have hout := (o.value.registers.isSet Flag.carry).toNat_lt
  refine ⟨by omega, ?_⟩
  rw [Bool.eq_iff_iff, decide_eq_true_iff, ← Bool.toNat_eq_one]
  omega

/-- **A rotation to the left and one to the right cancel**: what goes out at one end comes in
again. -/
theorem rotated_back {cells : List UInt16} (hne : cells ≠ []) (hmem : ∀ cell ∈ cells, P cell)
    (hnodup : cells.Nodup) {cpu : Cpu} {bus : β}
    (h : CarriesOut (chain .rol .rol cells ++ chain .ror .ror cells.reverse) cpu bus) :
    let back := (steps (cells.length + cells.length) cpu).run bus
    Bus.number back.bus cells = Bus.number bus cells ∧
    (∀ cell ∈ cells, Bus.peek back.bus cell = Bus.peek bus cell) ∧
    back.value.registers.isSet Flag.carry = cpu.registers.isSet Flag.carry := by
  intro back
  obtain ⟨hleft, hright⟩ := carriesOut_append.1 h
  rw [length_chain] at hright
  have hgone := number_of_chain_left hram (.inr rfl) hne hmem hnodup hleft
  have hcame := number_of_chain_right hram (.inr rfl) hne hmem hnodup hright
  dsimp only at hcame
  rw [← value_steps_add, ← bus_steps_add] at hcame
  have htotal : 2 * Bus.number back.bus cells + (back.value.registers.isSet Flag.carry).toNat =
      2 * Bus.number bus cells + (cpu.registers.isSet Flag.carry).toNat := hcame.trans hgone
  -- Both carries are bits, so the numbers agree, and so do the carries.
  have hcarry := (cpu.registers.isSet Flag.carry).toNat_lt
  have hcarry' := (back.value.registers.isSet Flag.carry).toNat_lt
  have hnumber : Bus.number back.bus cells = Bus.number bus cells := by omega
  refine ⟨hnumber, List.map_inj_left.1 (littleEndian_inj ?_ hnumber), ?_⟩
  · rw [List.length_map, List.length_map]
  · rw [Bool.eq_iff_iff, ← Bool.toNat_eq_one, ← Bool.toNat_eq_one]
    omega

/-! ### The accumulator -/

/-- **The operand in the accumulator and in memory.** -/
theorem accumulator_eq_memory {m : Mnemonic} (hm : m ∈ Mnemonic.shifters) {cpu cpu' : Cpu}
    {bus bus' : β} {addr : UInt16} (haddr : P addr) (h : CarriesOut [⟨m, none⟩] cpu bus)
    (h' : CarriesOut [⟨m, some addr⟩] cpu' bus')
    (hstatus : cpu.registers.status = cpu'.registers.status)
    (hbyte : cpu.registers.a = Bus.peek bus' addr) :
    (cpu.step.run bus).value.cpu.registers.a = Bus.peek (cpu'.step.run bus').bus addr ∧
    (cpu.step.run bus).value.cpu.registers.status =
      (cpu'.step.run bus').value.cpu.registers.status := by
  obtain ⟨hs, hn, ha, -⟩ := h
  obtain ⟨hs', hn', ha', -⟩ := h'
  have heffect := Mnemonic.effect_of_mem_shifters hm
  have hin := (step_of_modify_accumulator hram hs hn ha heffect).1
  obtain ⟨hout, hmem⟩ := step_of_modify hram hs' hn' ha' haddr heffect
  -- Both start from the same flags and the same byte, so both compute the same.
  have hprepared : (cpu.prepared bus).status = (cpu'.prepared bus').status :=
    congrArg (· ||| Flag.unused) hstatus
  have hcarry : (cpu.prepared bus).isSet Flag.carry = (cpu'.prepared bus').isSet Flag.carry :=
    congrArg (· &&& Flag.carry != 0) hprepared
  rw [hin, hout, hmem haddr, if_pos rfl, hcarry, hbyte]
  refine ⟨rfl, ?_⟩
  simp only [Registers.updateZN, Registers.assign, hprepared]

/-- An operation on the accumulator that is written in memory is carried out. -/
theorem carriesOut_accumulator {cpu : Cpu} {bus : β} (hs : cpu.Starts)
    (hn : cpu.nextInterrupt? = none) (hpc : P cpu.registers.pc) {i : Instruction}
    (hi : Instruction.ofOpcode? (Bus.peek bus cpu.registers.pc) = some i)
    (hmode : i.mode = .accumulator) : CarriesOut [⟨i.mnemonic, none⟩] cpu bus := by
  refine ⟨hs, hn, ?_, trivial⟩
  rw [action?, hram.read_ram bus hpc, hi, Option.map_some, hmode]
  rfl

end Chains

/-- The routines that shift the number in the given cells, the lowest byte first: to the left and to
the right, by a rotation, and by a rotation and back. -/
def shiftRoutines (cells : List UInt16) : List (List Action) :=
  [chain .asl .rol cells, chain .lsr .ror cells.reverse, chain .rol .rol cells,
    chain .rol .rol cells ++ chain .ror .ror cells.reverse]

/-- All actions of these routines are shifts of the cells. -/
theorem mem_shiftRoutine {cells : List UInt16} {l : List Action} (hl : l ∈ shiftRoutines cells)
    {a : Action} (ha : a ∈ l) : ∃ m ∈ Mnemonic.shifters, ∃ cell ∈ cells, a = ⟨m, some cell⟩ := by
  -- The order of the cells makes no difference to which cells they are.
  have hreverse : ∀ {first : Mnemonic}, first ∈ Mnemonic.shifters →
      a ∈ chain first .ror cells.reverse →
      ∃ m ∈ Mnemonic.shifters, ∃ cell ∈ cells, a = ⟨m, some cell⟩ := by
    intro first hfirst ha
    obtain ⟨m, hm, cell, hcell, rfl⟩ := mem_chain hfirst (by decide) ha
    exact ⟨m, hm, cell, List.mem_reverse.1 hcell, rfl⟩
  simp only [shiftRoutines, List.mem_cons, List.not_mem_nil, or_false] at hl
  rcases hl with rfl | rfl | rfl | rfl
  · exact mem_chain (by decide) (by decide) ha
  · exact hreverse (by decide) ha
  · exact mem_chain (by decide) (by decide) ha
  · rcases List.mem_append.1 ha with ha | ha
    · exact mem_chain (by decide) (by decide) ha
    · exact hreverse (by decide) ha

/-- A routine that is written in memory is carried out, if it does not shift itself. -/
theorem carriesOut_shiftRoutine {β : Type} [Bus β] {P : UInt16 → Prop} (hram : Bus.RamAt β P)
    {cells : List UInt16} (hmem : ∀ cell ∈ cells, P cell) {cpu : Cpu} {bus : β} (hs : cpu.Starts)
    (hn : cpu.nextInterrupt? = none) {l : List Action} (hl : l ∈ shiftRoutines cells)
    (h : Bus.HasCode bus cpu.registers.pc l)
    (hcode : ∀ cell ∈ codeCells cpu.registers.pc l.length, P cell ∧ cell ∉ cells) :
    CarriesOut l cpu bus := by
  refine carriesOut_of_hasCode hram hs hn h (fun cell hcell => (hcode cell hcell).1) ?_
  intro a ha
  have hwrites : ∀ m ∈ Mnemonic.shifters, m ∈ Mnemonic.writers ++ Mnemonic.modifiers := by decide
  obtain ⟨m, hm, cell, hcell, rfl⟩ := mem_shiftRoutine hl ha
  exact .writes (hwrites m hm) (hmem cell hcell) fun hmem => (hcode cell hmem).2 hcell

/-- **Shifts of numbers of many bytes.**  The number lies in memory, one byte in each cell and the
lowest byte first.

* Shifted to the left from its lowest byte on it is doubled, modulo the numbers of that length, and
  its highest bit goes into the carry.
* Shifted to the right from its highest byte on it is halved, and the remainder goes into the carry.
* Rotated to the left it is doubled and takes in the carry; the rotation to the right undoes this.
* An operation on the accumulator makes of a byte, and of the flags, what it makes in memory.

Such routines, and operations on the accumulator, are carried out if they are written in memory,
wherever they lie. -/
theorem long_shifts {β : Type} [Bus β] {P : UInt16 → Prop} (hram : Bus.RamAt β P)
    {cells : List UInt16} (hne : cells ≠ []) (hmem : ∀ cell ∈ cells, P cell) (hnodup : cells.Nodup)
    (cpu : Cpu) (bus : β) :
    let n := cells.length
    let x := Bus.number bus cells
    let carry := cpu.registers.isSet Flag.carry
    let o := (steps n cpu).run bus
    let z := Bus.number o.bus cells
    let out := o.value.registers.isSet Flag.carry
    (CarriesOut (chain .asl .rol cells) cpu bus →
      z = 2 * x % 256 ^ n ∧ out = x.testBit (8 * n - 1)) ∧
    (CarriesOut (chain .lsr .ror cells.reverse) cpu bus →
      z = x / 2 ∧ out = decide (x % 2 = 1)) ∧
    (CarriesOut (chain .rol .rol cells) cpu bus →
      z = (2 * x + carry.toNat) % 256 ^ n ∧ out = x.testBit (8 * n - 1)) ∧
    (CarriesOut (chain .rol .rol cells ++ chain .ror .ror cells.reverse) cpu bus →
      let back := (steps (n + n) cpu).run bus
      Bus.number back.bus cells = x ∧
      (∀ cell ∈ cells, Bus.peek back.bus cell = Bus.peek bus cell) ∧
      back.value.registers.isSet Flag.carry = carry) ∧
    (∀ m ∈ Mnemonic.shifters, ∀ (inA inMemory : Cpu) (bus bus' : β) (addr : UInt16), P addr →
      CarriesOut [⟨m, none⟩] inA bus → CarriesOut [⟨m, some addr⟩] inMemory bus' →
      inA.registers.status = inMemory.registers.status → inA.registers.a = Bus.peek bus' addr →
      let afterA := (inA.step.run bus).value.cpu.registers
      let afterMemory := inMemory.step.run bus'
      afterA.a = Bus.peek afterMemory.bus addr ∧
      afterA.status = afterMemory.value.cpu.registers.status) ∧
    (cpu.Starts → cpu.nextInterrupt? = none → ∀ l ∈ shiftRoutines cells,
      Bus.HasCode bus cpu.registers.pc l →
      (∀ cell ∈ codeCells cpu.registers.pc l.length, P cell ∧ cell ∉ cells) →
      CarriesOut l cpu bus) ∧
    (cpu.Starts → cpu.nextInterrupt? = none → P cpu.registers.pc →
      ∀ i, Instruction.ofOpcode? (Bus.peek bus cpu.registers.pc) = some i →
        i.mode = .accumulator → CarriesOut [⟨i.mnemonic, none⟩] cpu bus) := by
  intro n x carry o z out
  -- The routines one by one, and then what it takes for them to be carried out
  refine ⟨fun h => doubled_of_chain hram (.inl rfl) hne hmem hnodup h,
    fun h => halved_of_chain hram hne hmem hnodup h,
    fun h => doubled_of_chain hram (.inr rfl) hne hmem hnodup h,
    fun h => rotated_back hram hne hmem hnodup h, ?_,
    fun hs hn l hl h hcode => carriesOut_shiftRoutine hram hmem hs hn hl h hcode,
    fun hs hn hpc i hi hmode => carriesOut_accumulator hram hs hn hpc hi hmode⟩
  intro m hm inA inMemory bus bus' addr haddr h h' hstatus hbyte
  exact accumulator_eq_memory hram hm haddr h h' hstatus hbyte

/-- A word is rotated to the left and back, with the carry set. -/
theorem long_shifts_of_word : ∃ (mem : FlatMemory) (cpu : Cpu),
    let cells : List UInt16 := [0x10, 0x11]
    let o := (steps 2 cpu).run mem
    let back := (steps 4 cpu).run mem
    (Bus.RamAt FlatMemory (fun _ => True) ∧ cells ≠ [] ∧ cells.Nodup) ∧
    Bus.number mem cells = 0x8081 ∧ cpu.registers.isSet Flag.carry ∧
    Bus.number o.bus cells = 0x0103 ∧ o.value.registers.isSet Flag.carry ∧
    Bus.number back.bus cells = 0x8081 ∧ back.value.registers.isSet Flag.carry := by
  -- A word at `0x10`, and the routine from `0x8000` on
  set bytes : UInt16 → UInt8 := fun addr => (List.lookup addr
    [(0x10, 0x81), (0x11, 0x80), (0x8000, 0x2E), (0x8001, 0x10), (0x8002, 0x00), (0x8003, 0x2E),
      (0x8004, 0x11), (0x8005, 0x00), (0x8006, 0x6E), (0x8007, 0x11), (0x8008, 0x00),
      (0x8009, 0x6E), (0x800A, 0x10), (0x800B, 0x00)]).getD 0
  obtain ⟨mem, hmem⟩ := FlatMemory.exists_peek bytes
  let cpu : Cpu := { registers := { pc := 0x8000, status := 0x21 } }
  have hx : Bus.number mem [0x10, 0x11] = 0x8081 := by
    simp only [Bus.number_cons, Bus.number_nil, hmem]
    decide
  have hrol : Instruction.ofOpcode? 0x2E = some ⟨0x2E, .rol, .absolute, 6⟩ := by decide +kernel
  have hror : Instruction.ofOpcode? 0x6E = some ⟨0x6E, .ror, .absolute, 6⟩ := by decide +kernel
  have hcode : Bus.HasCode mem 0x8000
      (chain .rol .rol [0x10, 0x11] ++ chain .ror .ror [0x11, 0x10]) := by
    refine ⟨⟨0x2E, 0x10, 6, rfl, hrol, ?_⟩, ⟨0x2E, 0x11, 6, rfl, hrol, ?_⟩,
      ⟨0x6E, 0x11, 6, rfl, hror, ?_⟩, ⟨0x6E, 0x10, 6, rfl, hror, ?_⟩, trivial⟩ <;>
    exact Bus.holds_of_all hmem (by decide +kernel)
  have hnodup : [(0x10 : UInt16), 0x11].Nodup := by decide
  have hset : cpu.registers.isSet Flag.carry = true := by decide
  -- The cells lie outside of the routine.
  have hclear : ((codeCells 0x8000 4).all fun cell => cell ∉ [(0x10 : UInt16), 0x11]) = true := by
    decide
  obtain ⟨-, -, hleft, hback, -, hcarries, -⟩ := long_shifts FlatMemory.ramAt
    (List.cons_ne_nil _ _) (fun _ _ => trivial) hnodup cpu mem
  have hroutine := hcarries ⟨rfl, rfl⟩ rfl _ (.tail _ (.tail _ (.tail _ (.head _)))) hcode
    fun cell hcell => ⟨trivial, of_decide_eq_true (List.all_eq_true.1 hclear cell hcell)⟩
  obtain ⟨hz, hout⟩ := hleft (carriesOut_append.1 hroutine).1
  obtain ⟨hnumber, -, hcarry⟩ := hback hroutine
  rw [hx] at hz hout hnumber
  rw [hset] at hz hcarry
  exact ⟨mem, cpu, ⟨FlatMemory.ramAt, List.cons_ne_nil _ _, hnodup⟩, hx, hset, hz,
    hout.trans (by decide), hnumber, hcarry⟩

end Cpu

end Nes
