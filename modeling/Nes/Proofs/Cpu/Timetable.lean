import Nes.Cpu.OpcodeMatrix

/-!
# The timetable

The time of an instruction depends on the kind of its operation and on the way its operand is
named.  An operation that reads its operand takes the cycles needed to find it.  One that stores to
it or replaces it has no use for a byte read from the wrong page, so with an index it always takes
the time in which the address is certain.

Here this is written down by kinds and modes, as a reader of a handbook would have it, and compared
with the opcode matrix, where the times stand opcode by opcode.  The times are those without a
crossed page and without a branch taken.

## Main definitions

* `Mnemonic.readers`, `Mnemonic.writers`, `Mnemonic.modifiers`, `Mnemonic.branches`: the kinds of
  operations that have an operand.
* `Mnemonic.baseTime?`: the timetable.
* `OpcodeMatrix.documented`: the documented instructions.

## Main statements

* `OpcodeMatrix.baseTime?_eq`: the opcode matrix agrees with the timetable.
-/

namespace Nes

namespace Mnemonic

/-- The operations that read their operand. -/
def readers : List Mnemonic := [lda, ldx, ldy, adc, sbc, and, ora, eor, cmp, cpx, cpy, bit]

/-- The operations that store a register in their operand. -/
def writers : List Mnemonic := [sta, stx, sty]

/-- The operations that replace their operand. -/
def modifiers : List Mnemonic := [inc, dec, asl, lsr, rol, ror]

/-- The operations that go to another place if a flag allows it. -/
def branches : List Mnemonic := [bcc, bcs, beq, bne, bmi, bpl, bvc, bvs]

/-- The operations that read their operand and take no extra time for it.  None of them has a mode
in which a page could be crossed. -/
def probers : List Mnemonic := [bit, cpx, cpy]

theorem not_mem_readers_of_branch {m : Mnemonic} (h : m ∈ branches) : m ∉ readers := by
  revert m
  decide

end Mnemonic

namespace AddressingMode

/-- The cycles of an operation that reads its operand. -/
def readTime? : AddressingMode → Option Nat
  | immediate => some 2
  | zeroPage => some 3
  | zeroPageX | zeroPageY => some 4
  | absolute | absoluteX | absoluteY => some 4
  | indirectX => some 6
  | indirectY => some 5
  | _ => none

/-- The cycles of an operation that stores to its operand. -/
def writeTime? : AddressingMode → Option Nat
  | zeroPage => some 3
  | zeroPageX | zeroPageY => some 4
  | absolute => some 4
  | absoluteX | absoluteY => some 5
  | indirectX | indirectY => some 6
  | _ => none

/-- The cycles of an operation that replaces its operand. -/
def modifyTime? : AddressingMode → Option Nat
  | accumulator => some 2
  | zeroPage => some 5
  | zeroPageX => some 6
  | absolute => some 6
  | absoluteX => some 7
  | _ => none

/-- The cycles of a jump. -/
def jumpTime? : AddressingMode → Option Nat
  | absolute => some 3
  | indirect => some 5
  | _ => none

/-- The time of operations that are known in one mode only. -/
def only (mode : AddressingMode) (cycles : Nat) (actual : AddressingMode) : Option Nat :=
  if actual = mode then some cycles else none

end AddressingMode

/-- The cycles of an operation whose operand is named in the given way, before what crossed pages
and branches add. -/
def Mnemonic.baseTime? (m : Mnemonic) (mode : AddressingMode) : Option Nat :=
  if m ∈ readers then mode.readTime?
  else if m ∈ writers then mode.writeTime?
  else if m ∈ modifiers then mode.modifyTime?
  else if m ∈ branches then AddressingMode.only .relative 2 mode
  else match m with
    | jmp => mode.jumpTime?
    | jsr => AddressingMode.only .absolute 6 mode
    | rts | rti => AddressingMode.only .implied 6 mode
    | brk => AddressingMode.only .implied 7 mode
    | pha | php => AddressingMode.only .implied 3 mode
    | pla | plp => AddressingMode.only .implied 4 mode
    | _ => AddressingMode.only .implied 2 mode

namespace OpcodeMatrix

/-- The documented instructions, by opcode. -/
def documented : List Instruction :=
  entries.toList.zipIdx.filterMap fun (cell, n) =>
    cell.map fun entry => ⟨UInt8.ofNat n, entry.mnemonic, entry.mode, entry.cycles⟩

theorem mem_documented {opcode : UInt8} {i : Instruction}
    (h : Instruction.ofOpcode? opcode = some i) : i ∈ documented := by
  obtain ⟨entry, hentry, rfl⟩ := Option.map_eq_some_iff.1 h
  have hget : entries.toList[opcode.toNat]? = some (some entry) := by
    rw [Array.getElem?_toList]
    exact Option.join_eq_some_iff.1 hentry
  rw [documented, List.mem_filterMap]
  refine ⟨(some entry, opcode.toNat), List.mk_mem_zipIdx_iff_getElem?.2 hget, ?_⟩
  simp only [Option.map_some, UInt8.ofNat_toNat]

/-- **The opcode matrix agrees with the timetable.** -/
theorem baseTime?_eq : ∀ i ∈ documented, i.mnemonic.baseTime? i.mode = some i.cycles := by
  decide +kernel

/-- What takes no extra time for its operand could not need it. -/
theorem probers_mode : ∀ i ∈ documented, i.mnemonic ∈ Mnemonic.probers →
    i.mode ∉ [AddressingMode.absoluteX, .absoluteY, .indirectY] := by
  decide +kernel

/-- Branches name their operand by its distance. -/
theorem branches_mode : ∀ i ∈ documented, i.mnemonic ∈ Mnemonic.branches → i.mode = .relative := by
  decide +kernel

/-- What reads or stores its operand has one in memory. -/
theorem memory_mode : ∀ i ∈ documented, i.mnemonic ∈ Mnemonic.readers ++ Mnemonic.writers →
    i.mode ≠ .implied ∧ i.mode ≠ .accumulator := by
  decide +kernel

theorem jsr_mode : ∀ i ∈ documented, i.mnemonic = .jsr → i.mode = .absolute := by
  decide +kernel

theorem brk_mode : ∀ i ∈ documented, i.mnemonic = .brk → i.mode = .implied := by
  decide +kernel

/-- No instruction takes fewer than two cycles or, where a page may be crossed or a branch taken,
more than five. -/
theorem cycles_bounds : ∀ i ∈ documented, 2 ≤ i.cycles ∧ i.cycles ≤ 7 ∧
    (i.mnemonic ∈ Mnemonic.readers → i.mode ∈ [AddressingMode.absoluteX, .absoluteY, .indirectY] →
      i.cycles ≤ 5) ∧ (i.mnemonic ∈ Mnemonic.branches → i.cycles ≤ 5) := by
  decide +kernel

example : documented.length = 151 := by decide +kernel

end OpcodeMatrix

end Nes
