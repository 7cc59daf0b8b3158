import Nes.Cpu.Instruction

/-!
# The opcode matrix

Of the 256 opcodes 151 are documented.  The matrix has a row for each high digit of the opcode and
in each row an entry for each low digit; an undocumented opcode has none.

## Main definitions

* `OpcodeMatrix.entries`: the matrix, row after row.
* `Instruction.ofOpcode?`: what an opcode stands for.
-/

namespace Nes

namespace OpcodeMatrix

/-- What the matrix says of a documented opcode: operation, mode and cycles. -/
structure Entry where
  /-- The operation. -/
  mnemonic : Mnemonic
  /-- How the operand is named. -/
  mode : AddressingMode
  /-- The cycles it takes before penalties. -/
  cycles : Nat
  deriving DecidableEq, Repr

/-- An entry of the matrix. -/
def op (mnemonic : Mnemonic) (mode : AddressingMode) (cycles : Nat) : Option Entry :=
  some ⟨mnemonic, mode, cycles⟩

/-- Opcodes `0x00` to `0x0F`. -/
def row0 : List (Option Entry) :=
  [op .brk .implied 7, op .ora .indirectX 6, none, none, none, op .ora .zeroPage 3,
   op .asl .zeroPage 5, none, op .php .implied 3, op .ora .immediate 2, op .asl .accumulator 2,
   none, none, op .ora .absolute 4, op .asl .absolute 6, none]

/-- Opcodes `0x10` to `0x1F`. -/
def row1 : List (Option Entry) :=
  [op .bpl .relative 2, op .ora .indirectY 5, none, none, none, op .ora .zeroPageX 4,
   op .asl .zeroPageX 6, none, op .clc .implied 2, op .ora .absoluteY 4, none, none, none,
   op .ora .absoluteX 4, op .asl .absoluteX 7, none]

/-- Opcodes `0x20` to `0x2F`. -/
def row2 : List (Option Entry) :=
  [op .jsr .absolute 6, op .and .indirectX 6, none, none, op .bit .zeroPage 3,
   op .and .zeroPage 3, op .rol .zeroPage 5, none, op .plp .implied 4, op .and .immediate 2,
   op .rol .accumulator 2, none, op .bit .absolute 4, op .and .absolute 4, op .rol .absolute 6,
   none]

/-- Opcodes `0x30` to `0x3F`. -/
def row3 : List (Option Entry) :=
  [op .bmi .relative 2, op .and .indirectY 5, none, none, none, op .and .zeroPageX 4,
   op .rol .zeroPageX 6, none, op .sec .implied 2, op .and .absoluteY 4, none, none, none,
   op .and .absoluteX 4, op .rol .absoluteX 7, none]

/-- Opcodes `0x40` to `0x4F`. -/
def row4 : List (Option Entry) :=
  [op .rti .implied 6, op .eor .indirectX 6, none, none, none, op .eor .zeroPage 3,
   op .lsr .zeroPage 5, none, op .pha .implied 3, op .eor .immediate 2, op .lsr .accumulator 2,
   none, op .jmp .absolute 3, op .eor .absolute 4, op .lsr .absolute 6, none]

/-- Opcodes `0x50` to `0x5F`. -/
def row5 : List (Option Entry) :=
  [op .bvc .relative 2, op .eor .indirectY 5, none, none, none, op .eor .zeroPageX 4,
   op .lsr .zeroPageX 6, none, op .cli .implied 2, op .eor .absoluteY 4, none, none, none,
   op .eor .absoluteX 4, op .lsr .absoluteX 7, none]

/-- Opcodes `0x60` to `0x6F`. -/
def row6 : List (Option Entry) :=
  [op .rts .implied 6, op .adc .indirectX 6, none, none, none, op .adc .zeroPage 3,
   op .ror .zeroPage 5, none, op .pla .implied 4, op .adc .immediate 2, op .ror .accumulator 2,
   none, op .jmp .indirect 5, op .adc .absolute 4, op .ror .absolute 6, none]

/-- Opcodes `0x70` to `0x7F`. -/
def row7 : List (Option Entry) :=
  [op .bvs .relative 2, op .adc .indirectY 5, none, none, none, op .adc .zeroPageX 4,
   op .ror .zeroPageX 6, none, op .sei .implied 2, op .adc .absoluteY 4, none, none, none,
   op .adc .absoluteX 4, op .ror .absoluteX 7, none]

/-- Opcodes `0x80` to `0x8F`. -/
def row8 : List (Option Entry) :=
  [none, op .sta .indirectX 6, none, none, op .sty .zeroPage 3, op .sta .zeroPage 3,
   op .stx .zeroPage 3, none, op .dey .implied 2, none, op .txa .implied 2, none,
   op .sty .absolute 4, op .sta .absolute 4, op .stx .absolute 4, none]

/-- Opcodes `0x90` to `0x9F`. -/
def row9 : List (Option Entry) :=
  [op .bcc .relative 2, op .sta .indirectY 6, none, none, op .sty .zeroPageX 4,
   op .sta .zeroPageX 4, op .stx .zeroPageY 4, none, op .tya .implied 2, op .sta .absoluteY 5,
   op .txs .implied 2, none, none, op .sta .absoluteX 5, none, none]

/-- Opcodes `0xA0` to `0xAF`. -/
def rowA : List (Option Entry) :=
  [op .ldy .immediate 2, op .lda .indirectX 6, op .ldx .immediate 2, none, op .ldy .zeroPage 3,
   op .lda .zeroPage 3, op .ldx .zeroPage 3, none, op .tay .implied 2, op .lda .immediate 2,
   op .tax .implied 2, none, op .ldy .absolute 4, op .lda .absolute 4, op .ldx .absolute 4, none]

/-- Opcodes `0xB0` to `0xBF`. -/
def rowB : List (Option Entry) :=
  [op .bcs .relative 2, op .lda .indirectY 5, none, none, op .ldy .zeroPageX 4,
   op .lda .zeroPageX 4, op .ldx .zeroPageY 4, none, op .clv .implied 2, op .lda .absoluteY 4,
   op .tsx .implied 2, none, op .ldy .absoluteX 4, op .lda .absoluteX 4, op .ldx .absoluteY 4,
   none]

/-- Opcodes `0xC0` to `0xCF`. -/
def rowC : List (Option Entry) :=
  [op .cpy .immediate 2, op .cmp .indirectX 6, none, none, op .cpy .zeroPage 3,
   op .cmp .zeroPage 3, op .dec .zeroPage 5, none, op .iny .implied 2, op .cmp .immediate 2,
   op .dex .implied 2, none, op .cpy .absolute 4, op .cmp .absolute 4, op .dec .absolute 6, none]

/-- Opcodes `0xD0` to `0xDF`. -/
def rowD : List (Option Entry) :=
  [op .bne .relative 2, op .cmp .indirectY 5, none, none, none, op .cmp .zeroPageX 4,
   op .dec .zeroPageX 6, none, op .cld .implied 2, op .cmp .absoluteY 4, none, none, none,
   op .cmp .absoluteX 4, op .dec .absoluteX 7, none]

/-- Opcodes `0xE0` to `0xEF`. -/
def rowE : List (Option Entry) :=
  [op .cpx .immediate 2, op .sbc .indirectX 6, none, none, op .cpx .zeroPage 3,
   op .sbc .zeroPage 3, op .inc .zeroPage 5, none, op .inx .implied 2, op .sbc .immediate 2,
   op .nop .implied 2, none, op .cpx .absolute 4, op .sbc .absolute 4, op .inc .absolute 6, none]

/-- Opcodes `0xF0` to `0xFF`. -/
def rowF : List (Option Entry) :=
  [op .beq .relative 2, op .sbc .indirectY 5, none, none, none, op .sbc .zeroPageX 4,
   op .inc .zeroPageX 6, none, op .sed .implied 2, op .sbc .absoluteY 4, none, none, none,
   op .sbc .absoluteX 4, op .inc .absoluteX 7, none]

/-- The matrix, row after row. -/
def entries : Array (Option Entry) :=
  (row0 ++ row1 ++ row2 ++ row3 ++ row4 ++ row5 ++ row6 ++ row7 ++
    row8 ++ row9 ++ rowA ++ rowB ++ rowC ++ rowD ++ rowE ++ rowF).toArray

theorem size_entries : entries.size = 256 := by decide +kernel

end OpcodeMatrix

/-- What an opcode stands for; none if it is undocumented. -/
def Instruction.ofOpcode? (opcode : UInt8) : Option Instruction :=
  (OpcodeMatrix.entries[opcode.toNat]?.join).map fun entry =>
    ⟨opcode, entry.mnemonic, entry.mode, entry.cycles⟩

namespace Instruction

/-- An instruction knows the opcode it was found under. -/
theorem opcode_of_ofOpcode? {opcode : UInt8} {i : Instruction} (h : ofOpcode? opcode = some i) :
    i.opcode = opcode := by
  obtain ⟨entry, -, rfl⟩ := Option.map_eq_some_iff.1 h
  rfl

end Instruction

end Nes
