import Nes.Cpu.Operand
import Nes.Text.Numeral
import Nes.Text.Record

/-!
# Instructions

An instruction is an opcode together with what it stands for: an operation, the way its operand is
named, and the number of cycles it takes when no page is crossed and no branch is taken.

## Main definitions

* `Mnemonic`: the fifty-six documented operations.
* `Instruction`: what an opcode stands for.
-/

namespace Nes

/-- The documented operations, by their usual abbreviations. -/
inductive Mnemonic
  | adc | and | asl | bcc | bcs | beq | bit | bmi | bne | bpl | brk | bvc | bvs | clc
  | cld | cli | clv | cmp | cpx | cpy | dec | dex | dey | eor | inc | inx | iny | jmp
  | jsr | lda | ldx | ldy | lsr | nop | ora | pha | php | pla | plp | rol | ror | rti
  | rts | sbc | sec | sed | sei | sta | stx | sty | tax | tay | tsx | txa | txs | tya
  deriving DecidableEq, Repr, Inhabited

/-- The name of an operation. -/
def Mnemonic.name : Mnemonic → String
  | adc => "ADC" | and => "AND" | asl => "ASL" | bcc => "BCC" | bcs => "BCS" | beq => "BEQ"
  | bit => "BIT" | bmi => "BMI" | bne => "BNE" | bpl => "BPL" | brk => "BRK" | bvc => "BVC"
  | bvs => "BVS" | clc => "CLC" | cld => "CLD" | cli => "CLI" | clv => "CLV" | cmp => "CMP"
  | cpx => "CPX" | cpy => "CPY" | dec => "DEC" | dex => "DEX" | dey => "DEY" | eor => "EOR"
  | inc => "INC" | inx => "INX" | iny => "INY" | jmp => "JMP" | jsr => "JSR" | lda => "LDA"
  | ldx => "LDX" | ldy => "LDY" | lsr => "LSR" | nop => "NOP" | ora => "ORA" | pha => "PHA"
  | php => "PHP" | pla => "PLA" | plp => "PLP" | rol => "ROL" | ror => "ROR" | rti => "RTI"
  | rts => "RTS" | sbc => "SBC" | sec => "SEC" | sed => "SED" | sei => "SEI" | sta => "STA"
  | stx => "STX" | sty => "STY" | tax => "TAX" | tay => "TAY" | tsx => "TSX" | txa => "TXA"
  | txs => "TXS" | tya => "TYA"

/-- What an opcode stands for. -/
structure Instruction where
  /-- The opcode. -/
  opcode : UInt8
  /-- The operation. -/
  mnemonic : Mnemonic
  /-- How the operand is named. -/
  mode : AddressingMode
  /-- The cycles it takes before penalties. -/
  cycles : Nat
  deriving DecidableEq, Repr

namespace Instruction

/-- The number of bytes of an instruction, opcode included. -/
def length (i : Instruction) : Nat := 1 + i.mode.operandLength

/-- The following instruction begins behind the opcode and the operand bytes. -/
theorem add_length (i : Instruction) (pc : UInt16) :
    pc + 1 + UInt16.ofNat i.mode.operandLength = pc + UInt16.ofNat i.length := by
  rw [length, UInt16.ofNat_add, UInt16.add_assoc]
  rfl

/-- Debugging text of an instruction. -/
def describe (i : Instruction) : String :=
  Record.render "Instruction"
    [("opcode", Numeral.hexByte i.opcode),
     ("mnemonic", "\"" ++ i.mnemonic.name ++ "\""),
     ("len", toString i.length),
     ("cycles", toString i.cycles),
     ("mode", i.mode.name)]

end Instruction

end Nes
