import Nes.Bus.Basic
import Nes.Cpu.Registers

/-!
# Instruction stream, stack and interrupt entry

Bytes of an instruction are fetched at the program counter, which moves on.  The stack fills page
one from the top: pushing writes to the cell that the stack pointer names and moves it down, pulling
moves it up and reads.  The pointer has eight bits, so after the lowest cell comes the highest.

Entering an interrupt pushes the program counter, high byte first, and the status, disables
maskable interrupts and goes on at the address stored in a vector.

## Main definitions

* `Registers.fetch`, `Registers.fetchOperand`.
* `Registers.push`, `Registers.pull`, `Registers.pushWord`, `Registers.pullWord`.
* `Registers.enterInterrupt`.
-/

namespace Nes

/-- The address of the handler of non-maskable interrupts is stored here. -/
def nmiVector : UInt16 := 0xFFFA

/-- The address at which execution starts after a reset is stored here. -/
def resetVector : UInt16 := 0xFFFC

/-- The address of the handler of maskable and software interrupts is stored here. -/
def irqVector : UInt16 := 0xFFFE

namespace Registers

/-- The byte at the program counter, which moves on. -/
def fetch (r : Registers) : BusM (UInt8 × Registers) := do
  let byte ← BusM.readByte r.pc
  pure (byte, r.jumpTo (r.pc + 1))

/-- The operand of an instruction whose opcode was just fetched; the program counter moves to the
following instruction. -/
def fetchOperand (r : Registers) (mode : AddressingMode) : BusM (Operand × Registers) := do
  let operand ← mode.resolve BusM.readByte r.pc r.x r.y
  pure (operand, r.jumpTo (r.pc + UInt16.ofNat mode.operandLength))

/-- Pushes a byte. -/
def push (r : Registers) (value : UInt8) : BusM Registers := do
  BusM.writeByte r.stackAddress value
  pure { r with sp := r.sp - 1 }

/-- Pulls a byte. -/
def pull (r : Registers) : BusM (UInt8 × Registers) := do
  let r := { r with sp := r.sp + 1 }
  let value ← BusM.readByte r.stackAddress
  pure (value, r)

/-- Pushes a word, high byte first. -/
def pushWord (r : Registers) (value : UInt16) : BusM Registers := do
  let r ← r.push (value >>> 8).toUInt8
  r.push value.toUInt8

/-- Pulls a word, low byte first. -/
def pullWord (r : Registers) : BusM (UInt16 × Registers) := do
  let (low, r) ← r.pull
  let (high, r) ← r.pull
  pure (wordOf low high, r)

/-- Enters the interrupt handler whose address is stored in a vector. -/
def enterInterrupt (r : Registers) (vector : UInt16) (byInstruction : Bool) : BusM Registers := do
  let status := r.statusToPush byInstruction
  let r ← r.pushWord r.pc
  let r ← r.push status
  let target ← BusM.readWord vector
  pure ((r.assign Flag.irqDisable true).jumpTo target)

end Registers

end Nes
