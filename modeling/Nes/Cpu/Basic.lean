import Nes.Cpu.Effect
import Nes.Cpu.OpcodeMatrix

/-!
# The processor

The processor advances one cycle at a time.  A cycle that finds no instruction in flight starts one:
it takes a pending interrupt, or else fetches, decodes and executes the next instruction completely
and notes how many cycles that costs.  The cycles that follow only count the cost down.

Interrupts are remembered when they are requested and taken where an instruction could start.  The
non-maskable one goes first.  A maskable one is remembered only if it is enabled when requested, and
once remembered it waits until it is enabled again.

An undocumented opcode halts the processor in place.  A halted processor does nothing and reports
the same fault in every cycle, until it is reset.

## Main definitions

* `Cpu`, `CpuFault`.
* `Cpu.tick`: one cycle.
* `Cpu.step`: the cycles of one instruction.
* `Cpu.requestNmi`, `Cpu.requestIrq`, `Cpu.reset`.
* `Cpu.peekInstruction?`: what would be executed next.
-/

namespace Nes

/-- Why the processor cannot go on. -/
inductive CpuFault
  /-- The opcode at an address is undocumented. -/
  | unimplementedOpcode (opcode : UInt8) (pc : UInt16)
  deriving DecidableEq, Repr

/-- The wording of a fault. -/
def CpuFault.message : CpuFault → String
  | unimplementedOpcode opcode pc =>
    "unimplemented opcode $" ++ Numeral.hexByte opcode ++ " at $" ++ Numeral.hexWord pc

/-- The processor; the default is its state when power is switched on. -/
structure Cpu where
  /-- The registers. -/
  registers : Registers := {}
  /-- The cycles that the instruction in flight still takes. -/
  cyclesLeft : Nat := 0
  /-- A non-maskable interrupt waits. -/
  pendingNmi : Bool := false
  /-- A maskable interrupt waits. -/
  pendingIrq : Bool := false
  /-- The cycles since power was switched on. -/
  totalCycles : Nat := 0
  /-- Why the processor has halted, if it has. -/
  halted : Option CpuFault := none
  deriving DecidableEq, Repr, Inhabited

namespace Cpu

/-- What a cycle leaves: the processor, and whether the cycle succeeded. -/
structure Ticked where
  /-- The processor after the cycle. -/
  cpu : Cpu
  /-- The fault, if the processor is halted. -/
  result : Except CpuFault Unit

/-- The cost of entering an interrupt handler. -/
def interruptCycles : Nat := 7

/-- The next cycle starts an instruction or enters an interrupt handler. -/
def atBoundary (cpu : Cpu) : Bool := cpu.cyclesLeft == 0

/-- Remembers a non-maskable interrupt. -/
def requestNmi (cpu : Cpu) : Cpu := { cpu with pendingNmi := true }

/-- Remembers a maskable interrupt, if such interrupts are enabled. -/
def requestIrq (cpu : Cpu) : Cpu :=
  if cpu.registers.isSet Flag.irqDisable then cpu else { cpu with pendingIrq := true }

/-- Starts over at the address in the reset vector.  The count of cycles goes on. -/
def reset (cpu : Cpu) : BusM Cpu := do
  let start ← BusM.readWord resetVector
  pure { registers := { pc := start }, totalCycles := cpu.totalCycles }

/-- Enters the handler of a hardware interrupt. -/
def interrupt (cpu : Cpu) (vector : UInt16) : BusM Cpu := do
  let registers ← cpu.registers.enterInterrupt vector false
  BusM.tell (.interruptTaken vector registers.pc)
  pure { cpu with registers := registers, cyclesLeft := interruptCycles }

/-- Executes an instruction whose opcode was just fetched. -/
def execute (cpu : Cpu) (instruction : Instruction) (registers : Registers) : BusM Cpu := do
  let (operand, registers) ← registers.fetchOperand instruction.mode
  let (registers, extra) ← instruction.mnemonic.effect.perform operand registers
  pure { cpu with registers := registers, cyclesLeft := instruction.cycles + extra }

/-- Stops at an opcode without a meaning, which stays the next one. -/
def halt (cpu : Cpu) (fault : CpuFault) : Cpu := { cpu with halted := some fault }

/-- Executes the instruction at the program counter, or halts there. -/
def executeNext (cpu : Cpu) : BusM Cpu := do
  let pc := cpu.registers.pc
  let (opcode, registers) ← cpu.registers.fetch
  match Instruction.ofOpcode? opcode with
  | some instruction =>
    BusM.tell (.executed pc instruction)
    cpu.execute instruction registers
  | none =>
    BusM.tell (.unimplementedOpcode opcode pc)
    pure (cpu.halt (.unimplementedOpcode opcode pc))

/-- Starts what comes next: a pending interrupt that may be taken, or else an instruction. -/
def start (cpu : Cpu) : BusM Cpu :=
  let cpu := { cpu with registers := cpu.registers.assign Flag.unused true }
  if cpu.pendingNmi then
    interrupt { cpu with pendingNmi := false } nmiVector
  else if cpu.pendingIrq && !cpu.registers.isSet Flag.irqDisable then
    interrupt { cpu with pendingIrq := false } irqVector
  else
    cpu.executeNext

/-- Counts one cycle of the instruction in flight. -/
def countDown (cpu : Cpu) : Cpu :=
  { cpu with cyclesLeft := cpu.cyclesLeft - 1, totalCycles := cpu.totalCycles + 1 }

/-- What a cycle leaves of a processor that had something to do in it: a halted one stays as it is,
and any other counts the cycle. -/
def finishTick (cpu : Cpu) : Ticked :=
  match cpu.halted with
  | some fault => ⟨cpu, .error fault⟩
  | none => ⟨cpu.countDown, .ok ()⟩

/-- One cycle. -/
def tick (cpu : Cpu) : BusM Ticked :=
  if cpu.halted.isNone && cpu.atBoundary then do
    let cpu ← cpu.start
    pure cpu.finishTick
  else
    pure cpu.finishTick

/-! ### Whole instructions -/

/-- What a number of cycles leaves: the processor, and their number or a fault. -/
structure Stepped where
  /-- The processor afterwards. -/
  cpu : Cpu
  /-- The number of cycles, or the fault in the last of them. -/
  result : Except CpuFault Nat

/-- A number of cycles of which none is expected to fail. -/
def ticks : (n : Nat) → Cpu → BusM Cpu
  | 0, cpu => pure cpu
  | n + 1, cpu => do
    let t ← cpu.tick
    ticks n t.cpu

/-- Cycles until an instruction or interrupt entry is complete: the next cycle, and those that are
left after it. -/
def step (cpu : Cpu) : BusM Stepped := do
  let t ← cpu.tick
  match t.result with
  | .error fault => pure ⟨t.cpu, .error fault⟩
  | .ok () =>
    let left := t.cpu.cyclesLeft
    let cpu ← ticks left t.cpu
    pure ⟨cpu, .ok (1 + left)⟩

/-! ### Inspection -/

section Peek

variable {β : Type} [Bus β]

/-- The operand that the instruction at the program counter has in a given mode, resolved without
side effects. -/
def peekOperand (cpu : Cpu) (mode : AddressingMode) (bus : β) : Operand :=
  let start := cpu.registers.pc + 1
  Id.run (mode.resolve (fun addr => pure (Bus.peek bus addr)) start cpu.registers.x cpu.registers.y)

/-- The instruction at the program counter and its operand, resolved without side effects; none if
the opcode there is undocumented. -/
def peekInstruction? (cpu : Cpu) (bus : β) : Option (Instruction × Operand) :=
  (Instruction.ofOpcode? (Bus.peek bus cpu.registers.pc)).map fun instruction =>
    (instruction, cpu.peekOperand instruction.mode bus)

end Peek

end Cpu

end Nes
