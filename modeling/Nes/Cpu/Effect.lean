import Nes.Cpu.Alu
import Nes.Cpu.Instruction
import Nes.Cpu.Stack

/-!
# What instructions do

The fifty-six operations fall into a few families that use the bus in the same way: those that read
their operand, those that store a register, those that modify a byte in place, branches, operations
on registers alone, pushes and pulls, and the six ways of moving to another part of the program.
An operation is described by its family and by what it does to the registers, and each family is
carried out by one program.

Carrying out an operation also says how many cycles it takes beyond those in the opcode matrix: one
if a reading operation had to cross a page, one if a branch is taken and two if that leads to
another page.  Stores and modifications always take the longer time, which the matrix includes.
The bit test and the comparisons of index registers read their operand without such a charge.

## Main definitions

* `Effect`: the families.
* `Mnemonic.effect`: the family of each operation.
* `Effect.perform`: carrying it out.
-/

namespace Nes

/-- What an operation does, by the way it uses the bus. -/
inductive Effect
  /-- Reads the operand and uses it. -/
  | read (use : Registers → UInt8 → Registers)
  /-- Reads the operand and uses it, with no charge for a crossed page. -/
  | probe (use : Registers → UInt8 → Registers)
  /-- Writes a byte to the operand. -/
  | store (source : Registers → UInt8)
  /-- Replaces the operand by a function of it. -/
  | modify (change : Registers → UInt8 → Registers × UInt8)
  /-- Moves to the operand if a flag has the given value. -/
  | branch (mask : UInt8) (value : Bool)
  /-- Changes registers only. -/
  | internal (change : Registers → Registers)
  /-- Pushes a byte. -/
  | push (source : Registers → UInt8)
  /-- Pulls a byte and uses it. -/
  | pull (use : Registers → UInt8 → Registers)
  /-- Moves to the operand. -/
  | jump
  /-- Moves to the operand and remembers where to return. -/
  | call
  /-- Returns from a call. -/
  | returnFromCall
  /-- Returns from an interrupt. -/
  | returnFromInterrupt
  /-- Enters the interrupt handler as if an interrupt had occurred. -/
  | softwareInterrupt

/-- What each operation does. -/
def Mnemonic.effect : Mnemonic → Effect
  | lda => .read .loadA
  | ldx => .read .loadX
  | ldy => .read .loadY
  | adc => .read .addCarry
  | sbc => .read .subBorrow
  | and => .read fun r v => r.loadA (r.a &&& v)
  | ora => .read fun r v => r.loadA (r.a ||| v)
  | eor => .read fun r v => r.loadA (r.a ^^^ v)
  | bit => .probe .testBits
  | cmp => .read fun r v => r.compare r.a v
  | cpx => .probe fun r v => r.compare r.x v
  | cpy => .probe fun r v => r.compare r.y v
  | sta => .store (·.a)
  | stx => .store (·.x)
  | sty => .store (·.y)
  | inc => .modify Registers.increment
  | dec => .modify Registers.decrement
  | asl => .modify Registers.shiftLeft
  | lsr => .modify Registers.shiftRight
  | rol => .modify Registers.rotateLeft
  | ror => .modify Registers.rotateRight
  | bcc => .branch Flag.carry false
  | bcs => .branch Flag.carry true
  | beq => .branch Flag.zero true
  | bne => .branch Flag.zero false
  | bmi => .branch Flag.negative true
  | bpl => .branch Flag.negative false
  | bvc => .branch Flag.overflow false
  | bvs => .branch Flag.overflow true
  | tax => .internal fun r => r.loadX r.a
  | tay => .internal fun r => r.loadY r.a
  | txa => .internal fun r => r.loadA r.x
  | tya => .internal fun r => r.loadA r.y
  | tsx => .internal fun r => r.loadX r.sp
  | txs => .internal fun r => { r with sp := r.x }
  | inx => .internal fun r => r.loadX (r.x + 1)
  | iny => .internal fun r => r.loadY (r.y + 1)
  | dex => .internal fun r => r.loadX (r.x - 1)
  | dey => .internal fun r => r.loadY (r.y - 1)
  | clc => .internal (·.assign Flag.carry false)
  | sec => .internal (·.assign Flag.carry true)
  | cli => .internal (·.assign Flag.irqDisable false)
  | sei => .internal (·.assign Flag.irqDisable true)
  | cld => .internal (·.assign Flag.decimal false)
  | sed => .internal (·.assign Flag.decimal true)
  | clv => .internal (·.assign Flag.overflow false)
  | nop => .internal fun r => r
  | pha => .push (·.a)
  | php => .push (·.statusToPush true)
  | pla => .pull .loadA
  | plp => .pull .restoreStatus
  | jmp => .jump
  | jsr => .call
  | rts => .returnFromCall
  | rti => .returnFromInterrupt
  | brk => .softwareInterrupt

/-! ### Operands as values -/

/-- The byte that an operand names: in memory at its address, or else the accumulator. -/
def Operand.load (op : Operand) (r : Registers) : BusM UInt8 :=
  match op.address with
  | some addr => BusM.readByte addr
  | none => pure r.a

/-- Replaces the byte that an operand names. -/
def Operand.store (op : Operand) (r : Registers) (value : UInt8) : BusM Registers :=
  match op.address with
  | some addr => do
    BusM.writeByte addr value
    pure r
  | none => pure { r with a := value }

/-- Moves to the address of an operand. -/
def Operand.jump (op : Operand) (r : Registers) : Registers :=
  match op.address with
  | some target => r.jumpTo target
  | none => r

/-- Moves to the address of an operand if a flag has the given value, and the cycles this takes.
The program counter is at the following instruction. -/
def Operand.branch (op : Operand) (r : Registers) (mask : UInt8) (value : Bool) :
    Registers × Nat :=
  match op.address with
  | some target =>
    if r.isSet mask = value then (r.jumpTo target, if pagesDiffer target r.pc then 2 else 1)
    else (r, 0)
  | none => (r, 0)

/-- Carries out an operation on an operand: the registers afterwards, and the cycles beyond those in
the opcode matrix. -/
def Effect.perform (e : Effect) (op : Operand) (r : Registers) : BusM (Registers × Nat) :=
  match e with
  | .read use => do
    let v ← op.load r
    pure (use r v, op.penalty)
  | .probe use => do
    let v ← op.load r
    pure (use r v, 0)
  | .store source => do
    let r ← op.store r (source r)
    pure (r, 0)
  | .modify change => do
    let v ← op.load r
    let (r, v) := change r v
    let r ← op.store r v
    pure (r.updateZN v, 0)
  | .branch mask value => pure (op.branch r mask value)
  | .internal change => pure (change r, 0)
  | .push source => do
    let r ← r.push (source r)
    pure (r, 0)
  | .pull use => do
    let (v, r) ← r.pull
    pure (use r v, 0)
  | .jump => pure (op.jump r, 0)
  | .call => do
    let r ← r.pushWord (r.pc - 1)
    pure (op.jump r, 0)
  | .returnFromCall => do
    let (pc, r) ← r.pullWord
    pure (r.jumpTo (pc + 1), 0)
  | .returnFromInterrupt => do
    let (status, r) ← r.pull
    let (pc, r) ← (r.restoreStatus status).pullWord
    pure (r.jumpTo pc, 0)
  | .softwareInterrupt => do
    let r ← (r.jumpTo (r.pc + 1)).enterInterrupt irqVector true
    pure (r, 0)

end Nes
