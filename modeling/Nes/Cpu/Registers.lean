import Nes.Cpu.Flag
import Nes.Cpu.Operand

/-!
# Registers

The processor has an accumulator, two index registers, a stack pointer and a status register of
eight bits each, and a program counter of sixteen bits.

## Main definitions

* `Registers`.
* `Registers.isSet`, `Registers.assign`, `Registers.updateZN`: reading and setting flags.
* `Registers.statusToPush`, `Registers.restoreStatus`: the status on the stack.
-/

namespace Nes

/-- The registers of the processor; the default is their state when power is switched on. -/
structure Registers where
  /-- The accumulator. -/
  a : UInt8 := 0
  /-- The first index register. -/
  x : UInt8 := 0
  /-- The second index register. -/
  y : UInt8 := 0
  /-- The low byte of the address of the first free stack cell. -/
  sp : UInt8 := 0xFD
  /-- The address of the next instruction. -/
  pc : UInt16 := 0
  /-- The flags. -/
  status : UInt8 := Flag.irqDisable ||| Flag.unused
  deriving DecidableEq, Repr, Inhabited

namespace Registers

/-- Whether any flag of a mask is set. -/
def isSet (r : Registers) (mask : UInt8) : Bool := r.status &&& mask != 0

/-- Sets or clears all flags of a mask. -/
def assign (r : Registers) (mask : UInt8) (on : Bool) : Registers :=
  { r with status := if on then r.status ||| mask else r.status &&& ~~~mask }

/-- Sets the zero and negative flags as a result demands. -/
def updateZN (r : Registers) (result : UInt8) : Registers :=
  (r.assign Flag.zero (result == 0)).assign Flag.negative (result &&& 0x80 != 0)

/-- The status as it is pushed on the stack, by an instruction or by a hardware interrupt. -/
def statusToPush (r : Registers) (byInstruction : Bool) : UInt8 :=
  let status := r.status ||| Flag.unused
  if byInstruction then status ||| Flag.breakCommand else status &&& ~~~Flag.breakCommand

/-- Takes over a status byte from the stack. -/
def restoreStatus (r : Registers) (byte : UInt8) : Registers :=
  { r with status := (byte &&& ~~~Flag.breakCommand) ||| Flag.unused }

/-- The address of the first free stack cell. -/
def stackAddress (r : Registers) : UInt16 := 0x0100 ||| r.sp.toUInt16

/-- Goes on at another address. -/
def jumpTo (r : Registers) (target : UInt16) : Registers := { r with pc := target }

/-! ### What assigning flags leaves alone -/

@[simp] theorem a_assign (r : Registers) (mask : UInt8) (on : Bool) :
    (r.assign mask on).a = r.a := rfl

@[simp] theorem x_assign (r : Registers) (mask : UInt8) (on : Bool) :
    (r.assign mask on).x = r.x := rfl

@[simp] theorem y_assign (r : Registers) (mask : UInt8) (on : Bool) :
    (r.assign mask on).y = r.y := rfl

@[simp] theorem sp_assign (r : Registers) (mask : UInt8) (on : Bool) :
    (r.assign mask on).sp = r.sp := rfl

@[simp] theorem pc_assign (r : Registers) (mask : UInt8) (on : Bool) :
    (r.assign mask on).pc = r.pc := rfl

end Registers

end Nes
