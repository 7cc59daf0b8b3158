import Nes.Cpu.Registers

/-!
# Arithmetic and logic

The operations on the accumulator and on single bytes, as functions of the registers.  Arithmetic is
binary: decimal mode has no effect.  Subtraction is addition of the complement, so that the carry
means that no borrow was needed.

## Main definitions

* `Registers.addCarry`, `Registers.subBorrow`: addition and subtraction through the carry.
* `Registers.compare`, `Registers.testBits`: operations that only set flags.
* `Registers.increment`, `Registers.decrement`, `Registers.shiftLeft`, `Registers.shiftRight`,
  `Registers.rotateLeft`, `Registers.rotateRight`: operations on a byte in place, which return the
  new byte beside the registers with the new carry.
-/

namespace Nes.Registers

/-- Loads the accumulator. -/
def loadA (r : Registers) (v : UInt8) : Registers := { r with a := v }.updateZN v

/-- Loads the first index register. -/
def loadX (r : Registers) (v : UInt8) : Registers := { r with x := v }.updateZN v

/-- Loads the second index register. -/
def loadY (r : Registers) (v : UInt8) : Registers := { r with y := v }.updateZN v

/-- Adds a byte and the carry to the accumulator.  The addition has overflowed if both summands
have the sign that the sum has not. -/
def addCarry (r : Registers) (v : UInt8) : Registers :=
  let sum := r.a.toUInt16 + v.toUInt16 + (r.isSet Flag.carry).toUInt16
  let result := sum.toUInt8
  let overflowed := ~~~(r.a ^^^ v) &&& (r.a ^^^ result) &&& 0x80 != 0
  ((r.assign Flag.carry (0xFF < sum)).assign Flag.overflow overflowed).loadA result

/-- Subtracts a byte, and one more if the carry is clear, from the accumulator. -/
def subBorrow (r : Registers) (v : UInt8) : Registers := r.addCarry (v ^^^ 0xFF)

/-- Sets flags as the difference of a register and a byte demands. -/
def compare (r : Registers) (register v : UInt8) : Registers :=
  (r.assign Flag.carry (v ≤ register)).updateZN (register - v)

/-- Copies the two highest bits of a byte to the flags, and tells whether it has a bit in common
with the accumulator. -/
def testBits (r : Registers) (v : UInt8) : Registers :=
  ((r.assign Flag.zero (r.a &&& v == 0)).assign Flag.negative (v &&& 0x80 != 0)).assign
    Flag.overflow (v &&& 0x40 != 0)

/-- Adds one to a byte; the carry stays as it is. -/
def increment (r : Registers) (v : UInt8) : Registers × UInt8 := (r, v + 1)

/-- Subtracts one from a byte; the carry stays as it is. -/
def decrement (r : Registers) (v : UInt8) : Registers × UInt8 := (r, v - 1)

/-- Shifts a byte to the left, the highest bit into the carry. -/
def shiftLeft (r : Registers) (v : UInt8) : Registers × UInt8 :=
  (r.assign Flag.carry (v &&& 0x80 != 0), v <<< 1)

/-- Shifts a byte to the right, the lowest bit into the carry. -/
def shiftRight (r : Registers) (v : UInt8) : Registers × UInt8 :=
  (r.assign Flag.carry (v &&& 0x01 != 0), v >>> 1)

/-- Rotates a byte to the left through the carry. -/
def rotateLeft (r : Registers) (v : UInt8) : Registers × UInt8 :=
  (r.assign Flag.carry (v &&& 0x80 != 0), (v <<< 1) ||| (r.isSet Flag.carry).toUInt8)

/-- Rotates a byte to the right through the carry. -/
def rotateRight (r : Registers) (v : UInt8) : Registers × UInt8 :=
  (r.assign Flag.carry (v &&& 0x01 != 0), (v >>> 1) ||| ((r.isSet Flag.carry).toUInt8 <<< 7))

end Nes.Registers
