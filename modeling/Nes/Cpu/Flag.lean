/-!
# Processor status flags

The status register holds one flag per bit:

    bit   7         6         5       4             3        2           1     0
    flag  negative  overflow  unused  breakCommand  decimal  irqDisable  zero  carry

Two of the bits are no flags of the running processor.  The unused bit reads as set, and the break
bit exists only in the copies of the register that are pushed on the stack, where it tells a
software interrupt from a hardware one.  Decimal mode can be set and cleared, but this processor
adds and subtracts in binary whatever its value.

Flags are kept as masks, so that several can be tested or assigned at once.
-/

namespace Nes.Flag

/-- The carry out of an addition or a shift; for a subtraction, that no borrow was needed. -/
def carry : UInt8 := 0x01

/-- The last result was zero. -/
def zero : UInt8 := 0x02

/-- Maskable interrupts are not taken. -/
def irqDisable : UInt8 := 0x04

/-- Decimal mode, which has no effect. -/
def decimal : UInt8 := 0x08

/-- The pushed status comes from an instruction and not from a hardware interrupt. -/
def breakCommand : UInt8 := 0x10

/-- The bit without a meaning, which is always set. -/
def unused : UInt8 := 0x20

/-- The last addition or subtraction left the signed range. -/
def overflow : UInt8 := 0x40

/-- Bit seven of the last result. -/
def negative : UInt8 := 0x80

end Nes.Flag
