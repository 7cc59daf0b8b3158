import Nes.Console.Basic

/-!
# The built-in program

Without a cartridge image the command line runs a program of its own on a blank cartridge.  It
multiplies ten by three by adding three ten times, stores the product at `0x0002` and then jumps to
where it is for ever.

## Main definitions

* `Demo.program`, `Demo.console`.
-/

namespace Nes.Demo

/-- Loads the factors: `LDX #10`, `STX $0000`, `LDX #3`, `STX $0001`. -/
def storeFactors : List UInt8 := [0xA2, 0x0A, 0x8E, 0x00, 0x00, 0xA2, 0x03, 0x8E, 0x01, 0x00]

/-- Counts with one factor and starts the sum: `LDY $0000`, `LDA #0`, `CLC`. -/
def startSum : List UInt8 := [0xAC, 0x00, 0x00, 0xA9, 0x00, 0x18]

/-- Adds the other factor as often: `ADC $0001`, `DEY`, `BNE` back to the addition. -/
def addLoop : List UInt8 := [0x6D, 0x01, 0x00, 0x88, 0xD0, 0xFA]

/-- Stores the product: `STA $0002`, and three times `NOP`. -/
def storeProduct : List UInt8 := [0x8D, 0x02, 0x00, 0xEA, 0xEA, 0xEA]

/-- The multiplication. -/
def multiply : List UInt8 := storeFactors ++ startSum ++ addLoop ++ storeProduct

/-- The address after the multiplication. -/
def parkAddress : UInt16 := Console.programStart + UInt16.ofNat multiply.length

/-- The multiplication and a jump to itself. -/
def program : Array UInt8 :=
  (multiply ++ [0x4C, parkAddress.toUInt8, (parkAddress >>> 8).toUInt8]).toArray

/-- The address of the product. -/
def productAddress : UInt16 := 0x0002

/-- A console with the program. -/
def console : Console := ((Console.powerOn .blank).loadProgram program).1

end Nes.Demo
