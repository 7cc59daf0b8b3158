/-!
# Cartridge headers

A cartridge image starts with a header of sixteen bytes.  It tells how many banks of program memory
(PRG) and of picture memory (CHR) follow, how the two nametables are wired, whether a trainer stands
in front of the program, and which circuit (the mapper) decodes addresses on the cartridge.

    byte 0..3   the letters NES and the byte 0x1A
    byte 4      PRG banks of 16 KiB
    byte 5      CHR banks of 8 KiB; with none, the cartridge has 8 KiB of CHR RAM
    byte 6      bit 0: vertical mirroring, bit 2: trainer, bits 4..7: low digit of the mapper
    byte 7      bits 4..7: high digit of the mapper

The other bits and bytes are ignored, and so is the content of the trainer.

## Main definitions

* `Header`: what a header tells.
* `Header.ofFields`: reading its four bytes.
-/

namespace Nes

/-- How the two physical nametables are spread over the four windows. -/
inductive Mirroring
  /-- The upper two windows show one table and the lower two the other. -/
  | horizontal
  /-- The left two windows show one table and the right two the other. -/
  | vertical
  deriving DecidableEq, Repr, Inhabited

/-- The name of a mirroring. -/
def Mirroring.name : Mirroring → String
  | horizontal => "Horizontal"
  | vertical => "Vertical"

/-- What the header of an image tells. -/
structure Header where
  /-- The number of 16 KiB banks of program memory. -/
  prgBanks : UInt8
  /-- The number of 8 KiB banks of picture memory. -/
  chrBanks : UInt8
  /-- The number of the mapper circuit. -/
  mapperId : UInt8
  /-- The wiring of the nametables. -/
  mirroring : Mirroring
  /-- A trainer stands between the header and the program. -/
  hasTrainer : Bool
  deriving DecidableEq, Repr, Inhabited

namespace Header

/-- The bytes with which every image begins. -/
def magic : Array UInt8 := #[0x4E, 0x45, 0x53, 0x1A]

/-- The size of a header. -/
def size : Nat := 16

/-- The size of a trainer. -/
def trainerSize : Nat := 512

/-- The size of a bank of program memory. -/
def prgBankSize : Nat := 0x4000

/-- The size of a bank of picture memory. -/
def chrBankSize : Nat := 0x2000

/-- The header with the given bytes four to seven. -/
def ofFields (prgBanks chrBanks flags6 flags7 : UInt8) : Header where
  prgBanks := prgBanks
  chrBanks := chrBanks
  mapperId := (flags7 &&& (0xF0 : UInt8)) ||| (flags6 >>> (4 : UInt8))
  mirroring := if flags6 &&& 0x01 = 0 then .horizontal else .vertical
  hasTrainer := flags6 &&& 0x04 != 0

/-- The header that the first sixteen bytes of an image spell. -/
def ofBytes (bytes : Array UInt8) : Header :=
  ofFields (bytes.getD 4 0) (bytes.getD 5 0) (bytes.getD 6 0) (bytes.getD 7 0)

/-- The cartridge has picture RAM, because its image brings no picture ROM. -/
def chrIsRam (h : Header) : Bool := h.chrBanks == 0

/-- The size of the trainer in the image. -/
def trainerLength (h : Header) : Nat := if h.hasTrainer then trainerSize else 0

/-- The size of the program memory in the image. -/
def prgLength (h : Header) : Nat := h.prgBanks.toNat * prgBankSize

/-- The size of the picture ROM in the image. -/
def chrLength (h : Header) : Nat := h.chrBanks.toNat * chrBankSize

end Header

end Nes
