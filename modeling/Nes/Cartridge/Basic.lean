import Nes.Cartridge.Image
import Nes.Cartridge.Mapper
import Nes.Checksum.Crc32
import Nes.Event
import Nes.Text.Numeral
import Nes.Text.Record

/-!
# Cartridges

A cartridge is a program memory, a picture memory and the mapper that decodes their addresses.
Loading one reads an image, picks the mapper that the header names, and computes a check value over
the program memory and the picture ROM, so that images can be identified.  Picture RAM starts blank
and does not enter the check value.

An offset that the mapper gives may lie outside a memory, since a header can declare no program
banks.  Such an address is not claimed by the cartridge.

## Main definitions

* `Cartridge`, `Cartridge.load`, `LoadError`.
* `Cartridge.readPrg?`, `Cartridge.writePrg?`: access by the processor.
* `Cartridge.readChr?`, `Cartridge.writeChr?`: access by the picture unit.
-/

namespace Nes

/-- A loaded cartridge. -/
structure Cartridge where
  /-- What the header of its image told. -/
  header : Header
  /-- The decoding of addresses. -/
  mapper : Mapper
  /-- The program memory. -/
  prg : Array UInt8
  /-- The picture memory. -/
  chr : Array UInt8
  /-- The check value of the image it was loaded from. -/
  checksum : UInt32
  deriving DecidableEq, Repr

/-- Why bytes do not make a cartridge. -/
inductive LoadError
  /-- They are no image. -/
  | malformed (why : Malformation)
  /-- The mapper that the header names is unknown. -/
  | unsupportedMapper (id : UInt8)
  deriving DecidableEq, Repr

namespace LoadError

/-- The wording of an error. -/
def message : LoadError → String
  | malformed why => "malformed ROM image: " ++ why.message
  | unsupportedMapper id => "unsupported mapper id " ++ toString id.toNat

/-- The wording of what lies behind an error. -/
def causes : LoadError → List String
  | malformed why => [why.message]
  | unsupportedMapper _ => []

end LoadError

namespace Cartridge

/-- The check value of the contents of an image. -/
def checksumOf (c : Contents) : UInt32 :=
  Crc32.finish (Crc32.feedAll (Crc32.feedAll Crc32.start c.prg) c.chrRom)

/-- The picture memory that a cartridge starts with. -/
def initialChr (c : Contents) : Array UInt8 :=
  if c.header.chrIsRam then .replicate Header.chrBankSize 0 else c.chrRom

/-- The cartridge with the given mapper and contents. -/
def assemble (mapper : Mapper) (c : Contents) : Cartridge where
  header := c.header
  mapper := mapper
  prg := c.prg
  chr := initialChr c
  checksum := checksumOf c

/-- The cartridge with the given contents, or the reason why there is none. -/
def ofContents (c : Contents) : Except LoadError Cartridge :=
  match Mapper.ofHeader? c.header with
  | some mapper => .ok (assemble mapper c)
  | none => .error (.unsupportedMapper c.header.mapperId)

/-- A cartridge without a program: one blank bank and picture RAM. -/
def blank : Cartridge := assemble (.nrom 1 true) .blank

/-- The cartridge of an image, or the first reason why there is none. -/
def load (image : Array UInt8) : Except LoadError Cartridge :=
  match Contents.ofBytes image with
  | .ok contents => ofContents contents
  | .error why => .error (.malformed why)

/-- The check value is that of the program memory followed by the picture ROM. -/
theorem checksumOf_eq (c : Contents) : checksumOf c = Crc32.checksum (c.prg ++ c.chrRom) := by
  rw [checksumOf, Crc32.checksum, Crc32.feedAll_append]

/-- What loading a cartridge tells. -/
def loadEvent (c : Cartridge) : Event := .cartridgeLoaded c.header c.checksum

/-! ### Access by the processor -/

/-- The cell of program memory that a processor address names, if it names one. -/
def prgCell? (c : Cartridge) (addr : UInt16) : Option Nat :=
  (c.mapper.prgOffset? addr).filter (· < c.prg.size)

/-- The byte of program memory at a processor address. -/
def readPrg? (c : Cartridge) (addr : UInt16) : Option UInt8 :=
  (c.prgCell? addr).map (c.prg.getD · 0)

/-- Stores a byte in a cell of program memory. -/
def setPrg (c : Cartridge) (cell : Nat) (value : UInt8) : Cartridge :=
  { c with prg := c.prg.setIfInBounds cell value }

/-- The cartridge after a write by the processor; none if it does not claim the address. -/
def writePrg? (c : Cartridge) (addr : UInt16) (value : UInt8) : Option Cartridge :=
  (c.prgCell? addr).map (c.setPrg · value)

/-! ### Access by the picture unit -/

/-- The cell of picture memory that is read at a picture address, if there is one. -/
def chrCell? (c : Cartridge) (addr : UInt16) : Option Nat :=
  (c.mapper.chrReadOffset? addr).filter (· < c.chr.size)

/-- The cell of picture memory that is written at a picture address, if there is one. -/
def chrWriteCell? (c : Cartridge) (addr : UInt16) : Option Nat :=
  (c.mapper.chrWriteOffset? addr).filter (· < c.chr.size)

/-- The byte of picture memory at a picture address. -/
def readChr? (c : Cartridge) (addr : UInt16) : Option UInt8 :=
  (c.chrCell? addr).map (c.chr.getD · 0)

/-- Stores a byte in a cell of picture memory. -/
def setChr (c : Cartridge) (cell : Nat) (value : UInt8) : Cartridge :=
  { c with chr := c.chr.setIfInBounds cell value }

/-- The cartridge after a write by the picture unit; none if it does not claim the address. -/
def writeChr? (c : Cartridge) (addr : UInt16) (value : UInt8) : Option Cartridge :=
  (c.chrWriteCell? addr).map (c.setChr · value)

/-- A cartridge that takes a byte stores it in a cell. -/
theorem exists_setChr_of_writeChr? {c c' : Cartridge} {addr : UInt16} {value : UInt8}
    (h : c.writeChr? addr value = some c') :
    ∃ cell, c.chrWriteCell? addr = some cell ∧ c' = c.setChr cell value := by
  obtain ⟨cell, hcell, rfl⟩ := Option.map_eq_some_iff.1 h
  exact ⟨cell, hcell, rfl⟩

/-! ### Text -/

/-- Debugging text of a cartridge. -/
def describe (c : Cartridge) : String :=
  Record.render "Cartridge"
    [("mapper_id", toString c.mapper.id.toNat),
     ("mirroring", c.header.mirroring.name),
     ("prg_banks", toString c.header.prgBanks.toNat),
     ("chr_banks", toString c.header.chrBanks.toNat),
     ("chr_is_ram", toString c.header.chrIsRam),
     ("has_trainer", toString c.header.hasTrainer),
     ("checksum", Numeral.hex 8 c.checksum.toNat)]

end Cartridge

end Nes
