import Nes.Cartridge.Header

/-!
# Cartridge images

An image is the header, the trainer if there is one, the program memory and the picture ROM, one
after the other.  Bytes after the last part are ignored.

Reading an image goes through its parts in that order and reports the first that is missing or cut
short, with the size it should have and the number of bytes that are left for it.

## Main definitions

* `Image`, `Image.toBytes`: the parts of an image, and how they are laid out.
* `Contents`, `Contents.ofBytes`: what an image holds for a cartridge, and how it is read.
* `Malformation`: the ways in which bytes are no image.
-/

namespace Nes

/-- The parts of an image that can be cut short. -/
inductive ImagePart
  | header | trainer | prgRom | chrRom
  deriving DecidableEq, Repr

/-- The name of a part. -/
def ImagePart.name : ImagePart → String
  | header => "header"
  | trainer => "trainer"
  | prgRom => "PRG ROM"
  | chrRom => "CHR ROM"

/-- The ways in which bytes are no image. -/
inductive Malformation
  /-- The first four bytes are not those of an image. -/
  | badMagic
  /-- A part is shorter than the header says. -/
  | truncated (part : ImagePart) (needed available : Nat)
  deriving DecidableEq, Repr

/-- The wording of a malformation. -/
def Malformation.message : Malformation → String
  | badMagic => "invalid iNES magic (expected \"NES\\x1A\")"
  | truncated part needed available =>
    "truncated " ++ part.name ++ ": need " ++ toString needed ++ " bytes, " ++
      toString available ++ " available"

/-- The parts of an image, with the ignored bytes of its header. -/
structure Image where
  /-- Byte 4 of the header. -/
  prgBanks : UInt8
  /-- Byte 5 of the header. -/
  chrBanks : UInt8
  /-- Byte 6 of the header. -/
  flags6 : UInt8
  /-- Byte 7 of the header. -/
  flags7 : UInt8
  /-- Bytes 8 to 15 of the header. -/
  padding : Vector UInt8 8
  /-- The trainer. -/
  trainer : Array UInt8
  /-- The program memory. -/
  prg : Array UInt8
  /-- The picture ROM. -/
  chr : Array UInt8

namespace Image

/-- What the header of an image tells. -/
def header (i : Image) : Header := .ofFields i.prgBanks i.chrBanks i.flags6 i.flags7

/-- The bytes of the header. -/
def headerBytes (i : Image) : Array UInt8 :=
  Header.magic ++ #[i.prgBanks, i.chrBanks, i.flags6, i.flags7] ++ i.padding.toArray

/-- The bytes of an image. -/
def toBytes (i : Image) : Array UInt8 := i.headerBytes ++ i.trainer ++ i.prg ++ i.chr

theorem size_headerBytes (i : Image) : i.headerBytes.size = Header.size := by
  simp [headerBytes, Header.magic, Header.size]

/-- The parts have the sizes that the header declares. -/
def WellSized (i : Image) : Prop :=
  i.trainer.size = i.header.trainerLength ∧ i.prg.size = i.header.prgLength ∧
    i.chr.size = i.header.chrLength

instance (i : Image) : Decidable i.WellSized := inferInstanceAs (Decidable (_ ∧ _ ∧ _))

end Image

/-- What an image holds for a cartridge. -/
structure Contents where
  /-- The header. -/
  header : Header
  /-- The program memory. -/
  prg : Array UInt8
  /-- The picture ROM, empty on a cartridge with picture RAM. -/
  chrRom : Array UInt8
  deriving DecidableEq, Repr

/-- Blank program memory of one bank, picture RAM and horizontal mirroring. -/
def Contents.blank : Contents where
  header := .ofFields 1 0 0 0
  prg := .replicate Header.prgBankSize 0
  chrRom := #[]

/-- The part of `length` bytes at an offset. -/
def ImagePart.extract (part : ImagePart) (image : Array UInt8) (offset length : Nat) :
    Except Malformation (Array UInt8) :=
  if offset + length ≤ image.size then .ok (image.extract offset (offset + length))
  else .error (.truncated part length (image.size - offset))

/-- What an image holds, or the first fault in it. -/
def Contents.ofBytes (image : Array UInt8) : Except Malformation Contents := do
  let head ← ImagePart.header.extract image 0 Header.size
  if head.extract 0 4 = Header.magic then
    let header := Header.ofBytes head
    let trainerStart := Header.size
    let prgStart := trainerStart + header.trainerLength
    let chrStart := prgStart + header.prgLength
    let _ ← ImagePart.trainer.extract image trainerStart header.trainerLength
    let prg ← ImagePart.prgRom.extract image prgStart header.prgLength
    let chrRom ← ImagePart.chrRom.extract image chrStart header.chrLength
    return ⟨header, prg, chrRom⟩
  else
    throw .badMagic

end Nes
