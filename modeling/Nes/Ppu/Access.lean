import Nes.Cartridge.Basic
import Nes.Event
import Nes.Ppu.Basic
import Nes.Ppu.Register

/-!
# Access to the picture unit

The picture unit reaches its memory through the cartridge, which may claim an address; what it does
not claim lies in the memory inside the unit.  The processor reaches the unit through registers.

Picture memory is read through the data register with a delay of one access: the register gives the
byte that was read ahead by the access before, except in the palette, which answers at once.  The
scroll and the address register take two bytes in turn and share one note of whose turn it is;
reading the status register makes the next byte a first one.

## Main definitions

* `Ppu.readVideo`, `Ppu.writeVideo`: access to picture memory by address.
* `Ppu.readRegister`, `Ppu.peekRegister`, `Ppu.writeRegister`: access through a register.
-/

namespace Nes.Ppu

/-! ### Picture memory -/

/-- The byte in a cell as it is read.  The palette holds six bits, of which the hue is left out in
greyscale. -/
def readCell (p : Ppu) (cell : Cell) : UInt8 :=
  match cell with
  | .palette _ => p.memory.get cell &&& (if p.mask.greyscale then 0x30 else 0x3F)
  | _ => p.memory.get cell

/-- The byte at an address of picture memory. -/
def readVideo (p : Ppu) (cart : Cartridge) (addr : UInt16) : UInt8 :=
  let addr := addr &&& videoMask
  match cart.readChr? addr with
  | some value => value
  | none => p.readCell (.ofAddress cart.header.mirroring addr)

/-- Stores a byte at an address of picture memory. -/
def writeVideo (p : Ppu) (cart : Cartridge) (addr : UInt16) (value : UInt8) : Ppu × Cartridge :=
  let addr := addr &&& videoMask
  match cart.writeChr? addr value with
  | some cart => (p, cart)
  | none =>
    let cell := Cell.ofAddress cart.header.mirroring addr
    ({ p with memory := p.memory.set cell value }, cart)

/-- What a write to picture memory tells: that it went to a pattern table which the cartridge does
not have. -/
def writeVideoEvents (cart : Cartridge) (addr : UInt16) (value : UInt8) : List Event :=
  let addr := addr &&& videoMask
  match cart.chrWriteCell? addr, Cell.ofAddress cart.header.mirroring addr with
  | none, .pattern _ => [.patternWriteKept addr value]
  | _, _ => []

/-! ### Registers -/

/-- The byte of the status register.  Its low bits show what was last on the data bus. -/
def statusByte (p : Ppu) : UInt8 := (p.status.bits &&& 0xE0) ||| (p.readBuffer &&& 0x1F)

/-- The palette begins here. -/
def paletteStart : UInt16 := 0x3F00

/-- The address in picture memory after an access through the data register. -/
def nextVideoAddress (p : Ppu) : UInt16 := (p.videoAddress + p.control.stride) &&& videoMask

/-- The byte of sprite memory at the current address. -/
def oamByte (p : Ppu) : UInt8 := p.oam[p.oamAddress.toFin]

/-- Reads a register: the byte it gives, and the picture unit afterwards.  Reading the status
register acknowledges the vertical blank.  Reading the data register reads ahead and moves on. -/
def readRegister (p : Ppu) (cart : Cartridge) (register : Register) : UInt8 × Ppu :=
  match register with
  | .status =>
    (p.statusByte, { p with status := p.status.clearVblank, secondWrite := false })
  | .oamData => (p.oamByte, p)
  | .videoData =>
    let fetched := p.readVideo cart p.videoAddress
    let shown := if p.videoAddress < paletteStart then p.readBuffer else fetched
    (shown, { p with readBuffer := fetched, videoAddress := p.nextVideoAddress })
  | _ => (0, p)

/-- The byte that a register would give, without the effects of reading it. -/
def peekRegister (p : Ppu) (cart : Cartridge) (register : Register) : UInt8 :=
  match register with
  | .status => p.statusByte
  | .oamData => p.oamByte
  | .videoData =>
    if paletteStart ≤ p.videoAddress then p.readVideo cart p.videoAddress else p.readBuffer
  | _ => 0

/-- Takes a byte of the scroll position. -/
def writeScroll (p : Ppu) (value : UInt8) : Ppu :=
  if p.secondWrite then { p with scrollY := value, secondWrite := false }
  else { p with scrollX := value, secondWrite := true }

/-- Takes a byte of the address in picture memory. -/
def writeAddress (p : Ppu) (value : UInt8) : Ppu :=
  if p.secondWrite then
    { p with
      videoAddress := (p.videoAddress &&& 0xFF00) ||| value.toUInt16
      secondWrite := false }
  else
    { p with
      videoAddress := ((value.toUInt16 &&& 0x3F) <<< 8) ||| (p.videoAddress &&& 0x00FF)
      secondWrite := true }

/-- Writes to a register. -/
def writeRegister (p : Ppu) (cart : Cartridge) (register : Register) (value : UInt8) :
    Ppu × Cartridge :=
  match register with
  | .control => ({ p with control := ⟨value⟩ }, cart)
  | .mask => ({ p with mask := ⟨value⟩ }, cart)
  | .status => (p, cart)
  | .oamAddress => ({ p with oamAddress := value }, cart)
  | .oamData =>
    ({ p with oam := p.oam.set p.oamAddress.toFin value, oamAddress := p.oamAddress + 1 }, cart)
  | .scroll => (p.writeScroll value, cart)
  | .videoAddress => (p.writeAddress value, cart)
  | .videoData =>
    let addr := p.videoAddress
    let next := p.nextVideoAddress
    let (p, cart) := p.writeVideo cart addr value
    ({ p with videoAddress := next }, cart)

/-- What a write to a register tells. -/
def writeRegisterEvents (p : Ppu) (cart : Cartridge) (register : Register) (value : UInt8) :
    List Event :=
  match register with
  | .videoData => writeVideoEvents cart p.videoAddress value
  | _ => []

end Nes.Ppu
