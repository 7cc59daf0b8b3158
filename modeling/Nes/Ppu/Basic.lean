import Nes.Ppu.Beam
import Nes.Ppu.Switches
import Nes.Ppu.VideoMemory
import Nes.Text.Numeral
import Nes.Text.Record

/-!
# The picture unit

The picture unit keeps picture memory, sprite memory and what the processor set in its registers,
and it counts dots.  At the beginning of the vertical blank it sets a status switch and, if that is
enabled, requests an interrupt; at the end of a frame it notes that the frame is complete.  It draws
no picture: what would be on the screen can be asked for tile by tile and colour by colour.

## Main definitions

* `Ppu`, `Ppu.dot`: the state, and one cycle.
* `Ppu.takeNmiRequest`, `Ppu.takeFrameComplete`: the two signals to the rest of the machine.
-/

namespace Nes

/-- The picture unit. -/
structure Ppu where
  /-- The control register. -/
  control : Ppu.Control
  /-- The mask register. -/
  mask : Ppu.Mask
  /-- The status register. -/
  status : Ppu.Status
  /-- The address in sprite memory. -/
  oamAddress : UInt8
  /-- The horizontal scroll position. -/
  scrollX : UInt8
  /-- The vertical scroll position. -/
  scrollY : UInt8
  /-- The next write to a register that takes two bytes is the second of a pair. -/
  secondWrite : Bool
  /-- The address in picture memory. -/
  videoAddress : UInt16
  /-- The byte that was read ahead from picture memory. -/
  readBuffer : UInt8
  /-- The picture memory. -/
  memory : Ppu.VideoMemory
  /-- The sprite memory. -/
  oam : Vector UInt8 256
  /-- The dot that is drawn next. -/
  beam : Beam
  /-- An interrupt is requested. -/
  nmiRequest : Bool
  /-- A frame was completed and nobody asked since. -/
  frameComplete : Bool
  /-- The number of completed frames. -/
  frameCount : Nat
  deriving DecidableEq, Repr

namespace Ppu

/-- The picture unit when power is switched on. -/
def powerOn : Ppu where
  control := {}
  mask := {}
  status := {}
  oamAddress := 0
  scrollX := 0
  scrollY := 0
  secondWrite := false
  videoAddress := 0
  readBuffer := 0
  memory := .blank
  oam := .replicate _ 0
  beam := {}
  nmiRequest := false
  frameComplete := false
  frameCount := 0

/-- The status after the next dot. -/
def statusAfterDot (p : Ppu) : Status :=
  if p.beam.leavesVblank then p.status.clearVblank
  else if p.beam.entersVblank then p.status.setVblank
  else p.status

/-- The next dot requests an interrupt. -/
def raisesNmi (p : Ppu) : Bool := p.beam.entersVblank && p.control.nmiEnabled

/-- Draws the next dot. -/
def dot (p : Ppu) : Ppu :=
  { p with
    status := p.statusAfterDot
    nmiRequest := p.nmiRequest || p.raisesNmi
    frameComplete := p.frameComplete || p.beam.endsFrame
    frameCount := p.frameCount + p.beam.endsFrame.toNat
    beam := p.beam.advance }

/-- Whether an interrupt was requested, and the picture unit with the request withdrawn. -/
def takeNmiRequest (p : Ppu) : Bool × Ppu := (p.nmiRequest, { p with nmiRequest := false })

/-- Whether a frame was completed, and the picture unit with the note removed. -/
def takeFrameComplete (p : Ppu) : Bool × Ppu :=
  (p.frameComplete, { p with frameComplete := false })

/-- Debugging text of the picture unit. -/
def describe (p : Ppu) : String :=
  Record.renderPartial "Ppu"
    [("ctrl", p.control.describe),
     ("mask", p.mask.describe),
     ("status", p.status.describe),
     ("vram_addr", "$" ++ Numeral.hexWord p.videoAddress),
     ("scanline", toString p.beam.scanline),
     ("cycle", toString p.beam.cycle),
     ("frame_count", toString p.frameCount)]

end Ppu

end Nes
