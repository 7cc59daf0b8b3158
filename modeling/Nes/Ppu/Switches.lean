/-!
# Switch registers

Three registers of the picture unit are collections of switches, one per bit.  Two are set by the
processor: one controls how the processor reaches picture memory and whether it is interrupted at
the vertical blank, the other which parts of the picture are shown and how.  The third is set by the
unit itself and tells its state.

## Main definitions

* `Ppu.Control`, `Ppu.Mask`, `Ppu.Status`: the registers, with the switches that matter.
* `Ppu.switchText`: the names of the switches that are on.
-/

namespace Nes.Ppu

/-- A register of switches as text: the names of those that are on, from the lowest bit up. -/
def switchText (kind : String) (switches : List (UInt8 × String)) (bits : UInt8) : String :=
  let on := switches.filter fun (mask, _) => bits &&& mask != 0
  let names := if on.isEmpty then "0x0" else " | ".intercalate (on.map (·.2))
  kind ++ "(" ++ names ++ ")"

/-- The control register. -/
structure Control where
  /-- The switches. -/
  bits : UInt8 := 0
  deriving DecidableEq, Repr, Inhabited

namespace Control

/-- The names of the switches. -/
def switches : List (UInt8 × String) :=
  [(0x01, "NAMETABLE_X"), (0x02, "NAMETABLE_Y"), (0x04, "INCREMENT_32"), (0x08, "SPRITE_PATTERN"),
   (0x10, "BACKGROUND_PATTERN"), (0x20, "SPRITE_SIZE"), (0x40, "SLAVE_MODE"), (0x80, "NMI_ENABLE")]

/-- The processor is interrupted when the vertical blank begins. -/
def nmiEnabled (c : Control) : Bool := c.bits &&& 0x80 != 0

/-- How far the video address moves on with each access to picture memory. -/
def stride (c : Control) : UInt16 := if c.bits &&& 0x04 = 0 then 1 else 32

/-- Debugging text of the register. -/
def describe (c : Control) : String := switchText "Control" switches c.bits

end Control

/-- The mask register. -/
structure Mask where
  /-- The switches. -/
  bits : UInt8 := 0
  deriving DecidableEq, Repr, Inhabited

namespace Mask

/-- The names of the switches. -/
def switches : List (UInt8 × String) :=
  [(0x01, "GREYSCALE"), (0x02, "SHOW_BACKGROUND_LEFT"), (0x04, "SHOW_SPRITES_LEFT"),
   (0x08, "SHOW_BACKGROUND"), (0x10, "SHOW_SPRITES"), (0x20, "EMPHASIZE_RED"),
   (0x40, "EMPHASIZE_GREEN"), (0x80, "EMPHASIZE_BLUE")]

/-- Colours are shown without hue. -/
def greyscale (m : Mask) : Bool := m.bits &&& 0x01 != 0

/-- Debugging text of the register. -/
def describe (m : Mask) : String := switchText "Mask" switches m.bits

end Mask

/-- The status register. -/
structure Status where
  /-- The switches. -/
  bits : UInt8 := 0
  deriving DecidableEq, Repr, Inhabited

namespace Status

/-- The names of the switches. -/
def switches : List (UInt8 × String) :=
  [(0x20, "SPRITE_OVERFLOW"), (0x40, "SPRITE_ZERO_HIT"), (0x80, "VBLANK")]

/-- The vertical blank has begun and was not noticed yet. -/
def vblank (s : Status) : Bool := s.bits &&& 0x80 != 0

/-- Notes that the vertical blank has begun. -/
def setVblank (s : Status) : Status := ⟨s.bits ||| 0x80⟩

/-- Notes that the vertical blank has ended or was noticed. -/
def clearVblank (s : Status) : Status := ⟨s.bits &&& ~~~0x80⟩

/-- Debugging text of the register. -/
def describe (s : Status) : String := switchText "Status" switches s.bits

end Status

end Nes.Ppu
