import Nes.Ppu.Access

/-!
# Colours

The picture unit can show sixty-four colours.  A palette entry names one by its number.  There are
eight palettes of four entries, four for the background and four for sprites.

## Main definitions

* `Ppu.Rgb`, `Ppu.systemPalette`: the colours.
* `Ppu.colour`: the colour of a pixel in a palette.
-/

namespace Nes.Ppu

/-- A colour by its parts of red, green and blue. -/
structure Rgb where
  /-- The part of red. -/
  red : UInt8
  /-- The part of green. -/
  green : UInt8
  /-- The part of blue. -/
  blue : UInt8
  deriving DecidableEq, Repr, Inhabited

/-- The colours that the picture unit can show: four brightnesses of sixteen hues, of which the last
ones are black. -/
def systemPalette : Vector Rgb 64 := #v[
  -- brightness 0
  ⟨84, 84, 84⟩, ⟨0, 30, 116⟩, ⟨8, 16, 144⟩, ⟨48, 0, 136⟩,
  ⟨68, 0, 100⟩, ⟨92, 0, 48⟩, ⟨84, 4, 0⟩, ⟨60, 24, 0⟩,
  ⟨32, 42, 0⟩, ⟨8, 58, 0⟩, ⟨0, 64, 0⟩, ⟨0, 60, 0⟩,
  ⟨0, 50, 60⟩, ⟨0, 0, 0⟩, ⟨0, 0, 0⟩, ⟨0, 0, 0⟩,
  -- brightness 1
  ⟨152, 150, 152⟩, ⟨8, 76, 196⟩, ⟨48, 50, 236⟩, ⟨92, 30, 228⟩,
  ⟨136, 20, 176⟩, ⟨160, 20, 100⟩, ⟨152, 34, 32⟩, ⟨120, 60, 0⟩,
  ⟨84, 90, 0⟩, ⟨40, 114, 0⟩, ⟨8, 124, 0⟩, ⟨0, 118, 40⟩,
  ⟨0, 102, 120⟩, ⟨0, 0, 0⟩, ⟨0, 0, 0⟩, ⟨0, 0, 0⟩,
  -- brightness 2
  ⟨236, 238, 236⟩, ⟨76, 154, 236⟩, ⟨120, 124, 236⟩, ⟨176, 98, 236⟩,
  ⟨228, 84, 236⟩, ⟨236, 88, 180⟩, ⟨236, 106, 100⟩, ⟨212, 136, 32⟩,
  ⟨160, 170, 0⟩, ⟨116, 196, 0⟩, ⟨76, 208, 32⟩, ⟨56, 204, 108⟩,
  ⟨56, 180, 204⟩, ⟨60, 60, 60⟩, ⟨0, 0, 0⟩, ⟨0, 0, 0⟩,
  -- brightness 3
  ⟨236, 238, 236⟩, ⟨168, 204, 236⟩, ⟨188, 188, 236⟩, ⟨212, 178, 236⟩,
  ⟨236, 174, 236⟩, ⟨236, 174, 212⟩, ⟨236, 180, 176⟩, ⟨228, 196, 144⟩,
  ⟨204, 210, 120⟩, ⟨180, 222, 120⟩, ⟨168, 226, 144⟩, ⟨152, 226, 180⟩,
  ⟨160, 214, 228⟩, ⟨160, 162, 160⟩, ⟨0, 0, 0⟩, ⟨0, 0, 0⟩]

/-- The colour with a number, of which the lowest six bits count. -/
def systemColour (number : UInt8) : Rgb := systemPalette[Fin.ofNat 64 number.toNat]

/-- The address of the palette entry for a pixel value in a palette. -/
def paletteAddress (palette pixel : UInt8) : UInt16 :=
  paletteStart + (((palette &&& 0x07).toUInt16 <<< 2) + (pixel &&& 0x03).toUInt16)

/-- The colour of a pixel value in a palette. -/
def colour (p : Ppu) (cart : Cartridge) (palette pixel : UInt8) : Rgb :=
  systemColour (p.readVideo cart (paletteAddress palette pixel))

end Nes.Ppu
