import Nes.Ppu.Colour

/-!
# Tiles

A pattern table holds 256 tiles of eight by eight pixels, and a pixel has a value below four.  A tile
takes sixteen bytes: first the low bits of its pixels, a byte for each row with the leftmost pixel in
the highest bit, then the high bits in the same way.

## Main definitions

* `Ppu.Tile`, `Ppu.Tile.ofPlanes`: tiles, and decoding the bytes of one.
* `Ppu.decodeTile`: a tile of a pattern table.
* `Ppu.patternTable`: all tiles of a pattern table as a picture of 16 by 16 tiles.
-/

namespace Nes.Ppu

/-- The pixel values of a tile, row by row. -/
abbrev Tile := Vector (Vector UInt8 8) 8

/-- The bit of a byte that belongs to a column, the leftmost column having the highest. -/
def columnBit (byte : UInt8) (column : Fin 8) : UInt8 :=
  (byte >>> UInt8.ofNat (7 - column.val)) &&& 1

/-- The tile whose rows have the given low and high bits. -/
def Tile.ofPlanes (low high : Fin 8 → UInt8) : Tile :=
  .ofFn fun row => .ofFn fun column =>
    (columnBit (high row) column <<< 1) ||| columnBit (low row) column

/-- The address of the first byte of a tile. -/
def tileAddress (table tile : UInt8) : UInt16 :=
  (table &&& 1).toUInt16 * 0x1000 + tile.toUInt16 * 16

/-- A tile of a pattern table. -/
def decodeTile (p : Ppu) (cart : Cartridge) (table tile : UInt8) : Tile :=
  let base := tileAddress table tile
  Tile.ofPlanes
    (fun row => p.readVideo cart (base + UInt16.ofNat row.val))
    (fun row => p.readVideo cart (base + UInt16.ofNat (row.val + 8)))

/-- The width and height of a picture of a pattern table. -/
def tableSide : Nat := 128

/-- The tile in which a pixel of such a picture lies. -/
def tileAt (x y : Nat) : Fin 256 := Fin.ofNat 256 (y / 8 * 16 + x / 8)

/-- A picture of a pattern table, row by row, in the colours of a palette. -/
def patternTable (p : Ppu) (cart : Cartridge) (table palette : UInt8) : Vector Rgb 16384 :=
  let colours : Vector Rgb 4 := .ofFn fun v => p.colour cart palette (UInt8.ofNat v.val)
  let tiles : Vector Tile 256 := .ofFn fun t => p.decodeTile cart table (UInt8.ofNat t.val)
  .ofFn fun i =>
    let x := i.val % tableSide
    let y := i.val / tableSide
    let value := tiles[tileAt x y][Fin.ofNat 8 y][Fin.ofNat 8 x]
    colours[Fin.ofNat 4 value.toNat]

end Nes.Ppu
