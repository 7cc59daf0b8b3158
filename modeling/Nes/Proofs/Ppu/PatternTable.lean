import Nes.Proofs.Checked.Tile
import Nes.Proofs.Ppu.DataStream

/-!
# Pattern tables as pictures and as bytes

A picture of a pattern table shows its 256 tiles on a grid, in the colours of a palette.  What colour
a pixel gets can be read by the processor as well: it is the one whose number the data register gives
at the address of the palette entry.

Behind a tile are sixteen bytes of the cartridge, of which no other tile has any.  On a cartridge
with picture RAM they can be stored, and then the tile that they encode is there.

## Main definitions

* `Ppu.tileByte`, `Ppu.Tile.ofBytes`: where the bytes of a tile are, and what they make up.
* `Ppu.Tile.plane`: the byte with the bits of one weight of the pixels in a row.
* `Ppu.Tile.stores`: the bytes of a tile with their addresses.

## Main statements

* `Ppu.colour_eq_systemPalette`: colours by way of the data register.
* `Ppu.Tile.ofPlanes_plane`: decoding undoes encoding.
* `Picture.decodeTile_writeVideos`, `Picture.decodeTile_writeVideos_of_ne`: a tile that is stored is
  there, and the others are as they were.
* `Picture.pattern_tables`: the pictures of pattern tables, and the bytes of tiles.
-/

namespace Nes

namespace Ppu

/-! ### Colours -/

/-- The palette shows six bits. -/
theorem Mask.toNat_shown_palette_lt (mask : Mask) (entry : Fin 32) (value : UInt8) :
    (mask.shown (.palette entry) value).toNat < 64 := by
  have hall : ∀ value : UInt8, (value &&& 0x3F).toNat < 64 ∧ (value &&& 0x30).toNat < 64 :=
    forall_byte (by decide +kernel)
  rw [Mask.shown]
  split
  · exact (hall value).1
  · exact (hall value).2

/-- There are eight palettes, and every byte names one. -/
theorem paletteNumber_lt (palette : UInt8) : (palette &&& 7).toNat < 8 := by
  revert palette
  exact forall_byte (by decide +kernel)

/-- The entry for a pixel value is one of four in a row. -/
theorem toNat_paletteAddress (palette : UInt8) {pixel : UInt8} (h : pixel.toNat < 4) :
    (paletteAddress palette pixel).toNat = 0x3F00 + 4 * (palette &&& 7).toNat + pixel.toNat := by
  have hshift : ((palette &&& 7).toUInt16 <<< 2).toNat = 4 * (palette &&& 7).toNat := by
    revert palette
    exact forall_byte (by decide +kernel)
  -- The entries fit the palette, so no addition wraps.
  have hlt := paletteNumber_lt palette
  have hpixel : (pixel &&& 3).toNat = pixel.toNat :=
    (Nat.and_two_pow_sub_one_eq_mod pixel.toNat 2).trans (Nat.mod_eq_of_lt h)
  rw [paletteAddress, UInt16.toNat_add, UInt16.toNat_add, hshift, UInt8.toNat_toUInt16, hpixel]
  show (0x3F00 + (4 * (palette &&& 7).toNat + pixel.toNat) % 2 ^ 16) % 2 ^ 16 = _
  omega

/-- **The colour of a pixel value is the one whose number the data register gives** at the address of
the palette entry. -/
theorem colour_eq_systemPalette {cart : Cartridge} {header : Header}
    (hw : cart.wiring = header.wiring) (p : Ppu) (palette : UInt8) {pixel : UInt8}
    (hpixel : pixel.toNat < 4) :
    let addr := UInt16.ofNat (0x3F00 + 4 * (palette &&& 7).toNat + pixel.toNat)
    let number := ({ p with videoAddress := addr }.readRegister cart .videoData).1
    ∃ h : number.toNat < 64, p.colour cart palette pixel = systemPalette[number.toNat] := by
  have haddr : UInt16.ofNat (0x3F00 + 4 * (palette &&& 7).toNat + pixel.toNat) =
      paletteAddress palette pixel := by
    rw [← toNat_paletteAddress palette hpixel, UInt16.ofNat_toNat]
  have hlt := paletteNumber_lt palette
  have hat := toNat_paletteAddress palette hpixel
  have hpalette : 0x3F00 ≤ paletteAddress palette pixel := by
    rw [UInt16.le_iff_toNat_le, hat]
    show 0x3F00 ≤ _
    omega
  have hmasked : paletteAddress palette pixel &&& videoMask = paletteAddress palette pixel := by
    apply and_videoMask_of_lt
    rw [UInt16.lt_iff_toNat_lt, hat]
    show _ < 0x4000
    omega
  -- The address lies in the palette, where a read of the data register is not delayed.
  obtain ⟨entry, hcell⟩ := cell_of_ge header.mirroring (hmasked.symm ▸ hpalette)
  have hnumber : (p.readVideo cart (paletteAddress palette pixel)).toNat < 64 := by
    rw [readVideo_eq hw, hcell]
    exact p.mask.toNat_shown_palette_lt entry _
  have hread : ({ p with videoAddress := paletteAddress palette pixel }.readRegister cart
      .videoData).1 = p.readVideo cart (paletteAddress palette pixel) :=
    if_neg (UInt16.not_lt.2 hpalette)
  dsimp only
  rw [haddr, hread]
  refine ⟨hnumber, ?_⟩
  rw [colour, systemColour, Fin.getElem_fin]
  congr 1
  exact Nat.mod_eq_of_lt hnumber

/-! ### Pixels -/

/-- The pixels of a tile have values below four. -/
theorem toNat_decodeTile_lt (p : Ppu) (cart : Cartridge) (table number : UInt8)
    (row column : Fin 8) : (((p.decodeTile cart table number).get row).get column).toNat < 4 :=
  Checked.pixel_lt _ _ row column

/-- **A pixel of the picture of a pattern table** is found in its tile. -/
theorem getElem_patternTable (p : Ppu) (cart : Cartridge) (table palette : UInt8)
    (x y : Fin 128) :
    (p.patternTable cart table palette)[y.val * 128 + x.val] = p.colour cart palette
      (p.decodeTile cart table (.ofNat (16 * (y.val / 8) + x.val / 8)))[y.val % 8][x.val % 8] := by
  have hplace := Checked.pixelPlace_tileAt x.isLt y.isLt
  have htile : (tileAt x y).val = 16 * (y.val / 8) + x.val / 8 := by
    show (y.val / 8 * 16 + x.val / 8) % 256 = 16 * (y.val / 8) + x.val / 8
    omega
  have hpixel := Checked.getElem_patternTable p cart table palette (tileAt x y) (.ofNat 8 y)
    (.ofNat 8 x)
  -- The value is below four, so taking it modulo four changes nothing.
  have hvalue : (p.decodeTile cart table (.ofNat (tileAt x y)))[Fin.ofNat 8 y][
      Fin.ofNat 8 x].toNat < 4 := p.toNat_decodeTile_lt ..
  rw [Nat.mod_eq_of_lt hvalue, UInt8.ofNat_toNat, Fin.getElem_fin] at hpixel
  simp only [hplace, htile] at hpixel
  exact hpixel

/-! ### The bytes of a tile -/

/-- The address of a byte of a tile. -/
def tileByte (table number : UInt8) (i : Nat) : UInt16 :=
  tileAddress table number + UInt16.ofNat i

theorem toNat_tileByte (table number : UInt8) {i : Nat} (hi : i < 16) :
    (tileByte table number i).toNat = (tileAddress table number).toNat + i := by
  have hle := Checked.toNat_tileAddress_le table number
  rw [tileByte, UInt16.toNat_add, UInt16.toNat_ofNat']
  omega

/-- The bytes of tiles lie in the pattern tables. -/
theorem tileByte_lt (table number : UInt8) {i : Nat} (hi : i < 16) :
    tileByte table number i < 0x2000 := by
  have hle := Checked.toNat_tileAddress_le table number
  rw [UInt16.lt_iff_toNat_lt, toNat_tileByte table number hi]
  show _ < 0x2000
  omega

/-- The byte of a tile is one of the cartridge, whatever the wiring of the nametables. -/
theorem cell_tileByte (m : Mirroring) (table number : UInt8) {i : Nat} (hi : i < 16) :
    ∃ h, m.cell (tileByte table number i) =
      .pattern ⟨(tileAddress table number).toNat + i, h⟩ := by
  have hlt := tileByte_lt table number hi
  -- Pattern tables are not mirrored.
  have hmasked := and_videoMask_of_lt (UInt16.lt_trans hlt (by decide))
  have hpattern : tileByte table number i &&& videoMask < 0x2000 := hmasked.symm ▸ hlt
  refine ⟨toNat_tileByte table number hi ▸ UInt16.lt_iff_toNat_lt.1 hlt, ?_⟩
  rw [cell_of_lt m hpattern]
  congr 2
  rw [hmasked, toNat_tileByte table number hi]

/-- **No two tiles share a byte.** -/
theorem tileByte_inj {table number table' number' : UInt8} {i j : Nat} (hi : i < 16) (hj : j < 16)
    (h : (tileAddress table number).toNat + i = (tileAddress table' number').toNat + j) :
    (table &&& 1, number) = (table' &&& 1, number') ∧ i = j := by
  rw [Checked.toNat_tileAddress, Checked.toNat_tileAddress] at h
  have hnumber := number.toNat_lt
  have hnumber' := number'.toNat_lt
  rw [Prod.mk.injEq, ← UInt8.toNat_inj, ← UInt8.toNat_inj]
  omega

theorem cell_tileByte_inj {m : Mirroring} {table number table' number' : UInt8} {i j : Nat}
    (hi : i < 16) (hj : j < 16)
    (h : m.cell (tileByte table number i) = m.cell (tileByte table' number' j)) :
    (table &&& 1, number) = (table' &&& 1, number') ∧ i = j := by
  obtain ⟨hlt, hcell⟩ := cell_tileByte m table number hi
  obtain ⟨hlt', hcell'⟩ := cell_tileByte m table' number' hj
  rw [hcell, hcell', Cell.pattern.injEq, Fin.mk.injEq] at h
  exact tileByte_inj hi hj h

/-- The tile that sixteen bytes make up: the low bits of its rows, and then the high bits. -/
def Tile.ofBytes (byte : Nat → UInt8) : Tile :=
  ofPlanes (fun row => byte row) (fun row => byte (row + 8))

theorem Tile.ofBytes_congr {f g : Nat → UInt8} (h : ∀ i < 16, f i = g i) :
    ofBytes f = ofBytes g := by
  have hlow := fun row : Fin 8 => h row (by omega)
  have hhigh := fun row : Fin 8 => h (row + 8) (by omega)
  rw [ofBytes, ofBytes, funext hlow, funext hhigh]

/-- **A tile is decoded from its bytes.** -/
theorem decodeTile_eq_stored {cart : Cartridge} {header : Header}
    (hw : cart.wiring = header.wiring) (p : Ppu) (table number : UInt8) :
    p.decodeTile cart table number =
      .ofBytes fun i => p.stored cart (header.mirroring.cell (tileByte table number i)) := by
  have hread : p.decodeTile cart table number =
      .ofBytes fun i => p.readVideo cart (tileByte table number i) := rfl
  rw [hread]
  refine Tile.ofBytes_congr fun i hi => ?_
  rw [readVideo_eq hw, Mask.shown_cell_of_lt]
  exact UInt16.lt_trans (tileByte_lt table number hi) (by decide)

/-- These bytes are on the cartridge. -/
theorem decodeTile_eq_chr {cart : Cartridge} {header : Header}
    (hw : cart.wiring = header.wiring) (p : Ppu) (table number : UInt8) :
    p.decodeTile cart table number =
      .ofBytes fun i => cart.chr.getD ((tileAddress table number).toNat + i) 0 := by
  rw [decodeTile_eq_stored hw]
  refine Tile.ofBytes_congr fun i hi => ?_
  obtain ⟨hlt, hcell⟩ := cell_tileByte header.mirroring table number hi
  rw [hcell]
  rfl

namespace Tile

/-- The byte with the bits of one weight of the pixels in a row, the leftmost pixel having the highest
bit. -/
def plane (tile : Tile) (weight : Nat) (row : Fin 8) : UInt8 :=
  UInt8.ofNat (Nat.ofBits fun i : Fin 8 => ((tile.get row).get i.rev).toNat.testBit weight)

/-- The bytes of a tile with their addresses: for each row the one with the low bits and, eight bytes
further on, the one with the high bits. -/
def stores (tile : Tile) (table number : UInt8) : List (UInt16 × UInt8) :=
  (List.finRange 8).flatMap fun row : Fin 8 =>
    [(tileByte table number row, tile.plane 0 row),
      (tileByte table number (row + 8), tile.plane 1 row)]

theorem mem_stores {tile : Tile} {table number : UInt8} {w : UInt16 × UInt8} :
    w ∈ tile.stores table number ↔ ∃ (row : Fin 8) (weight : Fin 2),
      w = (tileByte table number (row + 8 * weight), tile.plane weight row) := by
  simp [stores, Fin.exists_fin_two]

/-- The leftmost column has the highest bit of a byte. -/
theorem columnBit_eq_testBit (byte : UInt8) (column : Fin 8) :
    columnBit byte column = UInt8.ofNat (byte.toNat.testBit column.rev).toNat := by
  have hdistance : (UInt8.ofNat (7 - column.val)).toNat % 8 = column.rev.val := by
    revert column
    decide
  have hbit : (UInt8.ofNat (byte.toNat.testBit column.rev).toNat).toNat =
      (byte.toNat.testBit column.rev).toNat :=
    UInt8.toNat_ofNat_of_lt (Nat.lt_trans (Bool.toNat_lt _) (by decide))
  rw [← UInt8.toNat_inj, hbit, Nat.toNat_testBit, ← Nat.shiftRight_eq_div_pow,
    ← Nat.and_one_is_mod, columnBit, UInt8.toNat_and, UInt8.toNat_shiftRight, hdistance]
  rfl

/-- A pixel finds its bit in the byte of its row. -/
theorem columnBit_plane (tile : Tile) (weight : Nat) (row column : Fin 8) :
    columnBit (tile.plane weight row) column =
      UInt8.ofNat (((tile.get row).get column).toNat.testBit weight).toNat := by
  have hbyte : (tile.plane weight row).toNat =
      Nat.ofBits fun i : Fin 8 => ((tile.get row).get i.rev).toNat.testBit weight :=
    UInt8.toNat_ofNat_of_lt (Nat.ofBits_lt_two_pow _)
  rw [columnBit_eq_testBit, hbyte, Nat.testBit_ofBits_lt _ _ column.rev.isLt, Fin.eta, Fin.rev_rev]

/-- **Decoding undoes encoding.** -/
theorem ofPlanes_plane {tile : Tile} (h : ∀ row ∈ tile, ∀ pixel ∈ row, pixel.toNat < 4) :
    ofPlanes (tile.plane 0) (tile.plane 1) = tile := by
  -- Two bits make up a value below four again.
  have hbits : ∀ pixel : UInt8, pixel.toNat < 4 →
      (UInt8.ofNat (pixel.toNat.testBit 1).toNat <<< 1) |||
        UInt8.ofNat (pixel.toNat.testBit 0).toNat = pixel :=
    forall_byte (by decide +kernel)
  apply Vector.ext
  intro row hrow
  apply Vector.ext
  intro column hcolumn
  simp only [ofPlanes, Vector.getElem_ofFn, columnBit_plane]
  exact hbits _ (h _ (Vector.getElem_mem hrow) _ (Vector.getElem_mem hcolumn))

end Tile

end Ppu

namespace Picture

/-! ### Tiles that are stored -/

/-- A tile of a pattern table. -/
def tile (s : Picture) (table number : UInt8) : Ppu.Tile :=
  s.ppu.decodeTile s.cartridge table number

section Stored

variable {s : Picture} {header : Header} (hw : s.cartridge.wiring = header.wiring)
  (hram : header.chrIsRam = true) {table number : UInt8} {tile : Ppu.Tile}
  {writes : List (UInt16 × UInt8)} (hwrites : writes.Perm (tile.stores table number))

include hw hram hwrites

/-- The bytes of a tile are stored, in whatever order. -/
theorem stored_tileByte (row : Fin 8) (weight : Fin 2) :
    (s.writeVideos writes).stored
      (header.mirroring.cell (Ppu.tileByte table number (row + 8 * weight))) =
      tile.plane weight row := by
  have hmem : (Ppu.tileByte table number (row + 8 * weight), tile.plane weight row) ∈ writes :=
    hwrites.mem_iff.2 (Ppu.Tile.mem_stores.2 ⟨row, weight, rfl⟩)
  refine stored_writeVideos hw (Bool.or_eq_true_iff.2 (.inl hram)) ?_ (.inr ⟨_, hmem, rfl⟩)
  -- No other byte of the tile goes to this cell, so the order does not matter.
  intro w hw hcell
  obtain ⟨row', weight', rfl⟩ := Ppu.Tile.mem_stores.1 (hwrites.mem_iff.1 hw)
  obtain ⟨-, hi⟩ := Ppu.cell_tileByte_inj (by omega) (by omega) hcell
  have hrow : row' = row := by omega
  have hweight : weight' = weight := by omega
  rw [hrow, hweight]

/-- **A tile that is stored is there.** -/
theorem decodeTile_writeVideos (h : ∀ row ∈ tile, ∀ pixel ∈ row, pixel.toNat < 4) :
    (s.writeVideos writes).tile table number = tile := by
  have hlow := fun row : Fin 8 => stored_tileByte hw hram hwrites row 0
  have hhigh := fun row : Fin 8 => stored_tileByte hw hram hwrites row 1
  rw [Picture.tile, Ppu.decodeTile_eq_stored (wiring_writeVideos hw writes)]
  exact (congrArg₂ Ppu.Tile.ofPlanes (funext hlow) (funext hhigh)).trans
    (Ppu.Tile.ofPlanes_plane h)

/-- **The other tiles are as they were.** -/
theorem decodeTile_writeVideos_of_ne {table' number' : UInt8}
    (hne : (table' &&& 1, number') ≠ (table &&& 1, number)) :
    (s.writeVideos writes).tile table' number' = s.tile table' number' := by
  rw [Picture.tile, Picture.tile, Ppu.decodeTile_eq_stored (wiring_writeVideos hw writes),
    Ppu.decodeTile_eq_stored hw]
  refine Ppu.Tile.ofBytes_congr fun i hi => ?_
  refine stored_writeVideos hw (Bool.or_eq_true_iff.2 (.inl hram)) ?_ (.inl rfl)
  -- What was stored for one tile is no byte of another.
  intro w hw hcell
  obtain ⟨row, weight, rfl⟩ := Ppu.Tile.mem_stores.1 (hwrites.mem_iff.1 hw)
  exact absurd (Ppu.cell_tileByte_inj (by omega) hi hcell).1.symm hne

end Stored

/-- **Pictures of pattern tables, and the bytes of tiles.**  With an accepted cartridge, whatever the
memories hold:

* A pixel of the picture of a pattern table is found in the tile at its place on the grid, where it
  has a value below four.  Its colour is the one whose number a read of the data register gives if
  the address in picture memory is that of the entry for this value in the palette.
* The picture is drawn by a list of stores into a buffer.  They make it up whatever the buffer held
  before, and every pixel is stored to exactly once.
* Let the cartridge have picture RAM, and let the bytes that encode a tile of values below four be
  stored at their addresses, in any order.  Then this tile is decoded, and all other tiles are as
  they were.
* A tile is decoded from sixteen bytes of the picture memory of the cartridge, and no other tile is
  decoded from any of them. -/
theorem pattern_tables {image : Array UInt8} {cartridge : Cartridge}
    (hload : Cartridge.load image = .ok cartridge) {s : Picture}
    (hs : s.cartridge.wiring = cartridge.wiring) :
    (∀ (table palette : UInt8) (x y : Fin 128),
      let pixel := (s.ppu.patternTable s.cartridge table palette)[y.val * 128 + x.val]
      let value := (s.tile table (.ofNat (16 * (y.val / 8) + x.val / 8)))[y.val % 8][x.val % 8]
      let addr := UInt16.ofNat (0x3F00 + 4 * (palette &&& 7).toNat + value.toNat)
      let number := ({ s.ppu with videoAddress := addr }.readRegister s.cartridge .videoData).1
      value.toNat < 4 ∧ ∃ h : number.toNat < 64, pixel = Ppu.systemPalette[number.toNat]) ∧
    (∀ table palette : UInt8,
      let stores := Checked.tableStores s.ppu s.cartridge table palette
      Checked.patternTable s.ppu s.cartridge table palette =
          .ok (storeAll (.replicate _ ⟨0, 0, 0⟩) stores) ∧
        (∀ buffer, storeAll buffer stores = s.ppu.patternTable s.cartridge table palette) ∧
        ∀ i, (stores.map (·.1)).count i = 1) ∧
    (cartridge.header.chrIsRam = true → ∀ (table number : UInt8) (tile : Ppu.Tile),
      (∀ row ∈ tile, ∀ pixel ∈ row, pixel.toNat < 4) →
      ∀ writes : List (UInt16 × UInt8), writes.Perm (tile.stores table number) →
        (s.writeVideos writes).tile table number = tile ∧
        ∀ table' number' : UInt8, (table' &&& 1, number') ≠ (table &&& 1, number) →
          (s.writeVideos writes).tile table' number' = s.tile table' number') ∧
    (∀ table number : UInt8,
      let base := (table &&& 1).toNat * 0x1000 + number.toNat * 16
      base + 16 ≤ s.cartridge.chr.size ∧
        s.tile table number = .ofBytes (fun i => s.cartridge.chr.getD (base + i) 0) ∧
        ∀ table' number' : UInt8, (table' &&& 1, number') ≠ (table &&& 1, number) →
          ∀ i < 16, ∀ j < 16,
            base + i ≠ (table' &&& 1).toNat * 0x1000 + number'.toNat * 16 + j) := by
  have hw : s.cartridge.wiring = cartridge.header.wiring :=
    hs.trans (Cartridge.wiring_of_load hload)
  refine ⟨fun table palette x y => ?_, fun table palette => ?_, ?_, fun table number => ?_⟩
  · have hvalue := s.ppu.toNat_decodeTile_lt s.cartridge table
      (.ofNat (16 * (y.val / 8) + x.val / 8)) (.ofNat 8 y) (.ofNat 8 x)
    have hpixel := s.ppu.getElem_patternTable s.cartridge table palette x y
    obtain ⟨hnumber, hcolour⟩ := Ppu.colour_eq_systemPalette hw s.ppu palette hvalue
    exact ⟨hvalue, hnumber, hpixel.trans hcolour⟩
  · exact ⟨Checked.patternTable_eq_stores .., Checked.storeAll_tableStores s.ppu s.cartridge table
      palette, Checked.count_tableStores s.ppu s.cartridge table palette⟩
  · intro hram table number tile h writes hwrites
    exact ⟨decodeTile_writeVideos hw hram hwrites h,
      fun _ _ => decodeTile_writeVideos_of_ne hw hram hwrites⟩
  · have hle := Checked.toNat_tileAddress_le table number
    have hsize := Cartridge.le_size_chr hw
    have hchr := Ppu.decodeTile_eq_chr hw s.ppu table number
    rw [Checked.toNat_tileAddress] at hle hchr
    refine ⟨Nat.le_trans (Nat.add_le_add_right hle 16) hsize, hchr, ?_⟩
    intro table' number' hne i hi j hj h
    rw [← Checked.toNat_tileAddress, ← Checked.toNat_tileAddress] at h
    exact hne (Ppu.tileByte_inj hi hj h).1.symm

/-- A tile with all values in every row and every column, stored from its last byte on. -/
theorem pattern_tables_with_ram : ∃ image cartridge, ∃ s : Picture, ∃ tile : Ppu.Tile,
    (Cartridge.load image = .ok cartridge ∧ s.cartridge.wiring = cartridge.wiring ∧
      cartridge.header.chrIsRam = true ∧ ∀ row ∈ tile, ∀ pixel ∈ row, pixel.toNat < 4) ∧
    (s.writeVideos (tile.stores 1 0x2A).reverse).tile 1 0x2A = tile ∧
    (s.writeVideos (tile.stores 1 0x2A).reverse).tile 0 0x2A = s.tile 0 0x2A := by
  obtain ⟨cartridge, hload, hheader, -⟩ := Cartridge.load_filled 1 0
  have hram : cartridge.header.chrIsRam = true := congrArg Header.chrIsRam hheader
  -- The value of a pixel is the sum of its row and its column, modulo four.
  let tile : Ppu.Tile := .ofFn fun row => .ofFn fun column => .ofNat ((row + column) % 4)
  have hvalue : ∀ i j : Fin 8, (UInt8.ofNat ((i.val + j.val) % 4)).toNat < 4 := by decide
  have htile : ∀ row ∈ tile, ∀ pixel ∈ row, pixel.toNat < 4 := by
    intro row hrow pixel hpixel
    obtain ⟨i, rfl⟩ := Vector.mem_ofFn.1 hrow
    obtain ⟨j, rfl⟩ := Vector.mem_ofFn.1 hpixel
    exact hvalue i j
  obtain ⟨-, -, hstored, -⟩ := pattern_tables hload (s := ⟨.powerOn, cartridge⟩) rfl
  obtain ⟨hthere, hothers⟩ := hstored hram 1 0x2A tile htile _ (List.reverse_perm _)
  exact ⟨_, cartridge, _, tile, ⟨hload, rfl, hram, htile⟩, hthere, hothers 0 0x2A (by decide)⟩

end Picture

end Nes
