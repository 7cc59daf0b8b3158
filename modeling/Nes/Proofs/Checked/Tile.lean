import Nes.Ppu.Tile
import Nes.Proofs.Checked.Picture
import Nes.Proofs.Stores

/-!
# Colours and tiles in fixed widths

What would be on the screen is asked for by colour, by tile and by pattern table.  A colour is
looked up among sixty-four.  The bytes of a tile are at addresses that are added up in words of
sixteen bits, and its pixels are shifted out of them.  A pattern table is drawn tile by tile into a
buffer of pixels.

All arguments are bytes, and every byte is an argument: what is outside of the ranges in which
palettes, pixel values and tables are numbered is masked off.

## Main definitions

* `Checked.colour`, `Checked.decodeTile`, `Checked.patternTable`: the three questions.
* `Checked.tableStores`: what drawing a pattern table stores, in order, and where.

## Main statements

* `Checked.colour_eq`, `Checked.decodeTile_eq`, `Checked.patternTable_eq`: they are answered, and
  the pixels of a pattern table that are drawn one by one make up its picture.
* `Checked.count_tableStores`: every pixel is drawn once.
-/

namespace Nes

namespace Checked

open Ppu

/-! ### Colours -/

/-- The address of the palette entry for a pixel value in a palette. -/
def paletteAddress (palette pixel : UInt8) : Checked UInt16 := do
  let first ← unsigned 16 (0x3F00 + ((palette &&& 0x07).toUInt16 <<< 2).toNat)
  let addr ← unsigned 16 (first + (pixel &&& 0x03).toNat)
  pure (UInt16.ofNat addr)

/-- The colour of a pixel value in a palette. -/
def colour (p : Ppu) (cart : Cartridge) (palette pixel : UInt8) : Checked Rgb := do
  let addr ← paletteAddress palette pixel
  let value ← readVideo p cart addr
  let number ← index 64 (value &&& 0x3F).toNat
  pure systemPalette[number]

theorem paletteAddress_eq (palette pixel : UInt8) :
    paletteAddress palette pixel = .ok (Ppu.paletteAddress palette pixel) := by
  have hpalette : ((palette &&& 0x07).toUInt16 <<< 2).toNat ≤ 28 := by
    revert palette
    apply forall_byte
    decide +kernel
  have hpixel : (pixel &&& 0x03).toNat ≤ 3 := by
    revert pixel
    apply forall_byte
    decide +kernel
  rw [paletteAddress, unsigned_eq (by omega), ok_bind, unsigned_eq (by omega), ok_bind, pure_eq,
    UInt16.ofNat_add, UInt16.ofNat_add, UInt16.ofNat_toNat, UInt16.ofNat_uInt8ToNat,
    UInt16.add_assoc]
  rfl

/-- **Every colour can be asked for.** -/
theorem colour_eq (p : Ppu) (cart : Cartridge) (palette pixel : UInt8) :
    colour p cart palette pixel = .ok (p.colour cart palette pixel) := by
  have hnumber : ∀ value : UInt8, index 64 (value &&& 0x3F).toNat =
      .ok (Fin.ofNat 64 value.toNat) := by
    intro value
    have hlow : (value &&& 0x3F).toNat = value.toNat % 64 :=
      Nat.and_two_pow_sub_one_eq_mod value.toNat 6
    rw [hlow, index_eq (Nat.mod_lt _ (by decide))]
    rfl
  rw [colour, paletteAddress_eq, ok_bind, readVideo_eq, ok_bind, hnumber]
  rfl

/-! ### Tiles -/

/-- The address of the first byte of a tile. -/
def tileAddress (table tile : UInt8) : Checked Nat := do
  let table ← unsigned 16 ((table &&& 1).toNat * 0x1000)
  let tile ← unsigned 16 (tile.toNat * 16)
  unsigned 16 (table + tile)

/-- The bit of a byte that belongs to a column.  A byte has eight bits to shift. -/
def columnBit (byte : UInt8) (column : Fin 8) : Checked UInt8 := do
  let distance ← sub 7 column
  let distance ← index 8 distance
  pure ((byte >>> UInt8.ofNat distance) &&& 1)

/-- A row of a tile whose first byte is at the given address. -/
def tileRow (p : Ppu) (cart : Cartridge) (base : Nat) (row : Fin 8) :
    Checked (Vector UInt8 8) := do
  let lowAddress ← unsigned 16 (base + row)
  let low ← readVideo p cart (UInt16.ofNat lowAddress)
  let first ← unsigned 16 (base + row)
  let highAddress ← unsigned 16 (first + 8)
  let high ← readVideo p cart (UInt16.ofNat highAddress)
  Vector.ofFnM fun column => do
    let highBit ← columnBit high column
    let lowBit ← columnBit low column
    pure ((highBit <<< 1) ||| lowBit)

/-- A tile of a pattern table. -/
def decodeTile (p : Ppu) (cart : Cartridge) (table tile : UInt8) : Checked Tile := do
  let base ← tileAddress table tile
  Vector.ofFnM fun row => tileRow p cart base row

/-- There are two pattern tables, and every byte names one. -/
theorem tableNumber_lt (table : UInt8) : (table &&& 1).toNat < 2 := by
  revert table
  apply forall_byte
  decide +kernel

theorem toNat_tileAddress (table tile : UInt8) :
    (Ppu.tileAddress table tile).toNat = (table &&& 1).toNat * 0x1000 + tile.toNat * 16 := by
  have htable := tableNumber_lt table
  have htile := tile.toNat_lt
  rw [Ppu.tileAddress, UInt16.toNat_add, UInt16.toNat_mul, UInt16.toNat_mul, UInt8.toNat_toUInt16,
    UInt8.toNat_toUInt16]
  show ((table &&& 1).toNat * 0x1000 % 2 ^ 16 + tile.toNat * 16 % 2 ^ 16) % 2 ^ 16 = _
  omega

/-- The bytes of a tile lie in the pattern tables. -/
theorem toNat_tileAddress_le (table tile : UInt8) :
    (Ppu.tileAddress table tile).toNat ≤ 0x1FF0 := by
  have htable := tableNumber_lt table
  have htile := tile.toNat_lt
  rw [toNat_tileAddress]
  omega

theorem tileAddress_eq (table tile : UInt8) :
    tileAddress table tile = .ok (Ppu.tileAddress table tile).toNat := by
  have hle := toNat_tileAddress_le table tile
  rw [toNat_tileAddress] at hle ⊢
  rw [tileAddress, unsigned_eq (by omega), ok_bind, unsigned_eq (by omega), ok_bind,
    unsigned_eq (by omega)]

theorem columnBit_eq (byte : UInt8) (column : Fin 8) :
    columnBit byte column = .ok (Ppu.columnBit byte column) := by
  rw [columnBit, sub_eq (by omega), ok_bind, index_eq (by omega)]
  rfl

/-- A vector whose entries can all be computed can be computed. -/
theorem ofFnM_eq {α : Type} {n : Nat} {f : Fin n → Checked α} {g : Fin n → α}
    (h : ∀ i, f i = .ok (g i)) : Vector.ofFnM f = .ok (Vector.ofFn g) := by
  have hf : f = fun i => pure (g i) := funext h
  rw [hf]
  exact Vector.ofFnM_pure

/-- **Every tile can be decoded.** -/
theorem decodeTile_eq (p : Ppu) (cart : Cartridge) (table tile : UInt8) :
    decodeTile p cart table tile = .ok (p.decodeTile cart table tile) := by
  have hbase := toNat_tileAddress_le table tile
  rw [decodeTile, tileAddress_eq, ok_bind]
  refine ofFnM_eq fun row => ?_
  rw [tileRow, unsigned_eq (by omega), ok_bind, readVideo_eq, ok_bind, ok_bind,
    unsigned_eq (by omega), ok_bind, readVideo_eq, ok_bind]
  -- The sum of the address and an offset fits its word, so it does not wrap.
  have haddress : ∀ n : Nat, UInt16.ofNat ((Ppu.tileAddress table tile).toNat + n) =
      Ppu.tileAddress table tile + UInt16.ofNat n := by
    intro n
    rw [UInt16.ofNat_add, UInt16.ofNat_toNat]
  rw [Nat.add_assoc, haddress, haddress]
  refine ofFnM_eq fun column => ?_
  rw [columnBit_eq, columnBit_eq]
  rfl

/-! ### Pattern tables -/

/-- The rows and columns of a tile, row by row. -/
def tilePixels : List (Fin 8 × Fin 8) :=
  (List.finRange 8).flatMap fun row => (List.finRange 8).map fun column => (row, column)

/-- The place of a pixel of a tile in the picture of a pattern table. -/
def pixelPlace (tile : Fin 256) (row column : Fin 8) : Nat :=
  (tile.val / 16 * 8 + row.val) * tableSide + tile.val % 16 * 8 + column.val

/-- Draws the pixels of a tile into a buffer. -/
def drawTile (colours : Vector Rgb 4) (number : Fin 256) (tile : Tile)
    (buffer : Vector Rgb 16384) : Checked (Vector Rgb 16384) :=
  tilePixels.foldlM (fun buffer (row, column) => do
    let place ← index 16384 (pixelPlace number row column)
    let value ← index 4 tile[row][column].toNat
    pure (buffer.set place colours[value])) buffer

/-- A picture of a pattern table, drawn tile by tile into a black buffer. -/
def patternTable (p : Ppu) (cart : Cartridge) (table palette : UInt8) :
    Checked (Vector Rgb 16384) := do
  let colours ← Vector.ofFnM fun value : Fin 4 => colour p cart palette (UInt8.ofNat value)
  (List.finRange 256).foldlM (fun buffer (number : Fin 256) => do
    let tile ← decodeTile p cart table (UInt8.ofNat number)
    drawTile colours number tile buffer) (.replicate _ ⟨0, 0, 0⟩)

/-- Every pixel of every tile lies in the picture. -/
theorem pixelPlace_lt (tile : Fin 256) (row column : Fin 8) :
    pixelPlace tile row column < 16384 := by
  unfold pixelPlace tableSide
  omega

/-- A place belongs to one pixel of one tile. -/
theorem pixelPlace_inj {tile tile' : Fin 256} {row row' column column' : Fin 8}
    (h : pixelPlace tile row column = pixelPlace tile' row' column') :
    tile = tile' ∧ row = row' ∧ column = column' := by
  unfold pixelPlace tableSide at h
  simp only [Fin.ext_iff]
  omega

/-- Every place belongs to a pixel of a tile. -/
theorem pixelPlace_tileAt {x y : Nat} (hx : x < 128) (hy : y < 128) :
    pixelPlace (tileAt x y) (Fin.ofNat 8 y) (Fin.ofNat 8 x) = y * 128 + x := by
  show ((y / 8 * 16 + x / 8) % 256 / 16 * 8 + y % 8) * 128 + (y / 8 * 16 + x / 8) % 256 % 16 * 8 +
    x % 8 = y * 128 + x
  omega

/-- What drawing a tile stores, and where. -/
def tileStores (colours : Vector Rgb 4) (number : Fin 256) (tile : Tile) :
    List (Fin 16384 × Rgb) :=
  tilePixels.map fun (row, column) =>
    (⟨pixelPlace number row column, pixelPlace_lt number row column⟩,
      colours[tile[row][column].toNat % 4])

theorem mem_tilePixels (row column : Fin 8) : (row, column) ∈ tilePixels :=
  List.mem_flatMap.2 ⟨row, List.mem_finRange row,
    List.mem_map.2 ⟨column, List.mem_finRange column, rfl⟩⟩

/-- The pixels of a decoded tile have values below four. -/
theorem pixel_lt (low high : Fin 8 → UInt8) (row column : Fin 8) :
    (Tile.ofPlanes low high)[row][column].toNat < 4 := by
  -- Both bytes give one bit of the pixel.
  have hbit : ∀ byte : UInt8, Ppu.columnBit byte column = 0 ∨ Ppu.columnBit byte column = 1 := by
    intro byte
    unfold Ppu.columnBit
    generalize byte >>> UInt8.ofNat (7 - column.val) = shifted
    revert shifted
    apply forall_byte
    decide +kernel
  have hpixel : (Tile.ofPlanes low high)[row][column] =
      (Ppu.columnBit (high row) column <<< 1) ||| Ppu.columnBit (low row) column := by
    simp [Tile.ofPlanes]
  rw [hpixel]
  obtain h | h := hbit (high row) <;> obtain l | l := hbit (low row) <;> rw [h, l] <;> decide

theorem drawTile_eq (colours : Vector Rgb 4) (number : Fin 256) {tile : Tile}
    (h : ∀ row column : Fin 8, tile[row][column].toNat < 4) (buffer : Vector Rgb 16384) :
    drawTile colours number tile buffer =
      .ok (storeAll buffer (tileStores colours number tile)) := by
  rw [storeAll, tileStores, List.foldl_map]
  refine foldlM_eq ?_ tilePixels buffer
  rintro buffer ⟨row, column⟩
  have hvalue : index 4 tile[row][column].toNat = .ok (Fin.ofNat 4 tile[row][column].toNat) := by
    rw [index_eq (h row column)]
    congr 1
    apply Fin.ext
    exact (Nat.mod_eq_of_lt (h row column)).symm
  dsimp only
  rw [index_eq (pixelPlace_lt number row column), ok_bind, hvalue]
  rfl

/-- The pixel of the picture of a pattern table at the place of a pixel of a tile. -/
theorem getElem_patternTable (p : Ppu) (cart : Cartridge) (table palette : UInt8)
    (number : Fin 256) (row column : Fin 8) :
    (p.patternTable cart table palette)[(⟨pixelPlace number row column, pixelPlace_lt ..⟩ :
      Fin 16384)] =
      p.colour cart palette (UInt8.ofNat
        ((p.decodeTile cart table (UInt8.ofNat number))[row][column].toNat % 4)) := by
  -- The place is taken apart into its column and its row, and these into tile and pixel.
  have hx : pixelPlace number row column % tableSide = number.val % 16 * 8 + column.val := by
    unfold pixelPlace tableSide
    omega
  have hy : pixelPlace number row column / tableSide = number.val / 16 * 8 + row.val := by
    unfold pixelPlace tableSide
    omega
  have htile : tileAt (number.val % 16 * 8 + column.val) (number.val / 16 * 8 + row.val) =
      number := by
    apply Fin.ext
    show ((number.val / 16 * 8 + row.val) / 8 * 16 + (number.val % 16 * 8 + column.val) / 8) %
      256 = number.val
    omega
  have hrow : Fin.ofNat 8 (number.val / 16 * 8 + row.val) = row := by
    apply Fin.ext
    show (number.val / 16 * 8 + row.val) % 8 = row.val
    omega
  have hcolumn : Fin.ofNat 8 (number.val % 16 * 8 + column.val) = column := by
    apply Fin.ext
    show (number.val % 16 * 8 + column.val) % 8 = column.val
    omega
  unfold Ppu.patternTable
  dsimp only
  rw [Fin.getElem_fin, Vector.getElem_ofFn]
  simp only [hx, hy, htile, hrow, hcolumn]
  simp

/-- What drawing a pattern table stores, tile by tile, and where. -/
def tableStores (p : Ppu) (cart : Cartridge) (table palette : UInt8) : List (Fin 16384 × Rgb) :=
  (List.finRange 256).flatMap fun number =>
    tileStores (.ofFn fun value => p.colour cart palette (UInt8.ofNat value.val)) number
      (p.decodeTile cart table (UInt8.ofNat number.val))

/-- The places are those of all pixels of all tiles. -/
theorem map_tableStores (p : Ppu) (cart : Cartridge) (table palette : UInt8) :
    (tableStores p cart table palette).map (·.1) =
      (List.finRange 256 ×ˢ tilePixels).map fun (number, row, column) =>
        ⟨pixelPlace number row column, pixelPlace_lt number row column⟩ := by
  show _ = ((List.finRange 256).flatMap fun number => tilePixels.map (number, ·)).map _
  rw [tableStores, List.map_flatMap, List.map_flatMap]
  simp only [tileStores, List.map_map]
  rfl

/-- **Every pixel is drawn once.** -/
theorem count_tableStores (p : Ppu) (cart : Cartridge) (table palette : UInt8) (i : Fin 16384) :
    ((tableStores p cart table palette).map (·.1)).count i = 1 := by
  rw [map_tableStores]
  apply List.count_eq_one_of_mem
  · -- No place belongs to two pixels,
    refine List.Nodup.map ?_ ((List.nodup_finRange 256).product
      ((List.nodup_finRange 8).product (List.nodup_finRange 8)))
    rintro ⟨number, row, column⟩ ⟨number', row', column'⟩ h
    obtain ⟨rfl, rfl, rfl⟩ := pixelPlace_inj (Fin.ext_iff.1 h)
    rfl
  · -- and every place belongs to one.
    have hi := i.isLt
    have hplace := pixelPlace_tileAt (x := i.val % 128) (y := i.val / 128) (by omega) (by omega)
    refine List.mem_map.2 ⟨(_, _, _), List.mem_product.2 ⟨List.mem_finRange _,
      mem_tilePixels _ _⟩, Fin.ext (hplace.trans ?_)⟩
    omega

/-- A pattern table is drawn by its stores. -/
theorem patternTable_eq_stores (p : Ppu) (cart : Cartridge) (table palette : UInt8) :
    patternTable p cart table palette =
      .ok (storeAll (.replicate _ ⟨0, 0, 0⟩) (tableStores p cart table palette)) := by
  have hcolours : Vector.ofFnM (fun value : Fin 4 => colour p cart palette (UInt8.ofNat value)) =
      .ok (Vector.ofFn fun value : Fin 4 => p.colour cart palette (UInt8.ofNat value)) :=
    ofFnM_eq fun value => colour_eq p cart palette (UInt8.ofNat value)
  rw [patternTable, hcolours, ok_bind, tableStores]
  generalize Vector.ofFn (fun value : Fin 4 => p.colour cart palette (UInt8.ofNat value)) = colours
  -- Every tile is a list of stores, and so are all of them together.
  have htile : ∀ (buffer : Vector Rgb 16384) (number : Fin 256),
      (decodeTile p cart table (UInt8.ofNat number) >>= fun tile =>
        drawTile colours number tile buffer) =
      .ok (storeAll buffer
        (tileStores colours number (p.decodeTile cart table (UInt8.ofNat number)))) := by
    intro buffer number
    rw [decodeTile_eq, ok_bind]
    exact drawTile_eq colours number (pixel_lt _ _) buffer
  rw [foldlM_eq htile, storeAll, List.foldl_flatMap]
  rfl

/-- The stores make up the picture, whatever the buffer held before. -/
theorem storeAll_tableStores (p : Ppu) (cart : Cartridge) (table palette : UInt8)
    (buffer : Vector Rgb 16384) :
    storeAll buffer (tableStores p cart table palette) = p.patternTable cart table palette := by
  refine storeAll_eq ?_ ?_ buffer
  · intro s hs
    obtain ⟨number, -, hs⟩ := List.mem_flatMap.1 hs
    obtain ⟨⟨row, column⟩, -, rfl⟩ := List.mem_map.1 hs
    exact (getElem_patternTable p cart table palette number row column).trans (by simp)
  · intro i
    have hcount := count_tableStores p cart table palette i
    exact List.mem_map.1 (List.count_pos_iff.1 (hcount ▸ Nat.one_pos))

/-- **Every pattern table can be drawn, and drawing it pixel by pixel gives its picture.** -/
theorem patternTable_eq (p : Ppu) (cart : Cartridge) (table palette : UInt8) :
    patternTable p cart table palette = .ok (p.patternTable cart table palette) := by
  rw [patternTable_eq_stores, storeAll_tableStores]

end Checked

end Nes
