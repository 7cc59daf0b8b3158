import Nes.Ppu.Access
import Nes.Proofs.Bits
import Nes.Proofs.Cartridge.Loading

/-!
# Picture memory cell by cell

An address of picture memory passes four folds before it names a byte: only fourteen bits count, the
windows are spread over two nametables, the palette repeats and four of its entries have two
addresses, and the cartridge answers for the pattern tables.  Reading and writing go through these
folds separately.

Here both are brought to one form.  A loaded cartridge answers for all addresses of the pattern
tables, so that the byte of a cell is on the cartridge for these and inside the picture unit for the
others.  Reading shows the byte of the cell that the address names, and writing changes that byte
alone, or nothing if it is ROM.

## Main definitions

* `Mirroring.cell`: the cell that an address names, by its bits.
* `Ppu.stored`: the byte of a cell.
* `Ppu.Mask.shown`: how it is read.

## Main statements

* `Ppu.Cell.ofAddress_eq`: the cell is found by the bits of the address.
* `Ppu.readVideo_eq`, `Ppu.stored_writeVideo`: reading and writing by cells.
-/

namespace Nes

/-! ### The cells of addresses -/

/-- The nametable in a window: neighbours in a row differ under vertical mirroring, and neighbours in
a column under horizontal mirroring. -/
def Mirroring.table (m : Mirroring) (window : UInt16) : UInt16 :=
  match m with
  | .vertical => window &&& 1
  | .horizontal => window >>> 1

/-- The backdrops of the sprites are those of the background. -/
def backdrop (entry : UInt16) : UInt16 :=
  if entry = 0x10 then 0x00
  else if entry = 0x14 then 0x04
  else if entry = 0x18 then 0x08
  else if entry = 0x1C then 0x0C
  else entry

/-- The cell that an address names, by its bits. -/
def Mirroring.cell (m : Mirroring) (addr : UInt16) : Ppu.Cell :=
  let a := addr &&& 0x3FFF
  if a < 0x2000 then .pattern ⟨a.toNat % 0x2000, Nat.mod_lt _ (by decide)⟩
  else if a < 0x3F00 then
    .nametable ⟨(m.table ((a >>> 10) &&& 3)).toNat % 2, Nat.mod_lt _ (by decide)⟩
      ⟨(a &&& 0x3FF).toNat % 0x400, Nat.mod_lt _ (by decide)⟩
  else .palette ⟨(backdrop (a &&& 0x1F)).toNat % 32, Nat.mod_lt _ (by decide)⟩

namespace Ppu

theorem toNat_window (a : UInt16) : ((a >>> 10) &&& 3).toNat = a.toNat / 0x400 % 4 := by
  have hshift : (a >>> 10).toNat = a.toNat / 0x400 := by
    rw [UInt16.toNat_shiftRight]
    exact Nat.shiftRight_eq_div_pow a.toNat 10
  exact (toNat_and_low (a >>> 10) 2 rfl).trans (congrArg (· % 4) hshift)

theorem nametableOf_eq (m : Mirroring) (a : UInt16) :
    nametableOf m (a.toNat / 0x400 % 4) = Fin.ofNat 2 (m.table ((a >>> 10) &&& 3)).toNat := by
  cases m with
  | vertical =>
    have hbit : (((a >>> 10) &&& 3) &&& 1).toNat = a.toNat / 0x400 % 4 % 2 :=
      (toNat_and_low ((a >>> 10) &&& 3) 1 rfl).trans (congrArg (· % 2) (toNat_window a))
    apply Fin.ext
    show a.toNat / 0x400 % 4 % 2 = (((a >>> 10) &&& 3) &&& 1).toNat % 2
    rw [hbit, Nat.mod_mod]
  | horizontal =>
    have hbit : (((a >>> 10) &&& 3) >>> 1).toNat = a.toNat / 0x400 % 4 / 2 := by
      rw [UInt16.toNat_shiftRight, toNat_window]
      exact Nat.shiftRight_eq_div_pow _ 1
    apply Fin.ext
    show a.toNat / 0x400 % 4 / 2 % 2 = (((a >>> 10) &&& 3) >>> 1).toNat % 2
    rw [hbit]

theorem paletteEntry_eq (a : UInt16) :
    paletteEntry a.toNat = Fin.ofNat 32 (backdrop (a &&& 0x1F)).toNat := by
  have hlow : a.toNat % 32 = (a &&& 0x1F).toNat := (toNat_and_low a 5 rfl).symm
  have hlt : (a &&& 0x1F).toNat < 32 := by
    rw [← hlow]
    exact Nat.mod_lt _ (by decide)
  -- All 32 entries are tried.
  have hall : ∀ n : Fin 32, (if 16 ≤ n.val ∧ n.val % 4 = 0 then Fin.ofNat 32 (n.val - 16)
      else Fin.ofNat 32 n.val) = Fin.ofNat 32 (backdrop (UInt16.ofNat n.val)).toNat := by decide
  have hentry := hall ⟨(a &&& 0x1F).toNat, hlt⟩
  rw [UInt16.ofNat_toNat] at hentry
  rw [← hentry, paletteEntry, hlow]

/-- **The cell that an address names is found by its bits.** -/
theorem Cell.ofAddress_eq (m : Mirroring) (addr : UInt16) : ofAddress m addr = m.cell addr := by
  have hoffset : (addr &&& 0x3FFF &&& 0x3FF).toNat = (addr &&& 0x3FFF).toNat % 0x400 :=
    toNat_and_low _ 10 rfl
  unfold ofAddress Mirroring.cell videoMask
  simp only [UInt16.lt_iff_toNat_lt, nametableOf_eq, paletteEntry_eq, hoffset]
  congr 3
  apply Fin.ext
  exact (Nat.mod_mod _ 0x400).symm

/-- Only fourteen bits count. -/
theorem Cell.ofAddress_and (m : Mirroring) (addr : UInt16) :
    ofAddress m (addr &&& videoMask) = ofAddress m addr := by
  rw [ofAddress, ofAddress, UInt16.and_assoc, UInt16.and_self]

/-- A cell of the pattern tables. -/
def Cell.isPattern : Cell → Bool
  | .pattern _ => true
  | _ => false

theorem cell_of_lt (m : Mirroring) {addr : UInt16} (h : addr &&& videoMask < 0x2000) :
    m.cell addr = .pattern ⟨(addr &&& videoMask).toNat, UInt16.lt_iff_toNat_lt.1 h⟩ := by
  have hmod : Fin.ofNat 0x2000 (addr &&& videoMask).toNat =
      ⟨(addr &&& videoMask).toNat, UInt16.lt_iff_toNat_lt.1 h⟩ :=
    Fin.ext (Nat.mod_eq_of_lt (UInt16.lt_iff_toNat_lt.1 h))
  rw [← hmod]
  exact if_pos h

/-- The pattern tables are the first half of picture memory. -/
theorem isPattern_cell (m : Mirroring) (addr : UInt16) :
    (m.cell addr).isPattern = true ↔ addr &&& videoMask < 0x2000 := by
  refine ⟨fun hp => ?_, fun h => congrArg Cell.isPattern (cell_of_lt m h)⟩
  by_cases h : addr &&& 0x3FFF < 0x2000
  · exact h
  · rw [Mirroring.cell, if_neg h] at hp
    split at hp <;> exact absurd hp Bool.false_ne_true

/-- The palette ends picture memory. -/
theorem cell_of_ge (m : Mirroring) {addr : UInt16} (h : 0x3F00 ≤ addr &&& 0x3FFF) :
    ∃ entry, m.cell addr = .palette entry := by
  have hpattern : ¬ addr &&& 0x3FFF < 0x2000 :=
    UInt16.not_lt.2 (UInt16.le_trans (by decide) h)
  exact ⟨_, (if_neg hpattern).trans (if_neg (UInt16.not_lt.2 h))⟩

/-- The nametables come between. -/
theorem cell_of_window (m : Mirroring) {addr : UInt16} (h₁ : 0x2000 ≤ addr &&& 0x3FFF)
    (h₂ : addr &&& 0x3FFF < 0x3F00) : ∃ table offset, m.cell addr = .nametable table offset :=
  ⟨_, _, (if_neg (UInt16.not_lt.2 h₁)).trans (if_pos h₂)⟩

end Ppu

/-! ### The picture memory of a loaded cartridge -/

namespace Cartridge

theorem le_patternEnd_iff {addr : UInt16} : addr ≤ 0x1FFF ↔ addr < 0x2000 := by
  rw [UInt16.le_iff_toNat_le, UInt16.lt_iff_toNat_lt]
  exact Nat.lt_succ_iff.symm

section Wired

variable {cart : Cartridge} {header : Header} (hw : cart.wiring = header.wiring)

include hw

theorem mapper_of_wiring : cart.mapper = .nrom header.prgBanks header.chrIsRam :=
  congrArg (·.2.1) hw

theorem mirroring_of_wiring : cart.header.mirroring = header.mirroring :=
  congrArg (·.1.mirroring) hw

/-- The picture memory has a bank at least. -/
theorem le_size_chr : 0x2000 ≤ cart.chr.size := by
  have hsize : cart.chr.size = if header.chrIsRam then 0x2000 else header.chrBanks.toNat * 0x2000 :=
    congrArg (·.2.2.2) hw
  rw [hsize]
  split
  · exact Nat.le_refl _
  · next hram =>
    have hbanks : header.chrBanks.toNat ≠ 0 := by
      intro h
      exact hram (beq_iff_eq.2 (UInt8.toNat_inj.1 h))
    omega

theorem lt_size_chr {addr : UInt16} (h : addr < 0x2000) : addr.toNat < cart.chr.size :=
  Nat.lt_of_lt_of_le (UInt16.lt_iff_toNat_lt.1 h) (le_size_chr hw)

/-- The cartridge answers for the pattern tables, and for nothing else. -/
theorem readChr?_of_wiring (addr : UInt16) : cart.readChr? addr =
    if addr < 0x2000 then some (cart.chr.getD addr.toNat 0) else none := by
  rw [readChr?, chrCell?, mapper_of_wiring hw, Mapper.chrReadOffset?]
  by_cases h : addr < 0x2000
  · rw [if_pos (le_patternEnd_iff.2 h), if_pos h, Option.filter_some, if_pos (by simpa using lt_size_chr hw h)]
    rfl
  · rw [if_neg fun h' => h (le_patternEnd_iff.1 h'), if_neg h]
    rfl

/-- It has a cell for a byte of them if it has RAM. -/
theorem chrWriteCell?_of_wiring (addr : UInt16) : cart.chrWriteCell? addr =
    if header.chrIsRam = true ∧ addr < 0x2000 then some addr.toNat else none := by
  rw [chrWriteCell?, mapper_of_wiring hw, Mapper.chrWriteOffset?]
  by_cases h : header.chrIsRam = true ∧ addr < 0x2000
  · rw [if_pos ⟨h.1, le_patternEnd_iff.2 h.2⟩, if_pos h, Option.filter_some,
      if_pos (by simpa using lt_size_chr hw h.2)]
  · rw [if_neg fun h' => h ⟨h'.1, le_patternEnd_iff.1 h'.2⟩, if_neg h]
    rfl

/-- And it takes the byte. -/
theorem writeChr?_of_wiring (addr : UInt16) (value : UInt8) : cart.writeChr? addr value =
    if header.chrIsRam = true ∧ addr < 0x2000 then some (cart.setChr addr.toNat value)
    else none := by
  rw [writeChr?, chrWriteCell?_of_wiring hw]
  split <;> rfl

end Wired

end Cartridge

/-! ### Reading and writing -/

namespace Ppu

/-- The byte of a cell: on the cartridge for the pattern tables, inside the picture unit for the
others. -/
def stored (p : Ppu) (cart : Cartridge) : Cell → UInt8
  | .pattern offset => cart.chr.getD offset 0
  | cell => p.memory.get cell

/-- How the byte of a cell is read. -/
def Mask.shown (mask : Mask) (cell : Cell) (value : UInt8) : UInt8 :=
  match cell with
  | .palette _ => value &&& (if mask.bits &&& 0x01 = 0 then 0x3F else 0x30)
  | _ => value

theorem readCell_eq (p : Ppu) (cell : Cell) :
    p.readCell cell = p.mask.shown cell (p.memory.get cell) := by
  cases cell with
  | palette entry =>
    rw [readCell, Mask.shown, Mask.greyscale]
    by_cases h : p.mask.bits &&& 0x01 = 0 <;> simp [h]
  | _ => rfl

section Wired

variable {cart : Cartridge} {header : Header} (hw : cart.wiring = header.wiring)

include hw

theorem cell_of_wiring (addr : UInt16) :
    Cell.ofAddress cart.header.mirroring (addr &&& videoMask) = header.mirroring.cell addr := by
  rw [Cartridge.mirroring_of_wiring hw, Cell.ofAddress_and, Cell.ofAddress_eq]

/-- **Reading shows the byte of the cell that the address names.** -/
theorem readVideo_eq (p : Ppu) (addr : UInt16) : p.readVideo cart addr =
    p.mask.shown (header.mirroring.cell addr) (p.stored cart (header.mirroring.cell addr)) := by
  unfold readVideo
  dsimp only
  rw [Cartridge.readChr?_of_wiring hw, cell_of_wiring hw]
  by_cases h : addr &&& videoMask < 0x2000
  · rw [if_pos h, cell_of_lt _ h]
    rfl
  · have hother := mt (isPattern_cell header.mirroring addr).1 h
    rw [if_neg h]
    show p.readCell (header.mirroring.cell addr) = _
    rw [readCell_eq]
    cases hc : header.mirroring.cell addr with
    | pattern offset => exact absurd (congrArg Cell.isPattern hc) hother
    | nametable table offset => rfl
    | palette entry => rfl

/-- **Writing changes the byte of the cell that the address names**, unless that is ROM. -/
theorem stored_writeVideo (p : Ppu) (addr : UInt16) (value : UInt8) (cell : Cell) :
    (p.writeVideo cart addr value).1.stored (p.writeVideo cart addr value).2 cell =
      if header.mirroring.cell addr = cell ∧ (header.chrIsRam || !cell.isPattern) = true then value
      else p.stored cart cell := by
  unfold writeVideo
  dsimp only
  rw [Cartridge.writeChr?_of_wiring hw, cell_of_wiring hw]
  by_cases h : header.chrIsRam = true ∧ addr &&& videoMask < 0x2000
  · -- The cartridge takes the byte, in its cell for the address.
    obtain ⟨hram, hlt⟩ := h
    have hin := Cartridge.lt_size_chr hw hlt
    rw [if_pos ⟨hram, hlt⟩, cell_of_lt _ hlt, hram, Bool.true_or]
    dsimp only
    cases cell with
    | pattern offset =>
      show (cart.chr.setIfInBounds (addr &&& videoMask).toNat value).getD offset 0 =
        if _ then value else cart.chr.getD offset 0
      simp only [Cell.pattern.injEq, Fin.ext_iff, and_true, Array.getD_eq_getD_getElem?]
      by_cases heq : (addr &&& videoMask).toNat = offset.val
      · rw [if_pos heq, ← heq, Array.getElem?_setIfInBounds_self_of_lt hin, Option.getD_some]
      · rw [if_neg heq, Array.getElem?_setIfInBounds_ne heq]
    | nametable table offset => simp only [reduceCtorEq, false_and, if_false, stored]
    | palette entry => simp only [reduceCtorEq, false_and, if_false, stored]
  · -- The byte goes to the memory inside the picture unit.
    rw [if_neg h]
    dsimp only
    cases cell with
    | pattern offset =>
      have hnot : ¬ (header.mirroring.cell addr = .pattern offset ∧
          (header.chrIsRam || !(Cell.pattern offset).isPattern) = true) := by
        rintro ⟨hc, hram⟩
        rw [Cell.isPattern, Bool.not_true, Bool.or_false] at hram
        have hpattern := congrArg Cell.isPattern hc
        exact h ⟨hram, (isPattern_cell header.mirroring addr).1 hpattern⟩
      rw [if_neg hnot]
      rfl
    | nametable table offset =>
      simp only [stored, VideoMemory.get_set, Cell.isPattern, Bool.not_false, Bool.or_true,
        and_true, eq_comm]
    | palette entry =>
      simp only [stored, VideoMemory.get_set, Cell.isPattern, Bool.not_false, Bool.or_true,
        and_true, eq_comm]

end Wired

end Ppu

end Nes
