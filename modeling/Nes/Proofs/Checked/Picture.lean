import Nes.Proofs.Bits
import Nes.Proofs.Checked.Basic
import Nes.Ppu.Access

/-!
# The picture unit in fixed widths

The memories of the picture unit are two pattern tables, two nametables, the palette and the sprite
memory.  An index into them is computed from an address by masks, shifts and, for some entries of
the palette, a difference; and all of these are such that no address leads outside.

The beam is another matter.  Its cycle and its line are words of sixteen bits that are counted up
before they are compared with their limits, so drawing a dot succeeds because the beam is in the
frame.

## Main definitions

* `Checked.cell`: the cell behind an address.
* `Checked.readVideo`, `Checked.writeVideo`: access to picture memory.
* `Checked.readRegister`, `Checked.peekRegister`, `Checked.writeRegister`: access through registers.
* `Checked.dot`: drawing a dot.

## Main statements

* `Checked.cell_eq`: every address leads to a cell.
* `Checked.readRegister_eq`, `Checked.writeRegister_eq`: no access is trapped.
* `Checked.dot_eq`: a dot is drawn if the beam is in the frame and frames can still be counted.
-/

namespace Nes

namespace Checked

open Ppu

/-! ### Cells -/

/-- An index into the palette.  The backdrops of the sprites are those of the background. -/
def paletteEntry (addr : UInt16) : Checked (Fin 32) := do
  let entry := (addr &&& 0x001F).toNat
  let entry ← if 0x10 ≤ entry ∧ entry &&& 0x03 = 0 then sub entry 0x10 else pure entry
  index 32 entry

/-- The indices of a byte of the nametables: a table, and a place in it. -/
def nametableCell (mirroring : Mirroring) (addr : UInt16) : Checked (Fin 2 × Fin 0x400) := do
  let a := (addr &&& 0x0FFF).toNat
  let window := a / 0x400
  let table ← index 2 (match mirroring with
    | .vertical => window &&& 1
    | .horizontal => window >>> 1)
  let offset ← index 0x400 (a &&& 0x3FF)
  pure (table, offset)

/-- The indices of a byte of the pattern tables: a table, and a place in it. -/
def patternCell (addr : UInt16) : Checked (Fin 2 × Fin 0x1000) := do
  let table ← index 2 (addr >>> 12).toNat
  let offset ← index 0x1000 (addr &&& 0x0FFF).toNat
  pure (table, offset)

/-- The cell that an address of picture memory names. -/
def cell (mirroring : Mirroring) (addr : UInt16) : Checked Cell :=
  if addr ≤ 0x1FFF then do
    let (table, offset) ← patternCell addr
    pure (.pattern ⟨table.val * 0x1000 + offset.val, by omega⟩)
  else if addr ≤ 0x3EFF then do
    let (table, offset) ← nametableCell mirroring addr
    pure (.nametable table offset)
  else do
    let entry ← paletteEntry addr
    pure (.palette entry)

theorem paletteEntry_eq (addr : UInt16) :
    paletteEntry addr = .ok (Ppu.paletteEntry addr.toNat) := by
  have hlow : (addr &&& 0x001F).toNat = addr.toNat % 32 := toNat_and_low addr 5 rfl
  have hlast : addr.toNat % 32 &&& 0x03 = addr.toNat % 32 % 4 :=
    Nat.and_two_pow_sub_one_eq_mod (addr.toNat % 32) 2
  unfold paletteEntry Ppu.paletteEntry
  dsimp only
  rw [hlow, hlast]
  -- Four entries of the sprites are those of the background, which lie 16 places before them.
  split
  · next h =>
    rw [sub_eq h.1, ok_bind, index_eq (by omega)]
    congr 1
    apply Fin.ext
    show addr.toNat % 32 - 16 = (addr.toNat % 32 - 16) % 32
    omega
  · rw [pure_eq, ok_bind, index_eq (by omega)]
    congr 1
    apply Fin.ext
    show addr.toNat % 32 = addr.toNat % 32 % 32
    omega

theorem nametableCell_eq (mirroring : Mirroring) (addr : UInt16) :
    nametableCell mirroring addr =
      .ok (nametableOf mirroring (addr.toNat / 0x400 % 4), Fin.ofNat 0x400 addr.toNat) := by
  have hlow : (addr &&& 0x0FFF).toNat = addr.toNat % 0x1000 := toNat_and_low addr 12 rfl
  have hoffset : addr.toNat % 0x1000 &&& 0x3FF = addr.toNat % 0x1000 % 0x400 :=
    Nat.and_two_pow_sub_one_eq_mod (addr.toNat % 0x1000) 10
  have hwindow : addr.toNat % 0x1000 / 0x400 = addr.toNat / 0x400 % 4 := by omega
  unfold nametableCell
  dsimp only
  rw [hlow, hoffset, hwindow]
  -- The place in the window does not depend on the mirroring, and the window does.
  have hplace : index 0x400 (addr.toNat % 0x1000 % 0x400) = .ok (Fin.ofNat 0x400 addr.toNat) := by
    rw [index_eq (Nat.mod_lt _ (by decide))]
    congr 1
    apply Fin.ext
    show addr.toNat % 0x1000 % 0x400 = addr.toNat % 0x400
    omega
  rw [hplace]
  cases mirroring with
  | vertical =>
    have hone : addr.toNat / 0x400 % 4 &&& 1 = addr.toNat / 0x400 % 4 % 2 :=
      Nat.and_one_is_mod _
    dsimp only
    rw [hone, index_eq (Nat.mod_lt _ (by decide))]
    rfl
  | horizontal =>
    have hhalf : (addr.toNat / 0x400 % 4) >>> 1 = addr.toNat / 0x400 % 4 / 2 :=
      Nat.shiftRight_eq_div_pow _ 1
    dsimp only
    rw [hhalf, index_eq (by omega)]
    show Except.ok (_, _) = Except.ok (_, _)
    congr 2
    apply Fin.ext
    show addr.toNat / 0x400 % 4 / 2 = addr.toNat / 0x400 % 4 / 2 % 2
    omega

theorem patternCell_eq {addr : UInt16} (h : addr.toNat < 0x2000) : ∃ table offset,
    patternCell addr = .ok (table, offset) ∧ table.val * 0x1000 + offset.val = addr.toNat := by
  have hlow : (addr &&& 0x0FFF).toNat = addr.toNat % 0x1000 := toNat_and_low addr 12 rfl
  have htable : (addr >>> 12).toNat = addr.toNat / 0x1000 := by
    rw [UInt16.toNat_shiftRight]
    exact Nat.shiftRight_eq_div_pow addr.toNat 12
  have htwo : addr.toNat / 0x1000 < 2 := by omega
  have hoffset : addr.toNat % 0x1000 < 0x1000 := Nat.mod_lt _ (by decide)
  refine ⟨⟨_, htwo⟩, ⟨_, hoffset⟩, ?_, Nat.div_add_mod' addr.toNat 0x1000⟩
  rw [patternCell, htable, hlow, index_eq htwo, ok_bind, index_eq hoffset]
  rfl

/-- **Every address of picture memory leads to a cell.** -/
theorem cell_eq (mirroring : Mirroring) (addr : UInt16) :
    cell mirroring (addr &&& videoMask) = .ok (.ofAddress mirroring (addr &&& videoMask)) := by
  -- The address is masked already, so masking it again changes nothing.
  have hself : addr &&& videoMask &&& videoMask = addr &&& videoMask := by
    rw [UInt16.and_assoc, UInt16.and_self]
  generalize addr &&& videoMask = a at hself
  have hpattern : a ≤ 0x1FFF ↔ a.toNat < 0x2000 := by
    rw [UInt16.le_iff_toNat_le]
    exact Nat.lt_succ_iff.symm
  have hnametable : a ≤ 0x3EFF ↔ a.toNat < 0x3F00 := by
    rw [UInt16.le_iff_toNat_le]
    exact Nat.lt_succ_iff.symm
  unfold cell Cell.ofAddress
  rw [hself]
  simp only [hpattern, hnametable]
  -- The three regions are told apart as in the map of cells.
  split
  · next h =>
    obtain ⟨table, offset, hcell, hplace⟩ := patternCell_eq h
    rw [hcell, ok_bind]
    show Except.ok _ = Except.ok _
    congr 2
    apply Fin.ext
    show table.val * 0x1000 + offset.val = a.toNat % 0x2000
    rw [hplace, Nat.mod_eq_of_lt h]
  · split
    · rw [nametableCell_eq]
      rfl
    · rw [paletteEntry_eq]
      rfl

/-! ### Access to picture memory -/

/-- The byte at an address of picture memory.  What the cartridge claims lies inside its memory. -/
def readVideo (p : Ppu) (cart : Cartridge) (addr : UInt16) : Checked UInt8 := do
  let addr := addr &&& videoMask
  match cart.readChr? addr with
  | some value => pure value
  | none =>
    let cell ← cell cart.header.mirroring addr
    pure (p.readCell cell)

/-- Stores a byte at an address of picture memory. -/
def writeVideo (p : Ppu) (cart : Cartridge) (addr : UInt16) (value : UInt8) :
    Checked (Ppu × Cartridge) := do
  let addr := addr &&& videoMask
  match cart.chrWriteCell? addr with
  | some place => pure (p, cart.setChr place value)
  | none =>
    let cell ← cell cart.header.mirroring addr
    pure ({ p with memory := p.memory.set cell value }, cart)

/-- **No read of picture memory is trapped.** -/
theorem readVideo_eq (p : Ppu) (cart : Cartridge) (addr : UInt16) :
    readVideo p cart addr = .ok (p.readVideo cart addr) := by
  unfold readVideo Ppu.readVideo
  cases hclaim : cart.readChr? (addr &&& videoMask) with
  | some value =>
    dsimp only
    rw [hclaim]
    rfl
  | none =>
    dsimp only
    rw [hclaim, cell_eq]
    rfl

/-- **Nor is a write.** -/
theorem writeVideo_eq (p : Ppu) (cart : Cartridge) (addr : UInt16) (value : UInt8) :
    writeVideo p cart addr value = .ok (p.writeVideo cart addr value) := by
  unfold writeVideo Ppu.writeVideo Cartridge.writeChr?
  cases hclaim : cart.chrWriteCell? (addr &&& videoMask) with
  | some place =>
    dsimp only
    rw [hclaim]
    rfl
  | none =>
    dsimp only
    rw [hclaim, cell_eq]
    rfl

/-! ### Access through registers

The video address moves on in a word that wraps, so only the sprite memory and the picture memory
can be missed. -/

/-- Reads a register. -/
def readRegister (p : Ppu) (cart : Cartridge) (register : Register) : Checked (UInt8 × Ppu) :=
  match register with
  | .oamData => do
    let place ← index 256 p.oamAddress.toNat
    pure (p.oam[place], p)
  | .videoData => do
    let fetched ← readVideo p cart p.videoAddress
    let shown := if p.videoAddress < paletteStart then p.readBuffer else fetched
    pure (shown, { p with readBuffer := fetched, videoAddress := p.nextVideoAddress })
  | _ => pure (p.readRegister cart register)

/-- The byte that a register would give. -/
def peekRegister (p : Ppu) (cart : Cartridge) (register : Register) : Checked UInt8 :=
  match register with
  | .oamData => do
    let place ← index 256 p.oamAddress.toNat
    pure p.oam[place]
  | .videoData =>
    if paletteStart ≤ p.videoAddress then readVideo p cart p.videoAddress else pure p.readBuffer
  | _ => pure (p.peekRegister cart register)

/-- Writes to a register. -/
def writeRegister (p : Ppu) (cart : Cartridge) (register : Register) (value : UInt8) :
    Checked (Ppu × Cartridge) :=
  match register with
  | .oamData => do
    let place ← index 256 p.oamAddress.toNat
    pure ({ p with oam := p.oam.set place value, oamAddress := p.oamAddress + 1 }, cart)
  | .videoData => do
    let next := p.nextVideoAddress
    let (p, cart) ← writeVideo p cart p.videoAddress value
    pure ({ p with videoAddress := next }, cart)
  | _ => pure (p.writeRegister cart register value)

theorem oamPlace_eq (p : Ppu) : index 256 p.oamAddress.toNat = .ok p.oamAddress.toFin :=
  index_eq p.oamAddress.toNat_lt

/-- **No read of a register is trapped.** -/
theorem readRegister_eq (p : Ppu) (cart : Cartridge) (register : Register) :
    readRegister p cart register = .ok (p.readRegister cart register) := by
  cases register with
  | oamData =>
    rw [readRegister, oamPlace_eq]
    rfl
  | videoData =>
    rw [readRegister, readVideo_eq]
    rfl
  | _ => rfl

theorem peekRegister_eq (p : Ppu) (cart : Cartridge) (register : Register) :
    peekRegister p cart register = .ok (p.peekRegister cart register) := by
  cases register with
  | oamData =>
    rw [peekRegister, oamPlace_eq]
    rfl
  | videoData =>
    rw [peekRegister, readVideo_eq, Ppu.peekRegister]
    split <;> rfl
  | _ => rfl

/-- **Nor is a write.** -/
theorem writeRegister_eq (p : Ppu) (cart : Cartridge) (register : Register) (value : UInt8) :
    writeRegister p cart register value = .ok (p.writeRegister cart register value) := by
  cases register with
  | oamData =>
    rw [writeRegister, oamPlace_eq]
    rfl
  | videoData =>
    rw [writeRegister, writeVideo_eq]
    rfl
  | _ => rfl

/-- The bytes of a nametable.  Any number names one. -/
def nametable (p : Ppu) (table : Nat) : Checked (Vector UInt8 0x400) := do
  let table ← index 2 (table &&& 1)
  pure (p.memory.nametable table)

theorem nametable_eq (p : Ppu) (table : Nat) :
    nametable p table = .ok (p.memory.nametable (Fin.ofNat 2 table)) := by
  have hone : table &&& 1 = table % 2 := Nat.and_one_is_mod table
  rw [nametable, hone, index_eq (Nat.mod_lt _ (by decide))]
  rfl

/-! ### Dots -/

/-- Draws the next dot.  The cycle is counted up before the end of the line is looked for, and so
are the line and the frame. -/
def dot (p : Ppu) : Checked Ppu := do
  let p := { p with status := p.statusAfterDot, nmiRequest := p.nmiRequest || p.raisesNmi }
  let cycle ← unsigned 16 (p.beam.cycle + 1)
  if cycle < Beam.lineLength then
    pure { p with beam := ⟨p.beam.scanline, cycle⟩ }
  else
    let scanline ← signed 16 (p.beam.scanline + 1)
    if scanline ≤ Beam.lastLine then
      pure { p with beam := ⟨scanline, 0⟩ }
    else
      let frameCount ← unsigned 64 (p.frameCount + 1)
      pure { p with
        beam := ⟨Beam.preRenderLine, 0⟩, frameComplete := true, frameCount := frameCount }

/-- **A dot is drawn without a trap** if the beam is in the frame and another frame can be
counted. -/
theorem dot_eq {p : Ppu} (h : p.beam.InFrame) (hcount : p.frameCount + 1 < 2 ^ 64) :
    dot p = .ok p.dot := by
  obtain ⟨hlow, hhigh, hcycle⟩ := h
  simp only [Beam.preRenderLine, Beam.lastLine, Beam.lineLength] at hlow hhigh hcycle
  have hwidth : (p.beam.cycle + 1) < 2 ^ 16 := by omega
  have hsigned : signed 16 (p.beam.scanline + 1) = .ok (p.beam.scanline + 1) :=
    signed_eq (by omega) (by omega)
  unfold dot Ppu.dot Beam.advance Beam.endsFrame
  dsimp only
  rw [unsigned_eq hwidth, ok_bind]
  -- The end of the line and that of the frame are looked for in this order.
  by_cases hline : p.beam.cycle + 1 < Beam.lineLength
  · have hgoes : decide (Beam.lineLength ≤ p.beam.cycle + 1) = false :=
      decide_eq_false (Nat.not_le_of_lt hline)
    rw [if_pos hline, if_pos hline, hgoes, Bool.false_and, Bool.or_false]
    rfl
  · have hends : decide (Beam.lineLength ≤ p.beam.cycle + 1) = true :=
      decide_eq_true (Nat.le_of_not_lt hline)
    rw [if_neg hline, if_neg hline, hsigned, ok_bind, hends, Bool.true_and]
    by_cases hframe : p.beam.scanline + 1 ≤ Beam.lastLine
    · have hgoes : decide (Beam.lastLine < p.beam.scanline + 1) = false :=
        decide_eq_false (Int.not_lt.2 hframe)
      rw [if_pos hframe, if_pos hframe, hgoes, Bool.or_false]
      rfl
    · -- The frame is over, and this is the only case in which something is counted.
      have hdone : decide (Beam.lastLine < p.beam.scanline + 1) = true :=
        decide_eq_true (Int.not_le.1 hframe)
      rw [if_neg hframe, if_neg hframe, unsigned_eq hcount, ok_bind, hdone, Bool.or_true]
      rfl

end Checked

end Nes
