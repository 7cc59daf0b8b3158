import Nes.Ppu.Tile
import Nes.Proofs.Console.Mirrors
import Nes.Proofs.Console.Twins

/-!
# Picture memory as a mirrored memory

What is written to picture memory through one address is read through every other address of the
same cell, until one of them is written again.  The palette keeps whole bytes and shows six bits of
them, or two in greyscale.  On a cartridge with picture ROM nothing changes the pattern tables, and
on no cartridge that can be loaded the pattern tables inside the picture unit can be seen.

## Main statements

* `Console.stored_writes`: a cell holds the byte that was written last to one of its addresses.
* `Console.picture_memory_mirrored`: picture memory is a mirrored memory.
-/

namespace Nes

namespace Ppu

/-- The picture unit with other switches for the picture. -/
def withMask (p : Ppu) (mask : Mask) : Ppu := { p with mask := mask }

/-- What is stored is shown as the switches ask for at the time. -/
theorem readVideo_withMask {cart : Cartridge} {header : Header} (hw : cart.wiring = header.wiring)
    (p : Ppu) (mask : Mask) (addr : UInt16) : (p.withMask mask).readVideo cart addr =
      mask.shown (header.mirroring.cell addr) (p.stored cart (header.mirroring.cell addr)) := by
  rw [readVideo_eq hw]
  cases header.mirroring.cell addr <;> rfl

end Ppu

namespace Console

/-- The console after bytes were written to addresses of picture memory, in order. -/
def writeVideos (c : Console) (writes : List (UInt16 × UInt8)) : Console :=
  c.operateAll (writes.map fun w => .writeVideo w.1 w.2)

/-- An access to picture memory, of which only a write is of account. -/
def accessVideo (c : Console) : Access → Console
  | .read _ => c
  | .write addr value => (c.operate (.writeVideo addr value)).console

/-- **A cell holds the byte that was written last to one of its addresses**, unless it is ROM. -/
theorem stored_writes {c : Console} {header : Header}
    (hw : c.space.cartridge.wiring = header.wiring) {cell : Ppu.Cell}
    (hcell : (header.chrIsRam || !cell.isPattern) = true) (writes : List (UInt16 × UInt8)) :
    (c.writeVideos writes).space.ppu.stored (c.writeVideos writes).space.cartridge cell =
      (lastWritten? (fun b => header.mirroring.cell b == cell)
        (writes.map fun w => .write w.1 w.2)).getD
        (c.space.ppu.stored c.space.cartridge cell) := by
  -- The wiring is the invariant, since it decides which cell an address leads to.
  have hlast := eq_lastWritten (P := fun c : Console => c.space.cartridge.wiring = header.wiring)
    (g := accessVideo)
    (f := fun c => c.space.ppu.stored c.space.cartridge cell)
    (m := fun b => header.mirroring.cell b == cell)
    (by
      intro c a hw
      cases a with
      | read addr => exact hw
      | write addr value => exact (Cartridge.fixed_wiring.operate c _).trans hw)
    (fun c addr => rfl)
    (by
      intro c hw addr value
      have hstored := Ppu.stored_writeVideo hw c.space.ppu addr value cell
      simp only [hcell, and_true] at hstored
      simp only [beq_iff_eq]
      exact hstored)
    hw (writes.map fun w => .write w.1 w.2)
  rw [List.foldl_map] at hlast
  rw [writeVideos, operateAll, List.foldl_map]
  exact hlast

section Wired

variable {c : Console} {header : Header} (hw : c.space.cartridge.wiring = header.wiring)

include hw

theorem wiring_operateAll (ops : List Operation) :
    (c.operateAll ops).space.cartridge.wiring = header.wiring :=
  (Cartridge.fixed_wiring.operateAll c ops).trans hw

theorem wiring_writeVideos (writes : List (UInt16 × UInt8)) :
    (c.writeVideos writes).space.cartridge.wiring = header.wiring :=
  wiring_operateAll hw _

/-- **Nothing changes picture ROM.** -/
theorem chr_operateAll (hrom : header.chrIsRam = false) (ops : List Operation) :
    (c.operateAll ops).space.cartridge.chr = c.space.cartridge.chr := by
  have hsome {cart : Cartridge} (h : cart.wiring = header.wiring) :
      cart.pictureRom? = some cart.chr := by
    rw [Cartridge.pictureRom?, Cartridge.mapper_of_wiring h, hrom]
    rfl
  have hfixed := Cartridge.fixed_pictureRom?.operateAll c ops
  rw [hsome (wiring_operateAll hw ops), hsome hw] at hfixed
  exact Option.some.inj hfixed

/-- The byte that was written last is read, in the form that the switches ask for. -/
theorem readVideo_writes (writes : List (UInt16 × UInt8)) (mask : Ppu.Mask) {a : UInt16}
    (ha : (header.chrIsRam || !(header.mirroring.cell a).isPattern) = true) :
    ((c.writeVideos writes).space.ppu.withMask mask).readVideo
        (c.writeVideos writes).space.cartridge a =
      mask.shown (header.mirroring.cell a)
        ((lastWritten? (fun b => header.mirroring.cell b == header.mirroring.cell a)
          (writes.map fun w => .write w.1 w.2)).getD
          (c.space.ppu.stored c.space.cartridge (header.mirroring.cell a))) := by
  rw [Ppu.readVideo_withMask (wiring_writeVideos hw writes), stored_writes hw ha]

/-- Picture RAM takes what is written, and picture ROM does not. -/
theorem readVideo_writes_pattern (writes : List (UInt16 × UInt8)) (mask : Ppu.Mask) {a : UInt16}
    (h : a &&& 0x3FFF < 0x2000) : ∃ initial,
      c.space.cartridge.chr[(a &&& 0x3FFF).toNat]? = some initial ∧
      ((c.writeVideos writes).space.ppu.withMask mask).readVideo
          (c.writeVideos writes).space.cartridge a =
        if header.chrIsRam then
          (lastWritten? (fun b => header.mirroring.cell b == header.mirroring.cell a)
            (writes.map fun w => .write w.1 w.2)).getD initial
        else initial := by
  have hget : c.space.cartridge.chr[(a &&& 0x3FFF).toNat]? =
      some (c.space.ppu.stored c.space.cartridge (header.mirroring.cell a)) := by
    rw [Ppu.cell_of_lt _ h]
    show _ = some (c.space.cartridge.chr.getD (a &&& 0x3FFF).toNat 0)
    rw [Array.getD_eq_getD_getElem?, Array.getElem?_eq_getElem (Cartridge.lt_size_chr hw h)]
    rfl
  -- Either the cell can be written or no operation changes it.
  refine ⟨_, hget, ?_⟩
  cases hram : header.chrIsRam with
  | true =>
    rw [readVideo_writes hw writes mask (by rw [hram]; rfl), Ppu.cell_of_lt _ h]
    rfl
  | false =>
    rw [Ppu.readVideo_withMask (wiring_writeVideos hw writes), Ppu.cell_of_lt _ h]
    show (c.writeVideos writes).space.cartridge.chr.getD _ 0 = c.space.cartridge.chr.getD _ 0
    rw [writeVideos, chr_operateAll hw hram]

theorem readVideo_writes_window (writes : List (UInt16 × UInt8)) (mask : Ppu.Mask) {a : UInt16}
    (h₁ : 0x2000 ≤ a &&& 0x3FFF) (h₂ : a &&& 0x3FFF < 0x3F00) :
    ((c.writeVideos writes).space.ppu.withMask mask).readVideo
        (c.writeVideos writes).space.cartridge a =
      (lastWritten? (fun b => header.mirroring.cell b == header.mirroring.cell a)
        (writes.map fun w => .write w.1 w.2)).getD
        (c.space.ppu.memory.get (header.mirroring.cell a)) := by
  obtain ⟨table, offset, hcell⟩ := Ppu.cell_of_window header.mirroring h₁ h₂
  have hwritable : (header.chrIsRam || !(header.mirroring.cell a).isPattern) = true := by
    rw [hcell]
    exact Bool.or_true _
  rw [readVideo_writes hw writes mask hwritable, hcell]
  rfl

/-- The palette keeps whole bytes and shows a part of them. -/
theorem readVideo_writes_palette (writes : List (UInt16 × UInt8)) (mask : Ppu.Mask) {a : UInt16}
    (h : 0x3F00 ≤ a &&& 0x3FFF) :
    (c.writeVideos writes).space.ppu.memory.get (header.mirroring.cell a) =
        (lastWritten? (fun b => header.mirroring.cell b == header.mirroring.cell a)
          (writes.map fun w => .write w.1 w.2)).getD
          (c.space.ppu.memory.get (header.mirroring.cell a)) ∧
      ((c.writeVideos writes).space.ppu.withMask mask).readVideo
          (c.writeVideos writes).space.cartridge a =
        (c.writeVideos writes).space.ppu.memory.get (header.mirroring.cell a) &&&
          (if mask.bits &&& 0x01 = 0 then 0x3F else 0x30) := by
  obtain ⟨entry, hcell⟩ := Ppu.cell_of_ge header.mirroring h
  have hwritable : (header.chrIsRam || !(header.mirroring.cell a).isPattern) = true := by
    rw [hcell]
    exact Bool.or_true _
  -- The entry keeps the byte; the switches only decide what is shown of it.
  have hstored := stored_writes hw hwritable writes
  rw [hcell] at hstored
  rw [Ppu.readVideo_withMask (wiring_writeVideos hw writes), hcell]
  exact ⟨hstored, rfl⟩

end Wired

/-- **Picture memory is a mirrored memory.**  For a console with a loaded cartridge, whatever its
memories hold, and for every sequence of writes to picture memory:

* an address of the pattern tables reads, on a cartridge with picture RAM, the byte that was written
  last to an address of the same cell, and otherwise the byte that was there; on a cartridge with
  picture ROM it reads the byte of the ROM;
* an address of the nametables reads the byte that was written last to an address of the same cell,
  and otherwise the byte that was there;
* the palette holds the byte that was written last to an address of the same entry, and otherwise
  the byte that was there; two bits of it are read if greyscale is on by then, and six if not.

No sequence of operations changes picture ROM.  And what the pattern tables inside the picture unit
hold makes no difference: whatever is put there, every sequence of operations gives the same answers
and leaves the same console but for these tables, and then the same is seen in memory, in picture
memory and in pictures of it. -/
theorem picture_memory_mirrored {image : Array UInt8} {cartridge : Cartridge}
    (hload : Cartridge.load image = .ok cartridge) {c : Console}
    (hc : c.space.cartridge.wiring = cartridge.wiring) :
    let header := cartridge.header
    let cell := header.mirroring.cell
    (∀ (writes : List (UInt16 × UInt8)) (mask : Ppu.Mask) (a : UInt16),
      let after := (c.operateAll (writes.map fun w => .writeVideo w.1 w.2)).space
      let last := lastWritten? (fun b => cell b == cell a) (writes.map fun w => .write w.1 w.2)
      let shown := (after.ppu.withMask mask).readVideo after.cartridge a
      (a &&& 0x3FFF < 0x2000 → ∃ initial,
        c.space.cartridge.chr[(a &&& 0x3FFF).toNat]? = some initial ∧
        shown = if header.chrIsRam then last.getD initial else initial) ∧
      (0x2000 ≤ a &&& 0x3FFF → a &&& 0x3FFF < 0x3F00 →
        shown = last.getD (c.space.ppu.memory.get (cell a))) ∧
      (0x3F00 ≤ a &&& 0x3FFF →
        after.ppu.memory.get (cell a) = last.getD (c.space.ppu.memory.get (cell a)) ∧
        shown = after.ppu.memory.get (cell a) &&&
          (if mask.bits &&& 0x01 = 0 then 0x3F else 0x30))) ∧
    (header.chrIsRam = false → ∀ ops : List Operation,
      (c.operateAll ops).space.cartridge.chr = c.space.cartridge.chr) ∧
    (∀ (patterns : Vector UInt8 0x2000) (ops : List Operation),
      let d := c.withPpu (c.space.ppu.withPatterns patterns)
      let c' := c.operateAll ops
      let d' := d.operateAll ops
      c.answers ops = d.answers ops ∧
      (∃ patterns', d' = c'.withPpu (c'.space.ppu.withPatterns patterns')) ∧
      (∀ a, c'.peek a = d'.peek a) ∧
      (∀ a, c'.space.ppu.readVideo c'.space.cartridge a =
        d'.space.ppu.readVideo d'.space.cartridge a) ∧
      (∀ table palette, c'.space.ppu.patternTable c'.space.cartridge table palette =
        d'.space.ppu.patternTable d'.space.cartridge table palette)) := by
  have hw : c.space.cartridge.wiring = cartridge.header.wiring :=
    hc.trans (Cartridge.wiring_of_load hload)
  refine ⟨fun writes mask a => ⟨?_, ?_, ?_⟩, ?_, ?_⟩
  · -- The three regions are told apart by the address.
    exact readVideo_writes_pattern hw writes mask
  · exact readVideo_writes_window hw writes mask
  · exact readVideo_writes_palette hw writes mask
  · exact chr_operateAll hw
  · -- The consoles differ in nothing but the tables, and no operation tells them apart.
    intro patterns ops
    have htwins : c.Twins (c.withPpu (c.space.ppu.withPatterns patterns)) :=
      ⟨_, ⟨⟨_, hw⟩, patterns, rfl⟩, rfl⟩
    obtain ⟨hanswers, space, hspace, hd⟩ := htwins.operateAll ops
    dsimp only
    rw [hd]
    have hvideo := hspace.readVideo
    refine ⟨hanswers, ?_, hspace.peek, hvideo, ?_⟩
    · obtain ⟨-, patterns', rfl⟩ := hspace
      exact ⟨patterns', rfl⟩
    · -- A picture is made of what is read from picture memory.
      intro table palette
      simp only [Ppu.patternTable, Ppu.decodeTile, Ppu.colour, hvideo]

/-- Under vertical mirroring the window at `0x2800` shows what is written at `0x7000`, and the first
backdrop is that of the sprites. -/
theorem picture_memory_mirrored_vertical : ∃ image cartridge, ∃ c : Console,
    (Cartridge.load image = .ok cartridge ∧ c.space.cartridge.wiring = cartridge.wiring) ∧
      let after := (c.operateAll [.writeVideo 0x7005 7, .writeVideo 0x3F10 0xC9]).space
      (after.ppu.withMask ⟨0⟩).readVideo after.cartridge 0x2805 = 7 ∧
      (after.ppu.withMask ⟨0⟩).readVideo after.cartridge 0x3F00 = 0x09 := by
  obtain ⟨image, cartridge, hload, hmirroring⟩ : ∃ image cartridge,
      Cartridge.load image = .ok cartridge ∧ cartridge.header.mirroring = .vertical := by
    have hsize : Image.WellSized ⟨1, 0, 1, 0, .replicate 8 0, #[], .replicate 0x4000 0, #[]⟩ :=
      ⟨rfl, Array.size_replicate, rfl⟩
    exact ⟨_, _, Cartridge.load_toBytes hsize rfl, rfl⟩
  refine ⟨image, cartridge, powerOn cartridge, ⟨hload, rfl⟩, ?_⟩
  obtain ⟨hread, -, -⟩ := picture_memory_mirrored hload (c := powerOn cartridge) rfl
  obtain ⟨-, hwindow, -⟩ := hread [(0x7005, 7), (0x3F10, 0xC9)] ⟨0⟩ 0x2805
  obtain ⟨-, -, hpalette⟩ := hread [(0x7005, 7), (0x3F10, 0xC9)] ⟨0⟩ 0x3F00
  rw [hmirroring] at hwindow hpalette
  obtain ⟨hentry, hshown⟩ := hpalette (by decide)
  refine ⟨hwindow (by decide) (by decide), hshown.trans ?_⟩
  have hlast : lastWritten? (fun b => Mirroring.vertical.cell b == Mirroring.vertical.cell 0x3F00)
      [.write 0x7005 7, .write 0x3F10 0xC9] = some 0xC9 := by decide
  rw [hentry, List.map_cons, List.map_cons, List.map_nil, hlast, Option.getD_some]
  decide

end Console

end Nes
