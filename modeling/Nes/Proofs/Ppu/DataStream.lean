import Nes.Proofs.Ppu.Session
import Nes.Proofs.Ppu.Video
import Nes.Proofs.Ppu.WriteToggle
import Nes.Proofs.Stores

/-!
# Streams through the data register

The data register is read and written byte after byte, and the address moves on by itself, so a
program moves blocks of bytes through it.  Reading comes one access late: what is read ahead is given
with the next read.  In the palette it does not, but it is read ahead all the same, so that a byte of
the palette may be given twice, the second time for an address elsewhere.  And at the end of picture
memory the address goes on at the beginning.

Here streams of any length are described access by access.  Blocks follow: what was written from an
address on is read from the same address on, after the byte that was left in the buffer.

## Main definitions

* `Ppu.addressAfter`, `Ppu.bufferAfter`: address and buffer after a number of accesses.
* `Ppu.block`: the addresses at which the bytes of a stream are stored.
* `Picture.writeVideos`: bytes are stored in picture memory, in order.

## Main statements

* `Picture.reads`, `Picture.writes`: what a stream of reads, or of writes, gives and leaves.
* `Picture.stored_writeVideos`: what a cell holds after many bytes were stored.
* `Picture.stored_block`, `Picture.answers_of_stored`: the bytes of a block are stored if their cells
  differ, and what is stored is read.
* `Picture.data_streams`: streams of reads and writes, and blocks that are read back.
-/

namespace Nes

/-! ### Addresses and buffer -/

namespace Ppu

/-- The address in picture memory after a number of accesses through the data register. -/
def addressAfter (p : Ppu) (n : Nat) : UInt16 :=
  .ofNat ((p.videoAddress.toNat + n * if p.control.bits.toNat.testBit 2 then 32 else 1) % 0x4000)

/-- The byte in the read-ahead buffer after a number of reads: the one that was there, or the one at
the address of the last read. -/
def bufferAfter (p : Ppu) (cart : Cartridge) : Nat → UInt8
  | 0 => p.readBuffer
  | n + 1 => p.readVideo cart (p.addressAfter n)

/-- The byte that is read after a number of reads. -/
def streamed (p : Ppu) (cart : Cartridge) (n : Nat) : UInt8 :=
  if 0x3F00 ≤ p.addressAfter n then p.readVideo cart (p.addressAfter n) else p.bufferAfter cart n

/-- The picture unit after a number of reads. -/
def afterReads (p : Ppu) (cart : Cartridge) (n : Nat) : Ppu :=
  { p with readBuffer := p.bufferAfter cart n, videoAddress := p.addressAfter n }

/-- The bytes of a stream with the addresses at which they are stored. -/
def block (p : Ppu) (bytes : List UInt8) : List (UInt16 × UInt8) :=
  bytes.zipIdx.map fun (value, i) => (p.addressAfter i, value)

variable {p q : Ppu}

theorem toNat_addressAfter (p : Ppu) (n : Nat) : (p.addressAfter n).toNat =
    (p.videoAddress.toNat + n * if p.control.bits.toNat.testBit 2 then 32 else 1) % 0x4000 :=
  UInt16.toNat_ofNat_of_lt (Nat.lt_trans (Nat.mod_lt _ (by decide)) (by decide))

theorem addressAfter_lt (p : Ppu) (n : Nat) : p.addressAfter n < 0x4000 := by
  rw [UInt16.lt_iff_toNat_lt, toNat_addressAfter]
  exact Nat.mod_lt _ (by decide)

theorem addressAfter_zero (h : p.videoAddress < 0x4000) : p.addressAfter 0 = p.videoAddress := by
  rw [← UInt16.toNat_inj, toNat_addressAfter, Nat.zero_mul, Nat.add_zero]
  exact Nat.mod_eq_of_lt (UInt16.lt_iff_toNat_lt.1 h)

theorem addressAfter_congr (hcontrol : q.control = p.control)
    (haddress : q.videoAddress = p.videoAddress) : q.addressAfter = p.addressAfter := by
  funext n
  rw [addressAfter, hcontrol, haddress]
  rfl

/-- The next access moves the address on. -/
theorem nextVideoAddress_eq {n : Nat} (hcontrol : q.control = p.control)
    (haddress : q.videoAddress = p.addressAfter n) : q.nextVideoAddress = p.addressAfter (n + 1) := by
  rw [← UInt16.toNat_inj, toNat_nextVideoAddress, hcontrol, haddress, toNat_addressAfter,
    toNat_addressAfter, Nat.mod_add_mod, Nat.succ_mul, Nat.add_assoc]

/-- Below fourteen bits nothing is folded. -/
theorem and_videoMask_of_lt {addr : UInt16} (h : addr < 0x4000) : addr &&& videoMask = addr := by
  rw [← UInt16.toNat_inj, toNat_and_low addr 14 rfl]
  exact Nat.mod_eq_of_lt (UInt16.lt_iff_toNat_lt.1 h)

/-- A cell is one of RAM if the cartridge has picture RAM or if it is none of the pattern tables. -/
theorem writable_cell {header : Header} {addr : UInt16}
    (h : header.chrIsRam = true ∨ 0x2000 ≤ addr) (ha : addr < 0x4000) :
    (header.chrIsRam || !(header.mirroring.cell addr).isPattern) = true := by
  rw [Bool.or_eq_true, Bool.not_eq_true']
  refine h.imp_right fun hge => ?_
  rw [Bool.eq_false_iff, ne_eq, isPattern_cell, and_videoMask_of_lt ha]
  exact UInt16.not_lt.2 hge

/-- Below the palette bytes are read as they are stored. -/
theorem Mask.shown_cell_of_lt (mask : Mask) (m : Mirroring) {addr : UInt16} (h : addr < 0x3F00)
    (value : UInt8) : mask.shown (m.cell addr) value = value := by
  have hmasked : addr &&& 0x3FFF < 0x3F00 := by
    show addr &&& videoMask < 0x3F00
    rw [and_videoMask_of_lt (UInt16.lt_trans h (by decide))]
    exact h
  unfold Mirroring.cell
  dsimp only
  by_cases hpattern : addr &&& 0x3FFF < 0x2000
  · rw [if_pos hpattern]
    rfl
  · rw [if_neg hpattern, if_pos hmasked]
    rfl

theorem mem_block {bytes : List UInt8} {w : UInt16 × UInt8} :
    w ∈ p.block bytes ↔ ∃ i, ∃ _ : i < bytes.length, w = (p.addressAfter i, bytes[i]) :=
  mem_placed

theorem block_concat (p : Ppu) (bytes : List UInt8) (value : UInt8) :
    p.block (bytes ++ [value]) = p.block bytes ++ [(p.addressAfter bytes.length, value)] :=
  placed_concat p.addressAfter bytes value

/-- One more read. -/
theorem readRegister_afterReads (p : Ppu) (cart : Cartridge) (n : Nat) :
    (p.afterReads cart n).readRegister cart .videoData =
      (p.streamed cart n, p.afterReads cart (n + 1)) := by
  have hnext : (p.afterReads cart n).nextVideoAddress = p.addressAfter (n + 1) :=
    nextVideoAddress_eq rfl rfl
  have hafter : p.afterReads cart (n + 1) =
      { p with
        readBuffer := p.readVideo cart (p.addressAfter n)
        videoAddress := (p.afterReads cart n).nextVideoAddress } := by
    rw [hnext]
    rfl
  -- Only an address of the palette is read at once.
  have hshown : p.streamed cart n =
      if p.addressAfter n < 0x3F00 then p.bufferAfter cart n
      else p.readVideo cart (p.addressAfter n) := by
    simp only [streamed, ← UInt16.not_lt, ite_not]
  rw [hafter, hshown]
  rfl

end Ppu

/-! ### Streams -/

namespace Picture

/-- Stores a byte at an address of picture memory. -/
def writeVideo (s : Picture) (w : UInt16 × UInt8) : Picture :=
  ⟨(s.ppu.writeVideo s.cartridge w.1 w.2).1, (s.ppu.writeVideo s.cartridge w.1 w.2).2⟩

/-- Stores bytes at addresses of picture memory, in order. -/
def writeVideos (s : Picture) (writes : List (UInt16 × UInt8)) : Picture :=
  writes.foldl writeVideo s

/-- The picture unit is at another address. -/
def withAddress (s : Picture) (addr : UInt16) : Picture :=
  ⟨{ s.ppu with videoAddress := addr }, s.cartridge⟩

/-- The byte of a cell. -/
def stored (s : Picture) (cell : Ppu.Cell) : UInt8 := s.ppu.stored s.cartridge cell

variable {s : Picture}

/-- **A stream of reads**: the bytes that it gives and what it leaves. -/
theorem reads (ha : s.ppu.videoAddress < 0x4000) (k : Nat) :
    s.answers (.replicate k (.read .videoData)) =
        (List.range k).map (s.ppu.streamed s.cartridge) ∧
      s.stepAll (.replicate k (.read .videoData)) =
        ⟨s.ppu.afterReads s.cartridge k, s.cartridge⟩ := by
  -- The last read is taken off, since each finds what those before it have left.
  induction k with
  | zero =>
    have hstart : s.ppu.afterReads s.cartridge 0 = s.ppu := by
      rw [Ppu.afterReads, Ppu.addressAfter_zero ha]
      rfl
    rw [hstart]
    exact ⟨rfl, rfl⟩
  | succ k ih =>
    obtain ⟨hanswers, hafter⟩ := ih
    have hread := s.ppu.readRegister_afterReads s.cartridge k
    rw [List.replicate_succ', answers_append, stepAll_append, hanswers, hafter, List.range_succ,
      List.map_append]
    constructor
    · exact congrArg (_ ++ [·.1]) hread
    · exact congrArg (Picture.mk ·.2 s.cartridge) hread

/-- Where the picture unit is makes no difference to what is stored at an address. -/
theorem writeVideo_withAddress (s : Picture) (addr : UInt16) (w : UInt16 × UInt8) :
    (s.withAddress addr).writeVideo w = (s.writeVideo w).withAddress addr := by
  obtain ⟨store, cart', h⟩ := Ppu.exists_writeVideo_eq s.cartridge w.1 w.2
  have hat : (s.withAddress addr).cartridge = s.cartridge := rfl
  rw [writeVideo, writeVideo, hat, h, h]
  rfl

theorem writeVideos_concat (s : Picture) (writes : List (UInt16 × UInt8)) (w : UInt16 × UInt8) :
    s.writeVideos (writes ++ [w]) = (s.writeVideos writes).writeVideo w := by
  rw [writeVideos, List.foldl_append]
  rfl

/-- Storing bytes changes the memory of the picture unit at most. -/
theorem ppu_writeVideos (s : Picture) (writes : List (UInt16 × UInt8)) :
    ∃ memory, (s.writeVideos writes).ppu = { s.ppu with memory := memory } := by
  induction writes using List.reverseRecOn with
  | nil => exact ⟨s.ppu.memory, rfl⟩
  | append_singleton writes w ih =>
    obtain ⟨memory, h⟩ := ih
    obtain ⟨store, cart', hstore⟩ := Ppu.exists_writeVideo_eq (s.writeVideos writes).cartridge w.1 w.2
    refine ⟨store memory, ?_⟩
    rw [writeVideos_concat, writeVideo, hstore, h]

theorem control_writeVideos (s : Picture) (writes : List (UInt16 × UInt8)) :
    (s.writeVideos writes).ppu.control = s.ppu.control := by
  obtain ⟨memory, h⟩ := s.ppu_writeVideos writes
  rw [h]

theorem readBuffer_writeVideos (s : Picture) (writes : List (UInt16 × UInt8)) :
    (s.writeVideos writes).ppu.readBuffer = s.ppu.readBuffer := by
  obtain ⟨memory, h⟩ := s.ppu_writeVideos writes
  rw [h]

/-- **A stream of writes** stores its bytes one after the other and leaves the address at the end. -/
theorem writes (ha : s.ppu.videoAddress < 0x4000) (bytes : List UInt8) :
    s.stepAll (bytes.map (.write .videoData)) =
      (s.writeVideos (s.ppu.block bytes)).withAddress (s.ppu.addressAfter bytes.length) := by
  -- The last byte goes to the address after all others, so the induction is from the end.
  induction bytes using List.reverseRecOn with
  | nil =>
    show s = s.withAddress (s.ppu.addressAfter 0)
    rw [Ppu.addressAfter_zero ha]
    rfl
  | append_singleton bytes value ih =>
    rw [List.map_append, stepAll_append, ih, Ppu.block_concat, writeVideos_concat,
      List.length_append]
    have hnext : ((s.writeVideos (s.ppu.block bytes)).withAddress
        (s.ppu.addressAfter bytes.length)).ppu.nextVideoAddress =
          s.ppu.addressAfter (bytes.length + 1) :=
      Ppu.nextVideoAddress_eq (s.control_writeVideos _) rfl
    generalize s.writeVideos (s.ppu.block bytes) = t at hnext ⊢
    show ((t.withAddress _).writeVideo (_, value)).withAddress (t.withAddress _).ppu.nextVideoAddress
      = _
    rw [hnext, writeVideo_withAddress]
    rfl

/-! ### Blocks -/

section Wired

variable {header : Header} (hw : s.cartridge.wiring = header.wiring)

include hw

theorem wiring_writeVideo (w : UInt16 × UInt8) :
    (s.writeVideo w).cartridge.wiring = header.wiring :=
  (Cartridge.fixed_wiring.writeVideo _ _ w.1 w.2).trans hw

theorem wiring_writeVideos (writes : List (UInt16 × UInt8)) :
    (s.writeVideos writes).cartridge.wiring = header.wiring := by
  induction writes using List.reverseRecOn with
  | nil => exact hw
  | append_singleton writes w ih =>
    rw [writeVideos_concat]
    exact wiring_writeVideo ih w

theorem stored_writeVideo (w : UInt16 × UInt8) (cell : Ppu.Cell) :
    (s.writeVideo w).stored cell =
      if header.mirroring.cell w.1 = cell ∧ (header.chrIsRam || !cell.isPattern) = true then w.2
      else s.stored cell :=
  Ppu.stored_writeVideo hw s.ppu w.1 w.2 cell

/-- A cell holds a byte in the end if nothing else is stored to it and the byte is, or was there. -/
theorem stored_writeVideos {writes : List (UInt16 × UInt8)} {cell : Ppu.Cell} {value : UInt8}
    (hwritable : (header.chrIsRam || !cell.isPattern) = true)
    (hall : ∀ w ∈ writes, header.mirroring.cell w.1 = cell → w.2 = value)
    (h : s.stored cell = value ∨ ∃ w ∈ writes, header.mirroring.cell w.1 = cell) :
    (s.writeVideos writes).stored cell = value := by
  refine foldl_eq_of_stores (P := fun s : Picture => s.cartridge.wiring = header.wiring)
    (g := writeVideo) (f := fun s => s.stored cell)
    (m := fun w => header.mirroring.cell w.1 = cell) (fun s w hs => wiring_writeVideo hs w)
    ?_ ?_ hw h
  · intro w hmem hcell s hs
    rw [stored_writeVideo hs, if_pos ⟨hcell, hwritable⟩, hall w hmem hcell]
  · intro w _ hcell s hs
    rw [stored_writeVideo hs, if_neg fun hw => hcell hw.1]

/-- **The bytes of a block are stored**, if no two of them go to one cell and none goes to ROM. -/
theorem stored_block {bytes : List UInt8}
    (hwritable : ∀ i < bytes.length, (header.chrIsRam ||
      !(header.mirroring.cell (s.ppu.addressAfter i)).isPattern) = true)
    (hdistinct : ∀ j < bytes.length, ∀ i < j,
      header.mirroring.cell (s.ppu.addressAfter i) ≠ header.mirroring.cell (s.ppu.addressAfter j))
    (i : Nat) (hi : i < bytes.length) :
    (s.writeVideos (s.ppu.block bytes)).stored (header.mirroring.cell (s.ppu.addressAfter i)) =
      bytes[i] := by
  refine stored_writeVideos hw (hwritable i hi) ?_ (.inr ⟨_, Ppu.mem_block.2 ⟨i, hi, rfl⟩, rfl⟩)
  rintro w hmem hcell
  obtain ⟨j, hj, rfl⟩ := Ppu.mem_block.1 hmem
  -- Another byte that goes to this cell comes before or after it, and there is none.
  obtain hlt | rfl | hgt := Nat.lt_trichotomy j i
  · exact absurd hcell (hdistinct i hi j hlt)
  · rfl
  · exact absurd hcell.symm (hdistinct j hj i hgt)

end Wired

/-- The address is set: the status register is read, and both bytes are written. -/
theorem stepAll_seek (s : Picture) {addr : UInt16} {high low : UInt8}
    (h : 0x100 * (high &&& 0x3F).toNat + low.toNat = addr.toNat) :
    s.stepAll [.read .status, .write .videoAddress high, .write .videoAddress low] =
      ⟨{ s.ppu with
          status := s.ppu.status.clearVblank, secondWrite := false, videoAddress := addr },
        s.cartridge⟩ := by
  have haddr : addr = ((((high.toUInt16 &&& 0x3F) <<< 8) ||| (s.ppu.videoAddress &&& 0x00FF)) &&&
      0xFF00) ||| low.toUInt16 := by
    rw [← UInt16.toNat_inj, Ppu.toNat_secondByte, Ppu.toNat_firstByte]
    omega
  rw [haddr]
  rfl

/-- What is stored from the address on is read after the byte that is in the buffer. -/
theorem answers_of_stored {header : Header} (hw : s.cartridge.wiring = header.wiring)
    (ha : s.ppu.videoAddress < 0x4000) {bytes : List UInt8}
    (hbelow : ∀ i ≤ bytes.length, s.ppu.addressAfter i < 0x3F00)
    (hstored : ∀ i (hi : i < bytes.length),
      s.stored (header.mirroring.cell (s.ppu.addressAfter i)) = bytes[i]) :
    s.answers (.replicate (bytes.length + 1) (.read .videoData)) = s.ppu.readBuffer :: bytes := by
  have hbyte {n : Nat} (hn : n ≤ bytes.length) :
      s.ppu.streamed s.cartridge n = s.ppu.bufferAfter s.cartridge n :=
    if_neg (UInt16.not_le.2 (hbelow n hn))
  -- The bytes come one read later than their addresses.
  have hblock : (List.range bytes.length).map (s.ppu.streamed s.cartridge ∘ Nat.succ) = bytes := by
    apply List.ext_getElem
    · rw [List.length_map, List.length_range]
    · intro i _ hi
      rw [List.getElem_map, List.getElem_range, Function.comp_apply, hbyte hi, Ppu.bufferAfter,
        Ppu.readVideo_eq hw, Ppu.Mask.shown_cell_of_lt _ _ (hbelow i (Nat.le_of_lt hi))]
      exact hstored i hi
  rw [(reads ha _).1, List.range_succ_eq_map, List.map_cons, List.map_map, hblock,
    hbyte (Nat.zero_le _)]
  rfl

/-- **A block is read back**, after the byte that was in the buffer. -/
theorem answers_block {header : Header} (hw : s.cartridge.wiring = header.wiring)
    (ha : s.ppu.videoAddress < 0x4000) {bytes : List UInt8} {high low : UInt8}
    (hbelow : ∀ i ≤ bytes.length, s.ppu.addressAfter i < 0x3F00)
    (hwritable : ∀ i < bytes.length, header.chrIsRam = true ∨ 0x2000 ≤ s.ppu.addressAfter i)
    (hdistinct : ∀ j < bytes.length, ∀ i < j,
      header.mirroring.cell (s.ppu.addressAfter i) ≠ header.mirroring.cell (s.ppu.addressAfter j))
    (hseek : 0x100 * (high &&& 0x3F).toNat + low.toNat = s.ppu.videoAddress.toNat) :
    (s.stepAll (bytes.map (.write .videoData) ++
        [.read .status, .write .videoAddress high, .write .videoAddress low])).answers
        (.replicate (bytes.length + 1) (.read .videoData)) =
      s.ppu.readBuffer :: bytes := by
  have hwired := wiring_writeVideos hw (s.ppu.block bytes)
  have hstored := stored_block hw
    (fun i hi => Ppu.writable_cell (hwritable i hi) (s.ppu.addressAfter_lt i)) hdistinct
  have hcontrol := s.control_writeVideos (s.ppu.block bytes)
  have hbuffer := s.readBuffer_writeVideos (s.ppu.block bytes)
  rw [stepAll_append, writes ha, stepAll_seek _ hseek]
  generalize s.writeVideos (s.ppu.block bytes) = t at hwired hstored hcontrol hbuffer ⊢
  -- The address is what it was before the block, so the same cells are read.
  let u : Picture :=
    ⟨{ t.ppu with
        status := t.ppu.status.clearVblank, secondWrite := false,
        videoAddress := s.ppu.videoAddress }, t.cartridge⟩
  have haddress : u.ppu.addressAfter = s.ppu.addressAfter := Ppu.addressAfter_congr hcontrol rfl
  rw [← haddress] at hbelow hstored
  exact (answers_of_stored (s := u) hwired ha hbelow hstored).trans
    (congrArg (· :: bytes) hbuffer)

/-- **Streams through the data register.**  With an accepted cartridge, let the address in picture
memory be one of fourteen bits.  Each access moves it on by 32 bytes or by one, as the control
register asks for, and from the end of picture memory to its beginning.

* Reads give the byte at their address if that is in the palette, and else what is in the buffer:
  first the byte that was there, then the one at the address of the read before.  They change
  nothing but the buffer and the address.
* Writes store their bytes one after the other and move the address on.  The buffer is as it was.
* Let bytes be written to addresses below the palette, all in RAM and no two in one cell, and let the
  address after them be below the palette too.  If then the address is set back by way of the status
  and the address register, reading gives the byte that was in the buffer, followed by the bytes. -/
theorem data_streams {image : Array UInt8} {cartridge : Cartridge}
    (hload : Cartridge.load image = .ok cartridge) {s : Picture}
    (hs : s.cartridge.wiring = cartridge.wiring) (ha : s.ppu.videoAddress < 0x4000) :
    let p := s.ppu
    let address := p.addressAfter
    let cell := cartridge.header.mirroring.cell
    (∀ k,
      let stream := List.replicate k (Step.read .videoData)
      s.answers stream = (List.range k).map (fun i =>
        if 0x3F00 ≤ address i then p.readVideo s.cartridge (address i)
        else p.bufferAfter s.cartridge i) ∧
      s.stepAll stream =
        ⟨{ p with readBuffer := p.bufferAfter s.cartridge k, videoAddress := address k },
          s.cartridge⟩) ∧
    (∀ bytes,
      let stream := bytes.map (Step.write .videoData)
      s.stepAll stream = (s.writeVideos (p.block bytes)).withAddress (address bytes.length) ∧
        (s.stepAll stream).ppu.readBuffer = p.readBuffer) ∧
    (∀ (bytes : List UInt8) (high low : UInt8),
      (∀ i ≤ bytes.length, address i < 0x3F00) →
      (∀ i < bytes.length, cartridge.header.chrIsRam = true ∨ 0x2000 ≤ address i) →
      (∀ j < bytes.length, ∀ i < j, cell (address i) ≠ cell (address j)) →
      0x100 * (high &&& 0x3F).toNat + low.toNat = p.videoAddress.toNat →
      let written := s.stepAll (bytes.map (.write .videoData) ++
        [.read .status, .write .videoAddress high, .write .videoAddress low])
      written.answers (.replicate (bytes.length + 1) (.read .videoData)) =
        p.readBuffer :: bytes) := by
  have hw : s.cartridge.wiring = cartridge.header.wiring :=
    hs.trans (Cartridge.wiring_of_load hload)
  refine ⟨reads ha, fun bytes => ⟨writes ha bytes, ?_⟩, fun bytes high low => answers_block hw ha⟩
  rw [writes ha]
  exact s.readBuffer_writeVideos (s.ppu.block bytes)

/-- Three bytes by the row: the first goes to the last tile of the pattern tables, the others to the
first nametable. -/
theorem data_streams_by_the_row : ∃ image cartridge, ∃ s : Picture,
    (Cartridge.load image = .ok cartridge ∧ s.cartridge.wiring = cartridge.wiring ∧
      s.ppu.videoAddress < 0x4000) ∧
    (s.stepAll ([1, 2, 3].map (.write .videoData) ++
      [.read .status, .write .videoAddress 0x5F, .write .videoAddress 0xF0])).answers
      (.replicate 4 (.read .videoData)) = [0xAA, 1, 2, 3] := by
  obtain ⟨image, cartridge, hload, hram, hmirroring⟩ : ∃ image cartridge,
      Cartridge.load image = .ok cartridge ∧ cartridge.header.chrIsRam = true ∧
        cartridge.header.mirroring = .vertical := by
    have hsize : Image.WellSized ⟨1, 0, 1, 0, .replicate 8 0, #[], .replicate 0x4000 0, #[]⟩ :=
      ⟨rfl, Array.size_replicate, rfl⟩
    exact ⟨_, _, Cartridge.load_toBytes hsize rfl, rfl, rfl⟩
  let p : Ppu :=
    { Ppu.powerOn with control := ⟨0x04⟩, readBuffer := 0xAA, videoAddress := 0x1FF0 }
  have ha : p.videoAddress < 0x4000 := by decide
  -- The addresses are few, so what is asked of them is computed.
  have hbelow : ∀ i ≤ 3, p.addressAfter i < 0x3F00 := by decide
  have hdistinct : ∀ j < 3, ∀ i < j,
      Mirroring.vertical.cell (p.addressAfter i) ≠ Mirroring.vertical.cell (p.addressAfter j) := by
    decide
  refine ⟨image, cartridge, ⟨p, cartridge⟩, ⟨hload, rfl, ha⟩, ?_⟩
  obtain ⟨-, -, hblock⟩ := data_streams hload (s := ⟨p, cartridge⟩) rfl ha
  refine hblock [1, 2, 3] 0x5F 0xF0 hbelow (fun _ _ => .inl hram) ?_ rfl
  rw [hmirroring]
  exact hdistinct

end Picture

end Nes
