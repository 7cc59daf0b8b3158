import Nes.Proofs.Console.Peek
import Nes.Proofs.Console.Simulation
import Nes.Proofs.Ppu.Video

/-!
# The pattern tables inside the picture unit

The picture unit has memory of its own for the pattern tables.  A loaded cartridge answers for all of
their addresses, so this memory is never read.  It is written, if the cartridge has picture ROM.

Two consoles are called twins if they differ in this memory at most.  Every operation answers the
same on both and leaves twins, and so does every list of operations.

## Main definitions

* `AddressSpace.Twins`, `Console.Twins`.

## Main statements

* `AddressSpace.simulation_twins`, `Console.Twins.operateAll`: operations do not tell twins apart.
-/

namespace Nes

namespace Ppu

/-- The picture unit with other bytes in its own pattern tables. -/
def withPatterns (p : Ppu) (patterns : Vector UInt8 0x2000) : Ppu :=
  { p with memory := { p.memory with patterns := patterns } }

variable (p : Ppu) (patterns : Vector UInt8 0x2000)

theorem readVideo_withPatterns {cart : Cartridge} {header : Header}
    (hw : cart.wiring = header.wiring) (addr : UInt16) :
    (p.withPatterns patterns).readVideo cart addr = p.readVideo cart addr := by
  have hstored (cell : Cell) : (p.withPatterns patterns).stored cart cell = p.stored cart cell := by
    cases cell <;> rfl
  rw [readVideo_eq hw, readVideo_eq hw, hstored]
  rfl

theorem peekRegister_withPatterns {cart : Cartridge} {header : Header}
    (hw : cart.wiring = header.wiring) (r : Register) :
    (p.withPatterns patterns).peekRegister cart r = p.peekRegister cart r := by
  cases r with
  | videoData =>
    unfold peekRegister
    dsimp only
    rw [readVideo_withPatterns p patterns hw]
    rfl
  | _ => rfl

theorem readRegister_withPatterns {cart : Cartridge} {header : Header}
    (hw : cart.wiring = header.wiring) (r : Register) :
    (p.withPatterns patterns).readRegister cart r =
      ((p.readRegister cart r).1, (p.readRegister cart r).2.withPatterns patterns) := by
  cases r with
  | videoData =>
    unfold readRegister
    dsimp only
    rw [readVideo_withPatterns p patterns hw]
    rfl
  | _ => rfl

/-- What is written differs in these tables at most, and the cartridge is written alike. -/
theorem writeVideo_withPatterns (cart : Cartridge) (addr : UInt16) (value : UInt8) :
    ∃ patterns', (p.withPatterns patterns).writeVideo cart addr value =
      ((p.writeVideo cart addr value).1.withPatterns patterns',
        (p.writeVideo cart addr value).2) := by
  unfold writeVideo
  dsimp only
  -- A byte that the cartridge takes does not come to the tables of the unit.
  split
  · exact ⟨patterns, rfl⟩
  · cases Cell.ofAddress cart.header.mirroring (addr &&& videoMask) with
    | pattern offset => exact ⟨patterns.set offset value, rfl⟩
    | nametable table offset => exact ⟨patterns, rfl⟩
    | palette entry => exact ⟨patterns, rfl⟩

theorem writeRegister_withPatterns (cart : Cartridge) (r : Register) (value : UInt8) :
    ∃ patterns', (p.withPatterns patterns).writeRegister cart r value =
      ((p.writeRegister cart r value).1.withPatterns patterns',
        (p.writeRegister cart r value).2) := by
  -- Only the data register reaches the tables, and the others leave them as they are.
  cases r with
  | videoData =>
    obtain ⟨patterns', h⟩ := writeVideo_withPatterns p patterns cart p.videoAddress value
    refine ⟨patterns', ?_⟩
    unfold writeRegister
    dsimp only
    rw [show (p.withPatterns patterns).videoAddress = p.videoAddress from rfl, h]
    rfl
  | scroll =>
    refine ⟨patterns, ?_⟩
    show ((p.withPatterns patterns).writeScroll value, cart) =
      ((p.writeScroll value).withPatterns patterns, cart)
    rw [writeScroll_eq, writeScroll_eq]
    rfl
  | videoAddress =>
    refine ⟨patterns, ?_⟩
    show ((p.withPatterns patterns).writeAddress value, cart) =
      ((p.writeAddress value).withPatterns patterns, cart)
    rw [writeAddress_eq, writeAddress_eq]
    rfl
  | control => exact ⟨patterns, rfl⟩
  | mask => exact ⟨patterns, rfl⟩
  | status => exact ⟨patterns, rfl⟩
  | oamAddress => exact ⟨patterns, rfl⟩
  | oamData => exact ⟨patterns, rfl⟩

end Ppu

/-! ### Address spaces -/

namespace AddressSpace

/-- Two address spaces with a cartridge that can be loaded, which differ at most in the pattern
tables inside the picture unit. -/
def Twins (s t : AddressSpace) : Prop :=
  (∃ header : Header, s.cartridge.wiring = header.wiring) ∧
    ∃ patterns, t = { s with ppu := s.ppu.withPatterns patterns }

namespace Twins

variable {s t : AddressSpace} (h : s.Twins t)

include h

theorem peek (addr : UInt16) : s.peek addr = t.peek addr := by
  obtain ⟨⟨header, hw⟩, patterns, rfl⟩ := h
  have htarget : { s with ppu := s.ppu.withPatterns patterns }.target addr = s.target addr := rfl
  unfold AddressSpace.peek
  rw [htarget]
  cases s.target addr with
  | register r => exact (Ppu.peekRegister_withPatterns s.ppu patterns hw r).symm
  | _ => rfl

theorem readVideo (addr : UInt16) :
    s.ppu.readVideo s.cartridge addr = t.ppu.readVideo t.cartridge addr := by
  obtain ⟨⟨header, hw⟩, patterns, rfl⟩ := h
  exact (Ppu.readVideo_withPatterns s.ppu patterns hw addr).symm

theorem readRegister (r : Ppu.Register) :
    (s.ppu.readRegister s.cartridge r).1 = (t.ppu.readRegister t.cartridge r).1 ∧
      Twins { s with ppu := (s.ppu.readRegister s.cartridge r).2 }
        { t with ppu := (t.ppu.readRegister t.cartridge r).2 } := by
  obtain ⟨⟨header, hw⟩, patterns, rfl⟩ := h
  dsimp only
  rw [Ppu.readRegister_withPatterns s.ppu patterns hw r]
  exact ⟨rfl, ⟨header, hw⟩, patterns, rfl⟩

theorem writeVideo (addr : UInt16) (value : UInt8) :
    Twins ⟨s.ram, (s.ppu.writeVideo s.cartridge addr value).1,
        (s.ppu.writeVideo s.cartridge addr value).2⟩
      ⟨t.ram, (t.ppu.writeVideo t.cartridge addr value).1,
        (t.ppu.writeVideo t.cartridge addr value).2⟩ := by
  obtain ⟨⟨header, hw⟩, patterns, rfl⟩ := h
  obtain ⟨patterns', hwrite⟩ :=
    Ppu.writeVideo_withPatterns s.ppu patterns s.cartridge addr value
  dsimp only
  rw [hwrite]
  exact ⟨⟨header, (Cartridge.fixed_wiring.writeVideo ..).trans hw⟩, patterns', rfl⟩

theorem writeRegister (r : Ppu.Register) (value : UInt8) :
    Twins ⟨s.ram, (s.ppu.writeRegister s.cartridge r value).1,
        (s.ppu.writeRegister s.cartridge r value).2⟩
      ⟨t.ram, (t.ppu.writeRegister t.cartridge r value).1,
        (t.ppu.writeRegister t.cartridge r value).2⟩ := by
  obtain ⟨⟨header, hw⟩, patterns, rfl⟩ := h
  obtain ⟨patterns', hwrite⟩ :=
    Ppu.writeRegister_withPatterns s.ppu patterns s.cartridge r value
  dsimp only
  rw [hwrite]
  exact ⟨⟨header, (Cartridge.fixed_wiring.writeRegister ..).trans hw⟩, patterns', rfl⟩

theorem target (addr : UInt16) : s.target addr = t.target addr := by
  obtain ⟨-, patterns, rfl⟩ := h
  rfl

theorem read (addr : UInt16) :
    (s.read addr).1 = (t.read addr).1 ∧ Twins (s.read addr).2 (t.read addr).2 := by
  have hregister := h.readRegister
  unfold AddressSpace.read
  rw [← h.target]
  cases s.target addr with
  | register r => exact hregister r
  | ram =>
    obtain ⟨-, patterns, rfl⟩ := id h
    exact ⟨rfl, h⟩
  | prg cell =>
    obtain ⟨-, patterns, rfl⟩ := id h
    exact ⟨rfl, h⟩
  | unmapped => exact ⟨rfl, h⟩

theorem write (addr : UInt16) (value : UInt8) :
    s.writeEvents addr value = t.writeEvents addr value ∧
      Twins (s.write addr value) (t.write addr value) := by
  have hregister := h.writeRegister
  have htarget := h.target addr
  obtain ⟨⟨header, hw⟩, patterns, rfl⟩ := h
  unfold AddressSpace.writeEvents AddressSpace.write
  rw [← htarget]
  cases s.target addr with
  | register r =>
    refine ⟨?_, hregister r value⟩
    cases r <;> rfl
  | ram => exact ⟨rfl, ⟨header, hw⟩, patterns, rfl⟩
  | prg cell => exact ⟨rfl, ⟨header, (s.cartridge.wiring_setPrg cell value).trans hw⟩, patterns, rfl⟩
  | unmapped => exact ⟨rfl, ⟨header, hw⟩, patterns, rfl⟩

theorem withPpu {f : Ppu → Ppu}
    (hf : ∀ p patterns, f (p.withPatterns patterns) = (f p).withPatterns patterns) :
    Twins { s with ppu := f s.ppu } { t with ppu := f t.ppu } := by
  obtain ⟨hw, patterns, rfl⟩ := h
  refine ⟨hw, patterns, ?_⟩
  dsimp only
  rw [hf]

end Twins

/-- **Nothing tells twins apart.** -/
theorem simulation_twins : Simulation (fun _ => True) Twins where
  read := fun h => h.read
  write := fun h _ _ value => h.write _ value
  register := fun _ _ => trivial
  writeVideo := by
    intro s t h addr value
    refine ⟨?_, h.writeVideo addr value⟩
    obtain ⟨-, patterns, rfl⟩ := h
    rfl
  dot := fun h => h.withPpu fun _ _ => rfl
  takeNmiRequest := by
    intro s t h
    refine ⟨?_, h.withPpu (f := fun p => p.takeNmiRequest.2) fun _ _ => rfl⟩
    obtain ⟨-, patterns, rfl⟩ := h
    rfl
  takeFrameComplete := by
    intro s t h
    refine ⟨?_, h.withPpu (f := fun p => p.takeFrameComplete.2) fun _ _ => rfl⟩
    obtain ⟨-, patterns, rfl⟩ := h
    rfl

end AddressSpace

/-! ### Consoles -/

namespace Console

/-- Two consoles that differ at most in the pattern tables inside the picture unit. -/
def Twins (c d : Console) : Prop :=
  ∃ space, c.space.Twins space ∧ d = { c with space := space }

theorem twins_iff_related {c d : Console} : c.Twins d ↔ c.Related AddressSpace.Twins d := by
  constructor
  · rintro ⟨space, hspace, rfl⟩
    exact ⟨rfl, hspace, rfl⟩
  · obtain ⟨cpu, space, systemClock⟩ := d
    rintro ⟨rfl, hspace, rfl⟩
    exact ⟨space, hspace, rfl⟩

/-- **No operation tells twins apart.** -/
theorem Twins.operateAll {c d : Console} (h : c.Twins d) (ops : List Operation) :
    c.answers ops = d.answers ops ∧ (c.operateAll ops).Twins (d.operateAll ops) := by
  obtain ⟨hanswers, hafter⟩ := AddressSpace.simulation_twins.operateAll (twins_iff_related.1 h)
    fun a _ => a.writesTo_of_forall fun _ => trivial
  exact ⟨hanswers, twins_iff_related.2 hafter⟩

end Console

end Nes
