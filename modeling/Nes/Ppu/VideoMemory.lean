import Nes.Cartridge.Header

/-!
# Picture memory

Picture memory has an address space of fourteen bits of its own.  Its first half holds two pattern
tables, which usually are on the cartridge.  Then come four windows onto two nametables, which the
wiring of the cartridge assigns, and, in the last quarter kilobyte, the palette.  The palette has 32
entries, of which the four sprite backdrops are the background backdrops under another address.

An address is first decoded into the cell it names.  Reading and writing act on cells.

## Main definitions

* `Ppu.Cell`, `Ppu.Cell.ofAddress`: the cells and their addresses.
* `Ppu.VideoMemory`: the memory inside the picture unit.
-/

namespace Nes.Ppu

/-- The cells of picture memory inside the picture unit. -/
inductive Cell
  /-- A byte of the pattern tables. -/
  | pattern (offset : Fin 0x2000)
  /-- A byte of one of the nametables. -/
  | nametable (table : Fin 2) (offset : Fin 0x400)
  /-- An entry of the palette. -/
  | palette (entry : Fin 32)
  deriving DecidableEq, Repr

/-- The part of an address that picture memory sees. -/
def videoMask : UInt16 := 0x3FFF

/-- The nametable that a window shows. -/
def nametableOf (mirroring : Mirroring) (window : Nat) : Fin 2 :=
  match mirroring with
  | .vertical => Fin.ofNat 2 window
  | .horizontal => Fin.ofNat 2 (window / 2)

/-- The entry that a palette address names. -/
def paletteEntry (addr : Nat) : Fin 32 :=
  let entry := addr % 32
  if 16 ≤ entry ∧ entry % 4 = 0 then Fin.ofNat 32 (entry - 16) else Fin.ofNat 32 entry

/-- The cell that an address names. -/
def Cell.ofAddress (mirroring : Mirroring) (addr : UInt16) : Cell :=
  let a := (addr &&& videoMask).toNat
  if a < 0x2000 then .pattern (Fin.ofNat 0x2000 a)
  else if a < 0x3F00 then
    .nametable (nametableOf mirroring (a / 0x400 % 4)) (Fin.ofNat 0x400 a)
  else .palette (paletteEntry a)

/-- The memory inside the picture unit. -/
structure VideoMemory where
  /-- The pattern tables, for addresses that the cartridge does not claim. -/
  patterns : Vector UInt8 0x2000
  /-- The nametables, one after the other. -/
  nametables : Vector UInt8 0x800
  /-- The palette. -/
  palette : Vector UInt8 32
  deriving DecidableEq, Repr

namespace VideoMemory

/-- A memory that holds zeros. -/
def blank : VideoMemory := ⟨.replicate _ 0, .replicate _ 0, .replicate _ 0⟩

/-- The place of a byte of a nametable among those of both. -/
def nametableIndex (table : Fin 2) (offset : Fin 0x400) : Fin 0x800 :=
  ⟨table.val * 0x400 + offset.val, by omega⟩

theorem nametableIndex_inj {t u : Fin 2} {o p : Fin 0x400} :
    nametableIndex t o = nametableIndex u p ↔ t = u ∧ o = p := by
  simp only [nametableIndex, Fin.ext_iff]
  omega

/-- The byte in a cell. -/
def get (m : VideoMemory) : Cell → UInt8
  | .pattern offset => m.patterns[offset]
  | .nametable table offset => m.nametables[nametableIndex table offset]
  | .palette entry => m.palette[entry]

/-- Stores a byte in a cell. -/
def set (m : VideoMemory) (cell : Cell) (value : UInt8) : VideoMemory :=
  match cell with
  | .pattern offset => { m with patterns := m.patterns.set offset value }
  | .nametable table offset =>
    { m with nametables := m.nametables.set (nametableIndex table offset) value }
  | .palette entry => { m with palette := m.palette.set entry value }

/-- A byte that is stored is read back, and no other cell changes. -/
theorem get_set (m : VideoMemory) (cell other : Cell) (value : UInt8) :
    (m.set cell value).get other = if other = cell then value else m.get other := by
  cases cell with
  | pattern o =>
    cases other with
    | pattern o' => simp [get, set, Vector.getElem_set, Fin.ext_iff, eq_comm]
    | nametable => simp [get, set]
    | palette => simp [get, set]
  | nametable t o =>
    cases other with
    | nametable t' o' =>
      have h := nametableIndex_inj (t := t) (u := t') (o := o) (p := o')
      simp only [Fin.ext_iff] at h
      simp [get, set, Vector.getElem_set, h, Fin.ext_iff, eq_comm]
    | pattern => simp [get, set]
    | palette => simp [get, set]
  | palette e =>
    cases other with
    | palette e' => simp [get, set, Vector.getElem_set, Fin.ext_iff, eq_comm]
    | pattern => simp [get, set]
    | nametable => simp [get, set]

/-- The bytes of a nametable. -/
def nametable (m : VideoMemory) (table : Fin 2) : Vector UInt8 0x400 :=
  .ofFn fun offset => m.get (.nametable table offset)

end VideoMemory

end Nes.Ppu
