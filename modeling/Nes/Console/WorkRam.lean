import Nes.Text.Record

/-!
# Work RAM

The processor has 2 KiB of memory of its own.  Its cells appear over and over in the part of the
address space that leads to it, because only the lowest eleven address bits are decoded.

## Main definitions

* `WorkRam`, `WorkRam.cell`: the memory, and the cell behind an address.
* `WorkRam.get`, `WorkRam.set`: access by address.
-/

namespace Nes

/-- The memory of the processor. -/
structure WorkRam where
  /-- The byte in each cell. -/
  cells : Vector UInt8 0x800
  deriving DecidableEq, Repr

namespace WorkRam

/-- The number of cells. -/
def size : Nat := 0x800

/-- A memory that holds zeros. -/
def blank : WorkRam := ⟨.replicate _ 0⟩

/-- The cell behind an address. -/
def cell (addr : UInt16) : Fin 0x800 := ⟨addr.toNat % 0x800, Nat.mod_lt _ (by decide)⟩

/-- The byte at an address. -/
def get (ram : WorkRam) (addr : UInt16) : UInt8 := ram.cells[cell addr]

/-- Stores a byte. -/
def set (ram : WorkRam) (addr : UInt16) (value : UInt8) : WorkRam :=
  ⟨ram.cells.set (cell addr) value⟩

/-- Debugging text of the memory. -/
def describe (_ : WorkRam) : String := Record.render "Ram" [("len", toString size)]

@[simp] theorem get_blank (addr : UInt16) : blank.get addr = 0 := by
  simp [blank, get]

/-- A byte that is stored is read back through every address of its cell, and no other cell
changes. -/
theorem get_set (ram : WorkRam) (addr other : UInt16) (value : UInt8) :
    (ram.set addr value).get other = if cell other = cell addr then value else ram.get other := by
  by_cases h : cell other = cell addr
  · simp [get, set, h]
  · have hne : (cell addr).val ≠ (cell other).val := fun e => h (Fin.ext e.symm)
    simp [get, set, h, hne, Vector.getElem_set_ne]

end WorkRam

end Nes
