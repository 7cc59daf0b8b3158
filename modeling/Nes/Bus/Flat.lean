import Nes.Bus.Basic

/-!
# Plain memory

The simplest bus is a memory of 64 KiB in which every address is a cell of its own.

## Main definitions

* `FlatMemory`, with its `Bus` instance.
* `FlatMemory.load`: placing bytes in memory.
-/

namespace Nes

/-- A memory of 64 KiB. -/
structure FlatMemory where
  /-- The byte at each address. -/
  cells : Vector UInt8 0x10000
  deriving DecidableEq

namespace FlatMemory

/-- A memory that holds the same byte everywhere. -/
def filled (value : UInt8) : FlatMemory := ⟨.replicate _ value⟩

/-- The byte at an address. -/
@[inline] def get (mem : FlatMemory) (addr : UInt16) : UInt8 :=
  have _h := addr.toNat_lt
  mem.cells[addr.toNat]

/-- Stores a byte. -/
@[inline] def set (mem : FlatMemory) (addr : UInt16) (value : UInt8) : FlatMemory :=
  ⟨mem.cells.set addr.toNat value addr.toNat_lt⟩

/-- Stores bytes one after the other from an address on; after the last address comes the first. -/
def load (mem : FlatMemory) (start : UInt16) (bytes : Array UInt8) : FlatMemory :=
  (bytes.foldl (fun (mem, addr) b => (mem.set addr b, addr + 1)) (mem, start)).1

@[simp] theorem get_filled (value : UInt8) (addr : UInt16) : (filled value).get addr = value := by
  simp [filled, get]

/-- A byte that is stored is read back, and no other address changes. -/
theorem get_set (mem : FlatMemory) (addr other : UInt16) (value : UInt8) :
    (mem.set addr value).get other = if other = addr then value else mem.get other := by
  by_cases h : other = addr
  · subst h
    simp [get, set]
  · have hne : addr.toNat ≠ other.toNat := fun e => h (UInt16.toNat_inj.1 e.symm)
    simp [get, set, h, hne, Vector.getElem_set_ne]

end FlatMemory

instance : Bus FlatMemory where
  read mem addr := (mem.get addr, mem)
  write mem addr value := mem.set addr value
  peek mem addr := mem.get addr

end Nes
