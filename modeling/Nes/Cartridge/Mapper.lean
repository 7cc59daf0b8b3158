import Nes.Cartridge.Header

/-!
# Mappers

The mapper is the circuit on a cartridge that decides which addresses belong to it and where in its
memories they lie.  It owns no memory: it turns an address into an offset, or leaves the address to
the rest of the machine.

One mapper is known, number zero.  It has no bank switching.  Program memory fills the upper half
of the processor's address space; a single bank appears there twice.  Picture memory fills the lower
half of the picture unit's address space and can be written only if it is RAM.

## Main definitions

* `Mapper`, `Mapper.ofHeader?`.
* `Mapper.prgOffset?`, `Mapper.chrReadOffset?`, `Mapper.chrWriteOffset?`: the decoding.
-/

namespace Nes

/-- The circuits that decode addresses on a cartridge. -/
inductive Mapper
  /-- Mapper zero, without bank switching. -/
  | nrom (prgBanks : UInt8) (chrIsRam : Bool)
  deriving DecidableEq, Repr

namespace Mapper

/-- The number of a mapper. -/
def id : Mapper → UInt8
  | nrom .. => 0

/-- The mapper of a cartridge; none if its number is unknown. -/
def ofHeader? (h : Header) : Option Mapper :=
  if h.mapperId = 0 then some (.nrom h.prgBanks h.chrIsRam) else none

/-- The address bits that reach program memory. -/
def prgMask : Mapper → UInt16
  | nrom prgBanks _ => if 1 < prgBanks then 0x7FFF else 0x3FFF

/-- The offset in program memory of a processor address, for reading and for writing alike. -/
def prgOffset? (m : Mapper) (addr : UInt16) : Option Nat :=
  if 0x8000 ≤ addr then some (addr &&& m.prgMask).toNat else none

/-- The offset in picture memory of a picture address that is read. -/
def chrReadOffset? : Mapper → UInt16 → Option Nat
  | nrom .., addr => if addr ≤ 0x1FFF then some addr.toNat else none

/-- The offset in picture memory of a picture address that is written. -/
def chrWriteOffset? : Mapper → UInt16 → Option Nat
  | nrom _ chrIsRam, addr => if chrIsRam ∧ addr ≤ 0x1FFF then some addr.toNat else none

end Mapper

end Nes
