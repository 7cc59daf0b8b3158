/-!
# The registers of the picture unit

The processor reaches the picture unit through eight registers.  Only the lowest three address bits
select one, so the registers appear over and over in the part of the address space that leads to
them.

## Main definitions

* `Ppu.Register`, `Ppu.Register.ofAddress`.
-/

namespace Nes.Ppu

/-- The registers through which the processor reaches the picture unit. -/
inductive Register
  /-- The control switches. -/
  | control
  /-- The mask switches. -/
  | mask
  /-- The status switches. -/
  | status
  /-- The address in sprite memory. -/
  | oamAddress
  /-- The byte of sprite memory at that address. -/
  | oamData
  /-- The scroll position, horizontal and vertical in turn. -/
  | scroll
  /-- The address in picture memory, high and low byte in turn. -/
  | videoAddress
  /-- The byte of picture memory at that address. -/
  | videoData
  deriving DecidableEq, Repr

/-- The register that an address selects. -/
def Register.ofAddress (addr : UInt16) : Register :=
  match addr.toNat % 8 with
  | 0 => .control
  | 1 => .mask
  | 2 => .status
  | 3 => .oamAddress
  | 4 => .oamData
  | 5 => .scroll
  | 6 => .videoAddress
  | _ => .videoData

/-- Addresses that agree in the lowest three bits select the same register. -/
theorem Register.ofAddress_congr {a b : UInt16} (h : a.toNat % 8 = b.toNat % 8) :
    Register.ofAddress a = Register.ofAddress b := by
  rw [Register.ofAddress, Register.ofAddress, h]

end Nes.Ppu
