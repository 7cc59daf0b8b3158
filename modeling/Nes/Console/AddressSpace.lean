import Nes.Bus.Basic
import Nes.Console.WorkRam
import Nes.Ppu.Access

/-!
# The address space of the processor

The processor reaches three devices.  The cartridge answers the addresses that its mapper claims.
Of the others, the lowest eighth of the address space leads to the work RAM and the second eighth to
the registers of the picture unit.  Nothing answers the rest: it reads as zero and ignores writes.

Every access first finds the target of its address.

## Main definitions

* `AddressSpace`: the three devices.
* `AddressSpace.Target`, `AddressSpace.target`: what answers an address.
* The `Bus` instance of `AddressSpace`.

## Main statements

* `AddressSpace.read_of_readPrg?`, `AddressSpace.write_of_writePrg?`: what the cartridge claims.
-/

namespace Nes

/-- The devices that the processor can reach. -/
structure AddressSpace where
  /-- The memory of the processor. -/
  ram : WorkRam
  /-- The picture unit. -/
  ppu : Ppu
  /-- The cartridge. -/
  cartridge : Cartridge
  deriving DecidableEq, Repr

namespace AddressSpace

/-- What answers an address. -/
inductive Target
  /-- A cell of the program memory of the cartridge. -/
  | prg (cell : Nat)
  /-- The work RAM. -/
  | ram
  /-- A register of the picture unit. -/
  | register (r : Ppu.Register)
  /-- Nothing. -/
  | unmapped
  deriving DecidableEq, Repr

/-- The target of an address that the cartridge does not claim. -/
def innerTarget (addr : UInt16) : Target :=
  if addr < 0x2000 then .ram
  else if addr < 0x4000 then .register (.ofAddress addr)
  else .unmapped

/-- The target of an address. -/
def target (s : AddressSpace) (addr : UInt16) : Target :=
  match s.cartridge.prgCell? addr with
  | some cell => .prg cell
  | none => innerTarget addr

/-- Reads a byte. -/
def read (s : AddressSpace) (addr : UInt16) : UInt8 × AddressSpace :=
  match s.target addr with
  | .prg cell => (s.cartridge.prg.getD cell 0, s)
  | .ram => (s.ram.get addr, s)
  | .register r =>
    let (value, ppu) := s.ppu.readRegister s.cartridge r
    (value, { s with ppu := ppu })
  | .unmapped => (0, s)

/-- The byte at an address, without side effects. -/
def peek (s : AddressSpace) (addr : UInt16) : UInt8 :=
  match s.target addr with
  | .prg cell => s.cartridge.prg.getD cell 0
  | .ram => s.ram.get addr
  | .register r => s.ppu.peekRegister s.cartridge r
  | .unmapped => 0

/-- Writes a byte. -/
def write (s : AddressSpace) (addr : UInt16) (value : UInt8) : AddressSpace :=
  match s.target addr with
  | .prg cell => { s with cartridge := s.cartridge.setPrg cell value }
  | .ram => { s with ram := s.ram.set addr value }
  | .register r =>
    let ⟨ram, ppu, cartridge⟩ := s
    let (ppu, cartridge) := ppu.writeRegister cartridge r value
    ⟨ram, ppu, cartridge⟩
  | .unmapped => s

section Claimed

/-! The cartridge is asked first: what it claims does not reach the other devices. -/

variable {s : AddressSpace} {addr : UInt16} {value : UInt8}

theorem read_of_readPrg? (h : s.cartridge.readPrg? addr = some value) :
    s.read addr = (value, s) := by
  obtain ⟨cell, hcell, rfl⟩ := Option.map_eq_some_iff.1 h
  rw [read, target, hcell]

theorem peek_of_readPrg? (h : s.cartridge.readPrg? addr = some value) : s.peek addr = value := by
  obtain ⟨cell, hcell, rfl⟩ := Option.map_eq_some_iff.1 h
  rw [peek, target, hcell]

theorem write_of_writePrg? {cartridge : Cartridge}
    (h : s.cartridge.writePrg? addr value = some cartridge) :
    s.write addr value = { s with cartridge := cartridge } := by
  obtain ⟨cell, hcell, rfl⟩ := Option.map_eq_some_iff.1 h
  rw [write, target, hcell]

end Claimed

/-- What a write tells. -/
def writeEvents (s : AddressSpace) (addr : UInt16) (value : UInt8) : List Event :=
  match s.target addr with
  | .register r => s.ppu.writeRegisterEvents s.cartridge r value
  | .unmapped => [.unmappedWrite addr value]
  | _ => []

instance : Bus AddressSpace where
  read := read
  write := write
  peek := peek
  writeEvents := writeEvents

/-- Writes bytes to addresses in order, and what that tells. -/
def writeAll (s : AddressSpace) (writes : List (UInt16 × UInt8)) : AddressSpace × Array Event :=
  writes.foldl (fun (s, told) (addr, value) =>
    let events := s.writeEvents addr value
    (s.write addr value, told ++ events)) (s, #[])

end AddressSpace

end Nes
