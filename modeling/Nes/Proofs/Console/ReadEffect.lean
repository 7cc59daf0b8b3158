import Nes.Proofs.Bits
import Nes.Proofs.Console.Operation
import Nes.Proofs.Console.Peek

/-!
# What a read changes

A read by the processor gives the byte that the inspector would show, in every state of the console
and at every address.  The two were written apart from each other: the inspector decides by the
address in picture memory what the data register shows, a read overwrites the read-ahead buffer
first and then decides which byte to give.

Here the effect of a read is stated as a whole, for each address: which fields of the picture unit
get which values, and that everything else is as it was.  The address in picture memory moves on in
numbers modulo its fourteen bits, whatever it was before.

## Main definitions

* `Ppu.statusRead`, `Ppu.dataRead`: the picture unit after a read of its two volatile registers.

## Main statements

* `AddressSpace.snd_read_eq`: the address space after a read.
* `Console.read_as_peeked`: a read gives the byte that is peeked, and all that it changes.
-/

namespace Nes

namespace Ppu

/-- The picture unit after a read of the status register: the vertical blank is no longer noted, and
the next byte of a pair is a first one. -/
def statusRead (p : Ppu) : Ppu :=
  { p with status := ⟨p.status.bits &&& 0x7F⟩, secondWrite := false }

/-- The picture unit after a read of the data register: the byte at the address is read ahead, and
the address moves on by a byte or by a row of tiles. -/
def dataRead (p : Ppu) (cart : Cartridge) : Ppu :=
  { p with
    readBuffer := p.readVideo cart p.videoAddress
    videoAddress := UInt16.ofNat
      ((p.videoAddress.toNat + if p.control.bits.toNat.testBit 2 then 32 else 1) % 0x4000) }

theorem toNat_stride (control : Control) :
    control.stride.toNat = if control.bits.toNat.testBit 2 then 32 else 1 := by
  obtain ⟨bits⟩ := control
  revert bits
  apply forall_byte
  decide +kernel

/-- The address in picture memory moves on modulo its fourteen bits. -/
theorem toNat_nextVideoAddress (p : Ppu) :
    p.nextVideoAddress.toNat =
      (p.videoAddress.toNat + if p.control.bits.toNat.testBit 2 then 32 else 1) % 0x4000 := by
  have hmask : p.nextVideoAddress.toNat = (p.videoAddress + p.control.stride).toNat % 2 ^ 14 :=
    toNat_and_low _ 14 rfl
  rw [hmask, UInt16.toNat_add, toNat_stride]
  -- The wrap of the word is lost in the fourteen bits.
  exact Nat.mod_mod_of_dvd _ (by decide)

theorem readRegister_status (p : Ppu) (cart : Cartridge) :
    (p.readRegister cart .status).2 = p.statusRead := rfl

theorem readRegister_videoData (p : Ppu) (cart : Cartridge) :
    (p.readRegister cart .videoData).2 = p.dataRead cart := by
  have hnext : p.nextVideoAddress = UInt16.ofNat
      ((p.videoAddress.toNat + if p.control.bits.toNat.testBit 2 then 32 else 1) % 0x4000) := by
    rw [← toNat_nextVideoAddress, UInt16.ofNat_toNat]
  rw [dataRead, ← hnext]
  rfl

/-- What the data register shows: the byte that was read ahead, or one of the palette. -/
theorem peekRegister_videoData (p : Ppu) (cart : Cartridge) :
    p.peekRegister cart .videoData =
      if p.videoAddress.toNat < 0x3F00 then p.readBuffer else p.readVideo cart p.videoAddress := by
  have h : paletteStart ≤ p.videoAddress ↔ ¬ p.videoAddress.toNat < 0x3F00 :=
    UInt16.le_iff_toNat_le.trans Nat.not_lt.symm
  simp only [peekRegister, h, ite_not]

theorem Register.ofAddress_eq_status {addr : UInt16} (h : addr.toNat % 8 = 2) :
    Register.ofAddress addr = .status := by
  simp only [ofAddress, h]

theorem Register.ofAddress_eq_videoData {addr : UInt16} (h : addr.toNat % 8 = 7) :
    Register.ofAddress addr = .videoData := by
  simp only [ofAddress, h]

end Ppu

namespace AddressSpace

/-- A read of a register, wherever it appears. -/
theorem snd_read_register (s : AddressSpace) {addr : UInt16} (h₁ : 0x2000 ≤ addr.toNat)
    (h₂ : addr.toNat < 0x4000) :
    (s.read addr).2 =
      { s with ppu := (s.ppu.readRegister s.cartridge (.ofAddress addr)).2 } := by
  have ht : s.target addr = .register (.ofAddress addr) := target_eq_register_iff.2 ⟨h₁, h₂, rfl⟩
  rw [read, ht]

/-- **The address space after a read**, at each address. -/
theorem snd_read_eq (s : AddressSpace) (addr : UInt16) :
    (s.read addr).2 =
      if 0x2000 ≤ addr.toNat ∧ addr.toNat < 0x4000 ∧ addr.toNat % 8 = 2 then
        { s with ppu := s.ppu.statusRead }
      else if 0x2000 ≤ addr.toNat ∧ addr.toNat < 0x4000 ∧ addr.toNat % 8 = 7 then
        { s with ppu := s.ppu.dataRead s.cartridge }
      else s := by
  split
  · next h =>
    rw [s.snd_read_register h.1 h.2.1, Ppu.Register.ofAddress_eq_status h.2.2,
      Ppu.readRegister_status]
  · next hstatus =>
    split
    · next h =>
      rw [s.snd_read_register h.1 h.2.1, Ppu.Register.ofAddress_eq_videoData h.2.2,
        Ppu.readRegister_videoData]
    · next hdata =>
      apply s.snd_read
      rintro ⟨hge, hlt, hstatus' | hdata'⟩
      · exact hstatus ⟨hge, hlt, hstatus'⟩
      · exact hdata ⟨hge, hlt, hdata'⟩

/-- What is peeked where the data register appears. -/
theorem peek_videoData (s : AddressSpace) {addr : UInt16} (h₁ : 0x2000 ≤ addr.toNat)
    (h₂ : addr.toNat < 0x4000) (h₃ : addr.toNat % 8 = 7) :
    s.peek addr =
      if s.ppu.videoAddress.toNat < 0x3F00 then s.ppu.readBuffer
      else s.ppu.readVideo s.cartridge s.ppu.videoAddress := by
  have ht : s.target addr = .register .videoData :=
    target_eq_register_iff.2 ⟨h₁, h₂, Ppu.Register.ofAddress_eq_videoData h₃⟩
  rw [peek, ht]
  exact s.ppu.peekRegister_videoData s.cartridge

end AddressSpace

namespace Console

/-- **Peeking shows what a read would give, and a read changes hardly anything.**  In any state of a
console and at every address:

* the byte that is read is the byte that is peeked;
* where the status register appears, the read clears the note of the vertical blank and that of a
  pair of writes; where the data register appears, it fills the read-ahead buffer with the byte at
  the old address in picture memory and moves that address on, modulo its fourteen bits;
* a read of any other address leaves the whole console as it was.

What the data register shows is the old content of the buffer below the palette, and from the
palette on the byte at the address itself. -/
theorem read_as_peeked (c : Console) (addr : UInt16) :
    (c.read addr).1 = c.peek addr ∧
    (c.read addr).2 =
      (if 0x2000 ≤ addr.toNat ∧ addr.toNat < 0x4000 ∧ addr.toNat % 8 = 2 then
        c.withPpu c.space.ppu.statusRead
      else if 0x2000 ≤ addr.toNat ∧ addr.toNat < 0x4000 ∧ addr.toNat % 8 = 7 then
        c.withPpu (c.space.ppu.dataRead c.space.cartridge)
      else c) ∧
    (0x2000 ≤ addr.toNat ∧ addr.toNat < 0x4000 ∧ addr.toNat % 8 = 7 →
      c.peek addr =
        if c.space.ppu.videoAddress.toNat < 0x3F00 then c.space.ppu.readBuffer
        else c.space.ppu.readVideo c.space.cartridge c.space.ppu.videoAddress) := by
  refine ⟨c.space.fst_read addr, ?_, fun ⟨h₁, h₂, h₃⟩ => c.space.peek_videoData h₁ h₂ h₃⟩
  have hread : (c.read addr).2 = { c with space := (c.space.read addr).2 } := rfl
  rw [hread, c.space.snd_read_eq addr]
  split
  · rfl
  · split
    · rfl
    · rfl

/-- The last mirror of the data register, with a stale buffer and a palette address in greyscale:
the read gives the brightness of the backdrop that shares the entry, not the buffer. -/
theorem read_as_peeked_in_greyscale : ∃ c : Console,
    c.space.ppu.readBuffer = 0xAA ∧ c.space.ppu.videoAddress = 0x3F10 ∧
    (c.read 0x3FFF).1 = 0x20 ∧
    (c.read 0x3FFF).2 =
      c.withPpu { c.space.ppu with readBuffer := 0x20, videoAddress := 0x3F11 } := by
  obtain ⟨c, hppu, hcart⟩ : ∃ c : Console,
      c.space.ppu = { Ppu.powerOn with
        mask := ⟨0x01⟩, readBuffer := 0xAA, videoAddress := 0x3F10,
        memory := Ppu.VideoMemory.blank.set (.palette 0) 0x2A } ∧ c.space.cartridge = .blank :=
    ⟨⟨{}, ⟨.blank, _, .blank⟩, 0⟩, rfl, rfl⟩
  obtain ⟨hvalue, hafter, hshown⟩ := c.read_as_peeked 0x3FFF
  have hpalette : c.space.ppu.readVideo c.space.cartridge c.space.ppu.videoAddress = 0x20 := by
    rw [hppu, hcart]
    decide +kernel
  have haddress : c.space.ppu.videoAddress = 0x3F10 := by rw [hppu]
  refine ⟨c, by rw [hppu], haddress, ?_, ?_⟩
  · have hge : ¬ c.space.ppu.videoAddress.toNat < 0x3F00 := by
      rw [haddress]
      decide
    rw [hvalue, hshown (by decide), if_neg hge]
    exact hpalette
  · rw [hafter, if_neg (by decide), if_pos (by decide), Ppu.dataRead, hpalette, hppu]
    rfl

end Console

end Nes
