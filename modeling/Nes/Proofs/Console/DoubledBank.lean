import Nes.Proofs.Console.FlatSimulation
import Nes.Proofs.Console.Simulation

/-!
# One bank, and the same bank twice

The only bank of a cartridge fills half of the addresses that lead to program memory, and appears a
second time in the other half.  On a cartridge with two banks every one of these addresses has a
cell of its own.  If both of its banks hold what the one holds, the same byte is found at every
address, and nothing but a write to program memory can tell the two cartridges apart.

## Main definitions

* `Cartridge.Doubled`, `AddressSpace.Doubled`: the same but for the one bank, which is there twice.

## Main statements

* `AddressSpace.simulation_doubled`: accesses do not tell the difference, short of such writes.
* `Console.doubled_bank_unobservable`: neither do operations.
-/

namespace Nes

/-! ### Cartridges -/

/-- The first cartridge has one bank of program memory and the second has two, both with the same
contents as the one.  The picture unit finds the same on both. -/
structure Cartridge.Doubled (a b : Cartridge) : Prop where
  mapper : ∃ chrIsRam, a.mapper = .nrom 1 chrIsRam ∧ b.mapper = .nrom 2 chrIsRam
  oneBank : a.prg.size = Header.prgBankSize
  prg : b.prg = a.prg ++ a.prg
  chr : b.chr = a.chr
  mirroring : b.header.mirroring = a.header.mirroring

namespace Cartridge

/-- The cell that the only bank, or one of two, has for an address. -/
theorem prgCell?_of_mask {c : Cartridge} {addr : UInt16} (haddr : 0x8000 ≤ addr) (k : Nat)
    (hmask : c.mapper.prgMask.toNat = 1 <<< k - 1) (hsize : c.prg.size = 1 <<< k) :
    c.prgCell? addr = some (addr.toNat % 1 <<< k) := by
  have hcell : (addr &&& c.mapper.prgMask).toNat = addr.toNat % 1 <<< k :=
    toNat_and_low addr k hmask
  have hlt : addr.toNat % 1 <<< k < c.prg.size := by
    rw [hsize]
    exact Nat.mod_lt _ (Nat.one_shiftLeft k ▸ Nat.two_pow_pos k)
  rw [prgCell?, Mapper.prgOffset?, if_pos haddr, hcell, Option.filter_some,
    if_pos (by simpa using hlt)]

namespace Doubled

variable {a b : Cartridge} (h : a.Doubled b)

include h

/-- **Every address of program memory leads to the same byte on both.** -/
theorem prgCell? {addr : UInt16} (haddr : 0x8000 ≤ addr) : ∃ i j, a.prgCell? addr = some i ∧
    b.prgCell? addr = some j ∧ a.prg.getD i 0 = b.prg.getD j 0 := by
  obtain ⟨chrIsRam, ha, hb⟩ := h.mapper
  have hsize : a.prg.size = 0x4000 := h.oneBank
  have hsize' : b.prg.size = 0x8000 := by rw [h.prg, Array.size_append, hsize]
  have hi : a.prgCell? addr = some (addr.toNat % 0x4000) :=
    prgCell?_of_mask haddr 14 (by rw [ha]; rfl) hsize
  have hj : b.prgCell? addr = some (addr.toNat % 0x8000) :=
    prgCell?_of_mask haddr 15 (by rw [hb]; rfl) hsize'
  refine ⟨_, _, hi, hj, ?_⟩
  rw [Array.getD_eq_getD_getElem?, Array.getD_eq_getD_getElem?, h.prg]
  -- The second bank begins where the offset in the first starts over.
  by_cases hlow : addr.toNat % 0x8000 < 0x4000
  · have hsame : addr.toNat % 0x8000 = addr.toNat % 0x4000 := by omega
    rw [Array.getElem?_append_left (hsize ▸ hlow), hsame]
  · have hsame : addr.toNat % 0x8000 - 0x4000 = addr.toNat % 0x4000 := by omega
    rw [Array.getElem?_append_right (hsize ▸ Nat.not_lt.1 hlow), hsize, hsame]

theorem readChr? (addr : UInt16) : a.readChr? addr = b.readChr? addr := by
  obtain ⟨chrIsRam, ha, hb⟩ := h.mapper
  rw [Cartridge.readChr?, Cartridge.readChr?, chrCell?, chrCell?, ha, hb, h.chr]
  rfl

theorem chrWriteCell? (addr : UInt16) : a.chrWriteCell? addr = b.chrWriteCell? addr := by
  obtain ⟨chrIsRam, ha, hb⟩ := h.mapper
  rw [Cartridge.chrWriteCell?, Cartridge.chrWriteCell?, ha, hb, h.chr]
  rfl

theorem setChr (cell : Nat) (value : UInt8) : (a.setChr cell value).Doubled (b.setChr cell value) :=
  ⟨h.mapper, h.oneBank, h.prg, congrArg (Array.setIfInBounds · cell value) h.chr, h.mirroring⟩

end Doubled

end Cartridge

/-! ### The picture unit -/

namespace Ppu

variable (p : Ppu) {a b : Cartridge} (h : a.Doubled b)

include h

theorem readVideo_doubled (addr : UInt16) : p.readVideo a addr = p.readVideo b addr := by
  rw [readVideo, readVideo, h.readChr?, h.mirroring]

theorem readRegister_doubled (r : Register) : p.readRegister a r = p.readRegister b r := by
  cases r with
  | videoData => rw [readRegister, readRegister, p.readVideo_doubled h]
  | _ => rfl

theorem peekRegister_doubled (r : Register) : p.peekRegister a r = p.peekRegister b r := by
  cases r with
  | videoData => rw [peekRegister, peekRegister, p.readVideo_doubled h]
  | _ => rfl

theorem writeVideo_doubled (addr : UInt16) (value : UInt8) :
    (p.writeVideo a addr value).1 = (p.writeVideo b addr value).1 ∧
      (p.writeVideo a addr value).2.Doubled (p.writeVideo b addr value).2 := by
  unfold writeVideo Cartridge.writeChr?
  dsimp only
  rw [← h.chrWriteCell?, h.mirroring]
  cases a.chrWriteCell? (addr &&& videoMask) with
  | some cell => exact ⟨rfl, h.setChr cell value⟩
  | none => exact ⟨rfl, h⟩

theorem writeVideoEvents_doubled (addr : UInt16) (value : UInt8) :
    writeVideoEvents a addr value = writeVideoEvents b addr value := by
  rw [writeVideoEvents, writeVideoEvents, h.chrWriteCell?, h.mirroring]

theorem writeRegister_doubled (r : Register) (value : UInt8) :
    (p.writeRegister a r value).1 = (p.writeRegister b r value).1 ∧
      (p.writeRegister a r value).2.Doubled (p.writeRegister b r value).2 := by
  cases r with
  | videoData =>
    obtain ⟨hunit, hcartridge⟩ := p.writeVideo_doubled h p.videoAddress value
    refine ⟨?_, hcartridge⟩
    unfold writeRegister
    dsimp only
    rw [hunit]
  | _ => exact ⟨rfl, h⟩

theorem writeRegisterEvents_doubled (r : Register) (value : UInt8) :
    p.writeRegisterEvents a r value = p.writeRegisterEvents b r value := by
  cases r with
  | videoData => exact writeVideoEvents_doubled h p.videoAddress value
  | _ => rfl

end Ppu

/-! ### Address spaces -/

namespace AddressSpace

/-- Two address spaces that are the same but for the bank that is there twice. -/
structure Doubled (s t : AddressSpace) : Prop where
  ram : s.ram = t.ram
  ppu : s.ppu = t.ppu
  cartridge : s.cartridge.Doubled t.cartridge

namespace Doubled

variable {s t : AddressSpace} (h : s.Doubled t)

include h

/-- The same device answers an address, and if it is the cartridge, it has the same byte there. -/
theorem target_cases (addr : UInt16) :
    (s.target addr = t.target addr ∧ ∀ cell, s.target addr ≠ .prg cell) ∨
      0x8000 ≤ addr ∧ ∃ i j, s.target addr = .prg i ∧ t.target addr = .prg j ∧
        s.cartridge.prg.getD i 0 = t.cartridge.prg.getD j 0 := by
  obtain hlow | ⟨h₁, h₂⟩ | ⟨h₁, h₂⟩ | hhigh := parts addr
  · rw [s.target_ram hlow, t.target_ram hlow]
    exact .inl ⟨rfl, fun _ => Target.noConfusion⟩
  · rw [s.target_register h₁ h₂, t.target_register h₁ h₂]
    exact .inl ⟨rfl, fun _ => Target.noConfusion⟩
  · rw [s.target_unmapped h₁ h₂, t.target_unmapped h₁ h₂]
    exact .inl ⟨rfl, fun _ => Target.noConfusion⟩
  · -- Only here do the two cartridges choose different cells.
    obtain ⟨i, j, hi, hj, hbyte⟩ := h.cartridge.prgCell? hhigh
    rw [target, target, hi, hj]
    exact .inr ⟨hhigh, i, j, rfl, rfl, hbyte⟩

theorem peek (addr : UInt16) : s.peek addr = t.peek addr := by
  unfold AddressSpace.peek
  obtain ⟨heq, hnone⟩ | ⟨-, i, j, hi, hj, hbyte⟩ := h.target_cases addr
  · rw [← heq]
    cases ht : s.target addr with
    | prg cell => exact absurd ht (hnone cell)
    | ram => exact congrArg (WorkRam.get · addr) h.ram
    | register r =>
      dsimp only
      rw [← h.ppu, s.ppu.peekRegister_doubled h.cartridge]
    | unmapped => rfl
  · rw [hi, hj]
    exact hbyte

theorem read (addr : UInt16) :
    (s.read addr).1 = (t.read addr).1 ∧ Doubled (s.read addr).2 (t.read addr).2 := by
  unfold AddressSpace.read
  obtain ⟨heq, hnone⟩ | ⟨-, i, j, hi, hj, hbyte⟩ := h.target_cases addr
  · rw [← heq]
    cases ht : s.target addr with
    | prg cell => exact absurd ht (hnone cell)
    | ram => exact ⟨congrArg (WorkRam.get · addr) h.ram, h⟩
    | register r =>
      dsimp only
      rw [← h.ppu, s.ppu.readRegister_doubled h.cartridge]
      exact ⟨rfl, h.ram, rfl, h.cartridge⟩
    | unmapped => exact ⟨rfl, h⟩
  · rw [hi, hj]
    exact ⟨hbyte, h⟩

theorem write {addr : UInt16} (haddr : addr < 0x8000) (value : UInt8) :
    s.writeEvents addr value = t.writeEvents addr value ∧
      Doubled (s.write addr value) (t.write addr value) := by
  unfold AddressSpace.writeEvents AddressSpace.write
  obtain ⟨heq, hnone⟩ | ⟨hhigh, -⟩ := h.target_cases addr
  · rw [← heq]
    cases ht : s.target addr with
    | prg cell => exact absurd ht (hnone cell)
    | ram => exact ⟨rfl, congrArg (WorkRam.set · addr value) h.ram, h.ppu, h.cartridge⟩
    | register r =>
      dsimp only
      obtain ⟨hunit, hcartridge⟩ := s.ppu.writeRegister_doubled h.cartridge r value
      rw [← h.ppu]
      exact ⟨s.ppu.writeRegisterEvents_doubled h.cartridge r value, h.ram, hunit, hcartridge⟩
    | unmapped => exact ⟨rfl, h⟩
  · exact absurd haddr (UInt16.not_lt.2 hhigh)

end Doubled

/-- **Nothing but a write to program memory tells that the bank is there twice.** -/
theorem simulation_doubled : Simulation (· < 0x8000) Doubled where
  read := fun h => h.read
  write := fun h _ haddr => h.write haddr
  register := fun _ h => UInt16.lt_trans h (by decide)
  writeVideo := by
    intro s t h addr value
    obtain ⟨hunit, hcartridge⟩ := s.ppu.writeVideo_doubled h.cartridge addr value
    rw [← h.ppu]
    exact ⟨Ppu.writeVideoEvents_doubled h.cartridge addr value, h.ram, hunit, hcartridge⟩
  dot := fun h => ⟨h.ram, congrArg Ppu.dot h.ppu, h.cartridge⟩
  takeNmiRequest := fun h =>
    ⟨congrArg (·.takeNmiRequest.1) h.ppu, h.ram, congrArg (·.takeNmiRequest.2) h.ppu, h.cartridge⟩
  takeFrameComplete := fun h => ⟨congrArg (·.takeFrameComplete.1) h.ppu, h.ram,
    congrArg (·.takeFrameComplete.2) h.ppu, h.cartridge⟩

end AddressSpace

/-! ### Loading -/

/-- Cartridges are such if their images declare it and hold the same. -/
theorem Cartridge.doubled_of_load {image₁ image₂ : Array UInt8} {a b : Cartridge}
    (ha : load image₁ = .ok a) (hb : load image₂ = .ok b) (hone : a.header.prgBanks = 1)
    (htwo : b.header.prgBanks = 2) (hprg : b.prg = a.prg ++ a.prg)
    (hbanks : b.header.chrBanks = a.header.chrBanks) (hchr : b.chr = a.chr)
    (hmirroring : b.header.mirroring = a.header.mirroring) : a.Doubled b := by
  have hmapper : a.mapper = .nrom a.header.prgBanks a.header.chrIsRam :=
    congrArg (·.2.1) (wiring_of_load ha)
  have hmapper' : b.mapper = .nrom b.header.prgBanks b.header.chrIsRam :=
    congrArg (·.2.1) (wiring_of_load hb)
  have hsize : a.prg.size = a.header.prgLength := congrArg (·.2.2.1) (wiring_of_load ha)
  -- The wiring of both is known from their headers, which differ in the number of banks.
  rw [hone] at hmapper
  rw [htwo, Header.chrIsRam, hbanks] at hmapper'
  rw [Header.prgLength, hone] at hsize
  exact ⟨⟨_, hmapper, hmapper'⟩, hsize, hprg, hchr, hmirroring⟩

namespace Console

/-- **A cartridge with one bank behaves as one that has this bank twice.**  Take two images that
load, the first with one bank of program memory and the second with two, both with the contents of
the one, and with the same picture memory and the same mirroring.  Then all operations on a console
with the one answer the same as on a console with the other, if none of them, and no program that
runs in them, writes to an address of program memory.

After each of the operations the processors, the picture units, the work RAMs, the picture memories
and the numbers of clocks are equal, and the same byte is peeked at every address. -/
theorem doubled_bank_unobservable {image₁ image₂ : Array UInt8} {a b : Cartridge}
    (ha : Cartridge.load image₁ = .ok a) (hb : Cartridge.load image₂ = .ok b)
    (hone : a.header.prgBanks = 1) (htwo : b.header.prgBanks = 2) (hprg : b.prg = a.prg ++ a.prg)
    (hbanks : b.header.chrBanks = a.header.chrBanks) (hchr : b.chr = a.chr)
    (hmirroring : b.header.mirroring = a.header.mirroring) {ops : List Operation}
    (hwrites : ∀ addr value, .write addr value ∈ (powerOn a).accessesOfAll ops → addr < 0x8000) :
    (powerOn a).answers ops = (powerOn b).answers ops ∧
    ∀ k, let c := (powerOn a).operateAll (ops.take k)
      let d := (powerOn b).operateAll (ops.take k)
      c.cpu = d.cpu ∧ c.space.ppu = d.space.ppu ∧ c.space.ram = d.space.ram ∧
      c.space.cartridge.chr = d.space.cartridge.chr ∧ c.systemClock = d.systemClock ∧
      ∀ addr, c.peek addr = d.peek addr := by
  have hdoubled := Cartridge.doubled_of_load ha hb hone htwo hprg hbanks hchr hmirroring
  have hpower : (powerOn a).Related AddressSpace.Doubled (powerOn b) :=
    ⟨rfl, ⟨rfl, rfl, hdoubled⟩, rfl⟩
  -- The simulation leaves out writes to program memory, and the operations make none.
  have hsim := AddressSpace.simulation_doubled
  have hw : ∀ act ∈ (powerOn a).accessesOfAll ops, act.WritesTo (· < 0x8000) := by
    intro act hmem
    cases act with
    | write addr value => exact hwrites addr value hmem
    | read addr value => trivial
    | event e => trivial
  refine ⟨(hsim.operateAll hpower hw).1, ?_⟩
  intro k
  -- Part of the operations makes part of the accesses.
  rw [← List.take_append_drop k ops, accessesOfAll_append, List.forall_mem_append] at hw
  obtain ⟨hcpu, hspace, hclock⟩ := (hsim.operateAll hpower hw.1).2
  exact ⟨hcpu, hspace.ppu, hspace.ram, hspace.cartridge.chr.symm, hclock, hspace.peek⟩

/-- The first clock of a console after a reset at power-on, where the program counts up a byte of
page zero. -/
theorem clock_powerOn_filled {cartridge : Cartridge} {size : Nat}
    (hwiring : cartridge.wiring = cartridge.header.wiring) (hbanks : cartridge.header.prgBanks ≠ 0)
    (hprg : cartridge.prg = .replicate size 0xE6) {c : Console}
    (hc : c = (powerOn cartridge).reset.1) :
    c.cycle.accesses =
        [.read 0xE6E6 0xE6, .read 0xE6E7 0xE6, .read 0x00E6 0, .write 0x00E6 1] ∧
      c.clock.console.peek 0x00E6 = 1 := by
  rw [reset_powerOn_filled hwiring hbanks hprg] at hc
  -- Outside of the registers a read gives what the memories were filled with.
  have hread : ∀ addr, IsPlain addr → Bus.read c.dotted addr =
      (if addr.toNat < 0x800 then 0 else 0xE6, c.dotted) := by
    intro addr haddr
    have hplain : Bus.read c.dotted addr = (c.dotted.peek addr, c.dotted) :=
      AddressSpace.read_of_plain _ haddr
    rw [hplain, hc]
    exact congrArg (·, _) (AddressSpace.peek_filled hwiring hbanks hprg haddr)
  have hcpu : c.cpu = { registers := { pc := 0xE6E6 }, totalCycles := 0 } := by rw [hc]; rfl
  obtain ⟨haccesses, -, -, hbus⟩ := Cpu.run_tick_counting_up hcpu (hread 0xE6E6 (by decide))
    (hread 0xE6E7 (by decide)) (hread 0x00E6 (by decide))
  have hcycle : c.cycle = c.cpu.tick.run c.dotted := by
    have hdue : c.cpuIsDue = true := by rw [hc]; rfl
    rw [cycle, cpuPart, if_pos hdue]
  rw [← hcycle] at haccesses hbus
  refine ⟨haccesses, ?_⟩
  -- The instruction writes to work RAM, so the byte is read back there.
  have hwrite : Bus.write c.dotted 0x00E6 1 =
      { c.dotted with ram := c.dotted.ram.set 0x00E6 1 } := by
    show c.dotted.write 0x00E6 1 = _
    rw [AddressSpace.write, c.dotted.target_ram (by decide)]
  rw [clock_eq]
  show AddressSpace.peek { c.cycle.bus with ppu := _ } 0x00E6 = 1
  rw [AddressSpace.peek_withPpu _ _ (by decide), hbus, hwrite, AddressSpace.peek,
    AddressSpace.target_ram _ (by decide)]
  exact (c.dotted.ram.get_set 0x00E6 0x00E6 1).trans (if_pos rfl)

/-- A program that counts up a byte of page zero, in one bank and in two. -/
theorem doubled_bank_unobservable_counting_up : ∃ (image₁ image₂ : Array UInt8) (a b : Cartridge),
    (Cartridge.load image₁ = .ok a ∧ Cartridge.load image₂ = .ok b ∧ a.header.prgBanks = 1 ∧
      b.header.prgBanks = 2 ∧ b.prg = a.prg ++ a.prg ∧ b.header.chrBanks = a.header.chrBanks ∧
      b.chr = a.chr ∧ b.header.mirroring = a.header.mirroring ∧
      ∀ addr value, .write addr value ∈
        (powerOn a).accessesOfAll [.reset, .clock, .read 0x00E6] ↔ addr = 0x00E6 ∧ value = 1) ∧
    (powerOn a).answers [.reset, .clock, .read 0x00E6] =
      (powerOn b).answers [.reset, .clock, .read 0x00E6] ∧
    ((powerOn b).operateAll [.reset, .clock]).peek 0x00E6 = 1 := by
  obtain ⟨a, ha, hheader, hprg, hchr⟩ := Cartridge.load_filled 1 0xE6
  obtain ⟨b, hb, hheader', hprg', hchr'⟩ := Cartridge.load_filled 2 0xE6
  have hone : a.header.prgBanks = 1 := by rw [hheader]; rfl
  have htwo : b.header.prgBanks = 2 := by rw [hheader']; rfl
  have hdouble : b.prg = a.prg ++ a.prg := by
    rw [hprg, hprg', Array.replicate_append_replicate]
    exact congrArg (Array.replicate · 0xE6) (by decide)
  have hsame : b.header.chrBanks = a.header.chrBanks ∧
      b.header.mirroring = a.header.mirroring := by
    rw [hheader, hheader']
    exact ⟨rfl, rfl⟩
  -- The console after the reset is kept as a variable, so that no clock is evaluated.
  obtain ⟨c, hc⟩ : ∃ c : Console, c = (powerOn a).reset.1 := ⟨_, rfl⟩
  obtain ⟨haccesses, hcounted⟩ :=
    clock_powerOn_filled (Cartridge.wiring_of_load ha) (by rw [hone]; decide) hprg hc
  have hvector : ∀ d : Console, ∃ low high, (d.cpu.reset.run d.space).accesses =
      [.read 0xFFFC low, .read 0xFFFD high] := fun _ => ⟨_, _, rfl⟩
  obtain ⟨low, high, hreset⟩ := hvector (powerOn a)
  -- The reset only reads, and the clock writes one byte.
  have hwritten : ∀ addr value,
      .write addr value ∈ (powerOn a).accessesOfAll [.reset, .clock, .read 0x00E6] ↔
        addr = 0x00E6 ∧ value = 1 := by
    intro addr value
    simp only [accessesOfAll, accessesOf, operate, List.append_nil]
    rw [hreset, ← hc, haccesses]
    simp
  have hwrites : ∀ addr value,
      .write addr value ∈ (powerOn a).accessesOfAll [.reset, .clock, .read 0x00E6] →
        addr < 0x8000 := by
    intro addr value hmem
    rw [((hwritten addr value).1 hmem).1]
    decide
  obtain ⟨hanswers, hstates⟩ := doubled_bank_unobservable ha hb hone htwo hdouble hsame.1
    (hchr'.trans hchr.symm) hsame.2 hwrites
  obtain ⟨-, -, -, -, -, hpeek⟩ := hstates 2
  have hrun : (powerOn a).operateAll [.reset, .clock] = c.clock.console := by
    simp only [operateAll, List.foldl_cons, List.foldl_nil, operate, hc]
  rw [List.take_succ_cons, List.take_succ_cons, List.take_zero, hrun] at hpeek
  exact ⟨_, _, a, b, ⟨ha, hb, hone, htwo, hdouble, hsame.1, hchr'.trans hchr.symm,
    hsame.2, hwritten⟩, hanswers, (hpeek 0x00E6).symm.trans hcounted⟩

end Console

end Nes
