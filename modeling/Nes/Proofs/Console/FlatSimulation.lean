import Nes.Bus.Flat
import Nes.Proofs.Console.Peek
import Nes.Proofs.Console.Synchrony
import Nes.Proofs.Cpu.CycleCount

/-!
# The console as plain memory

A processor is tested on plain memory, and it is used in a console.  What was found in the test
holds of the console as long as the program keeps to addresses that lead to memory and of which no
two lead to the same cell: the first 2 KiB, which are the work RAM without its mirrors, and the upper
half, if the cartridge has the two banks that fill it.

The console interleaves each cycle of the processor with three dots of the picture unit, and counts
clocks.  The dots do not reach the processor while it does not access the registers of the picture
unit and interrupts of the vertical blank are disabled, and they do not reach the memory at all.  So
a console and a processor with plain memory that agree at first agree after every clock, if the
processor makes a cycle whenever one is due in the console.  They may have counted different numbers
of cycles before; from then on they count the same.

## Main definitions

* `IsPlain`: the addresses at which the console has memory and no mirrors.
* `Console.Shadows`: a console and a processor with plain memory agree.
* `Cpu.Matches`: two processors are the same but for the cycles that they have counted.

## Main statements

* `AddressSpace.peek_write_of_plain`: between plain addresses there are no mirrors.
* `AddressSpace.run_of_plain`: a program that keeps to plain addresses does the same on both.
* `Console.Shadows.clock_of_due`, `Console.Shadows.clocked`: clocks keep the agreement.
* `Console.clocked_as_flat`: the console simulates the processor on plain memory.
-/

namespace Nes

/-! ### Plain addresses -/

/-- The addresses at which a console with two banks of program memory has memory and no mirrors. -/
def IsPlain (addr : UInt16) : Prop := addr.toNat < 0x800 ∨ 0x8000 ≤ addr.toNat

instance (addr : UInt16) : Decidable (IsPlain addr) := inferInstanceAs (Decidable (_ ∨ _))

/-- Plain addresses lead to no register. -/
theorem IsPlain.lt_or_ge {addr : UInt16} (h : IsPlain addr) : addr < 0x2000 ∨ 0x4000 ≤ addr := by
  rw [UInt16.lt_iff_toNat_lt, UInt16.le_iff_toNat_le]
  show addr.toNat < 0x2000 ∨ 0x4000 ≤ addr.toNat
  unfold IsPlain at h
  omega

/-- Of the plain addresses, only the address itself leads to a cell of the work RAM. -/
theorem ramAlias_of_plain {a b : UInt16} (ha : a.toNat < 0x800) (hb : IsPlain b) :
    ramAlias a b = decide (a = b) := by
  rw [Bool.eq_iff_iff, decide_eq_true_iff, ramAlias, Bool.and_eq_true, decide_eq_true_iff,
    beq_iff_eq, UInt16.lt_iff_toNat_lt, ← UInt16.toNat_inj]
  show b.toNat < 0x2000 ∧ a.toNat % 0x800 = b.toNat % 0x800 ↔ a.toNat = b.toNat
  unfold IsPlain at hb
  omega

/-- With two banks, the same holds of program memory. -/
theorem Header.prgAlias_of_plain {header : Header} (hbanks : 2 ≤ header.prgBanks.toNat)
    {a : UInt16} (ha : 0x8000 ≤ a.toNat) (b : UInt16) :
    header.prgAlias a b = decide (a = b) := by
  have hmask : header.prgMask = 0x7FFF := by
    rw [prgMask, if_neg]
    intro hone
    rw [hone] at hbanks
    exact absurd hbanks (by decide)
  have hlow : ∀ c : UInt16, (c &&& 0x7FFF).toNat = c.toNat % 0x8000 := fun c =>
    toNat_and_low c 15 rfl
  have hlt := a.toNat_lt
  have hlt' := b.toNat_lt
  rw [Bool.eq_iff_iff, decide_eq_true_iff, prgAlias, Bool.and_eq_true, decide_eq_true_iff,
    beq_iff_eq, UInt16.le_iff_toNat_le, hmask, ← UInt16.toNat_inj, hlow, hlow, ← UInt16.toNat_inj]
  show 0x8000 ≤ b.toNat ∧ a.toNat % 0x8000 = b.toNat % 0x8000 ↔ a.toNat = b.toNat
  omega

namespace AddressSpace

/-- Nothing that happens in the picture unit is seen at a plain address. -/
theorem peek_withPpu (s : AddressSpace) (ppu : Ppu) {addr : UInt16} (h : IsPlain addr) :
    { s with ppu := ppu }.peek addr = s.peek addr := by
  have htarget := target_ne_register (s := s) h.lt_or_ge
  have hsame : { s with ppu := ppu }.target addr = s.target addr := rfl
  unfold peek
  rw [hsame]
  cases ht : s.target addr with
  | register r => exact absurd ht (htarget r)
  | prg cell => rfl
  | ram => rfl
  | unmapped => rfl

theorem read_of_plain (s : AddressSpace) {addr : UInt16} (h : IsPlain addr) :
    s.read addr = (s.peek addr, s) :=
  Prod.ext (s.fst_read addr) (read_of_not_register (target_ne_register h.lt_or_ge))

section TwoBanks

variable {s : AddressSpace} {header : Header} (hs : s.cartridge.wiring = header.wiring)
  (hbanks : 2 ≤ header.prgBanks.toNat)

include hs hbanks

/-- **Between plain addresses there are no mirrors.** -/
theorem peek_write_of_plain {a b : UInt16} (ha : IsPlain a) (hb : IsPlain b) (value : UInt8) :
    (s.write b value).peek a = if a = b then value else s.peek a := by
  have hwrite : (s.write b value).cartridge.wiring = header.wiring :=
    (s.wiring_write b value).trans hs
  have hne : header.prgBanks ≠ 0 := fun h => absurd (h ▸ hbanks) (by decide)
  rw [← fst_read, ← fst_read]
  rcases ha with hlow | hhigh
  · have hram : a < 0x2000 := UInt16.lt_iff_toNat_lt.2 (Nat.lt_trans hlow (by decide))
    rw [read_ram _ hram, read_ram _ hram, ram_get_write, ramAlias_of_plain hlow hb]
    simp only [decide_eq_true_eq]
  · have hprg : 0x8000 ≤ a := UInt16.le_iff_toNat_le.2 hhigh
    rw [read_prg hwrite hne hprg, read_prg hs hne hprg, prg_getD_write hs hne,
      Header.prgAlias_of_plain hbanks hhigh]
    simp only [decide_eq_true_eq]

/-- A write to a plain address is not told. -/
theorem writeEvents_of_plain {addr : UInt16} (h : IsPlain addr) (value : UInt8) :
    s.writeEvents addr value = [] := by
  have hne : header.prgBanks ≠ 0 := fun h => absurd (h ▸ hbanks) (by decide)
  unfold writeEvents
  rcases h with hlow | hhigh
  · rw [s.target_ram (UInt16.lt_iff_toNat_lt.2 (Nat.lt_trans hlow (by decide)))]
  · rw [target_of_ge hs (UInt16.le_iff_toNat_le.2 hhigh), if_neg hne]

end TwoBanks

/-- An address space holds the same bytes as plain memory at the plain addresses.  The picture unit
and the wiring are named, because accesses to these addresses change neither. -/
structure Holds (mem : FlatMemory) (s : AddressSpace) (ppu : Ppu) (header : Header) : Prop where
  /-- The bytes are the same. -/
  bytes : ∀ addr, IsPlain addr → mem.get addr = s.peek addr
  /-- The picture unit. -/
  ppu : s.ppu = ppu
  /-- The wiring. -/
  wiring : s.cartridge.wiring = header.wiring

/-- **A program that keeps to plain addresses does the same on both.** -/
theorem run_of_plain {mem : FlatMemory} {s : AddressSpace} {ppu : Ppu} {header : Header}
    (h : Holds mem s ppu header) (hbanks : 2 ≤ header.prgBanks.toNat) {α : Type} (x : BusM α)
    (hplain : ∀ a ∈ x.path mem, a.Within IsPlain) :
    (x.run mem).value = (x.run s).value ∧ (x.run mem).trace = (x.run s).trace ∧
      Holds (x.run mem).bus (x.run s).bus ppu header := by
  refine BusM.run_related_within (R := fun mem s => Holds mem s ppu header) ?_ ?_ x h hplain
  · intro mem s h addr haddr
    have hread : Bus.read s addr = (s.peek addr, s) := s.read_of_plain haddr
    rw [hread]
    exact ⟨h.bytes addr haddr, h⟩
  · intro mem s h addr haddr value
    have hppu := (write_of_not_register (target_ne_register (s := s) haddr.lt_or_ge) value).1
    refine ⟨(writeEvents_of_plain h.wiring hbanks haddr value).symm, ?_, hppu.trans h.ppu,
      (s.wiring_write addr value).trans h.wiring⟩
    intro other hother
    show (mem.set addr value).get other = (s.write addr value).peek other
    rw [FlatMemory.get_set, peek_write_of_plain h.wiring hbanks hother haddr, h.bytes other hother]

end AddressSpace

/-! ### Clocks -/

/-- Three clocks in a row hold one that is due to the processor. -/
theorem cyclesDue_three_mul (start k : Nat) : cyclesDue start (3 * k) = k := by
  induction k generalizing start with
  | zero => rfl
  | succ k ih =>
    have hsplit : 3 * (k + 1) = 3 * k + 1 + 1 + 1 := by omega
    rw [hsplit, cyclesDue_succ, cyclesDue_succ, cyclesDue_succ, ih]
    split <;> split <;> split <;> omega

namespace Console

/-- A console and a processor with plain memory agree: the processors are the same except that the
one in the console has counted `count` more cycles, the memories hold the same bytes at the plain
addresses, and the picture unit does not interrupt. -/
structure Shadows (c : Console) (header : Header) (cpu : Cpu) (mem : FlatMemory) (count : Nat) :
    Prop where
  /-- The processors differ by the cycles counted before. -/
  cpu : c.cpu = cpu.later count
  /-- The memories hold the same bytes. -/
  bytes : ∀ addr, IsPlain addr → mem.get addr = c.space.peek addr
  /-- The wiring. -/
  wiring : c.space.cartridge.wiring = header.wiring
  /-- Interrupts of the vertical blank are disabled. -/
  nmiOff : c.space.ppu.control.nmiEnabled = false
  /-- The request line is clear. -/
  line : c.space.ppu.nmiRequest = false

variable {c : Console} {header : Header} {cpu : Cpu} {mem : FlatMemory} {count : Nat}

/-- After the dot of a clock, the memories still hold the same bytes. -/
theorem Shadows.holds (h : c.Shadows header cpu mem count) :
    AddressSpace.Holds mem c.dotted c.dotted.ppu header where
  bytes addr haddr := (h.bytes addr haddr).trans (c.space.peek_withPpu _ haddr).symm
  ppu := rfl
  wiring := h.wiring

/-- What a clock leaves agrees with what its part of the processor leaves. -/
theorem Shadows.of_cycle (h : c.Shadows header cpu mem count) {o : Cpu.Ticked} {mem' : FlatMemory}
    (hcpu : c.cycle.value = o.later count)
    (hmem : AddressSpace.Holds mem' c.cycle.bus c.dotted.ppu header) :
    c.clock.console.Shadows header o.cpu mem' count ∧ c.clock.result = o.result := by
  have hquiet : c.cycle.bus.ppu.nmiRequest = false := by
    rw [nmiRequest_cycle h.line, Ppu.raisesNmi, h.nmiOff, Bool.and_false]
  rw [clock_eq, hquiet, hcpu]
  refine ⟨⟨rfl, ?_, hmem.wiring, ?_, rfl⟩, rfl⟩
  · intro addr haddr
    exact (hmem.bytes addr haddr).trans (c.cycle.bus.peek_withPpu _ haddr).symm
  · show c.cycle.bus.ppu.control.nmiEnabled = false
    rw [hmem.ppu]
    exact h.nmiOff

/-- A clock that is not due to the processor keeps the agreement. -/
theorem Shadows.clock_of_not_due (h : c.Shadows header cpu mem count)
    (hdue : ¬ c.systemClock % 3 = 0) :
    c.clock.console.Shadows header cpu mem count ∧ c.clock.result = .ok () := by
  have hcycle : c.cycle = ⟨⟨c.cpu, .ok ()⟩, c.dotted, []⟩ := by
    rw [cycle, cpuPart, if_neg fun hd => hdue (c.cpuIsDue_iff.1 hd)]
  have hcpu : c.cycle.value = Cpu.Ticked.later ⟨cpu, .ok ()⟩ count := by
    rw [hcycle, h.cpu]
    rfl
  apply h.of_cycle hcpu
  rw [hcycle]
  exact h.holds

/-- **A clock that is due to the processor is a cycle on plain memory**, if that keeps to plain
addresses. -/
theorem Shadows.clock_of_due (h : c.Shadows header cpu mem count)
    (hbanks : 2 ≤ header.prgBanks.toNat) (hdue : c.systemClock % 3 = 0)
    (hplain : ∀ a ∈ cpu.tick.path mem, a.Within IsPlain) :
    let o := cpu.tick.run mem
    c.clock.console.Shadows header o.value.cpu o.bus count ∧ c.clock.result = o.value.result := by
  obtain ⟨hvalue, -, hholds⟩ := AddressSpace.run_of_plain h.holds hbanks cpu.tick hplain
  have hcycle : c.cycle = c.cpu.tick.run c.dotted := by
    rw [cycle, cpuPart, if_pos (c.cpuIsDue_iff.2 hdue)]
  rw [h.cpu, Cpu.run_tick_later] at hcycle
  apply h.of_cycle
  · rw [hcycle, hvalue]
  · rw [hcycle]
    exact hholds

/-- The result of clock number `j` of a run, if the processor makes its cycles on plain memory. -/
def flatResult (start j : Nat) (cpu : Cpu) (mem : FlatMemory) : Except CpuFault Unit :=
  if (start + j) % 3 = 0 then
    ((Cpu.ticks (cyclesDue start j) cpu >>= Cpu.tick).run mem).value.result
  else .ok ()

theorem flatResult_succ_of_due {start : Nat} (hdue : start % 3 = 0) (j : Nat) (cpu : Cpu)
    (mem : FlatMemory) :
    flatResult start (j + 1) cpu mem =
      flatResult (start + 1) j (cpu.tick.run mem).value.cpu (cpu.tick.run mem).bus := by
  have hshift : start + (j + 1) = start + 1 + j := by omega
  rw [flatResult, flatResult, cyclesDue_succ, if_pos hdue, hshift, Nat.add_comm 1, Cpu.ticks,
    bind_assoc, BusM.run_bind]

theorem flatResult_succ_of_not_due {start : Nat} (hdue : ¬ start % 3 = 0) (j : Nat) (cpu : Cpu)
    (mem : FlatMemory) :
    flatResult start (j + 1) cpu mem = flatResult (start + 1) j cpu mem := by
  have hshift : start + (j + 1) = start + 1 + j := by omega
  rw [flatResult, flatResult, cyclesDue_succ, if_neg hdue, hshift, Nat.zero_add]

/-- **Clocks keep the agreement**, as long as the cycles on plain memory keep to plain addresses. -/
theorem Shadows.clocked (h : c.Shadows header cpu mem count) (hbanks : 2 ≤ header.prgBanks.toNat)
    (n : Nat)
    (hplain : ∀ a ∈ (Cpu.ticks (cyclesDue c.systemClock n) cpu).path mem, a.Within IsPlain) :
    let flat := (Cpu.ticks (cyclesDue c.systemClock n) cpu).run mem
    (Console.clocked n c).Shadows header flat.value flat.bus count ∧
      ∀ j < n, (Console.clocked j c).clock.result = flatResult c.systemClock j cpu mem := by
  -- By induction on the clocks, of which the first is due to the processor or not.
  induction n generalizing c cpu mem with
  | zero => exact ⟨h, fun j hj => absurd hj (Nat.not_lt_zero j)⟩
  | succ n ih =>
    by_cases hdue : c.systemClock % 3 = 0
    · rw [cyclesDue_succ, if_pos hdue, Nat.add_comm 1] at hplain ⊢
      rw [Cpu.ticks, BusM.path_bind] at hplain
      rw [Cpu.ticks, BusM.run_bind]
      obtain ⟨hnext, hresult⟩ := h.clock_of_due hbanks hdue fun a ha =>
        hplain a (List.mem_append_left _ ha)
      obtain ⟨hlast, hresults⟩ := ih hnext fun a ha => hplain a (List.mem_append_right _ ha)
      refine ⟨hlast, fun j hj => ?_⟩
      cases j with
      | zero =>
        rw [flatResult, if_pos (by exact hdue)]
        exact hresult
      | succ j =>
        rw [flatResult_succ_of_due hdue]
        exact hresults j (Nat.lt_of_succ_lt_succ hj)
    · rw [cyclesDue_succ, if_neg hdue, Nat.zero_add] at hplain ⊢
      obtain ⟨hnext, hresult⟩ := h.clock_of_not_due hdue
      obtain ⟨hlast, hresults⟩ := ih hnext hplain
      refine ⟨hlast, fun j hj => ?_⟩
      cases j with
      | zero =>
        rw [flatResult, if_neg (by exact hdue)]
        exact hresult
      | succ j =>
        rw [flatResult_succ_of_not_due hdue]
        exact hresults j (Nat.lt_of_succ_lt_succ hj)

end Console

/-! ### Processors that match -/

/-- Two processors are the same but for the cycles that they have counted. -/
structure Cpu.Matches (cpu other : Cpu) : Prop where
  registers : cpu.registers = other.registers
  cyclesLeft : cpu.cyclesLeft = other.cyclesLeft
  pendingNmi : cpu.pendingNmi = other.pendingNmi
  pendingIrq : cpu.pendingIrq = other.pendingIrq
  halted : cpu.halted = other.halted

/-- A processor that has counted no cycles matches both, and both are later ones of it. -/
theorem Cpu.Matches.eq_later {cpu other : Cpu} (h : cpu.Matches other) :
    other = ({ cpu with totalCycles := 0 } : Cpu).later other.totalCycles := by
  obtain ⟨registers, cyclesLeft, pendingNmi, pendingIrq, totalCycles, halted⟩ := other
  obtain ⟨rfl, rfl, rfl, rfl, rfl⟩ := h
  rw [Cpu.later, Nat.zero_add]

theorem Cpu.Matches.refl (cpu : Cpu) : cpu.Matches cpu := ⟨rfl, rfl, rfl, rfl, rfl⟩

/-! ### A program that counts -/

/-- A plain address reads after the dot of the next clock what it holds. -/
theorem Console.fst_read_dotted (c : Console) {addr : UInt16} (h : IsPlain addr) :
    (c.dotted.read addr).1 = c.peek addr := by
  rw [AddressSpace.read_of_plain _ h]
  exact AddressSpace.peek_withPpu c.space _ h

/-- What is peeked at plain addresses if program memory holds nothing but a byte and work RAM is
blank. -/
theorem AddressSpace.peek_filled {cartridge : Cartridge} {ppu : Ppu} {size : Nat} {byte : UInt8}
    (hwiring : cartridge.wiring = cartridge.header.wiring) (hbanks : cartridge.header.prgBanks ≠ 0)
    (hprg : cartridge.prg = .replicate size byte) {addr : UInt16} (h : IsPlain addr) :
    AddressSpace.peek ⟨.blank, ppu, cartridge⟩ addr = if addr.toNat < 0x800 then 0 else byte := by
  rw [← fst_read]
  split
  · next hlow =>
    rw [read_ram _ (UInt16.lt_iff_toNat_lt.2 (Nat.lt_trans hlow (by decide)))]
    exact WorkRam.get_blank addr
  · next hhigh =>
    have hge : 0x8000 ≤ addr := UInt16.le_iff_toNat_le.2 (h.resolve_left hhigh)
    have hlt := and_prgMask_lt (s := ⟨.blank, ppu, cartridge⟩) hwiring addr hbanks
    rw [read_prg hwiring hbanks hge]
    dsimp only at hlt ⊢
    rw [hprg, Array.size_replicate] at hlt
    rw [hprg, Array.getD_eq_getD_getElem?, Array.getElem?_replicate, if_pos hlt]
    rfl

/-- A console that is reset at power-on with such a cartridge: the vector of the reset is the byte
twice. -/
theorem Console.reset_powerOn_filled {cartridge : Cartridge} {size : Nat} {byte : UInt8}
    (hwiring : cartridge.wiring = cartridge.header.wiring) (hbanks : cartridge.header.prgBanks ≠ 0)
    (hprg : cartridge.prg = .replicate size byte) :
    (powerOn cartridge).reset.1 =
      ⟨{ registers := { pc := wordOf byte byte } }, ⟨.blank, .powerOn, cartridge⟩, 0⟩ := by
  obtain ⟨s, hs⟩ : ∃ s : AddressSpace, s = ⟨.blank, .powerOn, cartridge⟩ := ⟨_, rfl⟩
  have hread : ∀ addr, IsPlain addr → ¬ addr.toNat < 0x800 → Bus.read s addr = (byte, s) := by
    intro addr haddr hhigh
    have hone : Bus.read s addr = (s.peek addr, s) := s.read_of_plain haddr
    rw [hone, hs, AddressSpace.peek_filled hwiring hbanks hprg haddr, if_neg hhigh]
  have hrun : (Cpu.reset {}).run s =
      ⟨{ registers := { pc := wordOf byte byte } }, s,
        [.read 0xFFFC byte, .read 0xFFFD byte]⟩ := by
    rw [Cpu.reset, BusM.run_bind, BusM.run_readWord]
    dsimp only
    rw [hread resetVector (by decide) (by decide), hread (resetVector + 1) (by decide) (by decide)]
    rfl
  have hpower : powerOn cartridge = ⟨{}, s, 0⟩ := by rw [hs]; rfl
  rw [hpower, reset]
  dsimp only
  rw [hrun, hs]

/-- Two banks of a byte, at power-on. -/
theorem Console.exists_powerOn_filled (byte : UInt8) : ∃ image cartridge,
    Cartridge.load image = .ok cartridge ∧ cartridge.header.prgBanks = 2 ∧
    (powerOn cartridge).reset.1 =
      ⟨{ registers := { pc := wordOf byte byte } }, ⟨.blank, .powerOn, cartridge⟩, 0⟩ ∧
    ∀ addr, IsPlain addr → AddressSpace.peek ⟨.blank, .powerOn, cartridge⟩ addr =
      if addr.toNat < 0x800 then 0 else byte := by
  obtain ⟨cartridge, hload, hheader, hprg, -⟩ := Cartridge.load_filled 2 byte
  have hwiring := Cartridge.wiring_of_load hload
  have htwo : cartridge.header.prgBanks = 2 := by rw [hheader]; rfl
  have hbanks : cartridge.header.prgBanks ≠ 0 := by
    rw [htwo]
    decide
  exact ⟨_, cartridge, hload, htwo, reset_powerOn_filled hwiring hbanks hprg,
    fun addr haddr => AddressSpace.peek_filled hwiring hbanks hprg haddr⟩

/-- So there is a reachable console whose program memory is full of a byte. -/
theorem Console.exists_reachable_filled (byte : UInt8) : ∃ c : Console, c.Reachable ∧
    c.space.cartridge.header.prgBanks = 2 ∧ c.space.ppu.control.nmiEnabled = false ∧
    c.systemClock = 0 ∧ c.cpu = { registers := { pc := wordOf byte byte } } ∧
    ∀ addr, IsPlain addr → c.peek addr = if addr.toNat < 0x800 then 0 else byte := by
  obtain ⟨image, cartridge, hload, hbanks, hreset, hpeek⟩ := exists_powerOn_filled byte
  refine ⟨(powerOn cartridge).reset.1, (Reachable.powerOn hload).reset, ?_⟩
  rw [hreset]
  have hnmi : Ppu.powerOn.control.nmiEnabled = false := by decide
  exact ⟨hbanks, hnmi, rfl, rfl, hpeek⟩

/-- The next cycle of a processor whose program counts up a byte of page zero. -/
theorem Cpu.run_tick_counting_up {β : Type} [Bus β] {bus : β} {cpu : Cpu} {n : Nat}
    (hcpu : cpu = { registers := { pc := 0xE6E6 }, totalCycles := n })
    (hopcode : Bus.read bus 0xE6E6 = (0xE6, bus)) (hoperand : Bus.read bus 0xE6E7 = (0xE6, bus))
    (hzero : Bus.read bus 0x00E6 = (0, bus)) :
    (cpu.tick.run bus).accesses =
        [.read 0xE6E6 0xE6, .read 0xE6E7 0xE6, .read 0x00E6 0, .write 0x00E6 1] ∧
      (cpu.tick.run bus).value.cpu.registers.pc = 0xE6E8 ∧
      (cpu.tick.run bus).value.cpu.cyclesLeft = 4 ∧
      (cpu.tick.run bus).bus = Bus.write bus 0x00E6 1 := by
  have hi : Instruction.ofOpcode? (Bus.read bus cpu.registers.pc).1 =
      some ⟨0xE6, .inc, .zeroPage, 5⟩ := by
    have hbyte : (Bus.read bus cpu.registers.pc).1 = 0xE6 := by
      rw [hcpu]
      exact congrArg Prod.fst hopcode
    rw [hbyte]
    decide +kernel
  have hboundary : cpu.halted = none ∧ cpu.cyclesLeft = 0 ∧ cpu.nextInterrupt? = none := by
    rw [hcpu]
    exact ⟨rfl, rfl, rfl⟩
  have hrun := Cpu.run_tick_of_documented hboundary.1 hboundary.2.1 hboundary.2.2 hi
  have hnext : (0xE6E6 : UInt16) + 1 = 0xE6E7 := by decide
  have htarget : (0xE6 : UInt8).toUInt16 = 0x00E6 := by decide
  simp only [AddressingMode.resolve, Mnemonic.effect, Effect.perform, Operand.load, Operand.store,
    Operand.plain, BusM.run_bind, BusM.run_readByte, BusM.run_pure, BusM.run_writeByte, hcpu,
    hopcode, hoperand, hzero, hnext, htarget, List.cons_append, List.nil_append, List.append_nil]
    at hrun
  -- What the bus tells of the write is no access.
  have htold : ∀ l : List Event, (l.map Activity.event).filter Activity.isAccess = [] := by
    intro l
    simp [List.filter_eq_nil_iff, Activity.isAccess]
  rw [hcpu, hrun]
  refine ⟨?_, rfl, rfl, rfl⟩
  exact congrArg ([Activity.read 0xE6E6 0xE6, .read 0xE6E7 0xE6, .read 0x00E6 0,
    .write 0x00E6 1] ++ ·) (htold _)

/-- A processor on plain memory that has counted cycles before, and whose program counts up a byte
of page zero in the next one. -/
theorem Cpu.exists_flat_counting_up : ∃ (cpu : Cpu) (mem : FlatMemory),
    cpu.Matches { registers := { pc := 0xE6E6 } } ∧
    (∀ addr, mem.get addr = if addr.toNat < 0x800 then 0 else 0xE6) ∧
    let o := (Cpu.ticks 1 cpu).run mem
    (∀ a ∈ o.accesses, a.Within IsPlain) ∧ o.value.registers.pc = 0xE6E8 ∧
      o.value.cyclesLeft = 4 ∧ o.bus.get 0x00E6 = 1 := by
  obtain ⟨mem, hmem⟩ : ∃ mem : FlatMemory,
      ∀ addr, mem.get addr = if addr.toNat < 0x800 then 0 else 0xE6 :=
    ⟨⟨.ofFn fun i => if i.val < 0x800 then 0 else 0xE6⟩, fun addr => Vector.getElem_ofFn _⟩
  have hread : ∀ addr, Bus.read mem addr = (if addr.toNat < 0x800 then 0 else 0xE6, mem) :=
    fun addr => Prod.ext (hmem addr) rfl
  obtain ⟨haccesses, hpc, hleft, hbus⟩ := Cpu.run_tick_counting_up (n := 7) rfl (hread 0xE6E6)
    (hread 0xE6E7) (hread 0x00E6)
  refine ⟨{ registers := { pc := 0xE6E6 }, totalCycles := 7 }, mem, ⟨rfl, rfl, rfl, rfl, rfl⟩, hmem,
    ?_⟩
  simp only [Cpu.ticks, BusM.run_bind, BusM.run_pure, Outcome.accesses, List.append_nil]
  -- All its accesses are outside of the registers.
  have hwithin : ∀ a ∈ [Activity.read 0xE6E6 0xE6, .read 0xE6E7 0xE6, .read 0x00E6 0,
      .write 0x00E6 1], a.Within IsPlain := by
    simp only [List.forall_mem_cons, List.not_mem_nil, false_implies, implies_true, and_true]
    exact ⟨.inr (by decide), .inr (by decide), .inl (by decide), .inl (by decide)⟩
  rw [← haccesses] at hwithin
  refine ⟨hwithin, hpc, hleft, ?_⟩
  rw [hbus]
  exact mem.get_set 0x00E6 0x00E6 1

/-! ### Simulation -/

namespace Console

theorem flatResult_later (start j : Nat) (cpu : Cpu) (mem : FlatMemory) (count : Nat) :
    flatResult start j (cpu.later count) mem = flatResult start j cpu mem := by
  rw [flatResult, flatResult, BusM.run_bind, BusM.run_bind, Cpu.run_ticks_later]
  dsimp only
  rw [Cpu.run_tick_later]
  rfl

/-- **The console simulates the processor on plain memory.**  Take any console that can be reached,
with two banks of program memory or more and with the interrupt of the vertical blank disabled, and
a processor on plain memory that has the same registers, latches and cycles left and is halted in
the same way, where the memory holds the bytes of the console at all plain addresses.  If the first
`k` cycles on plain memory access only plain addresses, then after any number of clocks of which `k`
are due to the processor, and there is such a number:

* the two processors still match, and both have counted the same number of cycles since;
* every clock that was due to the processor had the result of its cycle on plain memory, and all
  others succeeded;
* the memories still hold the same bytes at all plain addresses. -/
theorem clocked_as_flat {c : Console} (hc : c.Reachable)
    (hbanks : 2 ≤ c.space.cartridge.header.prgBanks.toNat)
    (hnmi : c.space.ppu.control.nmiEnabled = false) {cpu : Cpu} {mem : FlatMemory}
    (hcpu : cpu.Matches c.cpu) (hmem : ∀ addr, IsPlain addr → mem.get addr = c.peek addr) (k : Nat)
    (hplain : ∀ a ∈ ((Cpu.ticks k cpu).run mem).accesses, a.Within IsPlain) :
    let flat := (Cpu.ticks k cpu).run mem
    (∃ n, cyclesDue c.systemClock n = k) ∧
    ∀ n, cyclesDue c.systemClock n = k →
      let d := clocked n c
      flat.value.Matches d.cpu ∧
      (∃ growth, flat.value.totalCycles = cpu.totalCycles + growth ∧
        d.cpu.totalCycles = c.cpu.totalCycles + growth) ∧
      (∀ j < n, (clocked j c).clock.result =
        if (c.systemClock + j) % 3 = 0 then
          ((Cpu.ticks (cyclesDue c.systemClock j) cpu >>= Cpu.tick).run mem).value.result
        else .ok ()) ∧
      ∀ addr, IsPlain addr → flat.bus.get addr = d.peek addr := by
  -- Both processors are later ones of a processor that has counted nothing.
  obtain ⟨base, hbase⟩ : ∃ base : Cpu, base = { cpu with totalCycles := 0 } := ⟨_, rfl⟩
  have hflat : cpu = base.later cpu.totalCycles := hbase ▸ (Cpu.Matches.refl cpu).eq_later
  have hbused : c.cpu = base.later c.cpu.totalCycles := hbase ▸ hcpu.eq_later
  have hrun : (Cpu.ticks k cpu).run mem =
      ⟨((Cpu.ticks k base).run mem).value.later cpu.totalCycles, ((Cpu.ticks k base).run mem).bus,
        ((Cpu.ticks k base).run mem).trace⟩ := by
    have hlater := Cpu.run_ticks_later k base cpu.totalCycles mem
    rwa [← hflat] at hlater
  have hsound := hc.sound
  obtain ⟨image, cartridge, hload, hwiring⟩ := hsound.loaded
  have hheader : c.space.cartridge.header = cartridge.header := congrArg (·.1) hwiring
  rw [hheader] at hbanks
  have hshadows : c.Shadows cartridge.header base mem c.cpu.totalCycles :=
    ⟨hbused, hmem, hwiring.trans (Cartridge.wiring_of_load hload), hnmi, hsound.nmiRequest⟩
  have hpath : ∀ a ∈ (Cpu.ticks k base).path mem, a.Within IsPlain := by
    rw [← BusM.within_accesses_iff]
    rw [hrun] at hplain
    exact hplain
  refine ⟨⟨3 * k, cyclesDue_three_mul _ k⟩, ?_⟩
  rintro n rfl
  obtain ⟨hlast, hresults⟩ := hshadows.clocked hbanks n hpath
  dsimp only at hlast ⊢
  rw [hrun, hlast.cpu]
  refine ⟨⟨rfl, rfl, rfl, rfl, rfl⟩, ⟨_, Nat.add_comm _ _, Nat.add_comm _ _⟩, ?_, hlast.bytes⟩
  intro j hj
  have hresult := hresults j hj
  rw [← flatResult_later _ _ _ _ cpu.totalCycles, ← hflat] at hresult
  exact hresult

/-- A program that counts up a byte of page zero, for one clock of a console that was never clocked
before. -/
theorem clocked_as_flat_counting_up : ∃ (c : Console) (cpu : Cpu) (mem : FlatMemory),
    (c.Reachable ∧ 2 ≤ c.space.cartridge.header.prgBanks.toNat ∧
      c.space.ppu.control.nmiEnabled = false ∧ cpu.Matches c.cpu ∧
      (∀ addr, IsPlain addr → mem.get addr = c.peek addr) ∧
      ∀ a ∈ ((Cpu.ticks 1 cpu).run mem).accesses, a.Within IsPlain) ∧
    c.peek 0x00E6 = 0 ∧ (clocked 1 c).peek 0x00E6 = 1 ∧
    (clocked 1 c).cpu.registers.pc = 0xE6E8 ∧ (clocked 1 c).cpu.cyclesLeft = 4 := by
  obtain ⟨c, hreachable, hbanks, hnmi, hclock, hcpu, hpeek⟩ := exists_reachable_filled 0xE6
  obtain ⟨cpu, mem, hmatches, hmem, hplain, hpc, hleft, hcounted⟩ := Cpu.exists_flat_counting_up
  have hvector : wordOf 0xE6 0xE6 = 0xE6E6 := by decide
  rw [← hvector, ← hcpu] at hmatches
  have hbytes : ∀ addr, IsPlain addr → mem.get addr = c.peek addr := fun addr haddr =>
    (hmem addr).trans (hpeek addr haddr).symm
  have htwo : 2 ≤ c.space.cartridge.header.prgBanks.toNat := by
    rw [hbanks]
    decide
  obtain ⟨-, hall⟩ := clocked_as_flat hreachable htwo hnmi hmatches hbytes 1 hplain
  obtain ⟨hsame, -, -, hkept⟩ := hall 1 (by rw [hclock]; decide)
  exact ⟨c, cpu, mem, ⟨hreachable, htwo, hnmi, hmatches, hbytes, hplain⟩,
    hpeek 0x00E6 (by decide), (hkept 0x00E6 (by decide)).symm.trans hcounted,
    (congrArg (·.pc) hsame.registers).symm.trans hpc, hsame.cyclesLeft.symm.trans hleft⟩

end Console

end Nes
