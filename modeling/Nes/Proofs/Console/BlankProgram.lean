import Nes.Proofs.Console.EntryAndReturn
import Nes.Proofs.Console.FlatSimulation
import Nes.Proofs.Console.RunLength

/-!
# A blank program

A blank program memory holds zeros, and so does the work RAM at power-on.  Zero is the opcode of the
instruction that interrupts, and all vectors are zero as well.  So a processor that is reset with
such a program interrupts at address zero, is led back to address zero and interrupts again.  Each
time it pushes three bytes, which go to page one.  It goes round like this for ever, and no clock of
the console fails.

## Main definitions

* `FlatMemory.BlankButStack`: all of plain memory is zero, except for page one.
* `Cpu.Circles`: a processor on plain memory goes round at address zero.

## Main statements

* `Cpu.Circles.tick`, `Cpu.Circles.ticks`: it keeps going round.
* `Console.completes_of_blank`: no clock of a console with a blank program fails.
-/

namespace Nes

namespace FlatMemory

/-- All memory is zero, except for page one. -/
def BlankButStack (mem : FlatMemory) : Prop :=
  ∀ addr : UInt16, addr.toNat < 0x100 ∨ 0x200 ≤ addr.toNat → mem.get addr = 0

/-- What is pushed goes to page one. -/
theorem BlankButStack.set {mem : FlatMemory} (h : mem.BlankButStack) (sp value : UInt8) :
    (mem.set (stackCell sp) value).BlankButStack := by
  intro addr haddr
  have hne : addr ≠ stackCell sp := by
    rintro rfl
    rw [toNat_stackCell] at haddr
    have hlt := sp.toNat_lt
    omega
  rw [get_set, if_neg hne]
  exact h addr haddr

/-- **An interrupt entry** finds the vector to be zero, and pushes to page one. -/
theorem BlankButStack.of_entry {mem mem' : FlatMemory} (h : mem.BlankButStack) {r : Registers}
    {byInstruction : Bool} {low high : UInt8}
    (hleads : Bus.Leads mem (r.entryPath irqVector byInstruction low high) mem') :
    low = 0 ∧ high = 0 ∧ mem'.BlankButStack := by
  obtain ⟨rfl, rfl, rfl⟩ := hleads
  have hpushed := ((h.set r.sp (r.pc >>> 8).toUInt8).set (r.sp - 1) r.pc.toUInt8).set (r.sp - 2)
    (r.statusToPush byInstruction)
  exact ⟨hpushed irqVector (.inr (by decide)), hpushed (irqVector + 1) (.inr (by decide)), hpushed⟩

end FlatMemory

/-- The accesses of an interrupt entry are plain. -/
theorem Registers.within_entryPath (r : Registers) (byInstruction : Bool) (low high : UInt8) :
    ∀ a ∈ r.entryPath irqVector byInstruction low high, a.Within IsPlain := by
  have hstack : ∀ sp : UInt8, IsPlain (stackCell sp) := by
    intro sp
    have hlt := sp.toNat_lt
    left
    rw [toNat_stackCell]
    omega
  simp only [entryPath, List.forall_mem_cons, List.not_mem_nil, false_implies, implies_true,
    and_true]
  exact ⟨hstack _, hstack _, hstack _, .inr (by decide), .inr (by decide)⟩

namespace Cpu

-- The opcode matrix is looked up in, and never evaluated.
attribute [local irreducible] OpcodeMatrix.entries

/-- The processor goes round at address zero, where no interrupt waits. -/
structure Circles (cpu : Cpu) (mem : FlatMemory) : Prop where
  pc : cpu.registers.pc = 0
  halted : cpu.halted = none
  pendingNmi : cpu.pendingNmi = false
  pendingIrq : cpu.pendingIrq = false
  blank : mem.BlankButStack

variable {cpu : Cpu} {mem : FlatMemory}

/-- **A cycle of a processor that goes round** succeeds, keeps to plain addresses, and the processor
still goes round after it. -/
theorem Circles.tick (h : cpu.Circles mem) :
    (cpu.tick.run mem).value.result = .ok () ∧
      (cpu.tick.run mem).value.cpu.Circles (cpu.tick.run mem).bus ∧
      ∀ a ∈ cpu.tick.path mem, a.Within IsPlain := by
  rw [← BusM.within_accesses_iff]
  by_cases hc : cpu.cyclesLeft = 0
  · have hn : cpu.nextInterrupt? = none :=
      nextInterrupt?_eq_none_iff.2 ⟨h.pendingNmi, .inl h.pendingIrq⟩
    have hi : Instruction.ofOpcode? (Bus.read mem cpu.registers.pc).1 =
        some ⟨0x00, .brk, .implied, 7⟩ := by
      have hzero : (Bus.read mem cpu.registers.pc).1 = 0 := by
        rw [h.pc]
        exact h.blank 0 (.inl (by decide))
      rw [hzero]
      exact ofOpcode?_brk
    have hleads := BusM.leads_accesses cpu.tick mem
    obtain ⟨found, acts, op, r, extra, hfinds, hperforms, hvalue, haccesses⟩ :=
      performs_of_documented ⟨h.halted, hc⟩ hn hi
    cases hfinds
    cases hperforms with
    | softwareInterrupt low high =>
      -- What is pushed does not matter, and neither does where in page one it goes.
      rw [haccesses] at hleads ⊢
      obtain ⟨rfl, rfl, hblank⟩ := h.blank.of_entry hleads.2
      rw [hvalue]
      refine ⟨rfl, ⟨rfl, h.halted, h.pendingNmi, h.pendingIrq, hblank⟩, ?_⟩
      intro a ha
      rw [List.mem_cons, List.nil_append] at ha
      obtain rfl | ha := ha
      · rw [h.pc]
        exact .inl (by decide)
      · exact Registers.within_entryPath _ _ _ _ a ha
  · rw [tick_of_busy h.halted hc]
    refine ⟨rfl, ⟨h.pc, h.halted, h.pendingNmi, h.pendingIrq, h.blank⟩, ?_⟩
    intro a ha
    exact absurd ha List.not_mem_nil

/-- **So do any number of cycles.** -/
theorem Circles.ticks (h : cpu.Circles mem) (k : Nat) :
    ((Cpu.ticks k cpu).run mem).value.Circles ((Cpu.ticks k cpu).run mem).bus ∧
      ∀ a ∈ (Cpu.ticks k cpu).path mem, a.Within IsPlain := by
  induction k generalizing cpu mem with
  | zero => exact ⟨h, fun a ha => absurd ha List.not_mem_nil⟩
  | succ k ih =>
    obtain ⟨-, hnext, hfirst⟩ := h.tick
    obtain ⟨hlast, hrest⟩ := ih hnext
    rw [Cpu.ticks, BusM.run_bind, BusM.path_bind]
    refine ⟨hlast, ?_⟩
    intro a ha
    rcases List.mem_append.1 ha with ha | ha
    · exact hfirst a ha
    · exact hrest a ha

end Cpu

namespace Console

/-- A processor that goes round on plain memory, and so never fails, does not fail in a console that
it agrees with. -/
theorem Shadows.completes {c : Console} {header : Header} {cpu : Cpu} {mem : FlatMemory}
    {count : Nat} (h : c.Shadows header cpu mem count) (hbanks : 2 ≤ header.prgBanks.toNat)
    (hcircles : cpu.Circles mem) (n : Nat) : c.Completes n := by
  obtain ⟨-, hresults⟩ := h.clocked hbanks n (hcircles.ticks _).2
  intro j hj
  rw [hresults j hj, flatResult]
  split
  · rw [BusM.run_bind]
    exact (hcircles.ticks _).1.tick.1
  · rfl

/-- **No clock fails** after a reset at power-on, if the program is blank. -/
theorem completes_of_blank {image : Array UInt8} {cartridge : Cartridge}
    (hload : Cartridge.load image = .ok cartridge) (hbanks : 2 ≤ cartridge.header.prgBanks.toNat)
    {size : Nat} (hprg : cartridge.prg = .replicate size 0) (n : Nat) :
    (powerOn cartridge).reset.1.Completes n := by
  have hwiring := Cartridge.wiring_of_load hload
  have hsome : cartridge.header.prgBanks ≠ 0 := by
    intro hzero
    rw [hzero] at hbanks
    exact absurd hbanks (by decide)
  have hzero : ∀ addr, (FlatMemory.filled 0).get addr = 0 := FlatMemory.get_filled 0
  have hnmi : Ppu.powerOn.control.nmiEnabled = false := by decide
  have hcircles : Cpu.Circles { registers := { pc := wordOf 0 0 } } (.filled 0) :=
    ⟨rfl, rfl, rfl, rfl, fun addr _ => hzero addr⟩
  rw [reset_powerOn_filled hwiring hsome hprg]
  refine @Shadows.completes _ _ _ _ 0 ⟨rfl, ?_, hwiring, hnmi, rfl⟩ hbanks hcircles n
  intro addr haddr
  rw [hzero, AddressSpace.peek_filled hwiring hsome hprg haddr, ite_self]

end Console

end Nes
