import Nes.Cpu.Basic
import Nes.Proofs.Cpu.StackPath

/-!
# What one cycle can do

A cycle of the processor does one of five things.  A halted processor reports its fault, and a
processor with an instruction in flight counts down.  Otherwise the cycle enters the handler of an
interrupt, executes an instruction, or halts at an undocumented opcode.

Here the five cases are stated once, with everything that the processor does in each of them.  What
is shown of the processor later is shown case by case.

## Main definitions

* `Cpu.nextInterrupt?`: the interrupt that an idle processor takes, by its vector.
* `Cpu.TickPath`: the five cases.

## Main statements

* `Cpu.tickPath_of_follows`, `Cpu.tickPath_run`: a path through a cycle is one of the five cases.
* `Cpu.run_ticks_of_busy`: cycles with an instruction in flight only count down.
-/

namespace Nes

/-! ### Setting a flag and asking for another -/

/-- A flag does not change when another is set. -/
theorem Registers.isSet_assign_true {r : Registers} {mask other : UInt8} (h : other &&& mask = 0) :
    (r.assign other true).isSet mask = r.isSet mask := by
  have hand : (r.status ||| other) &&& mask = r.status &&& mask := by
    have hdist : (r.status ||| other) &&& mask = (r.status &&& mask) ||| (other &&& mask) :=
      UInt8.toBitVec_inj.1 BitVec.and_or_distrib_right
    rw [hdist, h, UInt8.or_zero]
  simp only [isSet, assign, if_true, hand]

namespace Cpu

-- The opcode matrix is looked up in, and never evaluated, when a cycle is taken apart.
attribute [local irreducible] OpcodeMatrix.entries

theorem atBoundary_iff {cpu : Cpu} : cpu.atBoundary = true ↔ cpu.cyclesLeft = 0 := beq_iff_eq

theorem atBoundary_eq_false_iff {cpu : Cpu} : cpu.atBoundary = false ↔ cpu.cyclesLeft ≠ 0 :=
  beq_eq_false_iff_ne

/-! ### Requests -/

/-- A request for a maskable interrupt changes the latch for such interrupts at most. -/
theorem requestIrq_eq (cpu : Cpu) :
    cpu.requestIrq =
      { cpu with pendingIrq := cpu.pendingIrq || !cpu.registers.isSet Flag.irqDisable } := by
  unfold requestIrq
  cases cpu.registers.isSet Flag.irqDisable <;> simp

/-! ### The five cases -/

/-- The vector of the interrupt that the processor takes when it could start an instruction. -/
def nextInterrupt? (cpu : Cpu) : Option UInt16 :=
  if cpu.pendingNmi then some nmiVector
  else if cpu.pendingIrq && !cpu.registers.isSet Flag.irqDisable then some irqVector
  else none

/-- A waiting non-maskable interrupt is taken first. -/
theorem nextInterrupt?_eq_nmi_iff {cpu : Cpu} :
    cpu.nextInterrupt? = some nmiVector ↔ cpu.pendingNmi = true := by
  unfold nextInterrupt?
  cases cpu.pendingNmi <;> cases cpu.pendingIrq <;>
    cases cpu.registers.isSet Flag.irqDisable <;> decide

/-- A waiting maskable interrupt is taken if it is enabled. -/
theorem nextInterrupt?_eq_irq_iff {cpu : Cpu} :
    cpu.nextInterrupt? = some irqVector ↔ cpu.pendingNmi = false ∧ cpu.pendingIrq = true ∧
      cpu.registers.isSet Flag.irqDisable = false := by
  unfold nextInterrupt?
  cases cpu.pendingNmi <;> cases cpu.pendingIrq <;>
    cases cpu.registers.isSet Flag.irqDisable <;> decide

/-- Otherwise no interrupt is taken. -/
theorem nextInterrupt?_eq_none_iff {cpu : Cpu} :
    cpu.nextInterrupt? = none ↔ cpu.pendingNmi = false ∧
      (cpu.pendingIrq = false ∨ cpu.registers.isSet Flag.irqDisable = true) := by
  unfold nextInterrupt?
  cases cpu.pendingNmi <;> cases cpu.pendingIrq <;>
    cases cpu.registers.isSet Flag.irqDisable <;> decide

/-- The registers with which the processor starts something. -/
def ready (cpu : Cpu) : Registers := cpu.registers.assign Flag.unused true

/-- Starting something changes no flag that has a meaning. -/
theorem isSet_ready (cpu : Cpu) {mask : UInt8} (h : Flag.unused &&& mask = 0) :
    cpu.ready.isSet mask = cpu.registers.isSet mask := Registers.isSet_assign_true h

/-- What a cycle of the processor can do: its path, and what it leaves. -/
inductive TickPath (cpu : Cpu) : List Activity → Ticked → Prop
  /-- A halted processor reports its fault. -/
  | halted {fault : CpuFault} (hh : cpu.halted = some fault) : TickPath cpu [] ⟨cpu, .error fault⟩
  /-- An instruction in flight counts down. -/
  | countDown (hh : cpu.halted = none) (hc : cpu.cyclesLeft ≠ 0) :
    TickPath cpu [] ⟨cpu.countDown, .ok ()⟩
  /-- A non-maskable interrupt is taken. -/
  | nmi (hh : cpu.halted = none) (hc : cpu.cyclesLeft = 0)
    (hn : cpu.nextInterrupt? = some nmiVector) (low high : UInt8) :
    TickPath cpu
      (cpu.ready.entryPath nmiVector false low high ++
        [.event (.interruptTaken nmiVector (wordOf low high))])
      ⟨{ cpu with
          registers := cpu.ready.entered (wordOf low high), cyclesLeft := 6, pendingNmi := false
          totalCycles := cpu.totalCycles + 1 }, .ok ()⟩
  /-- A maskable interrupt is taken. -/
  | irq (hh : cpu.halted = none) (hc : cpu.cyclesLeft = 0)
    (hn : cpu.nextInterrupt? = some irqVector) (low high : UInt8) :
    TickPath cpu
      (cpu.ready.entryPath irqVector false low high ++
        [.event (.interruptTaken irqVector (wordOf low high))])
      ⟨{ cpu with
          registers := cpu.ready.entered (wordOf low high), cyclesLeft := 6, pendingIrq := false
          totalCycles := cpu.totalCycles + 1 }, .ok ()⟩
  /-- An instruction is executed. -/
  | executed (hh : cpu.halted = none) (hc : cpu.cyclesLeft = 0) (hn : cpu.nextInterrupt? = none)
    {opcode : UInt8} {i : Instruction} (hi : Instruction.ofOpcode? opcode = some i)
    {found acts : List Activity} {op : Operand} {r : Registers} {extra : Nat}
    (hop : (i.mode.resolve BusM.readByte (cpu.registers.pc + 1) cpu.registers.x
      cpu.registers.y).Follows found op)
    (hact : (i.mnemonic.effect.perform op
      (cpu.ready.jumpTo (cpu.registers.pc + 1 + UInt16.ofNat i.mode.operandLength))).Follows acts
      (r, extra)) :
    TickPath cpu
      (.read cpu.registers.pc opcode :: .event (.executed cpu.registers.pc i) :: (found ++ acts))
      ⟨{ cpu with
          registers := r, cyclesLeft := i.cycles + extra - 1
          totalCycles := cpu.totalCycles + 1 }, .ok ()⟩
  /-- An undocumented opcode halts the processor. -/
  | undocumented (hh : cpu.halted = none) (hc : cpu.cyclesLeft = 0)
    (hn : cpu.nextInterrupt? = none) {opcode : UInt8}
    (hi : Instruction.ofOpcode? opcode = none) :
    TickPath cpu
      [.read cpu.registers.pc opcode, .event (.unimplementedOpcode opcode cpu.registers.pc)]
      ⟨{ cpu with
          registers := cpu.ready
          halted := some (.unimplementedOpcode opcode cpu.registers.pc) },
        .error (.unimplementedOpcode opcode cpu.registers.pc)⟩

theorem finishTick_of_halted {cpu : Cpu} {fault : CpuFault} (h : cpu.halted = some fault) :
    cpu.finishTick = ⟨cpu, .error fault⟩ := by
  rw [finishTick, h]

theorem finishTick_of_running {cpu : Cpu} (h : cpu.halted = none) :
    cpu.finishTick = ⟨cpu.countDown, .ok ()⟩ := by
  rw [finishTick, h]

theorem follows_interrupt {cpu cpu' : Cpu} {vector : UInt16} {t : List Activity}
    (h : (cpu.interrupt vector).Follows t cpu') :
    ∃ low high, t = cpu.registers.entryPath vector false low high ++
        [.event (.interruptTaken vector (wordOf low high))] ∧
      cpu' = { cpu with registers := cpu.registers.entered (wordOf low high), cyclesLeft := 7 } := by
  simp only [interrupt, BusM.follows_bind, BusM.follows_tell, BusM.follows_pure] at h
  obtain ⟨_, _, _, rfl, hent, _, _, _, rfl, rfl, rfl, rfl⟩ := h
  obtain ⟨low, high, rfl, rfl⟩ := Registers.follows_enterInterrupt hent
  exact ⟨low, high, rfl, rfl⟩

/-- The interrupt that is due is decided before the unused flag is set, which has no influence on
it. -/
theorem start_eq (cpu : Cpu) : cpu.start =
    if cpu.nextInterrupt? = some nmiVector then
      interrupt { cpu with registers := cpu.ready, pendingNmi := false } nmiVector
    else if cpu.nextInterrupt? = some irqVector then
      interrupt { cpu with registers := cpu.ready, pendingIrq := false } irqVector
    else executeNext { cpu with registers := cpu.ready } := by
  have hirq : cpu.ready.isSet Flag.irqDisable = cpu.registers.isSet Flag.irqDisable :=
    cpu.isSet_ready (by decide)
  have hne : irqVector ≠ nmiVector := by decide
  -- Both sides ask for the same flag, before and after the unused one is set.
  unfold start nextInterrupt?
  rw [← hirq]
  cases hnmi : cpu.pendingNmi with
  | true => simp [ready]
  | false =>
    cases hp : cpu.pendingIrq && !cpu.ready.isSet Flag.irqDisable with
    | true => simp_all [ready]
    | false => simp_all [ready]

/-- The processor takes one of two interrupts or none. -/
theorem nextInterrupt?_eq_none {cpu : Cpu} (hnmi : cpu.nextInterrupt? ≠ some nmiVector)
    (hirq : cpu.nextInterrupt? ≠ some irqVector) : cpu.nextInterrupt? = none := by
  rw [ne_eq, nextInterrupt?_eq_nmi_iff, Bool.not_eq_true] at hnmi
  rw [ne_eq, nextInterrupt?_eq_irq_iff] at hirq
  rw [nextInterrupt?_eq_none_iff]
  refine ⟨hnmi, ?_⟩
  cases hp : cpu.pendingIrq with
  | false => exact .inl rfl
  | true => exact .inr (Bool.of_not_eq_false fun hset => hirq ⟨hnmi, hp, hset⟩)

theorem follows_execute {cpu cpu' : Cpu} {i : Instruction} {r : Registers} {t : List Activity}
    (h : (cpu.execute i r).Follows t cpu') :
    ∃ op found acts r' extra,
      (i.mode.resolve BusM.readByte r.pc r.x r.y).Follows found op ∧
      (i.mnemonic.effect.perform op
        (r.jumpTo (r.pc + UInt16.ofNat i.mode.operandLength))).Follows acts (r', extra) ∧
      t = found ++ acts ∧
      cpu' = { cpu with registers := r', cyclesLeft := i.cycles + extra } := by
  -- The operand is fetched, and then the operation carried out with it.
  obtain ⟨⟨op, r₁⟩, _, t₂, rfl, hfetch, hrest⟩ := BusM.follows_bind.1 h
  obtain ⟨_, found, _, rfl, hop, rfl, hpair⟩ := BusM.follows_bind.1 hfetch
  obtain ⟨⟨r', extra⟩, acts, _, rfl, hact, rfl, rfl⟩ := BusM.follows_bind.1 hrest
  cases hpair
  refine ⟨_, found, acts, r', extra, hop, hact, ?_, rfl⟩
  rw [List.append_nil, List.append_nil]

/-- What executing the next instruction does if its opcode is documented, and if it is not. -/
theorem follows_executeNext {cpu cpu' : Cpu} {t : List Activity}
    (h : cpu.executeNext.Follows t cpu') :
    (∃ opcode i op found acts r extra, Instruction.ofOpcode? opcode = some i ∧
      (i.mode.resolve BusM.readByte (cpu.registers.pc + 1) cpu.registers.x
        cpu.registers.y).Follows found op ∧
      (i.mnemonic.effect.perform op (cpu.registers.jumpTo
        (cpu.registers.pc + 1 + UInt16.ofNat i.mode.operandLength))).Follows acts (r, extra) ∧
      t = .read cpu.registers.pc opcode :: .event (.executed cpu.registers.pc i) ::
        (found ++ acts) ∧
      cpu' = { cpu with registers := r, cyclesLeft := i.cycles + extra }) ∨
    (∃ opcode, Instruction.ofOpcode? opcode = none ∧
      t = [.read cpu.registers.pc opcode, .event (.unimplementedOpcode opcode cpu.registers.pc)] ∧
      cpu' = cpu.halt (.unimplementedOpcode opcode cpu.registers.pc)) := by
  obtain ⟨⟨opcode, r⟩, _, t₂, rfl, hfetch, hrest⟩ := BusM.follows_bind.1 h
  obtain ⟨rfl, rfl⟩ := Registers.follows_fetch.1 hfetch
  dsimp only at hrest
  cases hi : Instruction.ofOpcode? opcode with
  | none =>
    rw [hi] at hrest
    obtain ⟨_, _, _, rfl, htell, rfl, rfl⟩ := BusM.follows_bind.1 hrest
    rw [BusM.follows_tell.1 htell]
    exact .inr ⟨opcode, hi, rfl, rfl⟩
  | some i =>
    rw [hi] at hrest
    obtain ⟨_, _, _, rfl, htell, hexec⟩ := BusM.follows_bind.1 hrest
    rw [BusM.follows_tell.1 htell]
    obtain ⟨op, found, acts, r, extra, hop, hact, rfl, rfl⟩ := follows_execute hexec
    exact .inl ⟨opcode, i, op, found, acts, r, extra, hi, hop, hact, rfl, rfl⟩

/-- **A path through a cycle is one of the five cases.** -/
theorem tickPath_of_follows {cpu : Cpu} {t : List Activity} {o : Ticked}
    (h : cpu.tick.Follows t o) : TickPath cpu t o := by
  unfold tick at h
  cases hh : cpu.halted with
  | some fault =>
    rw [hh, finishTick_of_halted hh] at h
    obtain ⟨rfl, rfl⟩ := h
    exact .halted hh
  | none =>
    rw [hh] at h
    by_cases hc : cpu.cyclesLeft = 0
    · -- Something is started, and the interrupt that is due decides what.
      have hb := atBoundary_iff.2 hc
      rw [if_pos (by rw [hb]; rfl), start_eq] at h
      obtain ⟨cpu', t₁, t₂, rfl, hstart, rfl, rfl⟩ := BusM.follows_bind.1 h
      rw [List.append_nil]
      split at hstart
      · next hn =>
        obtain ⟨low, high, rfl, rfl⟩ := follows_interrupt hstart
        rw [finishTick_of_running (by exact hh)]
        exact .nmi hh hc hn low high
      · split at hstart
        · next hn =>
          obtain ⟨low, high, rfl, rfl⟩ := follows_interrupt hstart
          rw [finishTick_of_running (by exact hh)]
          exact .irq hh hc hn low high
        · next h₁ h₂ =>
          have hn := nextInterrupt?_eq_none h₁ h₂
          obtain ⟨opcode, i, op, found, acts, r, extra, hi, hop, hact, rfl, rfl⟩ |
            ⟨opcode, hi, rfl, rfl⟩ := follows_executeNext hstart
          · rw [finishTick_of_running (by exact hh)]
            exact .executed hh hc hn hi hop hact
          · rw [finishTick_of_halted rfl]
            exact .undocumented hh hc hn hi
    · -- An instruction is in flight.
      have hb := atBoundary_eq_false_iff.2 hc
      rw [if_neg (by rw [hb]; exact Bool.false_ne_true), finishTick_of_running hh] at h
      obtain ⟨rfl, rfl⟩ := h
      exact .countDown hh hc

/-! ### Cycles on a bus -/

section OnABus

variable {β : Type} [Bus β]

/-- **On every bus, a cycle takes the path of one of the five cases.** -/
theorem tickPath_run (cpu : Cpu) (bus : β) :
    TickPath cpu (cpu.tick.path bus) (cpu.tick.run bus).value :=
  tickPath_of_follows (BusM.follows_path cpu.tick bus)

/-- An instruction in flight only counts down, and the bus is left alone. -/
theorem tick_of_busy {cpu : Cpu} (hh : cpu.halted = none) (hc : cpu.cyclesLeft ≠ 0) :
    cpu.tick = pure ⟨cpu.countDown, .ok ()⟩ := by
  have hb := atBoundary_eq_false_iff.2 hc
  rw [tick, hb, Bool.and_false, if_neg Bool.false_ne_true, finishTick_of_running hh]

/-- So do as many cycles as are left of it. -/
theorem run_ticks_of_busy {cpu : Cpu} (hh : cpu.halted = none) {k : Nat} (hk : k ≤ cpu.cyclesLeft)
    (bus : β) : (ticks k cpu).run bus =
      ⟨{ cpu with cyclesLeft := cpu.cyclesLeft - k, totalCycles := cpu.totalCycles + k }, bus,
        []⟩ := by
  induction k generalizing cpu with
  | zero => rfl
  | succ k ih =>
    have hc : cpu.cyclesLeft ≠ 0 := by omega
    have hleft : k ≤ cpu.countDown.cyclesLeft := Nat.le_sub_one_of_lt hk
    have hrest : (ticks k cpu.countDown).run bus = _ := ih hh hleft
    rw [ticks, tick_of_busy hh hc, pure_bind, hrest]
    simp only [countDown]
    congr 2
    · omega
    · omega

end OnABus

end Cpu

end Nes
