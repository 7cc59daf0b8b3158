import Nes.Bus.Flat
import Nes.Proofs.Console.Mirrors
import Nes.Proofs.Console.Operation
import Nes.Proofs.Cpu.Halt

/-!
# A console with a halted processor

The clock of a console goes on when its processor has halted.  The picture unit draws its dots and
requests its interrupts, which stay in the latch, and every third clock fails with the same fault.
A run gives up at the first of these, which is never more than three clocks away.

Nothing but a reset ends this.  Short of taking the processor out, every other operation leaves it
halted.

## Main definitions

* `Console.clocked`: a number of clocks, failing ones included.
* `Operation.isDrive`, `Operation.replacesCpu`: what makes a console go on, and what ends a halt.
* `Console.Idles`: what goes on while the processor is halted.

## Main statements

* `Console.clock_of_halted`, `Run.extend_of_halted`: one clock, and a run.
* `Console.stepInstruction_of_halted`, `Console.stepFrame_of_halted`: steps give up.
* `Console.halted_until_reset`: a halt lasts until the reset.
-/

namespace Nes

/-- The operations that make a console go on, and requests for interrupts. -/
def Operation.isDrive : Operation → Bool
  | clock | stepInstruction | stepFrame | tick | requestNmi | requestIrq => true
  | _ => false

/-- The operations that start the processor over, or do something to it while it is taken out. -/
def Operation.replacesCpu : Operation → Bool
  | reset | mapCpu _ => true
  | _ => false

namespace Console

/-- A number of clocks, failing ones included. -/
def clocked : Nat → Console → Console
  | 0, c => c
  | n + 1, c => clocked n c.clock.console

/-! ### One clock -/

/-- **A clock of a console whose processor has halted.** -/
theorem clock_of_halted {c : Console} {fault : CpuFault} (h : c.cpu.halted = some fault) :
    c.clock =
      { console :=
          { cpu := if c.space.ppu.dot.nmiRequest then c.cpu.requestNmi else c.cpu
            space := { c.space with ppu := { c.space.ppu.dot with nmiRequest := false } }
            systemClock := c.systemClock + 1 }
        result := if c.systemClock % 3 = 0 then .error fault else .ok ()
        events := [] } := by
  have hcycle : c.cycle =
      ⟨⟨c.cpu, if c.systemClock % 3 = 0 then .error fault else .ok ()⟩, c.dotted, []⟩ := by
    unfold cycle cpuPart
    rw [Cpu.tick_of_halted h]
    simp only [cpuIsDue_iff]
    split <;> rfl
  rw [clock_eq, hcycle]
  rfl

/-- What goes on while the processor is halted: of the processor only the latches change, and the
memories stay as they are. -/
structure Idles (c d : Console) : Prop where
  cpu : ∃ nmi irq, d.cpu = c.cpu.withLatches nmi irq
  ram : d.space.ram = c.space.ram
  cartridge : d.space.cartridge = c.space.cartridge

namespace Idles

theorem refl (c : Console) : c.Idles c := ⟨⟨_, _, rfl⟩, rfl, rfl⟩

theorem trans {c d e : Console} (h₁ : c.Idles d) (h₂ : d.Idles e) : c.Idles e where
  cpu := by
    obtain ⟨nmi, irq, hd⟩ := h₁.cpu
    obtain ⟨nmi', irq', he⟩ := h₂.cpu
    exact ⟨nmi', irq', by rw [he, hd]; rfl⟩
  ram := h₂.ram.trans h₁.ram
  cartridge := h₂.cartridge.trans h₁.cartridge

variable {c d : Console} (h : c.Idles d)

include h

theorem halted : d.cpu.halted = c.cpu.halted := by
  obtain ⟨nmi, irq, hcpu⟩ := h.cpu
  rw [hcpu]
  rfl

theorem cyclesLeft : d.cpu.cyclesLeft = c.cpu.cyclesLeft := by
  obtain ⟨nmi, irq, hcpu⟩ := h.cpu
  rw [hcpu]
  rfl

end Idles

section Halted

variable {c : Console} {fault : CpuFault} (hh : c.cpu.halted = some fault)

include hh

theorem idles_clock : c.Idles c.clock.console := by
  rw [clock_of_halted hh]
  refine ⟨?_, rfl, rfl⟩
  dsimp only
  split
  · exact ⟨true, c.cpu.pendingIrq, rfl⟩
  · exact ⟨c.cpu.pendingNmi, c.cpu.pendingIrq, rfl⟩

theorem idles_clocked (n : Nat) : c.Idles (clocked n c) := by
  induction n generalizing c with
  | zero => exact Idles.refl c
  | succ n ih =>
    have hone := idles_clock hh
    exact hone.trans (ih (hone.halted.trans hh))

end Halted

end Console

/-! ### Runs -/

namespace Run

theorem extend_of_fault {stop : Console → Bool} {limit : Nat} {r : Run}
    (h : r.fault.isSome = true) : r.extend stop limit = r := by
  cases limit with
  | zero => rfl
  | succ limit => rw [extend, h, Bool.true_or, if_pos rfl]

/-- The next cycle of the processor is a clock away at least. -/
theorem eq_of_no_clock {r : Run} {fault : CpuFault} (hr : r.fault = none) :
    r = ⟨Console.clocked 0 r.console, r.clocks + 0,
      if 0 = r.console.clocksToStart then some fault else none, r.events⟩ := by
  have hpos : 0 ≠ r.console.clocksToStart := by
    unfold Console.clocksToStart
    omega
  rw [if_neg hpos, ← hr]
  rfl

/-- **A run of a console whose processor has halted.**  It makes a number of clocks that does not
exceed those to the next cycle of the processor, and fails with that cycle.  If it ends before, the
condition holds or the limit is reached. -/
theorem extend_of_halted (stop : Console → Bool) (limit : Nat) {r : Run} {fault : CpuFault}
    (hh : r.console.cpu.halted = some fault) (hc : r.console.cpu.cyclesLeft = 0)
    (hr : r.fault = none) : ∃ n ≤ r.console.clocksToStart,
      r.extend stop limit = ⟨Console.clocked n r.console, r.clocks + n,
        if n = r.console.clocksToStart then some fault else none, r.events⟩ ∧
      (n = r.console.clocksToStart ∨ stop (Console.clocked n r.console) = true ∨ n = limit) := by
  -- By induction on the limit: each clock brings the next cycle nearer.
  induction limit generalizing r with
  | zero => exact ⟨0, Nat.zero_le _, eq_of_no_clock hr, .inr (.inr rfl)⟩
  | succ limit ih =>
    rw [extend, hr, Option.isSome_none, Bool.false_or]
    by_cases hstop : stop r.console = true
    · rw [if_pos hstop]
      exact ⟨0, Nat.zero_le _, eq_of_no_clock hr, .inr (.inl hstop)⟩
    · rw [if_neg hstop]
      have hresult : faultOf r.console.clock.result =
          if r.console.systemClock % 3 = 0 then some fault else none := by
        rw [Console.clock_of_halted hh]
        dsimp only
        split <;> rfl
      have htold : r.events ++ r.console.clock.events = r.events := by
        rw [Console.clock_of_halted hh]
        simp
      rw [clock_eq, hresult, htold]
      have hleft := (Console.idles_clock hh).cyclesLeft.trans hc
      have hnear : r.console.systemClock % 3 ≠ 0 →
          r.console.clock.console.clocksToStart + 1 = r.console.clocksToStart := by
        unfold Console.clocksToStart
        rw [Console.systemClock_clock, hleft, hc]
        omega
      by_cases hdue : r.console.systemClock % 3 = 0
      · have hone : 1 = r.console.clocksToStart := by
          unfold Console.clocksToStart
          omega
        rw [if_pos hdue, extend_of_fault rfl]
        exact ⟨1, Nat.le_of_eq hone, by rw [if_pos hone]; rfl, .inl hone⟩
      · rw [if_neg hdue]
        obtain ⟨n, hle, hrun, hend⟩ := ih (r := ⟨r.console.clock.console, r.clocks + 1, none,
          r.events⟩) ((Console.idles_clock hh).halted.trans hh) hleft rfl
        dsimp only at hle hrun hend
        have hsame : n + 1 = r.console.clocksToStart ↔
            n = r.console.clock.console.clocksToStart := by
          rw [← hnear hdue]
          omega
        refine ⟨n + 1, by rw [← hnear hdue]; omega, ?_, ?_⟩
        · rw [hrun, Nat.add_right_comm, Nat.add_assoc]
          simp only [hsame]
          rfl
        · rw [hsame]
          exact hend.imp_right (Or.imp_right (congrArg (· + 1)))

end Run

namespace Console

section Halted

variable {c : Console} {fault : CpuFault} (hh : c.cpu.halted = some fault)
  (hc : c.cpu.cyclesLeft = 0)

include hc in
theorem clocksToStart_le_three : c.clocksToStart ≤ 3 := by
  unfold clocksToStart
  omega

include hh hc

/-- **Running an instruction gives up.** -/
theorem stepInstruction_of_halted : c.stepInstruction =
    ⟨clocked c.clocksToStart c, c.clocksToStart, some fault, #[]⟩ := by
  obtain ⟨n, hle, hrun, hend⟩ := Run.extend_of_halted (fun c => !c.cpu.atBoundary)
    clocksPerCycle (r := { console := c }) hh hc rfl
  have hthree := clocksToStart_le_three hc
  have hn : n = c.clocksToStart := by
    rcases hend with hend | hstop | hlimit
    · exact hend
    · -- The processor stays between two instructions.
      have hleft := (idles_clocked hh n).cyclesLeft.trans hc
      rw [Cpu.atBoundary, hleft] at hstop
      exact absurd hstop Bool.false_ne_true
    · exact Nat.le_antisymm hle (hlimit ▸ hthree)
  rw [if_pos hn, hn, Nat.zero_add] at hrun
  unfold stepInstruction runUntil
  dsimp only
  rw [hrun, Run.extend_of_fault rfl]

/-- **Running a frame gives up**, unless the frame is completed before the next cycle of the
processor. -/
theorem stepFrame_of_halted : ∃ n ≤ 3,
    c.stepFrame = ⟨clocked n c.takeFrameComplete.2, n, some fault, #[]⟩ ∨
    (clocked n c.takeFrameComplete.2).space.ppu.frameComplete = true ∧
      c.stepFrame = ⟨(clocked n c.takeFrameComplete.2).takeFrameComplete.2, n, none, #[]⟩ := by
  obtain ⟨n, hle, hrun, hend⟩ := Run.extend_of_halted (·.space.ppu.frameComplete)
    Beam.frameLength (r := { console := c.takeFrameComplete.2 }) hh hc rfl
  have hthree : n ≤ 3 := Nat.le_trans hle (clocksToStart_le_three hc)
  refine ⟨n, hthree, ?_⟩
  unfold stepFrame runUntil
  dsimp only at hrun hend ⊢
  rw [hrun, Nat.zero_add]
  by_cases hn : n = c.takeFrameComplete.2.clocksToStart
  · left
    rw [if_pos hn]
    rfl
  · right
    rcases hend with hend | hstop | hlimit
    · exact absurd hend hn
    · rw [if_neg hn]
      exact ⟨hstop, rfl⟩
    · rw [hlimit, Beam.frameLength] at hthree
      omega

theorem idles_stepFrame : c.Idles c.stepFrame.console := by
  -- Taking the flag of a completed frame leaves the processor and the memories alone.
  have htaken : c.Idles c.takeFrameComplete.2 := ⟨⟨_, _, rfl⟩, rfl, rfl⟩
  obtain ⟨n, -, hrun | ⟨-, hrun⟩⟩ := stepFrame_of_halted hh hc
  · rw [hrun]
    exact htaken.trans (idles_clocked (htaken.halted.trans hh) n)
  · have hclocked := htaken.trans (idles_clocked (htaken.halted.trans hh) n)
    rw [hrun]
    exact ⟨hclocked.cpu, hclocked.ram, hclocked.cartridge⟩

/-- **What the console does while its processor is halted.**  It tells nothing, and its faults are
the one fault. -/
theorem operate_of_halted {o : Operation} (ho : o.isDrive = true) :
    c.Idles (c.operate o).console ∧ (c.operate o).answer.events = [] ∧
      ((c.operate o).answer.fault = none ∨ (c.operate o).answer.fault = some fault) := by
  -- One case for each operation that drives the console; the others are excluded at the end.
  cases o with
  | clock =>
    have hclock := clock_of_halted hh
    refine ⟨idles_clock hh, congrArg Clocked.events hclock, ?_⟩
    show faultOf c.clock.result = none ∨ faultOf c.clock.result = some fault
    rw [hclock]
    dsimp only
    split
    · exact .inr rfl
    · exact .inl rfl
  | stepInstruction =>
    have hstep := stepInstruction_of_halted hh hc
    refine ⟨?_, ?_, ?_⟩
    · show c.Idles c.stepInstruction.console
      rw [hstep]
      exact idles_clocked hh _
    · show c.stepInstruction.events.toList = []
      rw [hstep]
    · show c.stepInstruction.fault = none ∨ c.stepInstruction.fault = some fault
      rw [hstep]
      exact .inr rfl
  | stepFrame =>
    refine ⟨idles_stepFrame hh hc, ?_, ?_⟩
    · show c.stepFrame.events.toList = []
      obtain ⟨n, -, hrun | ⟨-, hrun⟩⟩ := stepFrame_of_halted hh hc <;> rw [hrun]
    · show c.stepFrame.fault = none ∨ c.stepFrame.fault = some fault
      obtain ⟨n, -, hrun | ⟨-, hrun⟩⟩ := stepFrame_of_halted hh hc
      · exact .inr (by rw [hrun])
      · exact .inl (by rw [hrun])
  | tick =>
    unfold operate
    dsimp only
    rw [Cpu.tick_of_halted hh]
    exact ⟨Idles.refl c, rfl, .inr rfl⟩
  | requestNmi => exact ⟨⟨⟨true, c.cpu.pendingIrq, rfl⟩, rfl, rfl⟩, rfl, .inl rfl⟩
  | requestIrq =>
    -- The request is kept or dropped, so only the latch can have changed.
    obtain ⟨irq, hirq⟩ := c.cpu.requestIrq_withLatches c.cpu.pendingNmi c.cpu.pendingIrq
    exact ⟨⟨⟨c.cpu.pendingNmi, irq, hirq⟩, rfl, rfl⟩, rfl, .inl rfl⟩
  | _ => exact absurd ho Bool.false_ne_true

/-- **Nothing but a reset ends a halt.** -/
theorem cpu_operate_of_halted {o : Operation} (ho : o.replacesCpu = false) :
    ∃ nmi irq, (c.operate o).console.cpu = c.cpu.withLatches nmi irq := by
  cases hdrive : o.isDrive with
  | true => exact (operate_of_halted hh hc hdrive).1.cpu
  | false =>
    -- What remains does not reach the processor.
    refine ⟨c.cpu.pendingNmi, c.cpu.pendingIrq, ?_⟩
    cases o with
    | clock | stepInstruction | stepFrame | tick | requestNmi | requestIrq =>
      exact absurd hdrive.symm Bool.false_ne_true
    | reset | mapCpu => exact absurd ho.symm Bool.false_ne_true
    | _ => rfl

theorem cpu_operateAll_of_halted {ops : List Operation} (hops : ∀ o ∈ ops, o.replacesCpu = false) :
    ∃ nmi irq, (c.operateAll ops).cpu = c.cpu.withLatches nmi irq := by
  -- The latches differ from operation to operation, so the invariant does not fix them.
  refine operateAll_preserves (P := fun d => ∃ nmi irq, d.cpu = c.cpu.withLatches nmi irq) ?_
    ⟨_, _, rfl⟩
  rintro o ho d ⟨nmi, irq, hd⟩
  have hhalted : d.cpu.halted = some fault := by
    rw [hd]
    exact hh
  have hleft : d.cpu.cyclesLeft = 0 := by
    rw [hd]
    exact hc
  obtain ⟨nmi', irq', hafter⟩ := cpu_operate_of_halted hhalted hleft (hops o ho)
  exact ⟨nmi', irq', by rw [hafter, hd]; rfl⟩

/-- The console goes on in this way through any number of operations. -/
theorem operateAll_of_halted {ops : List Operation} (hops : ∀ o ∈ ops, o.isDrive = true) :
    c.Idles (c.operateAll ops) ∧
      ∀ a ∈ c.answers ops, a.events = [] ∧ (a.fault = none ∨ a.fault = some fault) := by
  -- By induction on the operations: a halted processor that waits for nothing stays one.
  induction ops generalizing c with
  | nil => exact ⟨Idles.refl c, fun a ha => absurd ha List.not_mem_nil⟩
  | cons o ops ih =>
    obtain ⟨hidles, hanswer⟩ := operate_of_halted hh hc (hops o (List.mem_cons_self ..))
    obtain ⟨hrest, hanswers⟩ := ih (hidles.halted.trans hh) (hidles.cyclesLeft.trans hc)
      fun o' ho' => hops o' (List.mem_cons_of_mem _ ho')
    refine ⟨hidles.trans hrest, fun a ha => ?_⟩
    rcases List.mem_cons.1 ha with rfl | ha
    · exact hanswer
    · exact hanswers a ha

end Halted

/-! ### From the halt to the reset -/

/-- What a processor is when it has halted. -/
def stoppedAt (cpu : Cpu) (fault : CpuFault) : Cpu :=
  { cpu with registers := cpu.ready, halted := some fault }

/-- **The clock in which the processor meets an undocumented opcode.** -/
theorem clock_of_undocumented {c : Console} (hrun : c.cpu.halted = none)
    (hleft : c.cpu.cyclesLeft = 0) (hnext : c.cpu.nextInterrupt? = none)
    (hdue : c.systemClock % 3 = 0) {opcode : UInt8}
    (hread : (c.dotted.read c.cpu.registers.pc).1 = opcode)
    (hop : Instruction.ofOpcode? opcode = none) :
    let fault := CpuFault.unimplementedOpcode opcode c.cpu.registers.pc
    c.clock.result = .error fault ∧
      c.clock.events = [.unimplementedOpcode opcode c.cpu.registers.pc] ∧
      (∃ nmi irq, c.clock.console.cpu = (stoppedAt c.cpu fault).withLatches nmi irq) ∧
      c.clock.console.space.ram = c.space.ram ∧
      c.clock.console.space.cartridge = c.space.cartridge := by
  have hcycle : c.cycle = c.cpu.tick.run c.dotted := by
    rw [cycle, cpuPart, if_pos (c.cpuIsDue_iff.2 hdue)]
  rw [Cpu.run_tick_of_undocumented hrun hleft hnext hread hop] at hcycle
  dsimp only
  rw [clock_eq, hcycle]
  refine ⟨rfl, rfl, ?_, c.dotted.ram_read _, c.dotted.cartridge_read _⟩
  dsimp only
  split
  · exact ⟨true, c.cpu.pendingIrq, rfl⟩
  · exact ⟨c.cpu.pendingNmi, c.cpu.pendingIrq, rfl⟩

/-- **A halt lasts until the reset.**  Let a processor, whatever its state and the bus, begin a cycle
by fetching an undocumented opcode.

* The cycle fails with the opcode and its address.  It makes no other access than the fetch, and
  tells one thing, which is an error.  Of the registers only the flag without a meaning may change;
  no cycle is left and none is counted.
* After any cycles and requests for interrupts, on any bus, the bus and the registers are as they
  were, the next cycle fails in the same way and makes no access, and a reset starts over without a
  fault and without waiting interrupts.
* In a console the clock of this cycle fails, and work RAM and cartridge stay as they are.
* From then on, whatever clocks, cycles, steps and requests follow, registers, work RAM and cartridge
  stay as they are, nothing is told, and there is no other fault.  The next clock draws a dot, passes
  on an interrupt that the picture unit requests, and fails if it is the third.  Running an
  instruction gives up after three clocks at most.  So does running a frame, unless the frame is
  completed in these clocks.
* Other operations leave the processor halted, too.  A reset starts it over. -/
theorem halted_until_reset {β : Type} [Bus β] {cpu : Cpu} {bus : β} {opcode : UInt8}
    (hrun : cpu.halted = none) (hstart : cpu.atBoundary = true)
    (hnext : cpu.nextInterrupt? = none) (hread : (Bus.read bus cpu.registers.pc).1 = opcode)
    (hop : Instruction.ofOpcode? opcode = none) :
    let pc := cpu.registers.pc
    let fault := CpuFault.unimplementedOpcode opcode pc
    let halting := cpu.tick.run bus
    let stopped := halting.value.cpu
    (halting.value.result = .error fault ∧
      halting.accesses = [.read pc opcode] ∧
      halting.events = [.unimplementedOpcode opcode pc] ∧
      (∀ e ∈ halting.events, e.level = .error) ∧
      stopped.registers = { cpu.registers with status := cpu.registers.status ||| Flag.unused } ∧
      stopped.cyclesLeft = 0 ∧ stopped.totalCycles = cpu.totalCycles) ∧
    (∀ {γ : Type} [Bus γ] (b : γ) (l : List Cpu.Signal),
      let o := (Cpu.signals l stopped).run b
      o.bus = b ∧ o.trace = [] ∧
      o.value.registers = stopped.registers ∧ o.value.totalCycles = cpu.totalCycles ∧
      o.value.tick.run b = ⟨⟨o.value, .error fault⟩, b, []⟩ ∧
      ∃ start, (o.value.reset.run b).value =
        { registers := { pc := start }, totalCycles := cpu.totalCycles }) ∧
    (∀ c : Console, c.cpu = cpu → c.systemClock % 3 = 0 → (c.dotted.read pc).1 = opcode →
      c.clock.result = .error fault ∧ c.clock.events = [.unimplementedOpcode opcode pc] ∧
      (∃ nmi irq, c.clock.console.cpu = stopped.withLatches nmi irq) ∧
      c.clock.console.space.ram = c.space.ram ∧
      c.clock.console.space.cartridge = c.space.cartridge) ∧
    (∀ c : Console, (∃ nmi irq, c.cpu = stopped.withLatches nmi irq) →
      (∀ ops : List Operation, (∀ o ∈ ops, o.isDrive = true) →
        let d := c.operateAll ops
        d.cpu.registers = stopped.registers ∧ d.cpu.totalCycles = cpu.totalCycles ∧
        d.space.ram = c.space.ram ∧ d.space.cartridge = c.space.cartridge ∧
        (∀ a ∈ c.answers ops, a.events = [] ∧ (a.fault = none ∨ a.fault = some fault)) ∧
        d.clock =
          { console :=
              { cpu := if d.space.ppu.dot.nmiRequest then d.cpu.requestNmi else d.cpu
                space := { d.space with ppu := { d.space.ppu.dot with nmiRequest := false } }
                systemClock := d.systemClock + 1 }
            result := if d.systemClock % 3 = 0 then .error fault else .ok ()
            events := [] } ∧
        (∃ n ≤ 3, d.stepInstruction = ⟨clocked n d, n, some fault, #[]⟩) ∧
        (∃ n ≤ 3, d.stepFrame = ⟨clocked n d.takeFrameComplete.2, n, some fault, #[]⟩ ∨
          (clocked n d.takeFrameComplete.2).space.ppu.frameComplete = true ∧
            d.stepFrame = ⟨(clocked n d.takeFrameComplete.2).takeFrameComplete.2, n, none, #[]⟩)) ∧
      (∀ ops : List Operation, (∀ o ∈ ops, o.replacesCpu = false) →
        (c.operateAll ops).cpu.halted = some fault ∧
        ∃ start, (c.operateAll ops).reset.1.cpu =
          { registers := { pc := start }, totalCycles := cpu.totalCycles })) := by
  -- The failing cycle is known as a whole, so everything after it starts from this outcome.
  have hleft := Cpu.atBoundary_iff.1 hstart
  dsimp only
  rw [Cpu.run_tick_of_undocumented hrun hleft hnext hread hop]
  refine ⟨⟨rfl, rfl, rfl, ?_, rfl, hleft, rfl⟩, ?_, ?_, ?_⟩
  · intro e he
    rw [List.mem_singleton.1 he]
    rfl
  · -- Cycles and requests, on whatever bus comes next
    intro γ _ b l
    have hstopped : (stoppedAt cpu (.unimplementedOpcode opcode cpu.registers.pc)).halted =
        some (.unimplementedOpcode opcode cpu.registers.pc) := rfl
    exact Cpu.signals_of_halted hstopped l b
  · -- The clock of a console in which this cycle falls
    rintro c rfl hdue hread
    exact clock_of_undocumented hrun hleft hnext hdue hread hop
  · -- A console from then on: its latches may have been set, and nothing else of the processor
    -- differs.
    rintro c ⟨nmi, irq, hcpu⟩
    have hh : c.cpu.halted = some (.unimplementedOpcode opcode cpu.registers.pc) := by rw [hcpu]; rfl
    have hc : c.cpu.cyclesLeft = 0 := by rw [hcpu]; exact hleft
    constructor
    · -- Operations that drive it keep the memories, too, and the two runs that follow give up.
      intro ops hops
      obtain ⟨hidles, hanswers⟩ := operateAll_of_halted hh hc hops
      obtain ⟨nmi', irq', hafter⟩ := hidles.cpu
      have hh' := hidles.halted.trans hh
      have hc' := hidles.cyclesLeft.trans hc
      refine ⟨?_, ?_, hidles.ram, hidles.cartridge, hanswers, clock_of_halted hh',
        ⟨_, clocksToStart_le_three hc', stepInstruction_of_halted hh' hc'⟩,
        stepFrame_of_halted hh' hc'⟩
      · rw [hafter, hcpu]
        rfl
      · rw [hafter, hcpu]
        rfl
    · -- Other operations may change the memories, so what is known is about the processor alone.
      intro ops hops
      obtain ⟨nmi', irq', hafter⟩ := cpu_operateAll_of_halted hh hc hops
      have htotal : (c.operateAll ops).cpu.totalCycles = cpu.totalCycles := by
        rw [hafter, hcpu]
        rfl
      obtain ⟨start, hreset⟩ := (c.operateAll ops).cpu.run_reset (c.operateAll ops).space
      rw [htotal] at hreset
      refine ⟨?_, start, hreset⟩
      rw [hafter]
      exact hh

/-- In a memory full of the opcode `0x02`, the first cycle halts the processor, and so it stays in
spite of an interrupt. -/
theorem halted_until_reset_filled : ∃ (cpu : Cpu) (bus : FlatMemory),
    (cpu.halted = none ∧ cpu.atBoundary = true ∧ cpu.nextInterrupt? = none ∧
      (Bus.read bus cpu.registers.pc).1 = 0x02 ∧ Instruction.ofOpcode? 0x02 = none) ∧
    let stopped := (cpu.tick.run bus).value.cpu
    let later := ((Cpu.signals [.nmi, .tick] stopped).run bus).value
    (cpu.tick.run bus).value.result = .error (.unimplementedOpcode 0x02 0x8000) ∧
      later.tick.run bus = ⟨⟨later, .error (.unimplementedOpcode 0x02 0x8000)⟩, bus, []⟩ := by
  obtain ⟨bus, hread⟩ : ∃ bus : FlatMemory, (Bus.read bus 0x8000).1 = 0x02 :=
    ⟨.filled 0x02, FlatMemory.get_filled 0x02 0x8000⟩
  -- The processor is kept as a variable, so that no cycle is evaluated.
  obtain ⟨cpu, hcpu⟩ : ∃ cpu : Cpu, cpu = { registers := { pc := 0x8000 } } := ⟨_, rfl⟩
  have hpc : cpu.registers.pc = 0x8000 := by rw [hcpu]
  have hrun : cpu.halted = none := by rw [hcpu]
  have hstart : cpu.atBoundary = true := by rw [hcpu]; rfl
  have hnext : cpu.nextInterrupt? = none := by rw [hcpu]; rfl
  have hop : Instruction.ofOpcode? 0x02 = none := by decide +kernel
  rw [← hpc] at hread ⊢
  obtain ⟨⟨hresult, -⟩, hsignals, -⟩ := halted_until_reset hrun hstart hnext hread hop
  obtain ⟨-, -, -, -, htick, -⟩ := hsignals bus [.nmi, .tick]
  exact ⟨cpu, bus, ⟨hrun, hstart, hnext, hread, hop⟩, hresult, htick⟩

end Console

end Nes
