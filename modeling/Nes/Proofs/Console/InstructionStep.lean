import Nes.Proofs.Console.EntryAndReturn
import Nes.Proofs.Console.RunLength
import Nes.Proofs.Cpu.Ledger

/-!
# The length of an instruction step

An instruction step makes three kinds of clocks.  First it waits for the next clock that is due to
the processor.  In this clock the processor starts something, if nothing is in flight.  Then it
counts down, in every third clock, until it could start something else.  So the length of a step is
known from the phase of the clock and the cycles of what is started.

Nothing takes a single cycle, so a step never starts two things.  A processor that has halted is
always found between two instructions, so a step gives up with the first clock that is due to it.

## Main definitions

* `Console.wait`, `Console.due`: the clocks up to the next that is due to the processor, and the
  console before that.
* `Console.CountsDown`: what a number of clocks does in which the processor starts nothing.
* `Console.startedCharges`: what a number of instruction steps starts.

## Main statements

* `Cpu.charge_of_ok`: what is started takes two to seven cycles.
* `Console.waits`, `Console.countsDown`: the clocks before the start and those after it.
* `Console.stepInstruction_of_busy`, `Console.stepInstruction_of_started`,
  `Console.stepInstruction_of_fault`: the three ways in which a step goes.
* `Console.stepInstruction_length`: the length of a step, from every reachable console.
-/

namespace Nes

/-! ### What a cycle starts -/

namespace Cpu

variable {β : Type} [Bus β]

/-- A cycle that succeeds was made by a running processor. -/
theorem running_of_ok {cpu : Cpu} {bus : β} (hok : (cpu.tick.run bus).value.result = .ok ()) :
    cpu.halted = none := by
  cases hh : cpu.halted with
  | none => rfl
  | some fault =>
    rw [tick_of_halted hh] at hok
    exact absurd hok nofun

/-- **What is started takes two to seven cycles**: the time in the timetable, of which the first
cycle has passed. -/
theorem charge_of_ok {cpu : Cpu} {bus : β} (hc : cpu.cyclesLeft = 0)
    (hok : (cpu.tick.run bus).value.result = .ok ()) : ∃ charge,
      cpu.charge? bus = some charge ∧ cpu.expectedTime? bus = some charge.cycles ∧
      2 ≤ charge.cycles ∧ charge.cycles ≤ 7 ∧
      (cpu.tick.run bus).value.cpu.cyclesLeft + 1 = charge.cycles ∧
      (cpu.tick.run bus).value.cpu.totalCycles = cpu.totalCycles + 1 := by
  have hs : cpu.Starts := ⟨running_of_ok hok, hc⟩
  have htold := cpu.charged_tick bus
  have hcounted : (cpu.tick.run bus).value.cpu.totalCycles = cpu.totalCycles + 1 := by
    obtain ⟨-, htotal⟩ | ⟨fault, hfault, -⟩ := (cpu.tickPath_run bus).counted
    · exact htotal
    · exact absurd (hok.symm.trans hfault) nofun
  -- The first cycle is counted and the others are left.
  have hleft : ∀ charge, cpu.charge? bus = some charge →
      (cpu.tick.run bus).value.cpu.cyclesLeft + 1 = charge.cycles := by
    intro charge hcharge
    have hbalance := htold.balance
    rw [hcharge, hcounted, hc] at hbalance
    simp only [Option.toList_some, List.map_cons, List.map_nil, List.sum_singleton] at hbalance
    omega
  cases hn : cpu.nextInterrupt? with
  | some vector =>
    have hcharge := charge?_of_interrupt hs hn bus
    refine ⟨_, hcharge, ?_, ?_, ?_, hleft _ hcharge, hcounted⟩
    · rw [expectedTime?, hn]
      rfl
    · show 2 ≤ interruptCycles
      decide
    · show interruptCycles ≤ 7
      decide
  | none =>
    cases hi : Instruction.ofOpcode? (Bus.read bus cpu.registers.pc).1 with
    | some i =>
      have hcharge := charge?_of_documented hs hn hi
      have hmem := OpcodeMatrix.mem_documented hi
      have hmin := (OpcodeMatrix.cycles_bounds i hmem).1
      refine ⟨_, hcharge, ?_, Nat.le_trans hmin (Nat.le_add_right _ _),
        cycles_add_extraTime_le hmem _ _, hleft _ hcharge, hcounted⟩
      rw [expectedTime?, hn, if_neg (by simp)]
      dsimp only
      rw [hi, Option.bind_some, OpcodeMatrix.baseTime?_eq i hmem]
      rfl
    | none =>
      -- The processor would have halted.
      have hhalts := htold.halted _ _ (charge?_of_undocumented hs hn hi)
      rw [halted_tick hok] at hhalts
      exact absurd hhalts Bool.false_ne_true

end Cpu

namespace Console

/-! ### Waiting for a clock that is due -/

/-- The number of clocks up to the next that is due to the processor, that one not included. -/
def wait (c : Console) : Nat := (3 - c.systemClock % 3) % 3

/-- The console before the next clock that is due to the processor. -/
def due (c : Console) : Console := clocked c.wait c

theorem wait_le (c : Console) : c.wait ≤ 2 := by
  unfold wait
  omega

theorem clocksToStart_eq (c : Console) : c.clocksToStart = c.wait + 3 * c.cpu.cyclesLeft + 1 := rfl

/-- In a clock that is not due to it, the processor does nothing. -/
theorem cycle_of_not_due {c : Console} (h : c.systemClock % 3 ≠ 0) :
    c.cycle = ⟨⟨c.cpu, .ok ()⟩, c.dotted, []⟩ := by
  rw [cycle, cpuPart, if_neg fun hdue => h (c.cpuIsDue_iff.1 hdue)]

theorem cycle_of_due {c : Console} (h : c.systemClock % 3 = 0) :
    c.cycle = c.cpu.tick.run c.dotted := by
  rw [cycle, cpuPart, if_pos (c.cpuIsDue_iff.2 h)]

theorem idles_clock_of_not_due {c : Console} (h : c.systemClock % 3 ≠ 0) :
    c.Idles c.clock.console := by
  rw [clock_eq, cycle_of_not_due h]
  refine ⟨?_, rfl, rfl⟩
  dsimp only
  split
  · exact ⟨true, c.cpu.pendingIrq, rfl⟩
  · exact ⟨c.cpu.pendingNmi, c.cpu.pendingIrq, rfl⟩

/-- **The clocks before the next that is due** succeed, tell nothing and leave the processor as it
is, but for its latches. -/
theorem waits {c : Console} {n : Nat} (hn : n ≤ c.wait) :
    c.Completes n ∧ clockedEvents n c = [] ∧ c.Idles (clocked n c) := by
  induction n generalizing c with
  | zero => exact ⟨Completes.zero c, rfl, Idles.refl c⟩
  | succ n ih =>
    have hnot : c.systemClock % 3 ≠ 0 := by
      unfold wait at hn
      omega
    have hnext : n ≤ c.clock.console.wait := by
      unfold wait at hn ⊢
      rw [systemClock_clock]
      omega
    have hcycle := cycle_of_not_due hnot
    have hresult : c.clock.result = .ok () := by rw [clock_eq, hcycle]
    have htold : c.clock.events = [] := by rw [clock_eq, hcycle]; rfl
    obtain ⟨hrest, hsilent, hidle⟩ := ih hnext
    refine ⟨Completes.cons hresult hrest, ?_, (idles_clock_of_not_due hnot).trans hidle⟩
    rw [clockedEvents, htold, hsilent, List.append_nil]

theorem systemClock_due (c : Console) : c.due.systemClock % 3 = 0 := by
  rw [due, systemClock_clocked, wait]
  omega

/-- While the processor waits, it is as near to its next start as before. -/
theorem atBoundary_clocked {c : Console} (hc : c.cpu.cyclesLeft = 0) {n : Nat} (hn : n ≤ c.wait) :
    (clocked n c).cpu.atBoundary = true := by
  obtain ⟨-, -, hidle⟩ := waits hn
  exact Cpu.atBoundary_iff.2 (hidle.cyclesLeft.trans hc)

/-- The result of the clock that is due is that of the cycle. -/
theorem result_due (c : Console) :
    c.due.clock.result = (c.due.cpu.tick.run c.due.dotted).value.result :=
  congrArg (fun o : Outcome Cpu.Ticked AddressSpace => o.value.result)
    (cycle_of_due c.systemClock_due)

/-! ### Counting down -/

/-- What `n` clocks do in which the processor starts nothing: they succeed, tell nothing and bring
the next start nearer, and what is left to count is counted. -/
structure CountsDown (n : Nat) (c : Console) : Prop where
  completes : c.Completes n
  silent : clockedEvents n c = []
  nearer : (clocked n c).clocksToStart + n = c.clocksToStart
  balance : (clocked n c).cpu.totalCycles + (clocked n c).cpu.cyclesLeft =
    c.cpu.totalCycles + c.cpu.cyclesLeft

/-- A clock in which a running processor starts nothing. -/
theorem clock_of_no_start {c : Console} (hh : c.cpu.halted = none) (h : c.clocksToStart ≠ 1) :
    c.clock.result = .ok () ∧ c.clock.events = [] ∧
      c.clock.console.cpu.totalCycles + c.clock.console.cpu.cyclesLeft =
        c.cpu.totalCycles + c.cpu.cyclesLeft := by
  rw [cpu_clock_congr (·.totalCycles) (fun _ => rfl), cpu_clock_congr (·.cyclesLeft) fun _ => rfl]
  show c.cycle.value.result = .ok () ∧ c.cycle.events = [] ∧ _
  by_cases hdue : c.systemClock % 3 = 0
  · have hc : c.cpu.cyclesLeft ≠ 0 := by
      unfold clocksToStart at h
      omega
    rw [cycle_of_due hdue, Cpu.tick_of_busy hh hc]
    refine ⟨rfl, rfl, ?_⟩
    show c.cpu.totalCycles + 1 + (c.cpu.cyclesLeft - 1) = c.cpu.totalCycles + c.cpu.cyclesLeft
    omega
  · rw [cycle_of_not_due hdue]
    exact ⟨rfl, rfl, rfl⟩

/-- **A running processor counts down** until it starts something. -/
theorem countsDown {c : Console} (hh : c.cpu.halted = none) {n : Nat} (hn : n < c.clocksToStart) :
    CountsDown n c := by
  induction n generalizing c with
  | zero => exact ⟨Completes.zero c, rfl, rfl, rfl⟩
  | succ n ih =>
    have hone : c.clocksToStart ≠ 1 := by omega
    obtain ⟨hok, htold, hkept⟩ := clock_of_no_start hh hone
    have hnear := clocksToStart_clock hh hone
    have hrest := ih (halted_clock hh hok) (by omega)
    refine ⟨Completes.cons hok hrest.completes, ?_, ?_, hrest.balance.trans hkept⟩
    · rw [clockedEvents, htold, hrest.silent, List.append_nil]
    · have htail := hrest.nearer
      show (clocked n c.clock.console).clocksToStart + (n + 1) = c.clocksToStart
      omega

theorem atBoundary_iff_clocksToStart {c : Console} :
    c.cpu.atBoundary = true ↔ c.clocksToStart ≤ 3 := by
  have hwait := c.wait_le
  rw [Cpu.atBoundary_iff, clocksToStart_eq]
  omega

end Console

namespace Run

open Console

/-- **A run up to the end of what is in flight.** -/
theorem extend_of_busy {r : Run} (hr : r.fault = none) (hh : r.console.cpu.halted = none)
    (hc : r.console.cpu.cyclesLeft ≠ 0) {limit : Nat}
    (hlimit : 3 * r.console.cpu.cyclesLeft ≤ limit) :
    let n := r.console.wait + 1 + 3 * (r.console.cpu.cyclesLeft - 1)
    r.extend (fun d => d.cpu.atBoundary) limit =
        ⟨clocked n r.console, r.clocks + n, none, r.events⟩ ∧
      (clocked n r.console).cpu.atBoundary = true ∧
      (clocked n r.console).cpu.totalCycles =
        r.console.cpu.totalCycles + r.console.cpu.cyclesLeft := by
  intro n
  -- The distance to the next start shrinks by one with each clock, and nothing starts before it is
  -- used up.
  have hstart := r.console.clocksToStart_eq
  have hwait := r.console.wait_le
  have hn : n + 3 = r.console.clocksToStart := by omega
  have hdown := countsDown hh (n := n) (by omega)
  have hend : (clocked n r.console).cpu.atBoundary = true := by
    have hnear := hdown.nearer
    rw [atBoundary_iff_clocksToStart]
    omega
  refine ⟨?_, hend, ?_⟩
  · have hbusy : ∀ k < n, (clocked k r.console).cpu.atBoundary = false := by
      intro k hk
      have hnear := (countsDown hh (n := k) (by omega)).nearer
      rw [Bool.eq_false_iff, ne_eq, atBoundary_iff_clocksToStart]
      omega
    have hle : n ≤ limit := by omega
    rw [extend_of_completes hr hdown.completes hbusy hend hle, hdown.silent,
      Array.appendList_nil]
  · have hbalance := hdown.balance
    rw [Cpu.atBoundary_iff.1 hend] at hbalance
    exact hbalance

end Run

namespace Console

/-! ### One step -/

/-- An instruction step with other limits of its two runs. -/
def instructionRun (first second : Nat) (c : Console) : Run :=
  (c.runUntil (fun d => !d.cpu.atBoundary) first).extend (fun d => d.cpu.atBoundary) second

/-- What the next cycle of the processor starts, and what that costs. -/
def nextCharge? (c : Console) : Option Cpu.Charge := c.due.cpu.charge? c.due.dotted

section Step

variable {c : Console}

/-- **With something in flight**, a step ends it and starts nothing. -/
theorem instructionRun_of_busy (hh : c.cpu.halted = none) (hc : c.cpu.cyclesLeft ≠ 0)
    (first : Nat) {second : Nat} (hsecond : 3 * c.cpu.cyclesLeft ≤ second) :
    let n := c.wait + 1 + 3 * (c.cpu.cyclesLeft - 1)
    instructionRun first second c = ⟨clocked n c, n, none, #[]⟩ ∧
      (clocked n c).cpu.atBoundary = true := by
  intro n
  have hstop : (!c.cpu.atBoundary) = true := by
    rw [Cpu.atBoundary_eq_false_iff.2 hc]
    rfl
  have hstarted : c.runUntil (fun d => !d.cpu.atBoundary) first = { console := c } :=
    Run.extend_of_stop (r := { console := c }) hstop first
  obtain ⟨hrun, hend, -⟩ := Run.extend_of_busy (r := { console := c }) rfl hh hc hsecond
  rw [instructionRun, hstarted, hrun, Nat.zero_add]
  exact ⟨rfl, hend⟩

/-- **If the next cycle fails**, a step gives up with the clock of this cycle. -/
theorem instructionRun_of_fault (hc : c.cpu.cyclesLeft = 0) {fault : CpuFault}
    (hfault : (c.due.cpu.tick.run c.due.dotted).value.result = .error fault) {first : Nat}
    (hfirst : 3 ≤ first) (second : Nat) :
    instructionRun first second c =
      ⟨clocked (c.wait + 1) c, c.wait + 1, some fault, c.due.clock.events.toArray⟩ := by
  obtain ⟨hwait, hsilent, -⟩ := c.waits (Nat.le_refl c.wait)
  have hle := c.wait_le
  have hfails : c.FailsAt c.wait fault := ⟨hwait, c.result_due.trans hfault⟩
  rw [instructionRun, runUntil_of_fails hfails ?_ (by omega), Run.extend_of_fault rfl,
    clockedEvents_add, hsilent, clockedEvents_one, List.nil_append]
  · rfl
  · -- Up to the failing clock nothing has been started.
    intro k hk
    rw [atBoundary_clocked hc hk]
    rfl

/-- The run up to the start ends with the clock in which something is started. -/
theorem runUntil_start (hc : c.cpu.cyclesLeft = 0) (hok : c.due.clock.result = .ok ())
    (hstarted : c.due.clock.console.cpu.cyclesLeft ≠ 0) {first : Nat} (hfirst : 3 ≤ first) :
    c.runUntil (fun d => !d.cpu.atBoundary) first =
      ⟨c.due.clock.console, c.wait + 1, none, c.due.clock.events.toArray⟩ := by
  obtain ⟨hwait, hsilent, -⟩ := c.waits (Nat.le_refl c.wait)
  have hle := c.wait_le
  have hafter : clocked (c.wait + 1) c = c.due.clock.console := clocked_succ c.wait c
  rw [runUntil_of_completes (n := c.wait + 1) (hwait.succ hok) ?_ ?_ (by omega), hafter,
    clockedEvents_add, hsilent, clockedEvents_one, List.nil_append]
  · rfl
  · -- A clock that is not due to the processor starts nothing.
    intro k hk
    rw [atBoundary_clocked hc (Nat.le_of_lt_succ hk)]
    rfl
  · rw [hafter, Cpu.atBoundary_eq_false_iff.2 hstarted]
    rfl

/-- What the processor tells in the clock that is due is what it is charged for. -/
theorem events_due {charge : Cpu.Charge} (h : c.nextCharge? = some charge) :
    c.due.clock.events.filter Event.ofProcessor = [charge.event] := by
  -- The picture unit tells things, too, which are not of the processor.
  have hbus : ∀ (s : AddressSpace) addr value, ∀ e ∈ Bus.writeEvents s addr value,
      e.ofProcessor = false := by
    intro s addr value e he
    obtain rfl | ⟨a, rfl⟩ := AddressSpace.eq_of_mem_writeEvents he
    · rfl
    · rfl
  have hcycle : c.due.clock.events = (c.due.cpu.tick.run c.due.dotted).events :=
    congrArg Outcome.events (cycle_of_due c.systemClock_due)
  rw [hcycle, BusM.filter_events _ hbus, (c.due.cpu.charged_tick c.due.dotted).told_eq,
    show c.due.cpu.charge? c.due.dotted = some charge from h, Option.toList_some,
    List.map_singleton, List.filter_singleton, charge.ofProcessor_event]
  rfl

/-- What the next clock that is due leaves, if it starts something: what is charged for takes two to
seven cycles, of which one has passed. -/
structure Started (c : Console) (charge : Cpu.Charge) : Prop where
  charged : c.nextCharge? = some charge
  succeeds : c.due.clock.result = .ok ()
  time : c.due.cpu.expectedTime? c.due.dotted = some charge.cycles
  bounds : 2 ≤ charge.cycles ∧ charge.cycles ≤ 7
  left : c.due.clock.console.cpu.cyclesLeft + 1 = charge.cycles
  running : c.due.clock.console.cpu.halted = none
  counted : c.due.clock.console.cpu.totalCycles = c.cpu.totalCycles + 1

theorem started_of_ok (hc : c.cpu.cyclesLeft = 0)
    (hok : (c.due.cpu.tick.run c.due.dotted).value.result = .ok ()) :
    ∃ charge, c.Started charge := by
  obtain ⟨-, -, hidle⟩ := c.waits (Nat.le_refl c.wait)
  have hdue : c.due.cpu.cyclesLeft = 0 := hidle.cyclesLeft.trans hc
  obtain ⟨charge, hcharge, htime, hmin, hmax, hleft, htotal⟩ := Cpu.charge_of_ok hdue hok
  -- A request of the picture unit sets a latch at most, so both counters are those of the cycle.
  have hclock := c.result_due.trans hok
  have hsame : c.due.cpu.totalCycles = c.cpu.totalCycles := by
    obtain ⟨nmi, irq, hcpu⟩ := hidle.cpu
    rw [show c.due.cpu = _ from hcpu]
    rfl
  refine ⟨charge, hcharge, hclock, htime, ⟨hmin, hmax⟩, ?_,
    halted_clock (Cpu.running_of_ok hok) hclock, ?_⟩
  · rw [cpu_clock_congr (·.cyclesLeft) fun _ => rfl, cycle_of_due c.systemClock_due]
    exact hleft
  · rw [cpu_clock_congr (·.totalCycles) fun _ => rfl, cycle_of_due c.systemClock_due, ← hsame]
    exact htotal

/-- The clocks after the one that is due. -/
theorem clocked_due (m : Nat) : clocked m c.due.clock.console = clocked (c.wait + 1 + m) c := by
  rw [clocked_add, clocked_succ]
  rfl

/-- **If the next cycle succeeds**, a step starts one thing and ends it. -/
theorem instructionRun_of_started {charge : Cpu.Charge} (h : c.Started charge)
    (hc : c.cpu.cyclesLeft = 0) :
    let n := c.wait + 1 + 3 * (charge.cycles - 1)
    (∀ first ≥ 3, ∀ second ≥ 3 * (charge.cycles - 1), instructionRun first second c =
      ⟨clocked n c, n, none, c.due.clock.events.toArray⟩) ∧
    (clocked n c).cpu.atBoundary = true ∧
    (clocked n c).cpu.totalCycles = c.cpu.totalCycles + charge.cycles := by
  obtain ⟨d, hd⟩ : ∃ d, d = c.due.clock.console := ⟨_, rfl⟩
  have hleft : d.cpu.cyclesLeft = charge.cycles - 1 := by
    rw [hd, ← h.left]
    rfl
  have hbusy : d.cpu.cyclesLeft ≠ 0 := by
    have htwo := h.bounds.1
    omega
  -- The next clock is the one after that which is due, so it takes two more to the next of these.
  have hphase : d.wait = 2 := by
    have hdue := c.systemClock_due
    rw [hd, wait, systemClock_clock]
    omega
  have hlength : c.wait + 1 + (d.wait + 1 + 3 * (d.cpu.cyclesLeft - 1)) =
      c.wait + 1 + 3 * (charge.cycles - 1) := by
    omega
  -- The rest of the run is that of a console with something in flight.
  have hrest (second : Nat) (hsecond : 3 * d.cpu.cyclesLeft ≤ second) := Run.extend_of_busy
    (r := ⟨d, c.wait + 1, none, c.due.clock.events.toArray⟩) rfl (hd ▸ h.running) hbusy hsecond
  dsimp only at hrest
  rw [hlength, hd, clocked_due, ← hd, hlength] at hrest
  obtain ⟨-, hend, htotal⟩ := hrest _ (Nat.le_refl _)
  refine ⟨?_, hend, ?_⟩
  · intro first hfirst second hsecond
    rw [instructionRun, runUntil_start hc h.succeeds (hd ▸ hbusy) hfirst, ← hd,
      (hrest second (hleft ▸ hsecond)).1]
  · rw [htotal, hd, h.counted, ← h.left]
    omega

end Step

/-! ### Steps -/

section Steps

variable {c : Console}

/-- A step is one of these runs.  The limit of the second depends on what the first starts. -/
theorem stepInstruction_eq (c : Console) : c.stepInstruction = instructionRun clocksPerCycle
    (clocksPerCycle * (c.runUntil (fun d => !d.cpu.atBoundary)
      clocksPerCycle).console.cpu.cyclesLeft) c := rfl

theorem stepInstruction_of_busy (hh : c.cpu.halted = none) (hc : c.cpu.cyclesLeft ≠ 0) :
    let n := c.wait + 1 + 3 * (c.cpu.cyclesLeft - 1)
    c.stepInstruction = ⟨clocked n c, n, none, #[]⟩ := by
  have hstop : (!c.cpu.atBoundary) = true := by
    rw [Cpu.atBoundary_eq_false_iff.2 hc]
    rfl
  have hstarted : c.runUntil (fun d => !d.cpu.atBoundary) clocksPerCycle = { console := c } :=
    Run.extend_of_stop (r := { console := c }) hstop clocksPerCycle
  rw [stepInstruction_eq, hstarted]
  exact (instructionRun_of_busy hh hc _ (Nat.le_refl _)).1

theorem stepInstruction_of_fault (hc : c.cpu.cyclesLeft = 0) {fault : CpuFault}
    (hfault : (c.due.cpu.tick.run c.due.dotted).value.result = .error fault) :
    c.stepInstruction =
      ⟨clocked (c.wait + 1) c, c.wait + 1, some fault, c.due.clock.events.toArray⟩ :=
  instructionRun_of_fault hc hfault (Nat.le_refl 3) _

theorem stepInstruction_of_started {charge : Cpu.Charge} (h : c.Started charge)
    (hc : c.cpu.cyclesLeft = 0) :
    let n := c.wait + 1 + 3 * (charge.cycles - 1)
    c.stepInstruction = ⟨clocked n c, n, none, c.due.clock.events.toArray⟩ := by
  have hleft : c.due.clock.console.cpu.cyclesLeft = charge.cycles - 1 := by
    rw [← h.left]
    rfl
  have hbusy : c.due.clock.console.cpu.cyclesLeft ≠ 0 := by
    have htwo := h.bounds.1
    omega
  have hfirst : 3 ≤ clocksPerCycle := Nat.le_refl 3
  rw [stepInstruction_eq, runUntil_start hc h.succeeds hbusy hfirst]
  dsimp only
  rw [hleft]
  exact (instructionRun_of_started h hc).1 3 (Nat.le_refl 3) _ (Nat.le_refl _)

/-- A processor with something in flight has not halted. -/
theorem Reachable.running_of_busy (h : c.Reachable) (hc : c.cpu.cyclesLeft ≠ 0) :
    c.cpu.halted = none := by
  cases hh : c.cpu.halted with
  | none => rfl
  | some fault => exact absurd (h.cpu.cyclesLeft_of_halted (Option.isSome_of_eq_some hh)) hc

/-- Nothing is in flight if the cycle in the next clock that is due fails: it would be counted
down. -/
theorem Reachable.cyclesLeft_of_fault (h : c.Reachable) {fault : CpuFault}
    (hfault : (c.due.cpu.tick.run c.due.dotted).value.result = .error fault) :
    c.cpu.cyclesLeft = 0 := by
  by_contra hc
  obtain ⟨-, -, hidle⟩ := c.waits (Nat.le_refl c.wait)
  have hh : c.due.cpu.halted = none := hidle.halted.trans (h.running_of_busy hc)
  have hbusy : c.due.cpu.cyclesLeft ≠ 0 := hidle.cyclesLeft.trans_ne hc
  rw [Cpu.tick_of_busy hh hbusy] at hfault
  exact absurd hfault nofun

/-- What the next step does: it ends what is in flight, starts something, or fails. -/
theorem Reachable.step_cases (h : c.Reachable) :
    (c.cpu.halted = none ∧ c.cpu.cyclesLeft ≠ 0) ∨
    (c.cpu.cyclesLeft = 0 ∧ ∃ charge, c.Started charge) ∨
    (c.cpu.cyclesLeft = 0 ∧ ∃ fault,
      (c.due.cpu.tick.run c.due.dotted).value.result = .error fault) := by
  -- What is in flight decides, and if nothing is, the result of the next cycle does.
  by_cases hc : c.cpu.cyclesLeft = 0
  · cases hresult : (c.due.cpu.tick.run c.due.dotted).value.result with
    | ok => exact .inr (.inl ⟨hc, started_of_ok hc hresult⟩)
    | error fault => exact .inr (.inr ⟨hc, fault, rfl⟩)
  · exact .inl ⟨h.running_of_busy hc, hc⟩

/-- The limits have no influence on a step. -/
theorem Reachable.instructionRun_eq (h : c.Reachable) {first second : Nat} (hfirst : 3 ≤ first)
    (hsecond : 18 ≤ second) : instructionRun first second c = c.stepInstruction := by
  -- In each case the step ends before the limits: no more than six cycles are left at any time.
  obtain ⟨hh, hc⟩ | ⟨hc, charge, hstarted⟩ | ⟨hc, fault, hfault⟩ := h.step_cases
  · have hsix := h.sound.cyclesLeft_le
    rw [stepInstruction_of_busy hh hc]
    exact (instructionRun_of_busy hh hc _ (by omega)).1
  · have hseven := hstarted.bounds.2
    rw [stepInstruction_of_started hstarted hc]
    exact (instructionRun_of_started hstarted hc).1 first hfirst second (by omega)
  · rw [stepInstruction_of_fault hc hfault]
    exact instructionRun_of_fault hc hfault hfirst second

/-- A step consists of 21 clocks at most. -/
theorem Reachable.stepInstruction_clocks_le (h : c.Reachable) :
    c.stepInstruction.clocks ≤ 21 ∧
      c.stepInstruction.console.systemClock = c.systemClock + c.stepInstruction.clocks := by
  have hwait := c.wait_le
  obtain ⟨hh, hc⟩ | ⟨hc, charge, hstarted⟩ | ⟨hc, fault, hfault⟩ := h.step_cases
  · have hsix := h.sound.cyclesLeft_le
    rw [stepInstruction_of_busy hh hc]
    exact ⟨by dsimp only; omega, systemClock_clocked _ c⟩
  · have hseven := hstarted.bounds.2
    rw [stepInstruction_of_started hstarted hc]
    exact ⟨by dsimp only; omega, systemClock_clocked _ c⟩
  · rw [stepInstruction_of_fault hc hfault]
    exact ⟨by dsimp only; omega, systemClock_clocked _ c⟩

/-- What a number of steps starts. -/
def startedCharges : Nat → Console → List Cpu.Charge
  | 0, _ => []
  | j + 1, c => c.nextCharge?.toList ++ startedCharges j c.stepInstruction.console

/-- The first of a row of steps that succeed starts something.  The next begins between two
instructions, and two clocks before one that is due. -/
theorem drives_head {d : Console} {l : List Drive} {n : Nat} (hc : c.cpu.cyclesLeft = 0)
    (h : Drives c (.stepInstruction :: l) n d) : ∃ charge m,
      c.nextCharge? = some charge ∧ n + 2 = c.wait + 3 * charge.cycles + m ∧
      Drives c.stepInstruction.console l m d ∧
      c.stepInstruction.console.cpu.cyclesLeft = 0 ∧ c.stepInstruction.console.wait = 2 ∧
      c.stepInstruction.console.cpu.totalCycles = c.cpu.totalCycles + charge.cycles := by
  cases h with
  | @cons _ _ _ _ m ha hl =>
    have hok : c.stepInstruction.fault = none := ha
    have hrest : Drives c.stepInstruction.console l m d := hl
    -- The step has succeeded, so its cycle has.
    cases hresult : (c.due.cpu.tick.run c.due.dotted).value.result with
    | error fault =>
      rw [stepInstruction_of_fault hc hresult] at hok
      exact absurd hok nofun
    | ok =>
      obtain ⟨charge, hstarted⟩ := started_of_ok hc hresult
      have hstep := stepInstruction_of_started hstarted hc
      obtain ⟨-, hend, htotal⟩ := instructionRun_of_started hstarted hc
      have hmin := hstarted.bounds.1
      have hclocks : (c.drive .stepInstruction).clocks = c.wait + 1 + 3 * (charge.cycles - 1) :=
        congrArg Run.clocks hstep
      refine ⟨charge, m, hstarted.charged, by omega, hrest, ?_⟩
      rw [hstep]
      refine ⟨Cpu.atBoundary_iff.1 hend, ?_, htotal⟩
      -- The step ends one clock after one that is due.
      have hdue := c.systemClock_due
      rw [due, systemClock_clocked] at hdue
      rw [wait, systemClock_clocked]
      omega

/-- **The length of a row of steps**, from between two instructions.  All of them start something,
and what they start is charged for. -/
theorem drives_stepInstruction (j : Nat) {d : Console} {n : Nat} (hc : c.cpu.cyclesLeft = 0)
    (h : Drives c (.replicate (j + 1) .stepInstruction) n d) :
    let ledger := startedCharges (j + 1) c
    ledger.length = j + 1 ∧ n + 2 = c.wait + 3 * (ledger.map Cpu.Charge.cycles).sum ∧
      d.cpu.totalCycles = c.cpu.totalCycles + (ledger.map Cpu.Charge.cycles).sum := by
  -- By induction on the number of steps: those after the first begin two clocks before a due one.
  induction j generalizing c n with
  | zero =>
    obtain ⟨charge, m, hcharge, hn, hrest, -, -, htotal⟩ := drives_head hc h
    cases hrest
    rw [startedCharges, hcharge, startedCharges]
    exact ⟨rfl, hn, htotal⟩
  | succ j ih =>
    obtain ⟨charge, m, hcharge, hn, hrest, hc', hwait, htotal⟩ := drives_head hc h
    obtain ⟨hlength, hm, hsum⟩ := ih hc' hrest
    rw [startedCharges, hcharge]
    simp only [Option.toList_some, List.singleton_append, List.length_cons, List.map_cons,
      List.sum_cons]
    refine ⟨congrArg (· + 1) hlength, ?_, ?_⟩
    · omega
    · omega

/-- The first of the steps after a reset waits for nothing. -/
theorem drives_stepInstruction_reset (c : Console) {j n : Nat} (hj : 0 < j) {d : Console}
    (h : Drives c.reset.1 (.replicate j .stepInstruction) n d) :
    let ledger := startedCharges j c.reset.1
    ledger.length = j ∧ n + 2 = 3 * (ledger.map Cpu.Charge.cycles).sum ∧
      d.cpu.totalCycles = c.cpu.totalCycles + (ledger.map Cpu.Charge.cycles).sum := by
  obtain ⟨j, rfl⟩ : ∃ i, j = i + 1 := ⟨j - 1, by omega⟩
  obtain ⟨start, hreset⟩ := c.cpu.run_reset c.space
  have hcpu : c.reset.1.cpu = _ := hreset
  have hc : c.reset.1.cpu.cyclesLeft = 0 := by rw [hcpu]
  have htotal : c.reset.1.cpu.totalCycles = c.cpu.totalCycles := by rw [hcpu]
  have hphase : c.reset.1.wait = 0 := by
    have hzero : c.reset.1.systemClock = 0 := rfl
    rw [wait, hzero]
  obtain ⟨hlength, hn, hsum⟩ := drives_stepInstruction j hc h
  rw [hphase, Nat.zero_add] at hn
  rw [htotal] at hsum
  exact ⟨hlength, hn, hsum⟩

end Steps

/-- **The length of an instruction step.**  Let a reachable console be given, and consider the next
clock that is due to its processor.

* If nothing is in flight and the cycle in this clock succeeds, the step makes the clocks up to it
  and three for each further cycle of what is started.  It tells that one thing is started, which
  takes two to seven cycles, and ends between two instructions.
* If something is in flight, the step makes the clocks for the cycles that are left of it.  It
  starts nothing.
* If the cycle fails, the step ends with it, and with its fault.
* So a step makes 21 clocks at most, which are counted as the console does, and the limits of its
  runs are never what ends it.
* From a reset, a row of steps that succeed makes three clocks for each cycle of what they start,
  less two. -/
theorem stepInstruction_length {c : Console} (h : c.Reachable) :
    let ahead := (3 - c.systemClock % 3) % 3
    let next := clocked ahead c
    let cycle := next.cpu.tick.run next.dotted
    let r := c.stepInstruction
    (c.cpu.atBoundary = true → cycle.value.result = .ok () → ∃ charge,
      next.cpu.charge? next.dotted = some charge ∧
      next.cpu.expectedTime? next.dotted = some charge.cycles ∧
      (2 ≤ charge.cycles ∧ charge.cycles ≤ 7) ∧
      r.fault = none ∧ r.clocks = ahead + 1 + 3 * (charge.cycles - 1) ∧
      r.console = clocked r.clocks c ∧ r.console.cpu.atBoundary = true ∧
      r.events.toList.filter Event.ofProcessor = [charge.event]) ∧
    (∀ k > 0, c.cpu.cyclesLeft = k →
      r.fault = none ∧ r.clocks = ahead + 1 + 3 * (k - 1) ∧
      r.console = clocked r.clocks c ∧ r.console.cpu.atBoundary = true ∧ r.events = #[]) ∧
    (∀ fault, cycle.value.result = .error fault →
      r.fault = some fault ∧ r.clocks = ahead + 1 ∧ r.console = clocked r.clocks c) ∧
    (r.clocks ≤ 21 ∧ r.console.systemClock = c.systemClock + r.clocks) ∧
    (∀ first ≥ clocksPerCycle, ∀ second ≥ 18,
      (c.runUntil (fun d => !d.cpu.atBoundary) first).extend (fun d => d.cpu.atBoundary) second =
        r) ∧
    ∀ j > 0, ∀ n d, Drives c.reset.1 (.replicate j .stepInstruction) n d →
      let ledger := startedCharges j c.reset.1
      ledger.length = j ∧ n + 2 = 3 * (ledger.map Cpu.Charge.cycles).sum ∧
      d.cpu.totalCycles = c.cpu.totalCycles + (ledger.map Cpu.Charge.cycles).sum := by
  intro ahead next cycle r
  refine ⟨?_, ?_, ?_, h.stepInstruction_clocks_le,
    fun first hfirst second hsecond => h.instructionRun_eq hfirst hsecond,
    fun j hj n d hdrives => drives_stepInstruction_reset c hj hdrives⟩
  · intro hb hok
    have hc := Cpu.atBoundary_iff.1 hb
    obtain ⟨charge, hstarted⟩ := started_of_ok hc hok
    obtain ⟨-, hend, -⟩ := instructionRun_of_started hstarted hc
    have hr : r = _ := stepInstruction_of_started hstarted hc
    rw [hr]
    exact ⟨charge, hstarted.charged, hstarted.time, hstarted.bounds, rfl, rfl, rfl, hend,
      events_due hstarted.charged⟩
  · intro k hk hleft
    have hc : c.cpu.cyclesLeft ≠ 0 := by omega
    have hh := h.running_of_busy hc
    have hend := (instructionRun_of_busy hh hc 0 (Nat.le_refl _)).2
    have hr : r = _ := stepInstruction_of_busy hh hc
    rw [hr, ← hleft]
    exact ⟨rfl, rfl, rfl, hend, rfl⟩
  · -- Nothing can be in flight if the cycle fails.
    intro fault hfault
    have hr : r = _ := stepInstruction_of_fault (h.cyclesLeft_of_fault hfault) hfault
    rw [hr]
    exact ⟨rfl, rfl, rfl⟩

/-- In a program memory full of the opcode `0xFE`, the first step counts up a byte.  This takes
seven cycles, which is as long as anything takes. -/
theorem stepInstruction_length_of_increment : ∃ c : Console, c.Reachable ∧
    c.stepInstruction.fault = none ∧ c.stepInstruction.clocks = 19 ∧
    c.stepInstruction.console.cpu.atBoundary = true ∧
    c.stepInstruction.events.toList.filter Event.ofProcessor =
      [.executed 0xFEFE ⟨0xFE, .inc, .absoluteX, 7⟩] := by
  obtain ⟨c, hreachable, -, -, hzero, hcpu, hpeek⟩ := exists_reachable_filled 0xFE
  have hpc : c.cpu.registers.pc = 0xFEFE := by
    rw [hcpu]
    decide
  have hnext : clocked ((3 - c.systemClock % 3) % 3) c = c := by rw [hzero]; rfl
  -- The program counter has gone through the vector, whose bytes are opcodes, too.
  have hi : Instruction.ofOpcode? (Bus.read c.dotted c.cpu.registers.pc).1 =
      some ⟨0xFE, .inc, .absoluteX, 7⟩ := by
    have hplain : IsPlain 0xFEFE := by decide
    have hread : (c.dotted.read c.cpu.registers.pc).1 = 0xFE := by
      rw [hpc, c.fst_read_dotted hplain, hpeek 0xFEFE hplain, if_neg (by decide)]
    show Instruction.ofOpcode? (c.dotted.read c.cpu.registers.pc).1 = _
    rw [hread]
    decide +kernel
  have hb : c.cpu.atBoundary = true := by rw [hcpu]; rfl
  have hs : c.cpu.Starts := ⟨by rw [hcpu], Cpu.atBoundary_iff.1 hb⟩
  have hn : c.cpu.nextInterrupt? = none := by rw [hcpu]; rfl
  have hok : (c.cpu.tick.run c.dotted).value.result = .ok () := by
    rw [Cpu.run_tick_of_documented hs.1 hs.2 hn hi]
  have hcharge := Cpu.charge?_of_documented hs hn hi
  obtain ⟨hstart, -⟩ := stepInstruction_length hreachable
  rw [hnext] at hstart
  obtain ⟨charge, hcharged, -, -, hfault, hclocks, -, hend, htold⟩ := hstart hb hok
  obtain rfl := Option.some.inj (hcharged.symm.trans hcharge)
  refine ⟨c, hreachable, hfault, ?_, hend, ?_⟩
  · rw [hclocks, hzero]
    rfl
  · rw [htold, hpc]
    rfl

end Console

end Nes
