import Nes.Proofs.Checked.Processor
import Nes.Proofs.Console.Synchrony

/-!
# The machine in fixed widths

A clock counts up: the dots of the beam, the frames, the cycles of the processor and the clocks
themselves.  The beam stays in its frame.  The other three counters are words of sixty-four bits
that nothing keeps small, but none of them gains more than one in a clock.  So no clock is trapped
before 2 to the power of 64 clocks are made, whatever else is done in between.

The number of clocks in a run is the difference of the clock counter after it and before it.

## Main definitions

* `Console.Counted`: no counter has passed a number.
* `Checked.clock`, `Checked.stepInstruction`, `Checked.stepFrame`, `Checked.reset`.

## Main statements

* `Console.Counted.clock`, `Console.Counted.extend`: no counter gains more than one in a clock.
* `Checked.clock_eq`, `Checked.stepInstruction_eq`, `Checked.stepFrame_eq`, `Checked.reset_eq`: as
  long as clocks can be counted, nothing is trapped.
* `Checked.clock_trapped`, `Checked.extend_trapped`, `Checked.stepFrame_trapped`: what cannot be
  counted is trapped.
-/

namespace Nes

/-! ### Counters -/

namespace Console

/-- No counter of the console has passed a number. -/
structure Counted (n : Nat) (c : Console) : Prop where
  /-- The frames. -/
  frameCount : c.space.ppu.frameCount ≤ n
  /-- The cycles of the processor. -/
  totalCycles : c.cpu.totalCycles ≤ n
  /-- The clocks since the last reset. -/
  systemClock : c.systemClock ≤ n

/-- **No counter gains more than one in a clock.** -/
theorem Counted.clock {n : Nat} {c : Console} (h : c.Counted n) :
    c.clock.console.Counted (n + 1) where
  frameCount := by
    rw [frameCount_clock]
    exact Nat.add_le_add h.frameCount (Bool.toNat_le _)
  totalCycles := by
    obtain ⟨-, htotal⟩ | ⟨fault, -, -, -, htotal⟩ := c.counted_clock
    · have hone : (if c.systemClock % 3 = 0 then 1 else 0) ≤ 1 := by split <;> decide
      rw [htotal]
      exact Nat.add_le_add h.totalCycles hone
    · rw [htotal]
      exact Nat.le_add_right_of_le h.totalCycles
  systemClock := Nat.add_le_add_right h.systemClock 1

theorem Counted.takeFrameComplete {n : Nat} {c : Console} (h : c.Counted n) :
    c.takeFrameComplete.2.Counted n := ⟨h.frameCount, h.totalCycles, h.systemClock⟩

/-- Accesses count nothing. -/
theorem Counted.withSpace {n : Nat} {c : Console} (h : c.Counted n) {space : AddressSpace}
    (hclock : space.ppu.clockwork = c.space.ppu.clockwork) :
    Counted n { c with space := space } where
  frameCount := by
    have hframes : space.ppu.frameCount = c.space.ppu.frameCount := congrArg (·.2.2.2) hclock
    exact hframes ▸ h.frameCount
  totalCycles := h.totalCycles
  systemClock := h.systemClock

/-- A reset counts nothing, and the clocks are counted anew. -/
theorem Counted.reset {n : Nat} {c : Console} (h : c.Counted n) : c.reset.1.Counted n where
  frameCount :=
    (h.withSpace (AddressSpace.clockwork_run c.cpu.reset c.space)).frameCount
  totalCycles := h.totalCycles
  systemClock := Nat.zero_le n

theorem Counted.writeAll {n : Nat} {c : Console} (h : c.Counted n)
    (writes : List (UInt16 × UInt8)) : (c.writeAll writes).1.Counted n :=
  h.withSpace
    (AddressSpace.writeAll_preserves (·.ppu.clockwork) AddressSpace.clockwork_write c.space writes)

/-- **No counter gains more than one in each clock of a run.** -/
theorem Counted.extend {n : Nat} {r : Run} (h : r.console.Counted (n + r.clocks))
    (stop : Console → Bool) (limit : Nat) :
    (r.extend stop limit).console.Counted (n + (r.extend stop limit).clocks) := by
  induction limit generalizing r with
  | zero => exact h
  | succ limit ih =>
    unfold Run.extend
    split
    · exact h
    · exact ih (r := r.clock) h.clock

theorem Counted.stepInstruction {n : Nat} {c : Console} (h : c.Counted n) :
    c.stepInstruction.console.Counted (n + c.stepInstruction.clocks) :=
  Counted.extend (Counted.extend (r := { console := c }) h _ _) _ _

theorem Counted.stepFrame {n : Nat} {c : Console} (h : c.Counted n) :
    c.stepFrame.console.Counted (n + c.stepFrame.clocks) := by
  have hrun : (c.takeFrameComplete.2.runUntil (·.space.ppu.frameComplete)
      Beam.frameLength).console.Counted _ :=
    Counted.extend (r := { console := c.takeFrameComplete.2 }) h.takeFrameComplete _ _
  unfold Console.stepFrame
  dsimp only
  split
  · exact hrun
  · exact hrun.takeFrameComplete

/-- A frame step makes the clocks of its run. -/
theorem clocks_stepFrame (c : Console) : c.stepFrame.clocks =
    (c.takeFrameComplete.2.runUntil (·.space.ppu.frameComplete) Beam.frameLength).clocks := by
  unfold Console.stepFrame
  dsimp only
  split <;> rfl

/-- The clocks of a frame step are counted in its run. -/
theorem systemClock_runFrame (c : Console) :
    (c.takeFrameComplete.2.runUntil (·.space.ppu.frameComplete)
      Beam.frameLength).console.systemClock = c.systemClock + c.stepFrame.clocks := by
  rw [c.takeFrameComplete.2.runUntil_clocks, systemClock_clocked, clocks_stepFrame]
  rfl

end Console

namespace Checked

open Console (Counted Sound)

/-! ### Clocks -/

/-- Resets the processor and the count of clocks. -/
def reset (c : Console) : Checked (Console × List Event) := do
  let o ← run (sure c.cpu.reset) c.space
  pure (⟨o.value, o.bus, 0⟩, o.events ++ [.busReset o.value.registers.pc])

/-- One cycle of a processor on its address space, if it is due. -/
def cpuPart (due : Bool) (cpu : Cpu) (space : AddressSpace) :
    Checked (Outcome Cpu.Ticked AddressSpace) :=
  if due then run (tick cpu) space else pure ⟨⟨cpu, .ok ()⟩, space, []⟩

/-- One clock. -/
def clock (c : Console) : Checked Clocked := do
  let ppu ← dot c.space.ppu
  let o ← cpuPart c.cpuIsDue c.cpu { c.space with ppu := ppu }
  let (requested, ppu) := o.bus.ppu.takeNmiRequest
  let systemClock ← unsigned 64 (c.systemClock + 1)
  pure
    { console :=
        { cpu := if requested then o.value.cpu.requestNmi else o.value.cpu
          space := { o.bus with ppu := ppu }
          systemClock := systemClock }
      result := o.value.result
      events := o.events }

theorem reset_eq (c : Console) : reset c = .ok c.reset := by
  rw [reset, run_sure]
  rfl

/-- **A clock is not trapped** as long as another clock can be counted. -/
theorem clock_eq {n : Nat} {c : Console} (hframe : c.space.ppu.beam.InFrame) (h : c.Counted n)
    (hn : n + 1 < 2 ^ 64) : clock c = .ok c.clock := by
  have hframes : c.space.ppu.frameCount + 1 < 2 ^ 64 :=
    Nat.lt_of_le_of_lt (Nat.add_le_add_right h.frameCount 1) hn
  have hcycles : c.cpu.totalCycles + 1 < 2 ^ 64 :=
    Nat.lt_of_le_of_lt (Nat.add_le_add_right h.totalCycles 1) hn
  have hclocks : c.systemClock + 1 < 2 ^ 64 :=
    Nat.lt_of_le_of_lt (Nat.add_le_add_right h.systemClock 1) hn
  have hpart : cpuPart c.cpuIsDue c.cpu c.dotted = .ok c.cycle := by
    unfold cpuPart Console.cycle Console.cpuPart
    split
    · rw [tick_eq hcycles, run_sure]
    · rfl
  have hdotted : { c.space with ppu := c.space.ppu.dot } = c.dotted := rfl
  rw [clock, dot_eq hframe hframes, ok_bind, hdotted, hpart, ok_bind]
  dsimp only
  rw [unsigned_eq hclocks]
  rfl

/-- **A clock is trapped** if the clocks have used up their counter. -/
theorem clock_trapped {c : Console} (h : 2 ^ 64 ≤ c.systemClock + 1) :
    ∃ trap, clock c = .error trap := by
  unfold clock
  cases dot c.space.ppu with
  | error trap => exact ⟨trap, rfl⟩
  | ok ppu =>
    rw [ok_bind]
    cases cpuPart c.cpuIsDue c.cpu { c.space with ppu := ppu } with
    | error trap => exact ⟨trap, rfl⟩
    | ok o =>
      -- Whatever came before, the clock itself has to be counted.
      rw [ok_bind]
      dsimp only
      rw [unsigned_eq_error h]
      exact ⟨_, rfl⟩

/-! ### Runs -/

/-- The run with one more clock. -/
def clockRun (r : Run) : Checked Run := do
  let clocked ← clock r.console
  pure ⟨clocked.console, r.clocks + 1, faultOf clocked.result, r.events ++ clocked.events⟩

/-- The run continued until a condition holds or a clock fails.  The limit is no number in the
machine. -/
def extend (stop : Console → Bool) : (limit : Nat) → Run → Checked Run
  | 0, r => pure r
  | limit + 1, r =>
    if r.fault.isSome || stop r.console then pure r
    else do
      let r ← clockRun r
      extend stop limit r

/-- Clocks until a condition holds or a clock fails. -/
def runUntil (c : Console) (stop : Console → Bool) (limit : Nat) : Checked Run :=
  extend stop limit { console := c }

/-- The run with the number of its clocks, which is not asked for if it failed. -/
def countClocks (start : Nat) (r : Run) : Checked Run :=
  if r.fault.isSome then pure r
  else do
    let clocks ← sub r.console.systemClock start
    pure { r with clocks := clocks }

/-- Clocks until the processor has started and completed one instruction or interrupt entry, or
only until the one in flight is complete. -/
def stepInstruction (c : Console) : Checked Run := do
  let started ← runUntil c (fun c => !c.cpu.atBoundary) Console.clocksPerCycle
  let limit := Console.clocksPerCycle * started.console.cpu.cyclesLeft
  let r ← extend (fun c => c.cpu.atBoundary) limit started
  countClocks c.systemClock r

/-- Clocks until the picture unit completes the current frame. -/
def stepFrame (c : Console) : Checked Run := do
  let r ← runUntil c.takeFrameComplete.2 (·.space.ppu.frameComplete) Beam.frameLength
  let r ← countClocks c.systemClock r
  if r.fault.isSome then pure r else pure { r with console := r.console.takeFrameComplete.2 }

/-- **A run is not trapped** as long as its clocks can be counted. -/
theorem extend_eq {n : Nat} {stop : Console → Bool} {limit : Nat} {r : Run}
    (hsound : r.console.Sound) (hcount : r.console.Counted (n + r.clocks))
    (hn : n + (r.extend stop limit).clocks < 2 ^ 64) :
    extend stop limit r = .ok (r.extend stop limit) := by
  induction limit generalizing r with
  | zero => rfl
  | succ limit ih =>
    unfold extend
    unfold Run.extend at hn ⊢
    by_cases hstop : (r.fault.isSome || stop r.console) = true
    · rw [if_pos hstop, if_pos hstop]
      rfl
    · rw [if_neg hstop] at hn
      rw [if_neg hstop, if_neg hstop]
      -- One more clock can be counted, because it is one of those that are made.
      have hone : r.clocks + 1 ≤ (r.clock.extend stop limit).clocks :=
        Run.clocks_le_extend stop limit r.clock
      have hclock : clockRun r = .ok r.clock := by
        rw [clockRun, clock_eq hsound.inFrame hcount (by omega)]
        rfl
      rw [hclock]
      exact ih hsound.clock hcount.clock hn

theorem runUntil_eq {n : Nat} {c : Console} {stop : Console → Bool} {limit : Nat}
    (hsound : c.Sound) (hcount : c.Counted n) (hn : n + (c.runUntil stop limit).clocks < 2 ^ 64) :
    runUntil c stop limit = .ok (c.runUntil stop limit) :=
  extend_eq (r := { console := c }) hsound hcount hn

theorem countClocks_eq {start : Nat} {r : Run} (h : r.console.systemClock = start + r.clocks) :
    countClocks start r = .ok r := by
  unfold countClocks
  split
  · rfl
  · rw [sub_eq (h ▸ Nat.le_add_right start r.clocks), h, Nat.add_sub_cancel_left]
    rfl

/-- **A step of an instruction is not trapped** as long as its clocks can be counted. -/
theorem stepInstruction_eq {n : Nat} {c : Console} (hsound : c.Sound) (hcount : c.Counted n)
    (hn : n + c.stepInstruction.clocks < 2 ^ 64) :
    stepInstruction c = .ok c.stepInstruction := by
  have hclocks : c.stepInstruction.console.systemClock =
      c.systemClock + c.stepInstruction.clocks := by
    rw [Console.stepInstruction_clocks, Console.systemClock_clocked]
  have hmade : (c.runUntil (fun c => !c.cpu.atBoundary) Console.clocksPerCycle).clocks ≤
      c.stepInstruction.clocks := Run.clocks_le_extend ..
  have hstarted : runUntil c (fun c => !c.cpu.atBoundary) Console.clocksPerCycle =
      .ok (c.runUntil (fun c => !c.cpu.atBoundary) Console.clocksPerCycle) :=
    runUntil_eq hsound hcount (Nat.lt_of_le_of_lt (Nat.add_le_add_left hmade n) hn)
  have hsoundMiddle : (c.runUntil (fun c => !c.cpu.atBoundary)
      Console.clocksPerCycle).console.Sound := Run.extend_preserves (fun _ => Sound.clock) hsound
  have hcountMiddle : (c.runUntil (fun c => !c.cpu.atBoundary)
      Console.clocksPerCycle).console.Counted _ := Counted.extend (r := { console := c }) hcount _ _
  rw [stepInstruction, hstarted, ok_bind]
  dsimp only
  rw [extend_eq hsoundMiddle hcountMiddle hn, ok_bind]
  exact countClocks_eq hclocks

/-- **Nor is a frame.** -/
theorem stepFrame_eq {n : Nat} {c : Console} (hsound : c.Sound) (hcount : c.Counted n)
    (hn : n + c.stepFrame.clocks < 2 ^ 64) : stepFrame c = .ok c.stepFrame := by
  rw [Console.clocks_stepFrame] at hn
  have hcounted := c.systemClock_runFrame
  rw [Console.clocks_stepFrame] at hcounted
  rw [stepFrame, runUntil_eq hsound.takeFrameComplete hcount.takeFrameComplete hn, ok_bind,
    countClocks_eq hcounted, ok_bind]
  unfold Console.stepFrame
  generalize c.takeFrameComplete.2.runUntil (·.space.ppu.frameComplete) Beam.frameLength = r
  dsimp only
  split <;> rfl

/-! ### Runs that cannot be counted -/

/-- **A run is trapped** if its clocks use up their counter. -/
theorem extend_trapped {stop : Console → Bool} {limit : Nat} {r : Run} (hsound : r.console.Sound)
    (hcount : r.console.Counted r.console.systemClock) (hstart : r.console.systemClock < 2 ^ 64)
    (h : 2 ^ 64 ≤ (r.extend stop limit).console.systemClock) :
    ∃ trap, extend stop limit r = .error trap := by
  induction limit generalizing r with
  | zero => exact absurd hstart (Nat.not_lt_of_le h)
  | succ limit ih =>
    unfold extend
    unfold Run.extend at h
    by_cases hstop : (r.fault.isSome || stop r.console) = true
    · rw [if_pos hstop] at h
      exact absurd hstart (Nat.not_lt_of_le h)
    · rw [if_neg hstop] at h ⊢
      by_cases hone : r.console.systemClock + 1 < 2 ^ 64
      · -- This clock can still be counted, so it is one of the others that cannot.
        have hclock : clockRun r = .ok r.clock := by
          rw [clockRun, clock_eq hsound.inFrame hcount hone]
          rfl
        rw [hclock]
        exact ih (r := r.clock) hsound.clock hcount.clock hone h
      · obtain ⟨trap, htrap⟩ := clock_trapped (Nat.le_of_not_lt hone)
        rw [clockRun, htrap]
        exact ⟨trap, rfl⟩

/-- **So is a frame.** -/
theorem stepFrame_trapped {c : Console} (hsound : c.Sound) (hcount : c.Counted c.systemClock)
    (hstart : c.systemClock < 2 ^ 64) (h : 2 ^ 64 ≤ c.systemClock + c.stepFrame.clocks) :
    ∃ trap, stepFrame c = .error trap := by
  rw [← c.systemClock_runFrame] at h
  obtain ⟨trap, htrap⟩ := extend_trapped (r := { console := c.takeFrameComplete.2 })
    hsound.takeFrameComplete hcount.takeFrameComplete hstart h
  refine ⟨trap, ?_⟩
  rw [stepFrame, runUntil, htrap]
  rfl

end Checked

end Nes
