import Nes.Console.Basic

/-!
# Running the console

A run is a number of clocks, up to a condition on the console or up to the first clock that fails.
The condition is tested before each clock, and a run has a limit that it does not exceed.

Running one instruction first waits for the processor to start something and then for that to end.
Called while an instruction is in flight, it only ends that instruction.  Running a frame ends when
the picture unit reaches the first dot of the next frame.

## Main definitions

* `Run`: the console after a run, and what the run was.
* `Console.runUntil`: clocks up to a condition.
* `Console.stepInstruction`, `Console.stepFrame`, `Console.stepFrames`, `Console.clockMany`,
  `Console.clockThrough`: particular runs.
-/

namespace Nes

/-- What a run leaves. -/
structure Run where
  /-- The console afterwards. -/
  console : Console
  /-- The number of clocks made, a failing one included. -/
  clocks : Nat := 0
  /-- The fault in the last clock, if it failed. -/
  fault : Option CpuFault := none
  /-- What happened, in order. -/
  events : Array Event := #[]

namespace Run

/-- The run with one more clock. -/
def clock (r : Run) : Run :=
  let ⟨console, clocks, _, events⟩ := r
  let ⟨console, result, told⟩ := console.clock
  let fault := match result with
    | .ok () => none
    | .error fault => some fault
  ⟨console, clocks + 1, fault, events ++ told⟩

/-- The run continued until a condition holds or a clock fails, by at most `limit` clocks. -/
def extend (stop : Console → Bool) : (limit : Nat) → Run → Run
  | 0, r => r
  | limit + 1, r =>
    if r.fault.isSome || stop r.console then r else extend stop limit r.clock

end Run

namespace Console

/-- Clocks until a condition holds or a clock fails, but at most `limit` clocks. -/
def runUntil (c : Console) (stop : Console → Bool) (limit : Nat) : Run :=
  Run.extend stop limit { console := c }

/-- A number of clocks, up to the first that fails. -/
def clockMany (c : Console) (n : Nat) : Run := c.runUntil (fun _ => false) n

/-- Clocks until the processor has started and completed one instruction or interrupt entry, or
only until the one in flight is complete. -/
def stepInstruction (c : Console) : Run :=
  let started := c.runUntil (fun c => !c.cpu.atBoundary) clocksPerCycle
  let limit := clocksPerCycle * started.console.cpu.cyclesLeft
  started.extend (fun c => c.cpu.atBoundary) limit

/-- Whether a frame was completed, and the console with the note removed. -/
def takeFrameComplete (c : Console) : Bool × Console :=
  let (complete, ppu) := c.space.ppu.takeFrameComplete
  (complete, { c with space := { c.space with ppu := ppu } })

/-- Clocks until the picture unit completes the current frame.  A completion that nobody asked for
before does not count. -/
def stepFrame (c : Console) : Run :=
  let r := c.takeFrameComplete.2.runUntil (·.space.ppu.frameComplete) Beam.frameLength
  if r.fault.isSome then r else { r with console := r.console.takeFrameComplete.2 }

/-- Runs a number of frames, up to the first clock that fails. -/
def stepFrames : (n : Nat) → Console → Except CpuFault Console
  | 0, c => .ok c
  | n + 1, c =>
    let r := c.stepFrame
    match r.fault with
    | some fault => .error fault
    | none => stepFrames n r.console

/-- What a number of clocks leaves, failing ones included: the console, the number of clocks that
failed and what happened. -/
def clockThrough (n : Nat) (c : Console) : Console × Nat × Array Event :=
  n.fold (fun _ _ (c, failures, events) =>
    let ⟨c, result, told⟩ := c.clock
    let failures := match result with
      | .ok () => failures
      | .error _ => failures + 1
    (c, failures, events ++ told)) (c, 0, #[])

end Console

end Nes
