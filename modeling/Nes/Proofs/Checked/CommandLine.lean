import Nes.CommandLine.Basic
import Nes.Proofs.Checked.Image
import Nes.Proofs.Checked.Machine
import Nes.Proofs.Console.Frames

/-!
# The command line in fixed widths

A run of the command line loads an image, resets the console and makes frames, as many as a word of
sixty-four bits can say.  These can have more clocks than a word of sixty-four bits can count.  The
run is trapped then, unless a clock fails before the counter is used up.  Nothing else can trap it.

The number of frames is compared with its bound while it is read, so it is a word already.

## Main definitions

* `Checked.stepFrames`, `Checked.runFrames`: a number of frames.
* `Checked.runImage`, `Checked.runDemo`, `Checked.commandLine`: runs of the command line.

## Main statements

* `Checked.stepFrames_eq`, `Checked.stepFrames_trapped`: a number of frames is trapped exactly if
  its clocks cannot be counted.
* `Checked.runImage_eq`, `Checked.runDemo_eq`, `Checked.runImage_trapped`: so is a run.
-/

namespace Nes

namespace Console

/-- The clocks of a frame step are counted by the console. -/
theorem systemClock_stepFrame (c : Console) :
    c.stepFrame.console.systemClock = c.systemClock + c.stepFrame.clocks := by
  rw [← c.systemClock_runFrame]
  unfold stepFrame
  dsimp only
  split <;> rfl

/-- Nothing is counted at power-on. -/
theorem counted_powerOn (cartridge : Cartridge) : (powerOn cartridge).Counted 0 :=
  ⟨Nat.le_refl 0, Nat.le_refl 0, Nat.le_refl 0⟩

end Console

namespace Checked

open CommandLine (Output registerLines productLine frameCount)
open Console (Counted frameClocks)

/-! ### Frames -/

/-- Runs a number of frames, up to the first clock that fails. -/
def stepFrames : (n : Nat) → Console → Checked (Except CpuFault Console)
  | 0, c => pure (.ok c)
  | n + 1, c => do
    let r ← stepFrame c
    match r.fault with
    | some fault => pure (.error fault)
    | none => stepFrames n r.console

/-- Runs a console for a number of frames after a reset. -/
def runFrames (frames : Nat) (c : Console) : Checked (Except RunError Console) := do
  let (c, _) ← reset c
  match ← stepFrames frames c with
  | .ok c => pure (.ok c)
  | .error why => pure (.error (.halted why))

/-- **Frames are not trapped** as long as their clocks can be counted. -/
theorem stepFrames_eq {m n : Nat} {c : Console} (hsound : c.Sound) (hcount : c.Counted m)
    (hm : m + frameClocks n c < 2 ^ 64) : stepFrames n c = .ok (Console.stepFrames n c) := by
  induction n generalizing m c with
  | zero => rfl
  | succ n ih =>
    have hone : m + c.stepFrame.clocks < 2 ^ 64 := by
      unfold frameClocks at hm
      dsimp only at hm
      split at hm <;> omega
    rw [stepFrames, stepFrame_eq hsound hcount hone, ok_bind, Console.stepFrames]
    unfold frameClocks at hm
    dsimp only at hm ⊢
    cases hfault : c.stepFrame.fault with
    | some fault => rfl
    | none =>
      rw [hfault] at hm
      rw [← Nat.add_assoc] at hm
      exact ih hsound.stepFrame hcount.stepFrame hm

/-- **Frames are trapped** if their clocks cannot be counted. -/
theorem stepFrames_trapped {n : Nat} {c : Console} (hsound : c.Sound)
    (hcount : c.Counted c.systemClock) (hstart : c.systemClock < 2 ^ 64)
    (h : 2 ^ 64 ≤ c.systemClock + frameClocks n c) : ∃ trap, stepFrames n c = .error trap := by
  induction n generalizing c with
  | zero => exact absurd hstart (Nat.not_lt_of_le h)
  | succ n ih =>
    rw [stepFrames]
    by_cases hone : c.systemClock + c.stepFrame.clocks < 2 ^ 64
    · -- The clocks of this frame can be counted, so there are others, and these cannot.
      rw [stepFrame_eq hsound hcount hone, ok_bind]
      unfold frameClocks at h
      dsimp only at h ⊢
      cases hfault : c.stepFrame.fault with
      | some fault =>
        rw [hfault] at h
        exact absurd hone (Nat.not_lt_of_le h)
      | none =>
        rw [hfault] at h
        have hnext := hcount.stepFrame
        rw [← c.systemClock_stepFrame] at hnext hone
        rw [← Nat.add_assoc, ← c.systemClock_stepFrame] at h
        exact ih hsound.stepFrame hnext hone h
    · obtain ⟨trap, htrap⟩ := stepFrame_trapped hsound hcount hstart (Nat.le_of_not_lt hone)
      rw [htrap]
      exact ⟨trap, rfl⟩

theorem runFrames_eq {frames : Nat} {c : Console} (hsound : c.Sound) (hcount : c.Counted 0)
    (h : frameClocks frames c.reset.1 < 2 ^ 64) :
    runFrames frames c = .ok (CommandLine.runFrames frames c) := by
  rw [runFrames, reset_eq, ok_bind]
  dsimp only
  rw [← Nat.zero_add (frameClocks frames c.reset.1)] at h
  rw [stepFrames_eq hsound.reset hcount.reset h, ok_bind, CommandLine.runFrames]
  cases Console.stepFrames frames c.reset.1 <;> rfl

theorem runFrames_trapped {frames : Nat} {c : Console} (hsound : c.Sound) (hcount : c.Counted 0)
    (h : 2 ^ 64 ≤ frameClocks frames c.reset.1) :
    ∃ trap, runFrames frames c = .error trap := by
  have hzero : c.reset.1.systemClock = 0 := rfl
  have hstart : c.reset.1.systemClock < 2 ^ 64 := hzero ▸ Nat.two_pow_pos 64
  rw [← Nat.zero_add (frameClocks frames c.reset.1), ← hzero] at h
  obtain ⟨trap, htrap⟩ := stepFrames_trapped hsound.reset hcount.reset hstart h
  refine ⟨trap, ?_⟩
  rw [runFrames, reset_eq, ok_bind]
  dsimp only
  rw [htrap]
  rfl

/-! ### Runs -/

/-- Places a program where the processor starts after a reset. -/
def loadProgram (c : Console) (program : Array UInt8) : Checked Console := do
  let (space, _) ← writeAll c.space (Console.programWrites program)
  pure { c with space := space }

theorem loadProgram_eq (c : Console) (program : Array UInt8) :
    loadProgram c program = .ok (c.loadProgram program).1 := by
  rw [loadProgram, writeAll_eq]
  rfl

/-- What a console with the built-in program prints after some frames. -/
def runDemo (frames : Nat) : Checked (Except RunError (List String)) := do
  let start ← loadProgram (.powerOn .blank) Demo.program
  match ← runFrames frames start with
  | .error why => pure (.error why)
  | .ok c => do
    let product ← peek c.space Demo.productAddress
    pure (.ok (registerLines c.cpu ++ ["mem[0x0002]: " ++ toString product.toNat]))

/-- What a console with the image that was read at a path prints after some frames. -/
def runImage (path : String) (read : Except FileError (Array UInt8)) (frames : Nat) :
    Checked (Except RunError (List String)) :=
  match read with
  | .error why => pure (.error (.badRom path (.unreadable path why)))
  | .ok bytes => do
    match ← load bytes with
    | .error why => pure (.error (.badRom path (.unusable why)))
    | .ok cartridge => do
      match ← runFrames frames (.powerOn cartridge) with
      | .error why => pure (.error why)
      | .ok c => pure (.ok (registerLines c.cpu))

/-- **A run of the built-in program is not trapped** as long as its clocks can be counted. -/
theorem runDemo_eq {frames : Nat} (h : frameClocks frames Demo.console.reset.1 < 2 ^ 64) :
    runDemo frames = .ok (CommandLine.runDemo frames) := by
  have hsound : Demo.console.Sound := (Console.sound_powerOn Cartridge.load_blank).writeAll _
  have hcount : Demo.console.Counted 0 := (Console.counted_powerOn .blank).writeAll _
  have hconsole : loadProgram (.powerOn .blank) Demo.program = .ok Demo.console :=
    loadProgram_eq _ _
  rw [runDemo, hconsole, ok_bind, runFrames_eq hsound hcount h, ok_bind, CommandLine.runDemo]
  cases CommandLine.runFrames frames Demo.console with
  | error why => rfl
  | ok c =>
    dsimp only
    rw [peek_eq]
    rfl

section Image

variable {path : String} {bytes : Array UInt8} {cartridge : Cartridge} {frames : Nat}

/-- Bytes that hold no cartridge do not trap a run. -/
theorem runImage_of_unusable {why : LoadError} (hload : Cartridge.load bytes = .error why) :
    runImage path (.ok bytes) frames = .ok (CommandLine.runImage path (.ok bytes) frames) := by
  rw [runImage, load_eq, ok_bind, CommandLine.runImage, Cartridge.ofFile, hload]
  rfl

/-- **A run of an image is not trapped** as long as its clocks can be counted. -/
theorem runImage_eq (hload : Cartridge.load bytes = .ok cartridge)
    (h : frameClocks frames (Console.powerOn cartridge).reset.1 < 2 ^ 64) :
    runImage path (.ok bytes) frames = .ok (CommandLine.runImage path (.ok bytes) frames) := by
  have hframes :=
    runFrames_eq (Console.sound_powerOn hload) (Console.counted_powerOn cartridge) h
  rw [runImage, load_eq, ok_bind, CommandLine.runImage, Cartridge.ofFile, hload]
  dsimp only
  rw [hframes, ok_bind]
  cases CommandLine.runFrames frames (Console.powerOn cartridge) <;> rfl

/-- **And it is trapped** if they cannot. -/
theorem runImage_trapped (path : String) (hload : Cartridge.load bytes = .ok cartridge)
    (h : 2 ^ 64 ≤ frameClocks frames (Console.powerOn cartridge).reset.1) :
    ∃ trap, runImage path (.ok bytes) frames = .error trap := by
  obtain ⟨trap, htrap⟩ :=
    runFrames_trapped (Console.sound_powerOn hload) (Console.counted_powerOn cartridge) h
  refine ⟨trap, ?_⟩
  rw [runImage, load_eq, ok_bind, hload]
  dsimp only
  rw [htrap]
  rfl

end Image

/-- A run with the given arguments.  If it is trapped, it has no output. -/
def commandLine {m : Type → Type} [Monad m]
    (readFile : String → m (Except FileError (Array UInt8))) (args : List String) :
    m (Checked Output) :=
  match frameCount args, args with
  | .error why, _ => pure (.ok (.ofResult (.error why)))
  | .ok frames, [] => pure (Output.ofResult <$> runDemo frames)
  | .ok frames, path :: _ => do
    let read ← readFile path
    pure (Output.ofResult <$> runImage path read frames)

end Checked

end Nes
