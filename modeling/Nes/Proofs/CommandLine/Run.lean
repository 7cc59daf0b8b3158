import Nes.Proofs.Checked.CommandLine
import Nes.Proofs.CommandLine.Directory
import Nes.Proofs.Console.BlankProgram
import Nes.Proofs.Text.Count

/-!
# What a run of the command line prints

A run with the path of an image has three stages, and the first that fails is reported.  The frames
of the last stage are described by the clocks after a reset: if none of them fails, the run prints
the processor that they leave, and otherwise it reports the first fault.

A count of frames has sixty-four bits, and so has the counter of clocks.  Since a frame has many
clocks, a run can be asked for more clocks than it can count.  Such a run has no output, unless a
clock fails before the counter is used up.

## Main definitions

* `CommandLine.FramesAsked`: the number of frames that the arguments after the path ask for.
* `CommandLine.Uncounted`: the clocks of a run cannot be counted.

## Main statements

* `CommandLine.run_outcome`: the output of a run, for every image and all arguments.
* `CommandLine.uncounted_of_blank_image`: a run that no clock stops and that has no output.
-/

namespace Nes

-- The clocks of a frame are counted, and never made, when terms are compared.
attribute [local irreducible] Beam.frameLength

namespace CommandLine

/-! ### The stages of a run -/

/-- The number of frames that the arguments after the path ask for: the number that the first of
them spells, or one if there is none. -/
def FramesAsked : List String → Nat → Prop
  | [], n => n = 1
  | text :: _, n => Count.Spells text n

theorem frameCount_eq_ok_iff {path : String} {rest : List String} {n : Nat} :
    frameCount (path :: rest) = .ok n ↔ FramesAsked rest n := by
  cases rest with
  | nil =>
    show Except.ok 1 = .ok n ↔ n = 1
    rw [Except.ok.injEq]
    exact eq_comm
  | cons text rest =>
    rw [FramesAsked, ← Count.parse_eq_ok_iff, frameCount]
    cases Count.parse text with
    | ok =>
      dsimp only
      rw [Except.ok.injEq, Except.ok.injEq]
    | error => exact iff_of_false nofun nofun

theorem FramesAsked.unique {rest : List String} {m n : Nat} (hm : FramesAsked rest m)
    (hn : FramesAsked rest n) : m = n := by
  have hcount : frameCount ("" :: rest) = .ok m := frameCount_eq_ok_iff.2 hm
  rw [frameCount_eq_ok_iff.2 hn] at hcount
  exact (Except.ok.inj hcount).symm

/-- If the arguments ask for no number of frames, the first of them is to blame. -/
theorem frameCount_eq_error {rest : List String} (h : ∀ n, ¬FramesAsked rest n) (path : String) :
    ∃ text why, rest.head? = some text ∧ Count.parse text = .error why ∧
      frameCount (path :: rest) = .error (.badCount text why) := by
  cases rest with
  | nil => exact absurd rfl (h 1)
  | cons text rest =>
    cases hparse : Count.parse text with
    | ok n => exact absurd (Count.parse_eq_ok_iff.1 hparse) (h n)
    | error why =>
      refine ⟨text, why, rfl, hparse, ?_⟩
      rw [frameCount, hparse]

/-- Arguments after the number of frames have no effect on it. -/
theorem frameCount_take (path : String) (rest : List String) :
    frameCount (path :: rest.take 1) = frameCount (path :: rest) := by
  cases rest <;> rfl

/-- What is printed of a processor, if the cycles that it has counted are known. -/
theorem registerLines_of_totalCycles {cpu : Cpu} {cycles : Nat} (h : cpu.totalCycles = cycles) :
    registerLines cpu =
      ["A: 0x" ++ Numeral.hexByte cpu.registers.a, "X: 0x" ++ Numeral.hexByte cpu.registers.x,
        "Y: 0x" ++ Numeral.hexByte cpu.registers.y, "SP: 0x" ++ Numeral.hexByte cpu.registers.sp,
        "PC: 0x" ++ Numeral.hexWord cpu.registers.pc,
        "P (flags): 0b" ++ Numeral.binary 8 cpu.registers.status.toNat,
        "CPU cycles: " ++ toString cycles] := by
  rw [← h]
  rfl

section Image

variable {path : String} {bytes : Array UInt8} {cartridge : Cartridge} {frames : Nat}

theorem runImage_of_unusable {why : LoadError} (hload : Cartridge.load bytes = .error why) :
    runImage path (.ok bytes) frames = .error (.badRom path (.unusable why)) := by
  unfold runImage Cartridge.ofFile
  dsimp only
  rw [hload]

theorem runImage_of_loaded (hload : Cartridge.load bytes = .ok cartridge) :
    runImage path (.ok bytes) frames =
      (runFrames frames (.powerOn cartridge)).map fun c => registerLines c.cpu := by
  unfold runImage Cartridge.ofFile
  dsimp only
  rw [hload]
  dsimp only
  cases runFrames frames (.powerOn cartridge) <;> rfl

/-- **An image is run** for the clocks of its frames. -/
theorem runImage_of_completes (hload : Cartridge.load bytes = .ok cartridge)
    (h : (Console.powerOn cartridge).reset.1.Completes (Beam.frameLength * frames)) :
    runImage path (.ok bytes) frames = .ok (registerLines
      (Console.clocked (Beam.frameLength * frames) (Console.powerOn cartridge).reset.1).cpu) := by
  obtain ⟨d, hd, halike⟩ :=
    (Console.stepFrames_of_completes (Console.atFrameStart_reset cartridge) frames h).1
  rw [runImage_of_loaded hload, runFrames, hd, ← halike.cpu]
  rfl

/-- **A fault in these clocks** ends the run. -/
theorem runImage_of_fails {first : Nat} {fault : CpuFault}
    (hload : Cartridge.load bytes = .ok cartridge)
    (h : (Console.powerOn cartridge).reset.1.FailsAt first fault)
    (hfirst : first < Beam.frameLength * frames) :
    runImage path (.ok bytes) frames = .error (.halted fault) := by
  rw [runImage_of_loaded hload, runFrames,
    (Console.stepFrames_of_fails (Console.atFrameStart_reset cartridge) h hfirst).1]
  rfl

end Image

/-- The output of a run with a path, if the file can be read. -/
def outcome (path : String) (rest : List String) (bytes : Array UInt8) : Output :=
  .ofResult <| match frameCount (path :: rest) with
    | .error why => .error why
    | .ok frames => runImage path (.ok bytes) frames

section Outcome

variable {path : String} {rest : List String} {bytes : Array UInt8} {frames : Nat}

theorem run_eq_outcome {m : Type → Type} [Monad m] [LawfulMonad m]
    {readFile : String → m (Except FileError (Array UInt8))}
    (hread : readFile path = pure (.ok bytes)) :
    run readFile (path :: rest) = pure (outcome path rest bytes) := by
  unfold run outcome
  cases frameCount (path :: rest) with
  | error why => rfl
  | ok frames =>
    dsimp only
    rw [hread, pure_bind]

theorem outcome_of_error {why : RunError} (h : frameCount (path :: rest) = .error why) :
    outcome path rest bytes = ⟨1, "", why.report⟩ := by
  rw [outcome, h]
  rfl

theorem outcome_of_asked (h : FramesAsked rest frames) :
    outcome path rest bytes = .ofResult (runImage path (.ok bytes) frames) := by
  rw [outcome, frameCount_eq_ok_iff.2 h]

end Outcome

/-- What a run without bounds on its numbers puts out, stage by stage. -/
theorem outcome_by_stage (path : String) (rest : List String) (bytes : Array UInt8) :
    let o := outcome path rest bytes
    (o.exitCode = 0 ↔ ∃ frames cartridge, FramesAsked rest frames ∧
      Cartridge.load bytes = .ok cartridge ∧
      (Console.powerOn cartridge).reset.1.Completes (Beam.frameLength * frames)) ∧
    (∀ frames cartridge, FramesAsked rest frames → Cartridge.load bytes = .ok cartridge →
      (Console.powerOn cartridge).reset.1.Completes (Beam.frameLength * frames) →
      o = ⟨0, unlines (registerLines (Console.clocked (Beam.frameLength * frames)
        (Console.powerOn cartridge).reset.1).cpu), ""⟩) ∧
    ((∀ frames, ¬FramesAsked rest frames) → ∃ text why, rest.head? = some text ∧
      Count.parse text = .error why ∧ o = ⟨1, "", (RunError.badCount text why).report⟩) ∧
    (∀ frames why, FramesAsked rest frames → Cartridge.load bytes = .error why →
      o = ⟨1, "", (RunError.badRom path (.unusable why)).report⟩) ∧
    (∀ frames cartridge first fault, FramesAsked rest frames →
      Cartridge.load bytes = .ok cartridge → first < Beam.frameLength * frames →
      (Console.powerOn cartridge).reset.1.FailsAt first fault →
      o = ⟨1, "", (RunError.halted fault).report⟩) := by
  intro o
  have hbad : (∀ frames, ¬FramesAsked rest frames) → ∃ text why, rest.head? = some text ∧
      Count.parse text = .error why ∧ o = ⟨1, "", (RunError.badCount text why).report⟩ := by
    intro hnone
    obtain ⟨text, why, hhead, hparse, hcount⟩ := frameCount_eq_error hnone path
    exact ⟨text, why, hhead, hparse, outcome_of_error hcount⟩
  have hunusable : ∀ frames why, FramesAsked rest frames → Cartridge.load bytes = .error why →
      o = ⟨1, "", (RunError.badRom path (.unusable why)).report⟩ := by
    intro frames why hasked hload
    show outcome path rest bytes = _
    rw [outcome_of_asked hasked, runImage_of_unusable hload]
    rfl
  have hfails : ∀ frames cartridge first fault, FramesAsked rest frames →
      Cartridge.load bytes = .ok cartridge → first < Beam.frameLength * frames →
      (Console.powerOn cartridge).reset.1.FailsAt first fault →
      o = ⟨1, "", (RunError.halted fault).report⟩ := by
    intro frames cartridge first fault hasked hload hfirst hfail
    show outcome path rest bytes = _
    rw [outcome_of_asked hasked, runImage_of_fails hload hfail hfirst]
    rfl
  have hprints : ∀ frames cartridge, FramesAsked rest frames →
      Cartridge.load bytes = .ok cartridge →
      (Console.powerOn cartridge).reset.1.Completes (Beam.frameLength * frames) →
      o = ⟨0, unlines (registerLines (Console.clocked (Beam.frameLength * frames)
        (Console.powerOn cartridge).reset.1).cpu), ""⟩ := by
    intro frames cartridge hasked hload hall
    show outcome path rest bytes = _
    rw [outcome_of_asked hasked, runImage_of_completes hload hall]
    rfl
  refine ⟨⟨?_, ?_⟩, hprints, hbad, hunusable, hfails⟩
  · -- Every other case exits with one.
    intro hzero
    by_cases hnone : ∀ frames, ¬FramesAsked rest frames
    · obtain ⟨text, why, -, -, hout⟩ := hbad hnone
      rw [hout] at hzero
      exact absurd hzero Nat.one_ne_zero
    · obtain ⟨frames, hasked⟩ := Classical.not_forall_not.1 hnone
      cases hload : Cartridge.load bytes with
      | error why =>
        rw [hunusable frames why hasked hload] at hzero
        exact absurd hzero Nat.one_ne_zero
      | ok cartridge =>
        rcases Console.completes_or_failsAt (Beam.frameLength * frames)
          (Console.powerOn cartridge).reset.1 with hall | ⟨first, hfirst, fault, hfail⟩
        · exact ⟨frames, cartridge, hasked, rfl, hall⟩
        · rw [hfails frames cartridge first fault hasked hload hfirst hfail] at hzero
          exact absurd hzero Nat.one_ne_zero
  · rintro ⟨frames, cartridge, hasked, hload, hall⟩
    rw [hprints frames cartridge hasked hload hall]

/-! ### Counting the clocks -/

/-- The arguments ask for more clocks than sixty-four bits can count, and none of those fails that
can be counted. -/
def Uncounted (rest : List String) (bytes : Array UInt8) : Prop :=
  ∃ frames cartridge, FramesAsked rest frames ∧ Cartridge.load bytes = .ok cartridge ∧
    2 ^ 64 ≤ 89342 * frames ∧ (Console.powerOn cartridge).reset.1.Completes (2 ^ 64 - 1)

/-- The clocks that cannot be counted are those of the frames. -/
theorem two_pow_le_frameClocks_iff {cartridge : Cartridge} {frames : Nat} :
    2 ^ 64 ≤ Console.frameClocks frames (Console.powerOn cartridge).reset.1 ↔
      2 ^ 64 ≤ 89342 * frames ∧ (Console.powerOn cartridge).reset.1.Completes (2 ^ 64 - 1) := by
  have hiff := Console.lt_frameClocks_iff (Console.atFrameStart_reset cartridge)
    (k := 2 ^ 64 - 1) (n := frames)
  rw [Beam.frameLength_eq] at hiff
  have hpred : ∀ n : Nat, 2 ^ 64 - 1 < n ↔ 2 ^ 64 ≤ n := by
    intro n
    omega
  rwa [hpred, hpred] at hiff

end CommandLine

namespace Checked

open CommandLine

/-- The output of a run with a path, if the file can be read. -/
def outcome (path : String) (rest : List String) (bytes : Array UInt8) : Checked Output :=
  match frameCount (path :: rest) with
  | .error why => pure (.ofResult (.error why))
  | .ok frames => Output.ofResult <$> runImage path (.ok bytes) frames

section Outcome

variable {path : String} {rest : List String} {bytes : Array UInt8}

theorem commandLine_eq_outcome {m : Type → Type} [Monad m] [LawfulMonad m]
    {readFile : String → m (Except FileError (Array UInt8))}
    (hread : readFile path = pure (.ok bytes)) :
    commandLine readFile (path :: rest) = pure (outcome path rest bytes) := by
  unfold commandLine outcome
  cases frameCount (path :: rest) with
  | error why => rfl
  | ok frames =>
    dsimp only
    rw [hread, pure_bind]

/-- **A run whose clocks can be counted** puts out what it does without bounds on its numbers. -/
theorem outcome_eq (h : ¬Uncounted rest bytes) :
    outcome path rest bytes = .ok (CommandLine.outcome path rest bytes) := by
  unfold outcome CommandLine.outcome
  cases hcount : frameCount (path :: rest) with
  | error why => rfl
  | ok frames =>
    have hasked := frameCount_eq_ok_iff.1 hcount
    dsimp only
    cases hload : Cartridge.load bytes with
    | error why =>
      rw [runImage_of_unusable hload]
      rfl
    | ok cartridge =>
      have hcounted : Console.frameClocks frames (Console.powerOn cartridge).reset.1 < 2 ^ 64 := by
        by_contra hlarge
        obtain ⟨hmany, hall⟩ := two_pow_le_frameClocks_iff.1 (Nat.le_of_not_lt hlarge)
        exact h ⟨frames, cartridge, hasked, hload, hmany, hall⟩
      rw [runImage_eq hload hcounted]
      rfl

/-- **A run whose clocks cannot be counted** puts out nothing. -/
theorem outcome_trapped (path : String) (h : Uncounted rest bytes) :
    ∃ trap, outcome path rest bytes = .error trap := by
  obtain ⟨frames, cartridge, hasked, hload, hmany, hall⟩ := h
  obtain ⟨trap, htrap⟩ :=
    runImage_trapped path hload (two_pow_le_frameClocks_iff.2 ⟨hmany, hall⟩)
  refine ⟨trap, ?_⟩
  rw [outcome, frameCount_eq_ok_iff.2 hasked]
  dsimp only
  rw [htrap]
  rfl

end Outcome

end Checked

namespace CommandLine

/-- **The output of a run.**  Let the first argument be a path at which bytes are read.

* In words of sixty-four bits the run has an output, unless the other arguments ask for more clocks
  than such a word can count, the bytes hold a cartridge and none of the clocks fails that can be
  counted.  Arguments after the number of frames have no effect.
* An output in words of sixty-four bits is that of the run without bounds on its numbers.
* The exit code is zero exactly if the other arguments ask for a number of frames, the bytes hold a
  cartridge, and none of the clocks of the frames after a reset fails.
* Then the registers are printed that these clocks leave, and the number of cycles, which is a third
  of theirs, rounded up.
* Otherwise the exit code is one, nothing is printed, and the first stage that fails is reported:
  the number of frames, the image, or the first clock that fails. -/
theorem run_outcome {m : Type → Type} [Monad m] [LawfulMonad m]
    {readFile : String → m (Except FileError (Array UInt8))} {path : String} {bytes : Array UInt8}
    (hread : readFile path = pure (.ok bytes)) (rest : List String) :
    ∃ out : Checked Output, Checked.commandLine readFile (path :: rest) = pure out ∧
      -- What can go wrong in words of sixty-four bits.
      ((∃ trap, out = .error trap) ↔ ∃ frames cartridge, FramesAsked rest frames ∧
        Cartridge.load bytes = .ok cartridge ∧ 2 ^ 64 ≤ 89342 * frames ∧
        (Console.powerOn cartridge).reset.1.Completes (2 ^ 64 - 1)) ∧
      Checked.commandLine readFile (path :: rest.take 1) = pure out ∧
      ∀ o, out = .ok o → run readFile (path :: rest) = pure o ∧
        (o.exitCode = 0 ↔ ∃ frames cartridge, FramesAsked rest frames ∧
          Cartridge.load bytes = .ok cartridge ∧
          (Console.powerOn cartridge).reset.1.Completes (89342 * frames)) ∧
        -- What is printed.
        (∀ frames cartridge, FramesAsked rest frames → Cartridge.load bytes = .ok cartridge →
          let start := (Console.powerOn cartridge).reset.1
          let r := (Console.clocked (89342 * frames) start).cpu.registers
          start.Completes (89342 * frames) → o.exitCode = 0 ∧ o.stdout = unlines
            ["A: 0x" ++ Numeral.hexByte r.a, "X: 0x" ++ Numeral.hexByte r.x,
              "Y: 0x" ++ Numeral.hexByte r.y, "SP: 0x" ++ Numeral.hexByte r.sp,
              "PC: 0x" ++ Numeral.hexWord r.pc,
              "P (flags): 0b" ++ Numeral.binary 8 r.status.toNat,
              "CPU cycles: " ++ toString ((89342 * frames + 2) / 3)]) ∧
        -- What is reported.
        ((∀ frames, ¬FramesAsked rest frames) → ∃ text why, rest.head? = some text ∧
          Count.parse text = .error why ∧ o = ⟨1, "", (RunError.badCount text why).report⟩) ∧
        (∀ frames why, FramesAsked rest frames → Cartridge.load bytes = .error why →
          o = ⟨1, "", (RunError.badRom path (.unusable why)).report⟩) ∧
        (∀ frames cartridge first fault, FramesAsked rest frames →
          Cartridge.load bytes = .ok cartridge → first < 89342 * frames →
          (Console.powerOn cartridge).reset.1.FailsAt first fault →
          o = ⟨1, "", (RunError.halted fault).report⟩) := by
  refine ⟨Checked.outcome path rest bytes, Checked.commandLine_eq_outcome hread, ⟨?_, ?_⟩, ?_, ?_⟩
  · rintro ⟨trap, htrap⟩
    by_contra hcounted
    exact absurd ((Checked.outcome_eq hcounted).symm.trans htrap) nofun
  · exact fun h => Checked.outcome_trapped path h
  · rw [Checked.commandLine_eq_outcome hread, Checked.outcome, Checked.outcome, frameCount_take]
  · intro o ho
    -- A run that has an output could count its clocks.
    have hcounted : ¬Uncounted rest bytes := by
      intro h
      obtain ⟨trap, htrap⟩ := Checked.outcome_trapped path h
      exact absurd (ho.symm.trans htrap) nofun
    have hplain : o = outcome path rest bytes :=
      Except.ok.inj (ho.symm.trans (Checked.outcome_eq hcounted))
    obtain ⟨hzero, hprints, hbad, hunusable, hfails⟩ := outcome_by_stage path rest bytes
    simp only [Beam.frameLength_eq] at hzero hprints hfails
    rw [hplain]
    refine ⟨run_eq_outcome hread, hzero, ?_, hbad, hunusable, hfails⟩
    intro frames cartridge hasked hload start r hall
    rw [hprints frames cartridge hasked hload hall,
      registerLines_of_totalCycles (Console.totalCycles_after_reset hall)]
    exact ⟨rfl, rfl⟩

/-- The directory of a single image reads it under its name. -/
theorem read_game (image : Array UInt8) :
    Directory.read ⟨[("game.nes", image)]⟩ "game.nes" = .ok image := by
  have hholds : Directory.Holds ⟨[("game.nes", image)]⟩ "game.nes" image :=
    ⟨by decide, by decide, by decide, rfl⟩
  exact Directory.read_of_holds hholds (by simp) (by simp)

/-- An image full of an undocumented opcode halts the processor in the first clock.  To run it for
no frames prints the processor after the reset. -/
theorem run_outcome_of_halting_image : ∃ image fault,
    let d : Directory := ⟨[("game.nes", image)]⟩
    let readFile : String → Id (Except FileError (Array UInt8)) := d.read
    readFile "game.nes" = pure (.ok image) ∧
      Checked.commandLine readFile ["game.nes", "+1", "more"] =
        Except.ok ⟨1, "", (RunError.halted fault).report⟩ ∧
      ∃ o, Checked.commandLine readFile ["game.nes", "0"] = Except.ok o ∧
        run readFile ["game.nes", "0"] = o ∧ o.exitCode = 0 ∧
        o.stdout = unlines ["A: 0x00", "X: 0x00", "Y: 0x00", "SP: 0xFD", "PC: 0x8282",
          "P (flags): 0b00100100", "CPU cycles: 0"] := by
  obtain ⟨image, cartridge, hload, -, hreset, hpeek⟩ := Console.exists_powerOn_filled 0x82
  obtain ⟨start, hstart⟩ : ∃ c, c = (Console.powerOn cartridge).reset.1 := ⟨_, rfl⟩
  rw [hreset] at hstart
  have hplain : IsPlain 0x8282 := by decide
  have hvector : wordOf 0x82 0x82 = 0x8282 := by decide
  have hpc : start.cpu.registers.pc = 0x8282 := by
    rw [hstart]
    exact hvector
  have hread : (start.dotted.read start.cpu.registers.pc).1 = 0x82 := by
    rw [hpc, start.fst_read_dotted hplain, hstart]
    exact (hpeek 0x8282 hplain).trans (if_neg (by decide))
  obtain ⟨fault, hfault⟩ : ∃ fault, start.clock.result = .error fault :=
    ⟨_, (Console.clock_of_undocumented (by rw [hstart]) (by rw [hstart]) (by rw [hstart]; rfl)
      (by rw [hstart]; rfl) hread (by decide +kernel)).1⟩
  have hone : FramesAsked ["+1", "more"] 1 := Count.parse_eq_ok_iff.1 rfl
  have hzero : FramesAsked ["0"] 0 := Count.parse_eq_ok_iff.1 rfl
  -- Neither run asks for more clocks than can be counted.
  have hcounted : ∀ {rest frames} {out : Checked Output}, FramesAsked rest frames →
      89342 * frames < 2 ^ 64 →
      ((∃ trap, out = .error trap) ↔ ∃ frames cartridge, FramesAsked rest frames ∧
        Cartridge.load image = .ok cartridge ∧ 2 ^ 64 ≤ 89342 * frames ∧
        (Console.powerOn cartridge).reset.1.Completes (2 ^ 64 - 1)) → ∃ o, out = .ok o := by
    intro rest frames out hasked hfew htrap
    cases out with
    | ok o => exact ⟨o, rfl⟩
    | error trap =>
      obtain ⟨frames', -, hasked', -, hmany, -⟩ := htrap.1 ⟨trap, rfl⟩
      rw [hasked'.unique hasked] at hmany
      exact absurd hfew (Nat.not_lt_of_le hmany)
  obtain ⟨out, hout, htrap, -, hall⟩ := @run_outcome Id _ _
    (Directory.read ⟨[("game.nes", image)]⟩) "game.nes" image (read_game image) ["+1", "more"]
  obtain ⟨o, rfl⟩ := hcounted hone (by decide) htrap
  obtain ⟨-, -, -, -, -, hfails⟩ := hall o rfl
  obtain ⟨out', hout', htrap', -, hall'⟩ := @run_outcome Id _ _
    (Directory.read ⟨[("game.nes", image)]⟩) "game.nes" image (read_game image) ["0"]
  obtain ⟨o', rfl⟩ := hcounted hzero (by decide) htrap'
  obtain ⟨hrun, -, hprints, -⟩ := hall' o' rfl
  refine ⟨image, fault, read_game image, ?_, o', hout', hrun, ?_⟩
  · have hhalted : (Console.powerOn cartridge).reset.1.FailsAt 0 fault := by
      rw [hreset, ← hstart]
      exact ⟨Console.Completes.zero start, hfault⟩
    rw [hout, hfails 1 cartridge 0 fault hone hload (by decide) hhalted]
    rfl
  · have hregisters : (Console.clocked (89342 * 0)
        (Console.powerOn cartridge).reset.1).cpu.registers = { pc := 0x8282 } := by
      rw [hreset, hvector]
      rfl
    obtain ⟨hexit, hstdout⟩ := hprints 0 cartridge hzero hload (Console.Completes.zero _)
    refine ⟨hexit, hstdout.trans ?_⟩
    rw [hregisters]
    decide +kernel

/-- An image with a blank program runs for ever.  If it is asked for the greatest number of frames,
no clock of them fails, but the number of cycles that the run should print does not fit a word of
sixty-four bits, and neither does the number of clocks.  The run has no output. -/
theorem uncounted_of_blank_image : ∃ cartridge trap,
    let image := (Image.filled 2 0).toBytes
    let d : Directory := ⟨[("game.nes", image)]⟩
    let readFile : String → Id (Except FileError (Array UInt8)) := d.read
    let frames := 18446744073709551615
    readFile "game.nes" = pure (.ok image) ∧ FramesAsked ["18446744073709551615"] frames ∧
      Cartridge.load image = .ok cartridge ∧
      (Console.powerOn cartridge).reset.1.Completes (89342 * frames) ∧
      2 ^ 64 ≤ (89342 * frames + 2) / 3 ∧
      Checked.commandLine readFile ["game.nes", "18446744073709551615"] = Except.error trap := by
  obtain ⟨cartridge, hload, hheader, hprg, -⟩ := Cartridge.load_filled 2 0
  have hbanks : 2 ≤ cartridge.header.prgBanks.toNat := by
    rw [hheader]
    decide
  have hall := Console.completes_of_blank hload hbanks hprg
  have hasked : FramesAsked ["18446744073709551615"] 18446744073709551615 :=
    Count.parse_eq_ok_iff.1 rfl
  obtain ⟨trap, htrap⟩ := Checked.outcome_trapped "game.nes"
    ⟨18446744073709551615, cartridge, hasked, hload, by decide, hall _⟩
  have hread := read_game (Image.filled 2 0).toBytes
  refine ⟨cartridge, trap, hread, hasked, hload, hall _, by decide, ?_⟩
  rw [← htrap]
  exact Checked.commandLine_eq_outcome (m := Id) hread

end CommandLine

end Nes
