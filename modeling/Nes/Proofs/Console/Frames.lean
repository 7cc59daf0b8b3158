import Nes.Proofs.Console.FrameStep

/-!
# Frames in a row

Frame steps from the beginning of a frame make as many clocks each as a frame has dots, whatever the
program does, and lead to the beginning of the next.  A number of frames is therefore described by
the clocks that it stands for: if none of them fails, it leaves what they leave, and otherwise it
ends with the first fault.

After a reset at power-on the beam is at the beginning of a frame, and of the clocks that succeed
from there a third is counted as cycles of the processor.

## Main definitions

* `Console.AtFrameStart`: the beam is at the beginning of a frame.
* `Console.frameClocks`: the number of clocks that a number of frames makes.

## Main statements

* `Console.stepFrames_of_completes`, `Console.stepFrames_of_fails`: the two ways in which a number
  of frames ends.
* `Console.lt_frameClocks_iff`: how many clocks it makes.
* `Console.totalCycles_of_completes`, `Console.totalCycles_after_reset`: the cycles of clocks that
  succeed.
-/

namespace Nes

theorem Beam.frameLength_eq : Beam.frameLength = 89342 := rfl

namespace Console

/-! ### A number of frames -/

theorem Completes.rest {m n : Nat} {c : Console} (h : c.Completes (m + n)) :
    (clocked m c).Completes n := by
  intro k hk
  rw [← clocked_add]
  exact h (m + k) (Nat.add_lt_add_left hk m)

theorem FailsAt.rest {m n : Nat} {fault : CpuFault} {c : Console} (h : c.FailsAt (m + n) fault) :
    (clocked m c).FailsAt n fault := by
  refine ⟨h.succeeds.rest, ?_⟩
  rw [← clocked_add]
  exact h.fails

-- The clocks of a frame are counted, and never made, when terms are compared.
attribute [local irreducible] Beam.frameLength

/-- The number of clocks that a number of frames makes, a failing one included. -/
def frameClocks : Nat → Console → Nat
  | 0, _ => 0
  | n + 1, c =>
    let r := c.stepFrame
    match r.fault with
    | some _ => r.clocks
    | none => r.clocks + frameClocks n r.console

/-- The beam is at the beginning of a frame. -/
def AtFrameStart (c : Console) : Prop := c.space.ppu.beam = ⟨-1, 0⟩

namespace AtFrameStart

variable {c : Console} (h : c.AtFrameStart)

include h

theorem inFrame : c.space.ppu.beam.InFrame := by
  rw [show c.space.ppu.beam = _ from h]
  decide

theorem dotsLeft : c.space.ppu.beam.dotsLeft = Beam.frameLength := by
  rw [show c.space.ppu.beam = _ from h, Beam.dotsLeft, Beam.frameLength_eq]
  rfl

/-- A frame of which no clock fails leads to the beginning of the next, as its clocks do. -/
theorem stepFrame (hc : c.Completes Beam.frameLength) : c.stepFrame.fault = none ∧
    c.stepFrame.clocks = Beam.frameLength ∧
    c.stepFrame.console.Alike (clocked Beam.frameLength c) ∧
    c.stepFrame.console.AtFrameStart := by
  have hall : c.Completes c.space.ppu.beam.dotsLeft := by
    rw [h.dotsLeft]
    exact hc
  have hbeam := (beam_clocked c.space.ppu.beam.dotsLeft c).trans h.inFrame.advanceBy_dotsLeft
  rw [stepFrame_of_completes h.inFrame hall, ← h.dotsLeft]
  exact ⟨rfl, rfl, Alike.taken (clocked c.space.ppu.beam.dotsLeft c), hbeam⟩

end AtFrameStart

/-- **Frames of which no clock fails** leave what their clocks leave, but for the note. -/
theorem stepFrames_of_completes {c : Console} (hstart : c.AtFrameStart) (n : Nat)
    (h : c.Completes (Beam.frameLength * n)) :
    (∃ d, stepFrames n c = .ok d ∧ d.Alike (clocked (Beam.frameLength * n) c)) ∧
      frameClocks n c = Beam.frameLength * n := by
  induction n generalizing c with
  | zero => exact ⟨⟨c, rfl, Alike.refl c⟩, rfl⟩
  | succ n ih =>
    have hlength : Beam.frameLength * (n + 1) = Beam.frameLength + Beam.frameLength * n := by
      rw [Nat.mul_succ, Nat.add_comm]
    rw [hlength] at h ⊢
    obtain ⟨hfault, hclocks, halike, hnext⟩ := hstart.stepFrame (h.mono (Nat.le_add_right _ _))
    obtain ⟨⟨d, hd, hrest⟩, hmade⟩ := ih hnext (h.rest.congr halike.symm)
    refine ⟨⟨d, ?_, ?_⟩, ?_⟩
    · rw [stepFrames, hfault]
      exact hd
    · rw [clocked_add]
      exact hrest.trans (halike.clocked _)
    · rw [frameClocks, hfault]
      dsimp only
      rw [hclocks, hmade]

/-- **Frames of which a clock fails** end with the first that does, and with its fault. -/
theorem stepFrames_of_fails {c : Console} (hstart : c.AtFrameStart) {n first : Nat}
    {fault : CpuFault} (h : c.FailsAt first fault) (hfirst : first < Beam.frameLength * n) :
    stepFrames n c = .error fault ∧ frameClocks n c = first + 1 := by
  induction n generalizing c first with
  | zero => exact absurd hfirst (Nat.not_lt_zero first)
  | succ n ih =>
    by_cases hframe : first < Beam.frameLength
    · have hleft : first < c.space.ppu.beam.dotsLeft := by
        rw [hstart.dotsLeft]
        exact hframe
      rw [stepFrames, frameClocks, stepFrame_of_fails hstart.inFrame h hleft]
      exact ⟨rfl, rfl⟩
    · -- The fault lies in one of the other frames.
      obtain ⟨k, rfl⟩ := Nat.exists_eq_add_of_le (Nat.le_of_not_lt hframe)
      obtain ⟨hfault, hclocks, halike, hnext⟩ :=
        hstart.stepFrame (h.succeeds.mono (Nat.le_add_right _ _))
      rw [Nat.mul_succ, Nat.add_comm _ Beam.frameLength] at hfirst
      obtain ⟨hends, hmade⟩ :=
        ih hnext (h.rest.congr halike.symm) (Nat.lt_of_add_lt_add_left hfirst)
      rw [stepFrames, frameClocks, hfault]
      dsimp only
      rw [hclocks, hmade, Nat.add_assoc]
      exact ⟨hends, rfl⟩

/-- **More than `k` clocks are made** exactly if more are asked for and the first `k` succeed. -/
theorem lt_frameClocks_iff {c : Console} (hstart : c.AtFrameStart) {k n : Nat} :
    k < frameClocks n c ↔ k < Beam.frameLength * n ∧ c.Completes k := by
  rcases completes_or_failsAt (Beam.frameLength * n) c with hall | ⟨first, hfirst, fault, hfails⟩
  · rw [(stepFrames_of_completes hstart n hall).2]
    exact ⟨fun hk => ⟨hk, hall.mono (Nat.le_of_lt hk)⟩, fun h => h.1⟩
  · rw [(stepFrames_of_fails hstart hfails hfirst).2, Nat.lt_succ_iff]
    constructor
    · exact fun hk => ⟨Nat.lt_of_le_of_lt hk hfirst, hfails.succeeds.mono hk⟩
    · rintro ⟨-, hk⟩
      refine Nat.le_of_not_lt fun hlt => ?_
      exact absurd ((hk first hlt).symm.trans hfails.fails) nofun

/-- The cycles that are counted in clocks that succeed. -/
theorem totalCycles_of_completes {c : Console} {n : Nat} (h : c.Completes n) :
    (clocked n c).cpu.totalCycles = c.cpu.totalCycles + cyclesDue c.systemClock n := by
  obtain ⟨-, htotal⟩ | ⟨first, hfirst, fault, -, hdue, hfails, -⟩ := c.processor_clocked n
  · exact htotal
  · have hfail := (hfails first (Nat.le_refl first)).trans (if_pos hdue)
    exact absurd ((h first hfirst).symm.trans hfail) nofun

theorem Alike.cpu {c d : Console} (h : c.Alike d) : c.cpu = d.cpu := by
  obtain ⟨noted, rfl⟩ := alike_iff.1 h
  rfl

/-! ### From a reset at power-on -/

theorem atFrameStart_reset (cartridge : Cartridge) : (powerOn cartridge).reset.1.AtFrameStart := by
  have hkept := AddressSpace.clockwork_run (powerOn cartridge).cpu.reset (powerOn cartridge).space
  exact congrArg (fun w : Beam × Bool × Bool × Nat => w.1) hkept

theorem totalCycles_reset (c : Console) : c.reset.1.cpu.totalCycles = c.cpu.totalCycles := by
  obtain ⟨start, hreset⟩ := c.cpu.run_reset c.space
  show (c.cpu.reset.run c.space).value.totalCycles = c.cpu.totalCycles
  rw [hreset]

/-- Of the clocks after a reset at power-on that succeed, a third is counted, rounded up. -/
theorem totalCycles_after_reset {cartridge : Cartridge} {n : Nat}
    (h : (powerOn cartridge).reset.1.Completes n) :
    (clocked n (powerOn cartridge).reset.1).cpu.totalCycles = (n + 2) / 3 := by
  have hclock : (powerOn cartridge).reset.1.systemClock = 0 := rfl
  have hzero : (powerOn cartridge).cpu.totalCycles = 0 := rfl
  rw [totalCycles_of_completes h, totalCycles_reset, hzero, hclock, cyclesDue_zero, Nat.zero_add]

end Console

end Nes
