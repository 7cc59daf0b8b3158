import Nes.Proofs.Console.RunLength

/-!
# The length of a frame step

A frame step ends when the picture unit notes that a frame is complete.  It first removes a note
that was left over, so the note that ends it is that of the current frame, and this is made with the
last dot of the frame.  A frame step therefore makes as many clocks as there are dots left in the
frame, or fewer if one of them fails.

## Main definitions

* `Beam.dotsLeft`: the number of dots up to the end of the frame.

## Main statements

* `Console.frameComplete_clocked_taken`: the note is made with the last dot.
* `Console.stepFrame_of_completes`, `Console.stepFrame_of_fails`: the two ways in which a frame step
  ends.
* `Console.stepFrame_length`: the length of a frame step, from every reachable console.
-/

namespace Nes

namespace Beam

/-- The number of dots up to the end of the frame. -/
def dotsLeft (b : Beam) : Nat := (frameLength - b.position).toNat

variable {b : Beam} (h : b.InFrame)

include h

theorem InFrame.dotsLeft_eq : (b.dotsLeft : Int) = 89342 - b.position := by
  obtain ⟨hlow, hhigh⟩ := h.position_bounds
  exact Int.toNat_of_nonneg (Int.sub_nonneg_of_le (Int.le_of_lt hhigh))

theorem InFrame.dotsLeft_bounds : 0 < b.dotsLeft ∧ b.dotsLeft ≤ frameLength := by
  obtain ⟨hlow, hhigh⟩ := h.position_bounds
  have hleft := h.dotsLeft_eq
  rw [frameLength]
  omega

/-- After these dots the next frame begins. -/
theorem InFrame.advanceBy_dotsLeft : b.advanceBy b.dotsLeft = ⟨-1, 0⟩ := by
  obtain ⟨hin, hposition⟩ := h.advanceBy b.dotsLeft
  have hleft := h.dotsLeft_eq
  have hstart : (⟨-1, 0⟩ : Beam).position = 0 := rfl
  refine hin.eq_of_position (by decide) ?_
  omega

end Beam

namespace Console

section InFrame

variable {c : Console} (h : c.space.ppu.beam.InFrame)

include h

/-- **The note is made with the last dot of the frame**, if there was none before. -/
theorem frameComplete_clocked_taken (n : Nat) :
    (clocked n c.takeFrameComplete.2).space.ppu.frameComplete = true ↔
      c.space.ppu.beam.dotsLeft ≤ n := by
  have hin : c.takeFrameComplete.2.space.ppu.beam.InFrame := h
  have hnote := (frames_clocked hin n).2
  have hleft := h.dotsLeft_eq
  have hposition : c.takeFrameComplete.2.space.ppu.beam.position = c.space.ppu.beam.position := rfl
  have hclear : c.takeFrameComplete.2.space.ppu.frameComplete = false := rfl
  -- The note was taken, so only a dot of this run can have made it.
  rw [hposition, hclear] at hnote
  rw [hnote]
  simp only [Bool.false_eq_true, false_or]
  omega

theorem frameComplete_eq_false {n : Nat} (hn : n < c.space.ppu.beam.dotsLeft) :
    (clocked n c.takeFrameComplete.2).space.ppu.frameComplete = false := by
  rw [Bool.eq_false_iff, ne_eq, frameComplete_clocked_taken h]
  exact Nat.not_le_of_lt hn

/-- The run of a frame step, with any limit that leaves room for a frame. -/
theorem runFrame_of_completes (hc : c.Completes c.space.ppu.beam.dotsLeft) {limit : Nat}
    (hlimit : Beam.frameLength ≤ limit) :
    c.takeFrameComplete.2.runUntil (·.space.ppu.frameComplete) limit =
      ⟨clocked c.space.ppu.beam.dotsLeft c.takeFrameComplete.2, c.space.ppu.beam.dotsLeft, none,
        (clockedEvents c.space.ppu.beam.dotsLeft c.takeFrameComplete.2).toArray⟩ :=
  runUntil_of_completes (hc.congr (Alike.taken c).symm) (fun _ hk => frameComplete_eq_false h hk)
    ((frameComplete_clocked_taken h _).2 (Nat.le_refl _))
    (Nat.le_trans h.dotsLeft_bounds.2 hlimit)

theorem runFrame_of_fails {first : Nat} {fault : CpuFault} (hc : c.FailsAt first fault)
    (hfirst : first < c.space.ppu.beam.dotsLeft) {limit : Nat}
    (hlimit : Beam.frameLength ≤ limit) :
    c.takeFrameComplete.2.runUntil (·.space.ppu.frameComplete) limit =
      ⟨clocked (first + 1) c.takeFrameComplete.2, first + 1, some fault,
        (clockedEvents (first + 1) c.takeFrameComplete.2).toArray⟩ :=
  runUntil_of_fails (hc.congr (Alike.taken c).symm)
    (fun _ hk => frameComplete_eq_false h (Nat.lt_of_le_of_lt hk hfirst))
    (Nat.lt_of_lt_of_le hfirst (Nat.le_trans h.dotsLeft_bounds.2 hlimit))

/-- **A frame step of which no clock fails** completes the frame. -/
theorem stepFrame_of_completes (hc : c.Completes c.space.ppu.beam.dotsLeft) :
    c.stepFrame = ⟨(clocked c.space.ppu.beam.dotsLeft c).takeFrameComplete.2,
      c.space.ppu.beam.dotsLeft, none,
      (clockedEvents c.space.ppu.beam.dotsLeft c.takeFrameComplete.2).toArray⟩ := by
  have halike : (clocked c.space.ppu.beam.dotsLeft c.takeFrameComplete.2).Alike
      (clocked c.space.ppu.beam.dotsLeft c) := (Alike.taken c).clocked _
  unfold stepFrame
  rw [runFrame_of_completes h hc (Nat.le_refl _)]
  dsimp only
  rw [if_neg (by simp), show _ = _ from halike]

/-- **A frame step of which a clock fails** ends with the first that does. -/
theorem stepFrame_of_fails {first : Nat} {fault : CpuFault} (hc : c.FailsAt first fault)
    (hfirst : first < c.space.ppu.beam.dotsLeft) :
    c.stepFrame = ⟨clocked (first + 1) c.takeFrameComplete.2, first + 1, some fault,
      (clockedEvents (first + 1) c.takeFrameComplete.2).toArray⟩ := by
  unfold stepFrame
  rw [runFrame_of_fails h hc hfirst (Nat.le_refl _)]
  exact if_pos rfl

/-- A completed frame is counted, and the next begins. -/
theorem frameCount_clocked_dotsLeft :
    (clocked c.space.ppu.beam.dotsLeft c).space.ppu.frameCount =
      c.space.ppu.frameCount + 1 := by
  have hcount := (frames_clocked h c.space.ppu.beam.dotsLeft).1
  have hleft := h.dotsLeft_eq
  omega

end InFrame

/-- **The length of a frame step.**  Let `p` be the position of the beam of a reachable console.

* If none of the next `89342 - p` clocks fails, the step makes these clocks and succeeds.  The beam
  is then at the first dot of a frame, one frame more is counted, and no note is left.
* If one of them fails, the step ends with the first that does, and with its fault.
* One of the two is the case.  A note that was left over makes no difference, and the step counts
  the clocks as the console does.
* Each clock but the last leaves the beam in the frame in which it was, further on.
* The limit of the run is never what ends it. -/
theorem stepFrame_length {c : Console} (h : c.Reachable) :
    let p := 341 * (c.space.ppu.beam.scanline + 1) + c.space.ppu.beam.cycle
    let left := (89342 - p).toNat
    let fresh := c.takeFrameComplete.2
    let r := c.stepFrame
    (c.Completes left →
      r.fault = none ∧ (r.clocks : Int) = 89342 - p ∧
      r.console = (clocked left c).takeFrameComplete.2 ∧
      r.console.space.ppu.beam = ⟨-1, 0⟩ ∧
      r.console.space.ppu.frameCount = c.space.ppu.frameCount + 1 ∧
      r.console.space.ppu.frameComplete = false) ∧
    (∀ first < left, ∀ fault, c.FailsAt first fault →
      r.fault = some fault ∧ r.clocks = first + 1 ∧ r.console = clocked (first + 1) fresh) ∧
    (c.Completes left ∨ ∃ first < left, ∃ fault, c.FailsAt first fault) ∧
    r = fresh.stepFrame ∧ r.console.systemClock = c.systemClock + r.clocks ∧
    (∀ k < r.clocks, (clocked k c).space.ppu.beam.position = p + k ∧ p + k < 89342) ∧
    ∀ limit ≥ Beam.frameLength, fresh.runUntil (·.space.ppu.frameComplete) limit =
      fresh.runUntil (·.space.ppu.frameComplete) Beam.frameLength := by
  have hin := h.sound.inFrame
  intro p left fresh r
  have hp : c.space.ppu.beam.position = p := rfl
  have hleft : left = c.space.ppu.beam.dotsLeft := rfl
  have hsum : (left : Int) = 89342 - p := hin.dotsLeft_eq
  -- Either every clock up to the end of the frame succeeds or one is the first that fails.
  have hends := completes_or_failsAt left c
  have hclocks : r.clocks ≤ left ∧ r.console.systemClock = c.systemClock + r.clocks := by
    obtain hc | ⟨first, hfirst, fault, hc⟩ := hends
    · have hr : r = _ := stepFrame_of_completes hin hc
      rw [hr]
      exact ⟨Nat.le_refl _, systemClock_clocked _ _⟩
    · have hr : r = _ := stepFrame_of_fails hin hc hfirst
      rw [hr]
      exact ⟨hfirst, systemClock_clocked _ _⟩
  refine ⟨fun hc => ?_, fun first hfirst fault hc => ?_, hends, rfl, hclocks.2, ?_, ?_⟩
  · have hr : r = _ := stepFrame_of_completes hin hc
    rw [hr]
    refine ⟨rfl, hsum, rfl, ?_, frameCount_clocked_dotsLeft hin, rfl⟩
    exact (beam_clocked _ c).trans hin.advanceBy_dotsLeft
  · have hr : r = _ := stepFrame_of_fails hin hc hfirst
    rw [hr]
    exact ⟨rfl, rfl, rfl⟩
  · -- No clock but the last ends the frame, since the step is no longer than what is left of it.
    intro k hk
    obtain ⟨hlow, -⟩ := hin.position_bounds
    have hposition := (hin.advanceBy k).2
    rw [beam_clocked]
    omega
  · -- In both cases the run ends before a limit that leaves room for a frame.
    intro limit hlimit
    obtain hc | ⟨first, hfirst, fault, hc⟩ := hends
    · exact (runFrame_of_completes hin hc hlimit).trans
        (runFrame_of_completes hin hc (Nat.le_refl _)).symm
    · exact (runFrame_of_fails hin hc hfirst hlimit).trans
        (runFrame_of_fails hin hc hfirst (Nat.le_refl _)).symm

/-- Before the last dot of the third frame, with a note left over from the frames before, a frame
step makes one clock.  That clock is not due to the processor, which has been replaced. -/
theorem stepFrame_length_of_last_dot : ∃ c : Console,
    (c.Reachable ∧ c.space.ppu.frameComplete = true ∧ c.space.ppu.beam = ⟨260, 340⟩) ∧
      c.stepFrame.fault = none ∧ c.stepFrame.clocks = 1 ∧
      c.stepFrame.console.space.ppu.beam = ⟨-1, 0⟩ ∧
      c.stepFrame.console.space.ppu.frameComplete = false := by
  obtain ⟨image, cartridge, hload⟩ := Cartridge.exists_load
  have hon := Reachable.powerOn hload
  -- The number of clocks is kept from being computed with.
  obtain ⟨n, hn⟩ : ∃ n : Nat, n = 268025 := ⟨_, rfl⟩
  obtain ⟨hin, hposition⟩ := Beam.inFrame_default.advanceBy n
  have hstart : ({} : Beam).position = 0 := rfl
  have hbeam : (clocked n (powerOn cartridge)).space.ppu.beam = ⟨260, 340⟩ := by
    rw [beam_clocked]
    have hlast : (⟨260, 340⟩ : Beam).position = 89341 := rfl
    refine hin.eq_of_position (by decide) ?_
    omega
  have hnoted : (clocked n (powerOn cartridge)).space.ppu.frameComplete = true := by
    refine (frames_clocked Beam.inFrame_default n).2.2 (.inr ?_)
    have hzero : (powerOn cartridge).space.ppu.beam.position = 0 := rfl
    omega
  have hclock : (clocked n (powerOn cartridge)).systemClock % 3 = 2 := by
    have hzero : (powerOn cartridge).systemClock = 0 := rfl
    rw [systemClock_clocked, hzero, hn]
  have hreachable := (hon.clocked n).exchange hon
  -- The processor is exchanged for one that was just switched on, so nothing is known to be halted.
  generalize hc : { clocked n (powerOn cartridge) with cpu := (powerOn cartridge).cpu } = c
    at hreachable
  have hbeam' : c.space.ppu.beam = ⟨260, 340⟩ := by rw [← hc]; exact hbeam
  have hclock' : c.systemClock % 3 = 2 := by rw [← hc]; exact hclock
  have hcompletes : c.Completes 1 := by
    refine Completes.cons ?_ (Completes.zero _)
    obtain ⟨hok, -⟩ | ⟨-, -, hdue, -⟩ := c.counted_clock
    · exact hok
    · omega
  obtain ⟨hdone, -⟩ := stepFrame_length hreachable
  rw [hbeam'] at hdone
  obtain ⟨hfault, hclocks, -, hbegins, -, hclear⟩ := hdone hcompletes
  refine ⟨c, ⟨hreachable, by rw [← hc]; exact hnoted, hbeam'⟩, hfault, ?_, hbegins, hclear⟩
  exact Int.ofNat.inj hclocks

end Console

end Nes
