import Nes.Proofs.Console.PictureHistory

/-!
# Processor and picture unit in step

The two halves of the console are driven by one count of clocks.  Where they are after a number of
clocks can therefore be computed from where they were, whatever the program and the cartridge: the
position of the beam is a remainder, the number of frames a quotient, and the number of cycles of
the processor the number of multiples of three that were passed.

Only a halt of the processor makes a difference, and only to the last of these.  It happens in a
clock that is due to the processor, and from then on just the clocks fail that would have been due
to it.

## Main definitions

* `cyclesDue`: how many clocks in a row are due to the processor.

## Main statements

* `Console.beam_clocked`, `Console.frames_clocked`: beam and frames after a number of clocks.
* `Console.processor_clocked`: cycles and faults of a number of clocks.
* `Console.clocks_in_closed_form`: both, for every console that operations lead to.
-/

namespace Nes

namespace Console

/-! ### Frames -/

theorem frameCount_clock (c : Console) : c.clock.console.space.ppu.frameCount =
    c.space.ppu.frameCount + c.space.ppu.beam.endsFrame.toNat :=
  congrArg (·.2.2.2) c.clockwork_cycle

theorem frameComplete_clock (c : Console) : c.clock.console.space.ppu.frameComplete =
    (c.space.ppu.frameComplete || c.space.ppu.beam.endsFrame) :=
  congrArg (·.2.2.1) c.clockwork_cycle

theorem beam_clocked (n : Nat) (c : Console) :
    (clocked n c).space.ppu.beam = c.space.ppu.beam.advanceBy n := by
  induction n generalizing c with
  | zero => rfl
  | succ n ih =>
    rw [clocked, ih, beam_clock]
    rfl

/-- **Frames after a number of clocks.** -/
theorem frames_clocked {c : Console} (h : c.space.ppu.beam.InFrame) (n : Nat) :
    let d := clocked n c
    let frames := (c.space.ppu.beam.position + n) / 89342
    (d.space.ppu.frameCount : Int) = c.space.ppu.frameCount + frames ∧
      (d.space.ppu.frameComplete = true ↔ c.space.ppu.frameComplete = true ∨ 0 < frames) := by
  -- By induction on the clocks: the first moves the position on, modulo the frame.
  induction n generalizing c with
  | zero =>
    obtain ⟨hlow, hhigh⟩ := h.position_bounds
    have hnone : (c.space.ppu.beam.position + (0 : Nat)) / 89342 = 0 := by omega
    dsimp only
    rw [hnone]
    exact ⟨(Int.add_zero _).symm, (or_iff_left (Int.lt_irrefl 0)).symm⟩
  | succ n ih =>
    have hnext : c.clock.console.space.ppu.beam.InFrame := by
      rw [beam_clock]
      exact h.advance
    have hposition : c.clock.console.space.ppu.beam.position =
        (c.space.ppu.beam.position + 1) % 89342 := by
      rw [beam_clock]
      exact Beam.position_advance h
    have hends : (c.space.ppu.beam.endsFrame.toNat : Int) =
        (c.space.ppu.beam.position + 1) / 89342 := Beam.toNat_endsFrame h
    obtain ⟨hcount, hcomplete⟩ := ih hnext
    dsimp only at hcount hcomplete ⊢
    rw [hposition] at hcount hcomplete
    rw [frameCount_clock] at hcount
    rw [frameComplete_clock, Bool.or_eq_true] at hcomplete
    obtain ⟨hlow, hhigh⟩ := h.position_bounds
    refine ⟨?_, hcomplete.trans ?_⟩
    · show ((clocked n c.clock.console).space.ppu.frameCount : Int) = _
      omega
    · -- If the first clock ends a frame, the note is made already.
      cases he : c.space.ppu.beam.endsFrame with
      | true =>
        rw [he, Bool.toNat_true] at hends
        have hgrown : 0 < (c.space.ppu.beam.position + (n + 1 : Nat)) / 89342 := by omega
        exact iff_of_true (.inl (.inr rfl)) (.inr hgrown)
      | false =>
        rw [he, Bool.toNat_false] at hends
        have hsame : ((c.space.ppu.beam.position + 1) % 89342 + n) / 89342 =
            (c.space.ppu.beam.position + (n + 1 : Nat)) / 89342 := by omega
        rw [hsame]
        simp

end Console

/-! ### Cycles -/

/-- How many of `n` clocks in a row are due to the processor, if the first of them has the number
`start`. -/
def cyclesDue (start n : Nat) : Nat := (List.range' start n).countP (· % 3 == 0)

theorem cyclesDue_succ (start n : Nat) :
    cyclesDue start (n + 1) = (if start % 3 = 0 then 1 else 0) + cyclesDue (start + 1) n := by
  rw [cyclesDue, List.range'_succ, List.countP_cons, Nat.add_comm]
  simp only [beq_iff_eq]
  rfl

/-- After a reset this is a third of the clocks, rounded up. -/
theorem cyclesDue_zero (n : Nat) : cyclesDue 0 n = (n + 2) / 3 := by
  -- After the first clock the count goes on from another number.
  suffices h : ∀ start, (start + 2) / 3 + cyclesDue start n = (start + n + 2) / 3 by
    have h₀ := h 0
    omega
  induction n with
  | zero => exact fun start => rfl
  | succ n ih =>
    intro start
    have hrest := ih (start + 1)
    rw [cyclesDue_succ]
    split <;> omega

namespace Cpu

/-- A cycle succeeds and is counted, or it fails and leaves a halted processor. -/
theorem TickPath.counted {cpu : Cpu} {t : List Activity} {o : Ticked} (h : TickPath cpu t o) :
    (o.result = .ok () ∧ o.cpu.totalCycles = cpu.totalCycles + 1) ∨
    ∃ fault, o.result = .error fault ∧ o.cpu.halted = some fault ∧
      o.cpu.totalCycles = cpu.totalCycles := by
  cases h with
  | halted hh => exact .inr ⟨_, rfl, hh, rfl⟩
  | undocumented => exact .inr ⟨_, rfl, rfl, rfl⟩
  | countDown | nmi | irq | executed => exact .inl ⟨rfl, rfl⟩

end Cpu

namespace Console

/-- A clock succeeds and counts a cycle if one is due, or one is due and fails. -/
theorem counted_clock (c : Console) :
    (c.clock.result = .ok () ∧ c.clock.console.cpu.totalCycles =
      c.cpu.totalCycles + if c.systemClock % 3 = 0 then 1 else 0) ∨
    ∃ fault, c.clock.result = .error fault ∧ c.systemClock % 3 = 0 ∧
      c.clock.console.cpu.halted = some fault ∧
      c.clock.console.cpu.totalCycles = c.cpu.totalCycles := by
  rw [cpu_clock_congr (·.totalCycles) (fun _ => rfl), cpu_clock_congr (·.halted) fun _ => rfl]
  show (c.cycle.value.result = .ok () ∧ _) ∨ ∃ fault, c.cycle.value.result = .error fault ∧ _
  unfold cycle cpuPart
  -- Only a clock that is due to the processor can fail.
  by_cases hdue : c.systemClock % 3 = 0
  · rw [if_pos (c.cpuIsDue_iff.2 hdue), if_pos hdue]
    obtain hok | ⟨fault, hfault, hhalted, htotal⟩ := (c.cpu.tickPath_run c.dotted).counted
    · exact .inl hok
    · exact .inr ⟨fault, hfault, hdue, hhalted, htotal⟩
  · rw [if_neg fun h => hdue (c.cpuIsDue_iff.1 h), if_neg hdue]
    exact .inl ⟨rfl, rfl⟩

theorem systemClock_clocked (n : Nat) (c : Console) :
    (clocked n c).systemClock = c.systemClock + n := by
  induction n generalizing c with
  | zero => rfl
  | succ n ih =>
    rw [clocked, ih, systemClock_clock]
    omega

/-- Once the processor has halted, every clock that would be due to it fails, and none is
counted. -/
theorem clocked_of_halted {c : Console} {fault : CpuFault} (h : c.cpu.halted = some fault)
    (n : Nat) :
    (clocked n c).clock.result =
        (if (c.systemClock + n) % 3 = 0 then .error fault else .ok ()) ∧
      (clocked n c).cpu.totalCycles = c.cpu.totalCycles := by
  have hidles := idles_clocked h n
  obtain ⟨nmi, irq, hcpu⟩ := hidles.cpu
  rw [clock_of_halted (hidles.halted.trans h), systemClock_clocked, hcpu]
  exact ⟨rfl, rfl⟩

/-- **Cycles and faults of a number of clocks.** -/
theorem processor_clocked (c : Console) (n : Nat) :
    ((∀ k < n, (clocked k c).clock.result = .ok ()) ∧
      (clocked n c).cpu.totalCycles = c.cpu.totalCycles + cyclesDue c.systemClock n) ∨
    ∃ first < n, ∃ fault,
      (∀ k < first, (clocked k c).clock.result = .ok ()) ∧
      (c.systemClock + first) % 3 = 0 ∧
      (∀ k ≥ first, (clocked k c).clock.result =
        if (c.systemClock + k) % 3 = 0 then .error fault else .ok ()) ∧
      (clocked n c).cpu.totalCycles = c.cpu.totalCycles + cyclesDue c.systemClock first := by
  induction n generalizing c with
  | zero => exact .inl ⟨fun k hk => absurd hk (Nat.not_lt_zero k), rfl⟩
  | succ n ih =>
    obtain ⟨hok, htotal⟩ | ⟨fault, hfault, hdue, hhalted, htotal⟩ := c.counted_clock
    · -- The first clock succeeds, and the others follow from it.
      have hhead : ∀ {m : Nat}, (∀ k < m, (clocked k c.clock.console).clock.result = .ok ()) →
          ∀ k < m + 1, (clocked k c).clock.result = .ok () := by
        intro m hm k hk
        cases k with
        | zero => exact hok
        | succ k => exact hm k (Nat.lt_of_succ_lt_succ hk)
      have hcount : ∀ m, c.clock.console.cpu.totalCycles +
          cyclesDue c.clock.console.systemClock m =
            c.cpu.totalCycles + cyclesDue c.systemClock (m + 1) := by
        intro m
        rw [htotal, systemClock_clock, cyclesDue_succ, Nat.add_assoc]
      obtain ⟨hall, hrest⟩ | ⟨first, hfirst, fault, hall, hdue, hfails, hrest⟩ :=
        ih c.clock.console
      · exact .inl ⟨hhead hall, hrest.trans (hcount n)⟩
      · rw [systemClock_clock] at hdue hfails
        refine .inr ⟨first + 1, Nat.succ_lt_succ hfirst, fault, hhead hall, ?_, ?_,
          hrest.trans (hcount first)⟩
        · rw [← hdue]
          congr 1
          omega
        · intro k hk
          obtain ⟨k, rfl⟩ : ∃ j, k = j + 1 := ⟨k - 1, by omega⟩
          have hfail := hfails k (by omega)
          rw [Nat.add_right_comm] at hfail
          exact hfail
    · -- The first clock fails.
      refine .inr ⟨0, Nat.succ_pos n, fault, fun k hk => absurd hk (Nat.not_lt_zero k), hdue,
        ?_, ?_⟩
      · intro k _
        cases k with
        | zero => exact hfault.trans (if_pos hdue).symm
        | succ k =>
          have hlater := (clocked_of_halted hhalted k).1
          rw [systemClock_clock, Nat.add_right_comm] at hlater
          exact hlater
      · show (clocked n c.clock.console).cpu.totalCycles = _
        rw [(clocked_of_halted hhalted n).2, htotal]
        rfl

/-! ### From power-on -/

/-- **Clocks in closed form.**  From any console that operations lead to from power-on, whatever the
cartridge and the program, and whether or not clocks fail:

* `n` clocks are counted as `n`.
* The beam stays in the frame, and its position moves on by `n` in a circle of 89342.
* The number of frames grows by the number of times that it passes the beginning, and then there is
  a completed frame to be asked for.
* If no clock fails, the processor makes as many cycles as there are multiples of three among the
  numbers of the clocks, which is a third of them after a reset, rounded up.  Otherwise the first
  clock that fails has such a number, and of all clocks from then on just those fail that have one.
  The cycles before are the last that are counted. -/
theorem clocks_in_closed_form (cartridge : Cartridge) (ops : List Operation) (n : Nat) :
    let c := (powerOn cartridge).operateAll ops
    let d := clocked n c
    let p := c.space.ppu.beam.position
    let beam := d.space.ppu.beam
    d.systemClock = c.systemClock + n ∧
    (-1 ≤ beam.scanline ∧ beam.scanline ≤ 260 ∧ beam.cycle ≤ 340 ∧
      341 * (beam.scanline + 1) + beam.cycle = (p + n) % 89342) ∧
    ((d.space.ppu.frameCount : Int) = c.space.ppu.frameCount + (p + n) / 89342 ∧
      (d.space.ppu.frameComplete = true ↔
        c.space.ppu.frameComplete = true ∨ 0 < (p + n) / 89342)) ∧
    (((∀ k < n, (clocked k c).clock.result = .ok ()) ∧
        d.cpu.totalCycles = c.cpu.totalCycles + cyclesDue c.systemClock n) ∨
      ∃ first < n, ∃ fault,
        (∀ k < first, (clocked k c).clock.result = .ok ()) ∧
        (c.systemClock + first) % 3 = 0 ∧
        (∀ k ≥ first, (clocked k c).clock.result =
          if (c.systemClock + k) % 3 = 0 then .error fault else .ok ()) ∧
        d.cpu.totalCycles = c.cpu.totalCycles + cyclesDue c.systemClock first) ∧
    (c.systemClock = 0 → cyclesDue c.systemClock n = (n + 2) / 3) := by
  -- The beam is in its frame after any operations, since they do to it what actions do.
  have hin : ((powerOn cartridge).operateAll ops).space.ppu.beam.InFrame := by
    rw [ppu_operateAll]
    exact (Ppu.dated_history _).inFrame
  intro c d p beam
  obtain ⟨⟨hlow, hhigh, hcycle⟩, hposition⟩ := hin.advanceBy n
  rw [← beam_clocked] at hlow hhigh hcycle hposition
  refine ⟨systemClock_clocked n c, ⟨hlow, hhigh, Nat.le_of_lt_succ hcycle, ?_⟩,
    frames_clocked hin n, processor_clocked c n, ?_⟩
  · rw [← hposition, Beam.position]
    rfl
  · intro hreset
    rw [hreset, cyclesDue_zero]

end Console

end Nes
