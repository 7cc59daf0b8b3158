import Nes.Proofs.Console.Access

/-!
# What the status register remembers

Of the three bits of the status register the picture unit uses one.  It is set by the dot with which
the vertical blank begins, and cleared by the dot with which it ends and by reading the register.
What else is done to the picture unit leaves the register alone.

So the register tells which of the three happened last.  To state this, everything that can be done
to a picture unit is one type of actions, and the actions that count leave marks.  The position of
the beam tells the marks of the two dots apart: one of them is passed whenever the other has been.

## Main definitions

* `Ppu.Action`, `Ppu.act`, `Ppu.actAll`: what can be done to a picture unit.
* `Ppu.Mark`, `Ppu.history`: what counts of that.
* `Beam.InVblank`: the dots of the vertical blank.
* `Ppu.Dated`: how register and position agree with the marks.

## Main statements

* `Ppu.status_act`, `Ppu.nmiRequest_act`: what an action does to the register and the request line.
* `Ppu.Dated.act`, `Ppu.dated_history`: register and position agree with the marks after any
  actions.
* `Ppu.Dated.inVblank`, `Ppu.Dated.getLast?_of_inVblank`: when the bit can be set, and when it is.
-/

namespace Nes

namespace Beam

theorem entersVblank_iff {b : Beam} : b.entersVblank = true ↔ b = ⟨241, 1⟩ := by
  obtain ⟨scanline, cycle⟩ := b
  rw [entersVblank, Bool.and_eq_true, beq_iff_eq, beq_iff_eq, mk.injEq]
  exact and_comm

theorem leavesVblank_iff {b : Beam} : b.leavesVblank = true ↔ b = ⟨-1, 1⟩ := by
  obtain ⟨scanline, cycle⟩ := b
  rw [leavesVblank, Bool.and_eq_true, beq_iff_eq, beq_iff_eq, mk.injEq]
  exact and_comm

/-- The dots after the one with which the vertical blank begins, up to the one with which it
ends. -/
def InVblank (b : Beam) : Prop := 82524 ≤ b.position ∨ b.position ≤ 1

theorem InFrame.position_eq_iff {b : Beam} (h : b.InFrame) :
    (b.position = 82523 ↔ b = ⟨241, 1⟩) ∧ (b.position = 1 ↔ b = ⟨-1, 1⟩) := by
  refine ⟨⟨fun hp => ?_, fun hb => by rw [hb]; rfl⟩, ⟨fun hp => ?_, fun hb => by rw [hb]; rfl⟩⟩
  · exact h.eq_of_position (by decide) hp
  · exact h.eq_of_position (by decide) hp

/-- The vertical blank is entered and left by these two dots only. -/
theorem InFrame.inVblank_advance {b : Beam} (h : b.InFrame) :
    (b = ⟨241, 1⟩ → b.advance.InVblank) ∧ (b = ⟨-1, 1⟩ → ¬b.advance.InVblank) ∧
      (b ≠ ⟨241, 1⟩ → b ≠ ⟨-1, 1⟩ → (b.advance.InVblank ↔ b.InVblank)) := by
  obtain ⟨henter, hleave⟩ := h.position_eq_iff
  have hadvance : b.advance.position = (b.position + 1) % 89342 := position_advance h
  obtain ⟨hlow, hhigh⟩ := h.position_bounds
  simp only [InVblank, ne_eq, ← henter, ← hleave, hadvance]
  refine ⟨fun hp => ?_, fun hp => ?_, fun hp hp' => ?_⟩
  all_goals omega

end Beam

namespace Ppu

/-! ### Actions -/

/-- What can be done to a picture unit.  Where picture memory may be reached, the cartridge may be
another one every time. -/
inductive Action
  | dot
  | read (cart : Cartridge) (r : Register)
  | peek (cart : Cartridge) (r : Register)
  | write (cart : Cartridge) (r : Register) (value : UInt8)
  | writeVideo (cart : Cartridge) (addr : UInt16) (value : UInt8)
  | takeNmiRequest
  | takeFrameComplete

/-- What an action leaves. -/
def act (p : Ppu) : Action → Ppu
  | .dot => p.dot
  | .read cart r => (p.readRegister cart r).2
  | .peek _ _ => p
  | .write cart r value => (p.writeRegister cart r value).1
  | .writeVideo cart addr value => (p.writeVideo cart addr value).1
  | .takeNmiRequest => p.takeNmiRequest.2
  | .takeFrameComplete => p.takeFrameComplete.2

/-- What a list of actions leaves. -/
def actAll (p : Ppu) (acts : List Action) : Ppu := acts.foldl act p

theorem actAll_append (p : Ppu) (acts acts' : List Action) :
    p.actAll (acts ++ acts') = (p.actAll acts).actAll acts' :=
  List.foldl_append

/-- What an action may be to the status register. -/
inductive Mark
  /-- The dot was drawn with which the vertical blank begins. -/
  | began
  /-- The dot was drawn with which it ends. -/
  | ended
  /-- The status register was read. -/
  | noticed
  deriving DecidableEq

/-- The mark of an action, if it leaves one. -/
def mark? (p : Ppu) : Action → Option Mark
  | .dot =>
    if p.beam = ⟨241, 1⟩ then some .began else if p.beam = ⟨-1, 1⟩ then some .ended else none
  | .read _ .status => some .noticed
  | _ => none

/-- The marks of a list of actions, in order. -/
def history : Ppu → List Action → List Mark
  | _, [] => []
  | p, a :: acts => (p.mark? a).toList ++ history (p.act a) acts

theorem history_append (p : Ppu) (acts acts' : List Action) :
    p.history (acts ++ acts') = p.history acts ++ (p.actAll acts).history acts' := by
  induction acts generalizing p with
  | nil => rfl
  | cons a acts ih =>
    rw [List.cons_append, history, history, ih, List.append_assoc]
    rfl

/-! ### Single actions -/

/-- **What an action does to the status register.**  The register holds one bit or none. -/
theorem status_act {p : Ppu} (h : p.status.bits = 0 ∨ p.status.bits = 0x80) (a : Action) :
    (p.act a).status.bits =
      match p.mark? a with
      | some .began => 0x80
      | some _ => 0
      | none => p.status.bits := by
  -- Only the bit of the vertical blank is ever set or cleared, so no other appears.
  have hset : p.status.setVblank.bits = 0x80 := by
    obtain h | h := h <;> (rw [Status.setVblank, h]; rfl)
  have hclear : p.status.clearVblank.bits = 0 := by
    obtain h | h := h <;> (rw [Status.clearVblank, h]; rfl)
  cases a with
  | dot =>
    show p.statusAfterDot.bits = _
    unfold statusAfterDot mark?
    simp only [Beam.entersVblank_iff, Beam.leavesVblank_iff]
    -- A dot that ends the vertical blank does not begin it.
    by_cases hend : p.beam = ⟨-1, 1⟩
    · rw [hend]
      exact hclear
    · rw [if_neg hend, if_neg hend]
      split
      · exact hset
      · rfl
  | read cart r =>
    cases r with
    | status => exact hclear
    | _ => rfl
  | write cart r value => exact congrArg (·.2.bits) (p.driven_writeRegister cart r value)
  | writeVideo cart addr value => exact congrArg (·.2.bits) (p.driven_writeVideo cart addr value)
  | peek | takeNmiRequest | takeFrameComplete => rfl

/-- **What an action does to the request line.**  It is raised by the dot with which the vertical
blank begins, if that is enabled, and lowered by whoever takes the request. -/
theorem nmiRequest_act (p : Ppu) (a : Action) :
    (p.act a).nmiRequest =
      match a with
      | .dot => p.nmiRequest || (p.beam == ⟨241, 1⟩ && p.control.nmiEnabled)
      | .takeNmiRequest => false
      | _ => p.nmiRequest := by
  have hline {q : Ppu} (h : q.clockwork = p.clockwork) : q.nmiRequest = p.nmiRequest :=
    congrArg (·.2.1) h
  cases a with
  | dot =>
    show (p.nmiRequest || p.raisesNmi) = _
    rw [raisesNmi, Bool.eq_iff_iff.2 (Beam.entersVblank_iff.trans beq_iff_eq.symm)]
  | read cart r => exact hline (p.clockwork_readRegister cart r)
  | write cart r value => exact hline (p.clockwork_writeRegister cart r value)
  | writeVideo cart addr value => exact hline (p.clockwork_writeVideo cart addr value)
  | peek | takeNmiRequest | takeFrameComplete => rfl

/-- Only dots move the beam. -/
theorem beam_act (p : Ppu) {a : Action} (ha : a ≠ .dot) : (p.act a).beam = p.beam := by
  cases a with
  | dot => exact absurd rfl ha
  | read cart r => exact congrArg (·.1) (p.clockwork_readRegister cart r)
  | write cart r value => exact congrArg (·.1) (p.clockwork_writeRegister cart r value)
  | writeVideo cart addr value => exact congrArg (·.1) (p.clockwork_writeVideo cart addr value)
  | peek | takeNmiRequest | takeFrameComplete => rfl

/-- Dots alone move it on by their number. -/
theorem beam_dots (p : Ppu) (n : Nat) :
    (p.actAll (.replicate n .dot)).beam = p.beam.advanceBy n := by
  induction n generalizing p with
  | zero => rfl
  | succ n ih => exact ih p.dot

/-- What is no dot is marked only as a notice. -/
theorem mark?_of_ne_dot (p : Ppu) {a : Action} (ha : a ≠ .dot) :
    p.mark? a = none ∨ p.mark? a = some .noticed := by
  cases a with
  | dot => exact absurd rfl ha
  | read cart r => cases r <;> first | exact .inr rfl | exact .inl rfl
  | _ => exact .inl rfl

/-! ### Histories -/

/-- The marks of the two dots. -/
def edges (marks : List Mark) : List Mark := marks.filter (· != .noticed)

/-- Register and beam are what the marks say: the register holds the bit if the beginning of the
vertical blank was the last mark, and the beam is in the vertical blank if the beginning was the last
of the two dots.  Before the first of these dots, the beam is at the beginning of a frame. -/
structure Dated (p : Ppu) (marks : List Mark) : Prop where
  inFrame : p.beam.InFrame
  status : p.status.bits = if marks.getLast? = some .began then 0x80 else 0
  edge : ∀ m, (edges marks).getLast? = some m → (p.beam.InVblank ↔ m = .began)
  fresh : edges marks = [] → p.beam.position ≤ 1

theorem dated_powerOn : Dated powerOn [] where
  inFrame := Beam.inFrame_default
  status := rfl
  edge := fun _ hm => absurd hm nofun
  fresh := fun _ => by decide

variable {p : Ppu} {marks : List Mark}

theorem Dated.status_eq (h : Dated p marks) : p.status.bits = 0 ∨ p.status.bits = 0x80 := by
  rw [h.status]
  split
  · exact .inr rfl
  · exact .inl rfl

/-- A dot that leaves a mark is the last of its kind. -/
theorem edges_append_edge (marks : List Mark) {m : Mark} (hm : m ≠ .noticed) :
    edges (marks ++ [m]) = edges marks ++ [m] := by
  rw [edges, List.filter_append]
  exact congrArg (edges marks ++ ·) (List.filter_cons_of_pos (bne_iff_ne.2 hm))

theorem Dated.status_append (h : Dated p marks) (a : Action) : (p.act a).status.bits =
    if (marks ++ (p.mark? a).toList).getLast? = some .began then 0x80 else 0 := by
  rw [status_act h.status_eq]
  -- An action without a mark leaves the last of the marks the last.
  cases hm : p.mark? a with
  | none =>
    rw [Option.toList_none, List.append_nil]
    exact h.status
  | some m =>
    rw [Option.toList_some, List.getLast?_concat]
    cases m <;> rfl

/-- A dot goes on with the history. -/
theorem Dated.dot (h : Dated p marks) : Dated p.dot (marks ++ (p.mark? .dot).toList) := by
  obtain ⟨henter, hleave, hstay⟩ := h.inFrame.inVblank_advance
  have hin : p.dot.beam.InFrame := h.inFrame.advance
  have hstatus := h.status_append .dot
  unfold mark? at hstatus ⊢
  -- The dot begins the vertical blank, ends it, or does neither.
  by_cases hbegan : p.beam = ⟨241, 1⟩
  · rw [if_pos hbegan] at hstatus ⊢
    have hedges := edges_append_edge marks (m := .began) (by decide)
    refine ⟨hin, hstatus, fun m hm => ?_, fun hnone => ?_⟩
    · rw [Option.toList_some, hedges, List.getLast?_concat] at hm
      exact iff_of_true (henter hbegan) (Option.some.inj hm).symm
    · rw [Option.toList_some, hedges] at hnone
      exact absurd hnone (List.concat_ne_nil _ _)
  · by_cases hended : p.beam = ⟨-1, 1⟩
    · rw [if_neg hbegan, if_pos hended] at hstatus ⊢
      have hedges := edges_append_edge marks (m := .ended) (by decide)
      refine ⟨hin, hstatus, fun m hm => ?_, fun hnone => ?_⟩
      · rw [Option.toList_some, hedges, List.getLast?_concat] at hm
        rw [← Option.some.inj hm]
        exact iff_of_false (hleave hended) nofun
      · rw [Option.toList_some, hedges] at hnone
        exact absurd hnone (List.concat_ne_nil _ _)
    · rw [if_neg hbegan, if_neg hended, Option.toList_none, List.append_nil] at hstatus ⊢
      refine ⟨hin, hstatus, fun m hm => (hstay hbegan hended).trans (h.edge m hm), fun hnone => ?_⟩
      -- Nothing is marked, so the beam has not reached the first of the two dots.
      have hfresh := h.fresh hnone
      have hnot := mt h.inFrame.position_eq_iff.2.1 hended
      have hadvance : p.beam.advance.position = (p.beam.position + 1) % 89342 :=
        Beam.position_advance h.inFrame
      obtain ⟨hlow, hhigh⟩ := h.inFrame.position_bounds
      show p.beam.advance.position ≤ 1
      omega

/-- **Register and beam go on agreeing with the marks.** -/
theorem Dated.act (h : Dated p marks) (a : Action) :
    Dated (p.act a) (marks ++ (p.mark? a).toList) := by
  by_cases ha : a = .dot
  · rw [ha]
    exact h.dot
  · have hbeam := p.beam_act ha
    -- No other action leaves a mark of a dot.
    have hedges : edges (marks ++ (p.mark? a).toList) = edges marks := by
      obtain hm | hm := p.mark?_of_ne_dot ha
      · rw [hm, Option.toList_none, List.append_nil]
      · rw [hm, edges, List.filter_append]
        exact List.append_nil _
    refine ⟨?_, h.status_append a, ?_, ?_⟩
    · rw [hbeam]
      exact h.inFrame
    · rw [hbeam, hedges]
      exact h.edge
    · rw [hbeam, hedges]
      exact h.fresh

theorem Dated.actAll (h : Dated p marks) (acts : List Action) :
    Dated (p.actAll acts) (marks ++ p.history acts) := by
  induction acts generalizing p marks with
  | nil =>
    rw [history, List.append_nil]
    exact h
  | cons a acts ih =>
    rw [history, ← List.append_assoc]
    exact ih (h.act a)

/-- **After any actions, register and beam agree with the marks.** -/
theorem dated_history (acts : List Action) : Dated (powerOn.actAll acts) (powerOn.history acts) :=
  dated_powerOn.actAll acts

/-- The bit is set only in the vertical blank. -/
theorem Dated.inVblank (h : Dated p marks) (hset : marks.getLast? = some .began) :
    p.beam.InVblank := by
  obtain ⟨earlier, rfl⟩ := List.getLast?_eq_some_iff.1 hset
  refine (h.edge .began ?_).2 rfl
  rw [edges_append_edge earlier (by decide), List.getLast?_concat]

/-- In the vertical blank the bit is set, unless the register was read since the beginning of a
vertical blank. -/
theorem Dated.getLast?_of_inVblank (h : Dated p marks) (hin : p.beam.InVblank)
    {earlier later : List Mark} (hmarks : marks = earlier ++ .began :: later)
    (hread : .noticed ∉ later) : marks.getLast? = some .began := by
  have hedges : edges marks = edges earlier ++ .began :: later := by
    have hlater : later.filter (· != .noticed) = later := by
      rw [List.filter_eq_self]
      intro m hm
      rw [bne_iff_ne]
      rintro rfl
      exact hread hm
    rw [hmarks, edges, List.filter_append, List.filter_cons_of_pos (by decide), hlater]
    rfl
  -- The last mark is one of a dot, so the position of the beam tells which.
  obtain ⟨m, hm⟩ : ∃ m, (Mark.began :: later).getLast? = some m :=
    ⟨_, List.getLast?_eq_some_getLast (List.cons_ne_nil _ _)⟩
  have hlast : (edges marks).getLast? = some m := by
    rw [hedges, List.getLast?_append, hm]
    rfl
  rw [hmarks, List.getLast?_append, hm, (h.edge m hlast).1 hin]
  rfl

end Ppu

end Nes
