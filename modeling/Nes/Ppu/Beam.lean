/-!
# The beam

The picture unit draws one dot per cycle.  A line has 341 dots, and a frame has 262 lines, numbered
from the pre-render line `-1` to line `260`.  The vertical blank begins at the second dot of line
`241` and ends at the second dot of the pre-render line.

## Main definitions

* `Beam`: the dot that is drawn next.
* `Beam.advance`: the dot after it.
* `Beam.position`: the number of dots drawn in the current frame.
-/

namespace Nes

/-- The dot that is drawn next; the default is the first of a frame. -/
structure Beam where
  /-- The line of the dot. -/
  scanline : Int := -1
  /-- The place of the dot in its line. -/
  cycle : Nat := 0
  deriving DecidableEq, Repr, Inhabited

namespace Beam

/-- The number of dots in a line. -/
def lineLength : Nat := 341

/-- The line with which a frame begins. -/
def preRenderLine : Int := -1

/-- The line in which the vertical blank begins. -/
def vblankLine : Int := 241

/-- The line with which a frame ends. -/
def lastLine : Int := 260

/-- The number of dots in a frame. -/
def frameLength : Nat := 89342

/-- The number of dots drawn in the current frame. -/
def position (b : Beam) : Int := lineLength * (b.scanline - preRenderLine) + b.cycle

/-- The dot lies in the frame. -/
def InFrame (b : Beam) : Prop :=
  preRenderLine ≤ b.scanline ∧ b.scanline ≤ lastLine ∧ b.cycle < lineLength

instance (b : Beam) : Decidable b.InFrame := inferInstanceAs (Decidable (_ ∧ _ ∧ _))

/-- The vertical blank begins at this dot. -/
def entersVblank (b : Beam) : Bool := b.cycle == 1 && b.scanline == vblankLine

/-- The vertical blank ends at this dot. -/
def leavesVblank (b : Beam) : Bool := b.cycle == 1 && b.scanline == preRenderLine

/-- This dot is the last of the frame. -/
def endsFrame (b : Beam) : Bool := lineLength ≤ b.cycle + 1 && lastLine < b.scanline + 1

/-- The dot after this one. -/
def advance (b : Beam) : Beam :=
  if b.cycle + 1 < lineLength then { b with cycle := b.cycle + 1 }
  else if b.scanline + 1 ≤ lastLine then ⟨b.scanline + 1, 0⟩
  else ⟨preRenderLine, 0⟩

/-- The dot a number of dots after this one. -/
def advanceBy (b : Beam) : (n : Nat) → Beam
  | 0 => b
  | n + 1 => b.advance.advanceBy n

theorem inFrame_default : ({} : Beam).InFrame := by decide

/-- The dot after one in the frame is in the frame. -/
theorem InFrame.advance {b : Beam} (h : b.InFrame) : b.advance.InFrame := by
  fun_cases Beam.advance b <;>
    simp only [InFrame, lineLength, lastLine, preRenderLine] at * <;> omega

/-- The position lies in the frame. -/
theorem InFrame.position_bounds {b : Beam} (h : b.InFrame) :
    0 ≤ b.position ∧ b.position < 89342 := by
  simp only [InFrame, position, preRenderLine, lastLine, lineLength] at *
  omega

/-- The position determines the dot. -/
theorem InFrame.eq_of_position {b b' : Beam} (h : b.InFrame) (h' : b'.InFrame)
    (hp : b.position = b'.position) : b = b' := by
  obtain ⟨scanline, cycle⟩ := b
  obtain ⟨scanline', cycle'⟩ := b'
  simp only [InFrame, position, preRenderLine, lastLine, lineLength] at h h' hp
  rw [mk.injEq]
  omega

/-- Advancing moves on by one dot, from the last dot of a frame to the first of the next. -/
theorem position_advance {b : Beam} (h : b.InFrame) :
    b.advance.position = (b.position + 1) % frameLength := by
  fun_cases Beam.advance b <;>
    simp only [InFrame, position, lineLength, lastLine, preRenderLine, frameLength] at * <;> omega

/-- Many dots move on by their number, in a circle. -/
theorem InFrame.advanceBy {b : Beam} (h : b.InFrame) (n : Nat) :
    (b.advanceBy n).InFrame ∧ (b.advanceBy n).position = (b.position + n) % 89342 := by
  obtain ⟨hlow, hhigh⟩ := h.position_bounds
  induction n generalizing b with
  | zero =>
    refine ⟨h, ?_⟩
    show b.position = _
    omega
  | succ n ih =>
    have hone : b.advance.position = (b.position + 1) % 89342 := position_advance h
    obtain ⟨hlow', hhigh'⟩ := h.advance.position_bounds
    obtain ⟨hin, hrest⟩ := ih h.advance hlow' hhigh'
    refine ⟨hin, hrest.trans ?_⟩
    omega

/-- A frame ends with a dot if the position of the next reaches the length of a frame. -/
theorem toNat_endsFrame {b : Beam} (h : b.InFrame) :
    (b.endsFrame.toNat : Int) = (b.position + 1) / frameLength := by
  obtain ⟨hlow, hhigh, hcycle⟩ := h
  have hends : b.endsFrame = true ↔ b.cycle = 340 ∧ b.scanline = 260 := by
    rw [endsFrame, Bool.and_eq_true, decide_eq_true_eq, decide_eq_true_eq]
    simp only [lineLength, lastLine] at hhigh hcycle ⊢
    omega
  simp only [position, lineLength, preRenderLine, lastLine, frameLength] at hlow hhigh hcycle ⊢
  cases he : b.endsFrame with
  | true =>
    obtain ⟨hlast, hline⟩ := hends.1 he
    rw [hlast, hline]
    rfl
  | false =>
    rw [he] at hends
    have hnot : ¬(b.cycle = 340 ∧ b.scanline = 260) := fun hlast =>
      Bool.false_ne_true (hends.2 hlast)
    rw [Bool.toNat_false]
    omega

end Beam

end Nes
