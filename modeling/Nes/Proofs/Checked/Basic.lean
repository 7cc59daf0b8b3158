import Mathlib

/-!
# Computing in fixed widths

In the machine a counter is a word of fixed width and a memory is a sequence of fixed length.  An
index that lies outside its sequence, or a sum, product or difference that does not fit its width,
leaves no way to go on.

A computation in which this is taken seriously ends with a value or with a *trap*.  Where all its
indices lie inside and all its numbers fit, it is the plain computation with unbounded numbers.

## Main definitions

* `Trap`, `Checked`: what can go wrong, and computations that can end with it.
* `Checked.index`, `Checked.unsigned`, `Checked.signed`, `Checked.sub`: the single steps.

## Main statements

* `Checked.index_eq`, `Checked.unsigned_eq`, `Checked.signed_eq`, `Checked.sub_eq`: when a step
  succeeds, and with what.
* `Checked.unsigned_eq_error`: when a number does not fit.
* `Checked.foldlM_eq`: a loop succeeds if its steps do.
-/

namespace Nes

/-- Why a computation cannot go on. -/
inductive Trap
  /-- An index lies outside a sequence. -/
  | outside (index size : Nat)
  /-- A number does not fit its width. -/
  | overflow (value : Int)
  deriving DecidableEq, Repr

/-- A computation that may end with a trap. -/
abbrev Checked (α : Type) := Except Trap α

namespace Checked

/-! ### Steps -/

/-- An index into a sequence of the given length. -/
def index (size i : Nat) : Checked (Fin size) :=
  if h : i < size then .ok ⟨i, h⟩ else .error (.outside i size)

/-- A number without a sign, in a word of the given width. -/
def unsigned (width value : Nat) : Checked Nat :=
  if value < 2 ^ width then .ok value else .error (.overflow value)

/-- A number with a sign, in a word of the given width. -/
def signed (width : Nat) (value : Int) : Checked Int :=
  if -2 ^ (width - 1) ≤ value ∧ value < 2 ^ (width - 1) then .ok value
  else .error (.overflow value)

/-- The difference of two numbers without a sign. -/
def sub (a b : Nat) : Checked Nat :=
  if b ≤ a then .ok (a - b) else .error (.overflow (a - b : Int))

theorem index_eq {size i : Nat} (h : i < size) : index size i = .ok ⟨i, h⟩ := dif_pos h

theorem unsigned_eq {width value : Nat} (h : value < 2 ^ width) :
    unsigned width value = .ok value := if_pos h

theorem unsigned_eq_error {width value : Nat} (h : 2 ^ width ≤ value) :
    unsigned width value = .error (.overflow value) := if_neg (Nat.not_lt_of_le h)

theorem signed_eq {width : Nat} {value : Int} (hlow : -2 ^ (width - 1) ≤ value)
    (hhigh : value < 2 ^ (width - 1)) : signed width value = .ok value := if_pos ⟨hlow, hhigh⟩

theorem sub_eq {a b : Nat} (h : b ≤ a) : sub a b = .ok (a - b) := if_pos h

/-! ### Computations -/

/-- A step that succeeds goes on with its value. -/
@[simp] theorem ok_bind {α γ : Type} (a : α) (f : α → Checked γ) :
    (Except.ok a : Checked α) >>= f = f a := rfl

/-- A computation without steps succeeds. -/
@[simp] theorem pure_eq {α : Type} (a : α) : (pure a : Checked α) = .ok a := rfl

/-- A loop whose steps all succeed is a loop without checks. -/
theorem foldlM_eq {α σ : Type} {step : σ → α → Checked σ} {plain : σ → α → σ}
    (h : ∀ s a, step s a = .ok (plain s a)) (l : List α) (s : σ) :
    l.foldlM step s = .ok (l.foldl plain s) := by
  have hstep : step = fun s a => pure (plain s a) := by
    funext s a
    exact h s a
  rw [hstep, List.foldlM_pure]
  rfl

end Checked

end Nes
