import Nes.Proofs.Console.Access

/-!
# A picture unit with its cartridge

The registers of the picture unit lead to its own memories and to the picture memory of a cartridge,
so what a sequence of accesses does is said of the two together.  Dots come between the accesses.

## Main definitions

* `Picture`: a picture unit and the cartridge that it reaches.
* `Picture.Step`, `Picture.step`, `Picture.answer?`: dots and accesses to registers, what they leave
  and the byte that they give.
* `Picture.stepAll`, `Picture.answers`: many of them in a row.
-/

namespace Nes

namespace Ppu

/-- A write through the data register stores the byte and moves on. -/
theorem writeRegister_videoData (p : Ppu) (cart : Cartridge) (value : UInt8) :
    p.writeRegister cart .videoData value =
      ({ (p.writeVideo cart p.videoAddress value).1 with videoAddress := p.nextVideoAddress },
        (p.writeVideo cart p.videoAddress value).2) :=
  rfl

end Ppu

/-- A picture unit and the cartridge that it reaches. -/
structure Picture where
  /-- The picture unit. -/
  ppu : Ppu
  /-- The cartridge. -/
  cartridge : Cartridge

namespace Picture

/-- What happens to a picture unit in a console: dots, and accesses to its registers. -/
inductive Step
  | dot
  | read (r : Ppu.Register)
  | peek (r : Ppu.Register)
  | write (r : Ppu.Register) (value : UInt8)
  deriving DecidableEq

/-- What a step leaves. -/
def step (s : Picture) : Step → Picture
  | .dot => ⟨s.ppu.dot, s.cartridge⟩
  | .read r => ⟨(s.ppu.readRegister s.cartridge r).2, s.cartridge⟩
  | .peek _ => s
  | .write r value =>
    ⟨(s.ppu.writeRegister s.cartridge r value).1, (s.ppu.writeRegister s.cartridge r value).2⟩

/-- The byte that a step gives, if it is a read or a peek. -/
def answer? (s : Picture) : Step → Option UInt8
  | .read r => some (s.ppu.readRegister s.cartridge r).1
  | .peek r => some (s.ppu.peekRegister s.cartridge r)
  | _ => none

/-- What a list of steps leaves. -/
def stepAll (s : Picture) (l : List Step) : Picture := l.foldl step s

/-- The bytes that a list of steps gives, in order. -/
def answers : Picture → List Step → List UInt8
  | _, [] => []
  | s, a :: l => (s.answer? a).toList ++ answers (s.step a) l

@[simp] theorem stepAll_nil (s : Picture) : s.stepAll [] = s := rfl

@[simp] theorem stepAll_cons (s : Picture) (a : Step) (l : List Step) :
    s.stepAll (a :: l) = (s.step a).stepAll l := rfl

theorem stepAll_append (s : Picture) (l l' : List Step) :
    s.stepAll (l ++ l') = (s.stepAll l).stepAll l' :=
  List.foldl_append

theorem answers_append (s : Picture) (l l' : List Step) :
    s.answers (l ++ l') = s.answers l ++ (s.stepAll l).answers l' := by
  induction l generalizing s with
  | nil => rfl
  | cons a l ih => rw [List.cons_append, answers, answers, ih, List.append_assoc, stepAll_cons]

end Picture

end Nes
