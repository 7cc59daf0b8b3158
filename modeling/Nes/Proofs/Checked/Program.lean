import Nes.Console.AddressSpace
import Nes.Proofs.Bus.Path
import Nes.Proofs.Checked.Picture

/-!
# Bus programs in fixed widths

The processor reaches the work RAM by an index that keeps eleven bits of an address, and the
registers of the picture unit as described before.  What a cartridge claims lies inside its memory.

A bus program in fixed widths is a bus program that ends with a value or with a trap.  It is run on
an address space in which every access is checked as well.

## Main definitions

* `Checked.read`, `Checked.peek`, `Checked.write`: accesses of the processor.
* `Checked.Process`, `Checked.run`: bus programs that can be trapped, and running them.
* `Checked.sure`, `Checked.settle`: programs that are not trapped, and steps without access.

## Main statements

* `Checked.read_eq`, `Checked.peek_eq`, `Checked.write_eq`: no access is trapped.
* `Checked.run_sure`: a program that is not trapped runs as it does without checks.
* `Checked.sure_bind_eq`: what follows a program has to be shown safe only for its values.
-/

namespace Nes

namespace BusM

/-- Two ways to go on after a program are the same if they are so for every value with which the
program can end. -/
theorem bind_congr_of_follows {α γ : Type} {x : BusM α} {f g : α → BusM γ}
    (h : ∀ t a, x.Follows t a → f a = g a) : x >>= f = x >>= g := by
  induction x with
  | done a => exact h [] a ⟨rfl, rfl⟩
  | read addr next ih =>
    rw [read_bind, read_bind]
    congr 1
    funext v
    exact ih v fun t a hfollows => h (.read addr v :: t) a ⟨v, t, rfl, hfollows⟩
  | write addr value next ih =>
    rw [write_bind, write_bind]
    exact congrArg _ (ih fun t a hfollows => h (.write addr value :: t) a ⟨t, rfl, hfollows⟩)
  | note e next ih =>
    rw [note_bind, note_bind]
    exact congrArg _ (ih fun t a hfollows => h (.event e :: t) a ⟨t, rfl, hfollows⟩)

end BusM

namespace Checked

/-! ### Accesses of the processor -/

/-- The cell of the work RAM behind an address. -/
def ramCell (addr : UInt16) : Checked (Fin 0x800) := index 0x800 (addr.toNat &&& (0x800 - 1))

theorem ramCell_eq (addr : UInt16) : ramCell addr = .ok (WorkRam.cell addr) := by
  have hlow : addr.toNat &&& (0x800 - 1) = addr.toNat % 0x800 :=
    Nat.and_two_pow_sub_one_eq_mod addr.toNat 11
  rw [ramCell, hlow]
  exact index_eq (Nat.mod_lt _ (by decide))

/-- Reads a byte. -/
def read (s : AddressSpace) (addr : UInt16) : Checked (UInt8 × AddressSpace) :=
  match s.target addr with
  | .prg cell => pure (s.cartridge.prg.getD cell 0, s)
  | .ram => do
    let cell ← ramCell addr
    pure (s.ram.cells.get cell, s)
  | .register r => do
    let (value, ppu) ← readRegister s.ppu s.cartridge r
    pure (value, { s with ppu := ppu })
  | .unmapped => pure (0, s)

/-- The byte at an address, without side effects. -/
def peek (s : AddressSpace) (addr : UInt16) : Checked UInt8 :=
  match s.target addr with
  | .prg cell => pure (s.cartridge.prg.getD cell 0)
  | .ram => do
    let cell ← ramCell addr
    pure (s.ram.cells.get cell)
  | .register r => peekRegister s.ppu s.cartridge r
  | .unmapped => pure 0

/-- Writes a byte. -/
def write (s : AddressSpace) (addr : UInt16) (value : UInt8) : Checked AddressSpace :=
  match s.target addr with
  | .prg cell => pure { s with cartridge := s.cartridge.setPrg cell value }
  | .ram => do
    let ⟨cell, h⟩ ← ramCell addr
    pure { s with ram := ⟨s.ram.cells.set cell value h⟩ }
  | .register r => do
    let (ppu, cartridge) ← writeRegister s.ppu s.cartridge r value
    pure { s with ppu := ppu, cartridge := cartridge }
  | .unmapped => pure s

/-- **No read is trapped.** -/
theorem read_eq (s : AddressSpace) (addr : UInt16) : read s addr = .ok (s.read addr) := by
  unfold read AddressSpace.read
  cases s.target addr with
  | prg cell => rfl
  | ram =>
    dsimp only
    rw [ramCell_eq]
    rfl
  | register r =>
    dsimp only
    rw [readRegister_eq]
    rfl
  | unmapped => rfl

theorem peek_eq (s : AddressSpace) (addr : UInt16) : peek s addr = .ok (s.peek addr) := by
  unfold peek AddressSpace.peek
  cases s.target addr with
  | prg cell => rfl
  | ram =>
    dsimp only
    rw [ramCell_eq]
    rfl
  | register r => exact peekRegister_eq s.ppu s.cartridge r
  | unmapped => rfl

/-- **Nor is a write.** -/
theorem write_eq (s : AddressSpace) (addr : UInt16) (value : UInt8) :
    write s addr value = .ok (s.write addr value) := by
  unfold write AddressSpace.write
  cases s.target addr with
  | prg cell => rfl
  | ram =>
    dsimp only
    rw [ramCell_eq]
    rfl
  | register r =>
    dsimp only
    rw [writeRegister_eq]
    rfl
  | unmapped => rfl

/-- Writes bytes to addresses in order, and what that tells. -/
def writeAll (s : AddressSpace) (writes : List (UInt16 × UInt8)) :
    Checked (AddressSpace × Array Event) :=
  writes.foldlM (fun (s, told) (addr, value) => do
    let events := s.writeEvents addr value
    let s ← write s addr value
    pure (s, told ++ events)) (s, #[])

theorem writeAll_eq (s : AddressSpace) (writes : List (UInt16 × UInt8)) :
    writeAll s writes = .ok (s.writeAll writes) := by
  refine foldlM_eq (fun (s, told) (addr, value) => ?_) writes (s, #[])
  dsimp only
  rw [write_eq]
  rfl

/-! ### Programs -/

/-- A bus program that ends with a value or with a trap. -/
abbrev Process := ExceptT Trap BusM

variable {α γ : Type}

/-- A program without checks. -/
def sure (x : BusM α) : Process α := ExceptT.lift x

/-- A step without access. -/
def settle (x : Checked α) : Process α := ExceptT.mk (pure x)

/-- Runs a program on an address space.  An access that is trapped, or the program itself, ends the
run. -/
def run (x : Process α) : AddressSpace → Checked (Outcome α AddressSpace) :=
  follow x.run
where
  /-- Runs a program up to its value or trap. -/
  follow : BusM (Checked α) → AddressSpace → Checked (Outcome α AddressSpace)
    | .done result, s => do
      let value ← result
      pure ⟨value, s, []⟩
    | .read addr next, s => do
      let (v, s) ← read s addr
      let o ← follow (next v) s
      pure { o with trace := .read addr v :: o.trace }
    | .write addr value next, s => do
      let told := s.writeEvents addr value
      let s ← write s addr value
      let o ← follow next s
      pure { o with trace := .write addr value :: (told.map .event ++ o.trace) }
    | .note e next, s => do
      let o ← follow next s
      pure { o with trace := .event e :: o.trace }

/-- **A program that is not trapped runs as it does without checks.** -/
theorem run_sure (x : BusM α) (s : AddressSpace) : run (sure x) s = .ok (x.run s) := by
  show run.follow (Except.ok <$> x) s = .ok (x.run s)
  induction x generalizing s with
  | done a => rfl
  | read addr next ih =>
    rw [BusM.map_read, run.follow, read_eq, ok_bind]
    show (run.follow (Except.ok <$> next (s.read addr).1) (s.read addr).2 >>= _) = _
    rw [ih]
    rfl
  | write addr value next ih =>
    rw [BusM.map_write, run.follow, write_eq, ok_bind, ih]
    rfl
  | note e next ih =>
    rw [BusM.map_note, run.follow, ih]
    rfl

/-- A step that succeeds goes on with its value. -/
theorem settle_ok_bind (a : α) (f : α → Process γ) : settle (.ok a) >>= f = f a := rfl

/-- What follows a program has to be shown safe only for the values with which the program can
end. -/
theorem sure_bind_eq {x : BusM α} {f : α → Process γ} {g : α → BusM γ}
    (h : ∀ t a, x.Follows t a → f a = sure (g a)) : sure x >>= f = sure (x >>= g) := by
  have hleft : sure x >>= f = ExceptT.mk (x >>= fun a => (f a).run) := by
    show ExceptT.mk (Except.ok <$> x >>= ExceptT.bindCont f) = _
    rw [bind_map_left]
    rfl
  have hright : sure (x >>= g) = ExceptT.mk (x >>= fun a => (sure (g a)).run) := by
    show ExceptT.mk (Except.ok <$> (x >>= g)) = _
    rw [map_bind]
    rfl
  rw [hleft, hright]
  refine congrArg ExceptT.mk (BusM.bind_congr_of_follows fun t a hfollows => ?_)
  rw [h t a hfollows]

end Checked

end Nes
