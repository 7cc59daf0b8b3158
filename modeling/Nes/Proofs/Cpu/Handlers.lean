import Nes.Proofs.Cpu.BusTrace

/-!
# Handlers that are entered

A cycle enters the handler of a hardware interrupt or it does not, and whether it does is known
before the cycle.  The path of the cycle tells it, and of the two latches the cycle clears the one of
the handler that it enters.

An instruction that enters a handler by itself is told as an instruction, and is none of these.

## Main definitions

* `handlers`: the handlers that are entered on a path, by their vectors.
* `Cpu.taken?`: the handler that the next cycle enters.

## Main statements

* `Cpu.TickPath.handlers`: a cycle enters the handler that it is expected to enter, and clears its
  latch.
* `Cpu.TickPath.entryPath`: what is on the path of such a cycle.
-/

namespace Nes

/-! ### Handlers on a path -/

/-- The handler that was entered, by its vector. -/
def Activity.handler? : Activity → Option UInt16
  | .event (.interruptTaken vector _) => some vector
  | _ => none

/-- The handlers that are entered on a path, in order. -/
def handlers (t : List Activity) : List UInt16 := t.filterMap Activity.handler?

theorem handlers_append (t t' : List Activity) : handlers (t ++ t') = handlers t ++ handlers t' :=
  List.filterMap_append

/-- Accesses enter no handlers. -/
theorem handlers_of_accesses {t : List Activity} (h : t.filter Activity.isAccess = t) :
    handlers t = [] := by
  rw [handlers, List.filterMap_eq_nil_iff]
  intro a ha
  have haccess := List.filter_eq_self.1 h a ha
  cases a with
  | read addr value => rfl
  | write addr value => rfl
  | event e => exact absurd haccess Bool.false_ne_true

namespace Cpu

-- The opcode matrix is looked up in, and never evaluated, when a cycle is taken apart.
attribute [local irreducible] OpcodeMatrix.entries

/-! ### A cycle -/

/-- The handler that the next cycle enters, by its vector. -/
def taken? (cpu : Cpu) : Option UInt16 :=
  if cpu.halted.isNone && cpu.atBoundary then cpu.nextInterrupt? else none

theorem taken?_of_starts {cpu : Cpu} (h : cpu.Starts) : cpu.taken? = cpu.nextInterrupt? := by
  have hb : (cpu.halted.isNone && cpu.atBoundary) = true := by
    rw [h.1, atBoundary_iff.2 h.2]
    rfl
  rw [taken?, if_pos hb]

theorem taken?_of_not_starts {cpu : Cpu} (h : ¬cpu.Starts) : cpu.taken? = none := by
  rw [taken?, if_neg]
  rw [Bool.and_eq_true, Option.isNone_iff_eq_none, atBoundary_iff]
  exact h

/-- **A cycle enters the handler that it is expected to enter**, and of the two latches it clears
the one of that handler. -/
theorem TickPath.handlers {cpu : Cpu} {t : List Activity} {o : Ticked} (h : TickPath cpu t o) :
    Nes.handlers t = cpu.taken?.toList ∧
      o.cpu.pendingNmi = (cpu.pendingNmi && cpu.taken? != some nmiVector) ∧
      o.cpu.pendingIrq = (cpu.pendingIrq && cpu.taken? != some irqVector) := by
  cases h with
  | halted hh =>
    have htaken := taken?_of_not_starts fun (hs : cpu.Starts) =>
      Option.some_ne_none _ (hh.symm.trans hs.1)
    rw [htaken]
    exact ⟨rfl, (Bool.and_true _).symm, (Bool.and_true _).symm⟩
  | countDown hh hc =>
    have htaken := taken?_of_not_starts fun (hs : cpu.Starts) => hc hs.2
    rw [htaken]
    exact ⟨rfl, (Bool.and_true _).symm, (Bool.and_true _).symm⟩
  | nmi hh hc hn low high =>
    rw [taken?_of_starts ⟨hh, hc⟩, hn]
    exact ⟨rfl, (Bool.and_false _).symm, (Bool.and_true _).symm⟩
  | irq hh hc hn low high =>
    rw [taken?_of_starts ⟨hh, hc⟩, hn]
    exact ⟨rfl, (Bool.and_true _).symm, (Bool.and_false _).symm⟩
  | @executed hh hc hn opcode i hi found acts op r extra hop hact =>
    -- Instructions tell nothing of handlers, not even the one that enters a handler by itself.
    obtain ⟨hf, ha⟩ := finds_and_acts hi hop hact
    have hnone : Nes.handlers (found ++ acts) = [] := by
      apply handlers_of_accesses
      rw [List.filter_append, hf.isAccess, ha.isAccess]
    rw [taken?_of_starts ⟨hh, hc⟩, hn]
    exact ⟨hnone, (Bool.and_true _).symm, (Bool.and_true _).symm⟩
  | undocumented hh hc hn hi =>
    rw [taken?_of_starts ⟨hh, hc⟩, hn]
    exact ⟨rfl, (Bool.and_true _).symm, (Bool.and_true _).symm⟩

/-- A path that enters a handler pushes a frame, reads the vector and tells it. -/
theorem TickPath.entryPath {cpu : Cpu} {t : List Activity} {o : Ticked} (h : TickPath cpu t o)
    {vector : UInt16} (htaken : cpu.taken? = some vector) : ∃ low high,
    t = cpu.ready.entryPath vector false low high ++
        [.event (.interruptTaken vector (wordOf low high))] ∧
      o.cpu.registers = cpu.ready.entered (wordOf low high) := by
  have hs : cpu.Starts := Classical.byContradiction fun hs => by
    rw [taken?_of_not_starts hs] at htaken
    exact absurd htaken nofun
  have hnext := (taken?_of_starts hs).symm.trans htaken
  cases h with
  | halted hh => exact absurd (hh.symm.trans hs.1) nofun
  | countDown hh hc => exact absurd hs.2 hc
  | nmi hh hc hn low high =>
    rw [← Option.some.inj (hn.symm.trans hnext)]
    exact ⟨low, high, rfl, rfl⟩
  | irq hh hc hn low high =>
    rw [← Option.some.inj (hn.symm.trans hnext)]
    exact ⟨low, high, rfl, rfl⟩
  | executed hh hc hn => exact absurd (hn.symm.trans hnext) nofun
  | undocumented hh hc hn => exact absurd (hn.symm.trans hnext) nofun

/-- **A non-maskable interrupt goes first.** -/
theorem taken?_eq_nmi_iff {cpu : Cpu} :
    cpu.taken? = some nmiVector ↔ cpu.Starts ∧ cpu.pendingNmi = true := by
  by_cases hs : cpu.Starts
  · rw [taken?_of_starts hs, nextInterrupt?_eq_nmi_iff]
    exact (and_iff_right hs).symm
  · rw [taken?_of_not_starts hs]
    exact ⟨nofun, fun h => absurd h.1 hs⟩

end Cpu

end Nes
