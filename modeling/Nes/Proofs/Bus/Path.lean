import Nes.Bus.Basic

/-!
# Paths through bus programs

What a program does on a bus depends on the bytes that its reads give.  A *path* records those
bytes: it is the list of the accesses and events of the program itself, and it determines how the
program goes on.  A property that holds of every path through a program therefore holds on every
bus, whatever side effects its reads have.

Running a program takes one of its paths.  The trace of the run holds, besides the path, the events
that the bus tells when it is written to.

## Main definitions

* `BusM.Follows x t a`: the program `x` can take the path `t` and end with the value `a`.
* `BusM.path`: the path that a program takes on a bus.
* `Bus.Leads b t b'`: the accesses of `t` are possible on the bus `b`, give the bytes recorded in
  `t` and leave the bus `b'`.
* `Activity.Within P`, `Activity.WritesTo P`: an access, or a write at least, is made to an address
  with the property `P`.

## Main statements

* `BusM.follows_path`: running a program takes one of its paths.
* `BusM.filter_trace`: apart from the events of the bus, the trace of a run is that path.
* `BusM.path_bind`: paths follow the monad structure.
* `BusM.leads_path`: the path of a run accounts for all that happens to the bus.
* `BusM.run_preserves`: what no access changes is not changed by a run.
* `BusM.run_related_while`, `BusM.run_related_within`, `BusM.run_related`: what no access tells
  apart is not told apart by a run.
-/

namespace Nes

/-- The accesses among the activities `t` are possible on the bus `b` in this order, reads give the
recorded bytes, and the bus is `b'` afterwards. -/
def Bus.Leads {β : Type} [Bus β] : β → List Activity → β → Prop
  | b, [], b' => b = b'
  | b, .read addr v :: t, b' => (Bus.read b addr).1 = v ∧ Bus.Leads (Bus.read b addr).2 t b'
  | b, .write addr v :: t, b' => Bus.Leads (Bus.write b addr v) t b'
  | b, .event _ :: t, b' => Bus.Leads b t b'

namespace Bus

variable {β : Type} [Bus β]

/-- Activities can be made one part after the other. -/
theorem leads_append {b b' : β} {t₁ t₂ : List Activity} :
    Leads b (t₁ ++ t₂) b' ↔ ∃ b₁, Leads b t₁ b₁ ∧ Leads b₁ t₂ b' := by
  induction t₁ generalizing b with
  | nil => exact ⟨fun h => ⟨b, rfl, h⟩, fun ⟨_, rfl, h⟩ => h⟩
  | cons a t₁ ih =>
    cases a with
    | read addr v =>
      simp only [List.cons_append, Leads, ih]
      exact ⟨fun ⟨hv, b₁, h₁, h₂⟩ => ⟨b₁, ⟨hv, h₁⟩, h₂⟩, fun ⟨b₁, ⟨hv, h₁⟩, h₂⟩ => ⟨hv, b₁, h₁, h₂⟩⟩
    | write addr v => exact ih
    | event e => exact ih

/-- Events do nothing to the bus. -/
theorem leads_filter_isAccess {b b' : β} {t : List Activity} :
    Leads b (t.filter Activity.isAccess) b' ↔ Leads b t b' := by
  induction t generalizing b with
  | nil => rfl
  | cons a t ih =>
    cases a with
    | read addr v => exact and_congr_right fun _ => ih
    | write addr v => exact ih
    | event e => exact ih

end Bus

/-- A bus that holds a byte at each address, and keeps it. -/
abbrev Bus.holding (byteAt : UInt16 → UInt8) : Bus Unit where
  read _ addr := (byteAt addr, ())
  write _ _ _ := ()
  peek _ addr := byteAt addr

/-- The address of an access is one of these. -/
def Activity.Within (P : UInt16 → Prop) : Activity → Prop
  | .read addr _ => P addr
  | .write addr _ => P addr
  | .event _ => True

/-- A write is made to one of these addresses. -/
def Activity.WritesTo (P : UInt16 → Prop) : Activity → Prop
  | .write addr _ => P addr
  | _ => True

theorem Activity.writesTo_of_forall {P : UInt16 → Prop} (h : ∀ addr, P addr) (a : Activity) :
    a.WritesTo P := by
  cases a with
  | write addr value => exact h addr
  | read addr value => trivial
  | event e => trivial

namespace BusM

variable {α γ : Type}

/-- The program `x` can take the path `t` and end with the value `a`. -/
def Follows : BusM α → List Activity → α → Prop
  | done b, t, a => t = [] ∧ b = a
  | read addr next, t, a => ∃ v t', t = .read addr v :: t' ∧ (next v).Follows t' a
  | write addr value next, t, a => ∃ t', t = .write addr value :: t' ∧ next.Follows t' a
  | note e next, t, a => ∃ t', t = .event e :: t' ∧ next.Follows t' a

@[simp] theorem follows_done {b a : α} {t : List Activity} :
    (BusM.done b).Follows t a ↔ t = [] ∧ b = a := Iff.rfl

@[simp] theorem follows_pure {b a : α} {t : List Activity} :
    (pure b : BusM α).Follows t a ↔ t = [] ∧ b = a := Iff.rfl

@[simp] theorem follows_read {addr : UInt16} {next : UInt8 → BusM α} {t : List Activity} {a : α} :
    (BusM.read addr next).Follows t a ↔
      ∃ v t', t = .read addr v :: t' ∧ (next v).Follows t' a := Iff.rfl

@[simp] theorem follows_write {addr : UInt16} {value : UInt8} {next : BusM α} {t : List Activity}
    {a : α} :
    (BusM.write addr value next).Follows t a ↔
      ∃ t', t = .write addr value :: t' ∧ next.Follows t' a := Iff.rfl

@[simp] theorem follows_note {e : Event} {next : BusM α} {t : List Activity} {a : α} :
    (BusM.note e next).Follows t a ↔ ∃ t', t = .event e :: t' ∧ next.Follows t' a := Iff.rfl

@[simp] theorem follows_readByte {addr : UInt16} {t : List Activity} {a : UInt8} :
    (readByte addr).Follows t a ↔ t = [.read addr a] := by
  simp only [readByte, follows_read, follows_done]
  constructor
  · rintro ⟨v, t', rfl, rfl, rfl⟩
    rfl
  · rintro rfl
    exact ⟨a, [], rfl, rfl, rfl⟩

@[simp] theorem follows_writeByte {addr : UInt16} {value : UInt8} {t : List Activity} {a : Unit} :
    (writeByte addr value).Follows t a ↔ t = [.write addr value] := by
  simp [writeByte]

@[simp] theorem follows_tell {e : Event} {t : List Activity} {a : Unit} :
    (tell e).Follows t a ↔ t = [.event e] := by
  simp [tell]

/-- A path through one program after another is a path through the first and then one through the
second. -/
@[simp] theorem follows_bind {x : BusM α} {f : α → BusM γ} {t : List Activity} {c : γ} :
    (x >>= f).Follows t c ↔ ∃ a t₁ t₂, t = t₁ ++ t₂ ∧ x.Follows t₁ a ∧ (f a).Follows t₂ c := by
  -- By induction on the first program: each of its nodes is the first activity of both paths.
  induction x generalizing t with
  | done a =>
    constructor
    · intro h
      exact ⟨a, [], t, rfl, ⟨rfl, rfl⟩, h⟩
    · rintro ⟨_, _, t₂, rfl, ⟨rfl, rfl⟩, h⟩
      exact h
  | read addr next ih =>
    simp only [read_bind, follows_read, ih]
    constructor
    · rintro ⟨v, _, rfl, a, t₁, t₂, rfl, h₁, h₂⟩
      exact ⟨a, .read addr v :: t₁, t₂, rfl, ⟨v, t₁, rfl, h₁⟩, h₂⟩
    · rintro ⟨a, _, t₂, rfl, ⟨v, t₁, rfl, h₁⟩, h₂⟩
      exact ⟨v, t₁ ++ t₂, rfl, a, t₁, t₂, rfl, h₁, h₂⟩
  | write addr value next ih =>
    simp only [write_bind, follows_write, ih]
    constructor
    · rintro ⟨_, rfl, a, t₁, t₂, rfl, h₁, h₂⟩
      exact ⟨a, .write addr value :: t₁, t₂, rfl, ⟨t₁, rfl, h₁⟩, h₂⟩
    · rintro ⟨a, _, t₂, rfl, ⟨t₁, rfl, h₁⟩, h₂⟩
      exact ⟨t₁ ++ t₂, rfl, a, t₁, t₂, rfl, h₁, h₂⟩
  | note e next ih =>
    simp only [note_bind, follows_note, ih]
    constructor
    · rintro ⟨_, rfl, a, t₁, t₂, rfl, h₁, h₂⟩
      exact ⟨a, .event e :: t₁, t₂, rfl, ⟨t₁, rfl, h₁⟩, h₂⟩
    · rintro ⟨a, _, t₂, rfl, ⟨t₁, rfl, h₁⟩, h₂⟩
      exact ⟨t₁ ++ t₂, rfl, a, t₁, t₂, rfl, h₁, h₂⟩

theorem follows_readWordAt {low high value : UInt16} {t : List Activity} :
    (readWordAt readByte low high).Follows t value ↔ ∃ l u,
      t = [.read low l, .read high u] ∧ value = wordOf l u := by
  simp only [readWordAt, follows_bind, follows_readByte, follows_pure]
  constructor
  · rintro ⟨l, _, _, rfl, rfl, u, _, _, rfl, rfl, rfl, rfl⟩
    exact ⟨l, u, rfl, rfl⟩
  · rintro ⟨l, u, rfl, rfl⟩
    exact ⟨l, _, _, rfl, rfl, u, _, _, rfl, rfl, rfl, rfl⟩

theorem follows_readWord {addr value : UInt16} {t : List Activity} :
    (readWord addr).Follows t value ↔ ∃ low high,
      t = [.read addr low, .read (addr + 1) high] ∧ value = wordOf low high :=
  follows_readWordAt

/-! ### Running takes a path -/

variable {β : Type} [Bus β]

/-- The path that a program takes on a bus. -/
def path : BusM α → β → List Activity
  | done _, _ => []
  | read addr next, bus => .read addr (Bus.read bus addr).1 ::
      (next (Bus.read bus addr).1).path (Bus.read bus addr).2
  | write addr value next, bus => .write addr value :: next.path (Bus.write bus addr value)
  | note e next, bus => .event e :: next.path bus

/-- **Running a program takes one of its paths.** -/
theorem follows_path (x : BusM α) (bus : β) : x.Follows (x.path bus) (x.run bus).value := by
  induction x generalizing bus with
  | done a => exact ⟨rfl, rfl⟩
  | read addr next ih => exact ⟨_, _, rfl, ih _ _⟩
  | write addr value next ih => exact ⟨_, rfl, ih _⟩
  | note e next ih => exact ⟨_, rfl, ih _⟩

/-- The path through one program after another is the path through the first and then, on the bus
that this leaves, the one through the second. -/
theorem path_bind (x : BusM α) (f : α → BusM γ) (bus : β) :
    (x >>= f).path bus = x.path bus ++ (f (x.run bus).value).path (x.run bus).bus := by
  induction x generalizing bus with
  | done a => rfl
  | read addr next ih => rw [read_bind, path, path, ih, run_read, List.cons_append]
  | write addr value next ih => rw [write_bind, path, path, ih, run_write, List.cons_append]
  | note e next ih => rw [note_bind, path, path, ih, run_note, List.cons_append]

/-- Activities of a kind to which no event of the bus belongs appear in the trace of a run as they
appear on its path. -/
theorem filter_trace (p : Activity → Bool)
    (hp : ∀ (bus : β) addr value, ∀ e ∈ Bus.writeEvents bus addr value, p (.event e) = false)
    (x : BusM α) (bus : β) : (x.run bus).trace.filter p = (x.path bus).filter p := by
  induction x generalizing bus with
  | done a => rfl
  | read addr next ih => rw [run_read, path, List.filter_cons, List.filter_cons, ih]
  | write addr value next ih =>
    -- What the bus tells of the write is not of the kind.
    have hnone : ((Bus.writeEvents bus addr value).map Activity.event).filter p = [] := by
      rw [List.filter_eq_nil_iff]
      intro a ha
      obtain ⟨e, he, rfl⟩ := List.mem_map.1 ha
      rw [hp bus addr value e he]
      exact Bool.false_ne_true
    rw [run_write, path, List.filter_cons, List.filter_cons, List.filter_append, hnone, ih]
    rfl
  | note e next ih => rw [run_note, path, List.filter_cons, List.filter_cons, ih]

/-- The accesses of a run are those on its path. -/
theorem accesses_run (x : BusM α) (bus : β) :
    (x.run bus).accesses = (x.path bus).filter Activity.isAccess :=
  filter_trace _ (fun _ _ _ _ _ => rfl) x bus

/-- All accesses of a run are such if all activities on its path are. -/
theorem forall_accesses_iff {P : Activity → Prop} (hevent : ∀ e, P (.event e)) {x : BusM α}
    {bus : β} : (∀ a ∈ (x.run bus).accesses, P a) ↔ ∀ a ∈ x.path bus, P a := by
  rw [accesses_run]
  constructor
  · intro h a ha
    -- What is no access is an event, of which the property holds anyway.
    cases hkind : a.isAccess with
    | true => exact h a (List.mem_filter.2 ⟨ha, hkind⟩)
    | false =>
      cases a with
      | event e => exact hevent e
      | read addr value => exact absurd hkind Bool.noConfusion
      | write addr value => exact absurd hkind Bool.noConfusion
  · exact fun h a ha => h a (List.mem_filter.1 ha).1

/-- All accesses of a run are at such addresses if all on its path are. -/
theorem within_accesses_iff {P : UInt16 → Prop} {x : BusM α} {bus : β} :
    (∀ a ∈ (x.run bus).accesses, a.Within P) ↔ ∀ a ∈ x.path bus, a.Within P :=
  forall_accesses_iff fun _ => trivial

/-- A bus tells nothing of its own while it is only read. -/
theorem trace_eq_path {x : BusM α} {bus : β} (h : ∀ addr v, .write addr v ∉ x.path bus) :
    (x.run bus).trace = x.path bus := by
  induction x generalizing bus with
  | done a => rfl
  | read addr next ih =>
    exact congrArg (List.cons _) (ih _ fun a v hmem => h a v (List.mem_cons_of_mem _ hmem))
  | write addr value next ih => exact absurd (List.mem_cons_self ..) (h addr value)
  | note e next ih =>
    exact congrArg (List.cons _) (ih fun a v hmem => h a v (List.mem_cons_of_mem _ hmem))

/-- **The path of a run accounts for all that happens to the bus.** -/
theorem leads_path (x : BusM α) (bus : β) : Bus.Leads bus (x.path bus) (x.run bus).bus := by
  induction x generalizing bus with
  | done a => exact rfl
  | read addr next ih => exact ⟨rfl, ih _ _⟩
  | write addr value next ih => exact ih _
  | note e next ih => exact ih _

/-- The accesses alone account for it as well. -/
theorem leads_accesses (x : BusM α) (bus : β) :
    Bus.Leads bus (x.run bus).accesses (x.run bus).bus := by
  rw [accesses_run, Bus.leads_filter_isAccess]
  exact leads_path x bus

/-- What neither a read nor a write of the bus changes is not changed by a run. -/
theorem run_preserves {δ : Type} (f : β → δ) (hr : ∀ b addr, f (Bus.read b addr).2 = f b)
    (hw : ∀ b addr value, f (Bus.write b addr value) = f b) (x : BusM α) (bus : β) :
    f (x.run bus).bus = f bus := by
  induction x generalizing bus with
  | done a => rfl
  | read addr next ih => rw [run_read, ih, hr]
  | write addr value next ih => rw [run_write, ih, hw]
  | note e next ih => rw [run_note, ih]

/-- **Buses that some accesses do not tell apart cannot be told apart by a run that makes only such
accesses.**  Each has the same outcome on both, and they are still not told apart afterwards. -/
theorem run_related_while {β' : Type} [Bus β'] {P : Activity → Prop} {R : β → β' → Prop}
    (hr : ∀ b b', R b b' → ∀ addr, P (.read addr (Bus.read b addr).1) →
      (Bus.read b addr).1 = (Bus.read b' addr).1 ∧ R (Bus.read b addr).2 (Bus.read b' addr).2)
    (hw : ∀ b b', R b b' → ∀ addr value, P (.write addr value) →
      Bus.writeEvents b addr value = Bus.writeEvents b' addr value ∧
        R (Bus.write b addr value) (Bus.write b' addr value))
    (x : BusM α) {b : β} {b' : β'} (h : R b b') (hp : ∀ a ∈ x.path b, P a) :
    (x.run b).value = (x.run b').value ∧ (x.run b).trace = (x.run b').trace ∧
      R (x.run b).bus (x.run b').bus := by
  -- By induction on the program: after an access that does not tell the buses apart, both go on with
  -- the same rest.
  induction x generalizing b b' with
  | done a => exact ⟨rfl, rfl, h⟩
  | read addr next ih =>
    obtain ⟨hhead, htail⟩ := List.forall_mem_cons.1 hp
    obtain ⟨hbyte, hnext⟩ := hr b b' h addr hhead
    obtain ⟨hvalue, htrace, hbus⟩ := ih (Bus.read b addr).1 hnext htail
    rw [run_read, run_read, ← hbyte]
    exact ⟨hvalue, congrArg _ htrace, hbus⟩
  | write addr value next ih =>
    obtain ⟨hhead, htail⟩ := List.forall_mem_cons.1 hp
    obtain ⟨htold, hnext⟩ := hw b b' h addr value hhead
    obtain ⟨hvalue, htrace, hbus⟩ := ih hnext htail
    rw [run_write, run_write, ← htold]
    refine ⟨hvalue, ?_, hbus⟩
    dsimp only
    rw [htrace]
  | note e next ih =>
    obtain ⟨hvalue, htrace, hbus⟩ := ih h (List.forall_mem_cons.1 hp).2
    exact ⟨hvalue, congrArg _ htrace, hbus⟩

/-- Buses that agree at some addresses cannot be told apart by a run that stays at these
addresses. -/
theorem run_related_within {β' : Type} [Bus β'] {P : UInt16 → Prop} {R : β → β' → Prop}
    (hr : ∀ b b', R b b' → ∀ addr, P addr → (Bus.read b addr).1 = (Bus.read b' addr).1 ∧
      R (Bus.read b addr).2 (Bus.read b' addr).2)
    (hw : ∀ b b', R b b' → ∀ addr, P addr → ∀ value,
      Bus.writeEvents b addr value = Bus.writeEvents b' addr value ∧
        R (Bus.write b addr value) (Bus.write b' addr value))
    (x : BusM α) {b : β} {b' : β'} (h : R b b') (hp : ∀ a ∈ x.path b, a.Within P) :
    (x.run b).value = (x.run b').value ∧ (x.run b).trace = (x.run b').trace ∧
      R (x.run b).bus (x.run b').bus :=
  run_related_while hr (fun b b' h addr value haddr => hw b b' h addr haddr value) x h hp

/-- **Buses that cannot be told apart by an access cannot be told apart by a program.** -/
theorem run_related {β' : Type} [Bus β'] {R : β → β' → Prop}
    (hr : ∀ b b', R b b' → ∀ addr, (Bus.read b addr).1 = (Bus.read b' addr).1 ∧
      R (Bus.read b addr).2 (Bus.read b' addr).2)
    (hw : ∀ b b', R b b' → ∀ addr value,
      Bus.writeEvents b addr value = Bus.writeEvents b' addr value ∧
        R (Bus.write b addr value) (Bus.write b' addr value))
    (x : BusM α) {b : β} {b' : β'} (h : R b b') :
    (x.run b).value = (x.run b').value ∧ (x.run b).trace = (x.run b').trace ∧
      R (x.run b).bus (x.run b').bus :=
  run_related_while (P := fun _ => True) (fun b b' h addr _ => hr b b' h addr)
    (fun b b' h addr value _ => hw b b' h addr value) x h fun _ _ => trivial

end BusM

end Nes
