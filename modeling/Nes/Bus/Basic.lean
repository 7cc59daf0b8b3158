import Nes.Event

/-!
# Memory as the processor sees it

The processor owns no memory.  It reads and writes bytes through a bus, and reading may have side
effects, because some addresses belong to devices.  A bus is therefore any type of states with a
read that returns a new state, a write, and a second way of reading, `peek`, that has no effect.

What the processor does on a bus is written as a *bus program*: a tree whose nodes are reads, writes
and events, and in which what follows a read depends on the byte that was read.  A program says
nothing about the bus, so what is shown of a program holds on every bus, and running the same
program on two buses can be compared.

Running a program gives its value, the bus afterwards and a trace: the accesses that were made with
the bytes that went over the bus, and the events in between, in order.

## Main definitions

* `Bus`: the class of buses.
* `BusM`: bus programs, a monad.
* `Activity`, `Outcome`, `BusM.run`: running a program.

## Main statements

* `BusM.run_pure`, `BusM.run_bind`, `BusM.run_map`: running follows the monad structure; traces are
  concatenated.
-/

namespace Nes

/-- Memory as the processor sees it. -/
class Bus (β : Type) where
  /-- Reads a byte, with the side effects that reading has. -/
  read : β → UInt16 → UInt8 × β
  /-- Writes a byte. -/
  write : β → UInt16 → UInt8 → β
  /-- The byte at an address, without side effects. -/
  peek : β → UInt16 → UInt8
  /-- What a write in this state would tell. -/
  writeEvents : β → UInt16 → UInt8 → List Event := fun _ _ _ => []

/-- Something that happens while a bus program runs. -/
inductive Activity
  /-- A byte was read. -/
  | read (addr : UInt16) (value : UInt8)
  /-- A byte was written. -/
  | write (addr : UInt16) (value : UInt8)
  /-- Something was told. -/
  | event (e : Event)
  deriving DecidableEq, Repr

/-- The event of an activity, if it is one. -/
def Activity.event? : Activity → Option Event
  | .event e => some e
  | _ => none

/-- Whether an activity is an access to the bus. -/
def Activity.isAccess : Activity → Bool
  | .event _ => false
  | _ => true

/-- What running a program gives. -/
structure Outcome (α β : Type) where
  /-- The value of the program. -/
  value : α
  /-- The bus afterwards. -/
  bus : β
  /-- What happened, in order. -/
  trace : List Activity

namespace Outcome

variable {α β : Type}

/-- What was told, in order. -/
def events (o : Outcome α β) : List Event := o.trace.filterMap Activity.event?

/-- The accesses that were made, in order. -/
def accesses (o : Outcome α β) : List Activity := o.trace.filter Activity.isAccess

end Outcome

/-- A program of bus accesses and events that ends in a value. -/
inductive BusM (α : Type) where
  /-- Ends. -/
  | done (value : α)
  /-- Reads a byte and goes on with it. -/
  | read (addr : UInt16) (next : UInt8 → BusM α)
  /-- Writes a byte and goes on. -/
  | write (addr : UInt16) (value : UInt8) (next : BusM α)
  /-- Tells an event and goes on. -/
  | note (e : Event) (next : BusM α)

namespace BusM

variable {α γ : Type}

/-- One program after another. -/
protected def bind : BusM α → (α → BusM γ) → BusM γ
  | done value, f => f value
  | read addr next, f => read addr fun v => (next v).bind f
  | write addr value next, f => write addr value (next.bind f)
  | note e next, f => note e (next.bind f)

instance : Monad BusM where
  pure := done
  bind := BusM.bind

@[simp] theorem done_bind (a : α) (f : α → BusM γ) : BusM.done a >>= f = f a := rfl

@[simp] theorem read_bind (addr : UInt16) (next : UInt8 → BusM α) (f : α → BusM γ) :
    BusM.read addr next >>= f = .read addr fun v => next v >>= f := rfl

@[simp] theorem write_bind (addr : UInt16) (value : UInt8) (next : BusM α) (f : α → BusM γ) :
    BusM.write addr value next >>= f = .write addr value (next >>= f) := rfl

@[simp] theorem note_bind (e : Event) (next : BusM α) (f : α → BusM γ) :
    BusM.note e next >>= f = .note e (next >>= f) := rfl

theorem bind_done (x : BusM α) : x >>= BusM.done = x := by
  induction x with
  | done => rfl
  | read addr next ih => simp [ih]
  | write addr value next ih => simp [ih]
  | note e next ih => simp [ih]

theorem bind_bind {δ : Type} (x : BusM α) (f : α → BusM γ) (g : γ → BusM δ) :
    x >>= f >>= g = x >>= fun a => f a >>= g := by
  induction x with
  | done => rfl
  | read addr next ih => simp [ih]
  | write addr value next ih => simp [ih]
  | note e next ih => simp [ih]

instance : LawfulMonad BusM :=
  LawfulMonad.mk' BusM (fun x => bind_done x) (fun _ _ => rfl) (fun x f g => bind_bind x f g)

@[simp] theorem map_done (f : α → γ) (a : α) : f <$> BusM.done a = .done (f a) := rfl

@[simp] theorem map_read (f : α → γ) (addr : UInt16) (next : UInt8 → BusM α) :
    f <$> BusM.read addr next = .read addr fun v => f <$> next v := rfl

@[simp] theorem map_write (f : α → γ) (addr : UInt16) (value : UInt8) (next : BusM α) :
    f <$> BusM.write addr value next = .write addr value (f <$> next) := rfl

@[simp] theorem map_note (f : α → γ) (e : Event) (next : BusM α) :
    f <$> BusM.note e next = .note e (f <$> next) := rfl

/-! ### Single steps -/

/-- Reads a byte. -/
def readByte (addr : UInt16) : BusM UInt8 := .read addr .done

/-- Writes a byte. -/
def writeByte (addr : UInt16) (value : UInt8) : BusM Unit := .write addr value (.done ())

/-- Tells an event. -/
def tell (e : Event) : BusM Unit := .note e (.done ())

/-- Reads a word, low byte first. -/
def readWord (addr : UInt16) : BusM UInt16 := Nes.readWord readByte addr

/-! ### Running -/

variable {β : Type} [Bus β]

/-- Runs a program on a bus. -/
@[specialize] def run : BusM α → β → Outcome α β
  | done value, bus => ⟨value, bus, []⟩
  | read addr next, bus =>
    let (v, bus) := Bus.read bus addr
    let o := (next v).run bus
    { o with trace := .read addr v :: o.trace }
  | write addr value next, bus =>
    let told := Bus.writeEvents bus addr value
    let o := next.run (Bus.write bus addr value)
    { o with trace := .write addr value :: (told.map .event ++ o.trace) }
  | note e next, bus =>
    let o := next.run bus
    { o with trace := .event e :: o.trace }

@[simp] theorem run_done (a : α) (bus : β) : (BusM.done a).run bus = ⟨a, bus, []⟩ := rfl

@[simp] theorem run_pure (a : α) (bus : β) : (pure a : BusM α).run bus = ⟨a, bus, []⟩ := rfl

@[simp] theorem run_read (addr : UInt16) (next : UInt8 → BusM α) (bus : β) :
    (BusM.read addr next).run bus =
      let o := (next (Bus.read bus addr).1).run (Bus.read bus addr).2
      ⟨o.value, o.bus, .read addr (Bus.read bus addr).1 :: o.trace⟩ := rfl

@[simp] theorem run_write (addr : UInt16) (value : UInt8) (next : BusM α) (bus : β) :
    (BusM.write addr value next).run bus =
      let o := next.run (Bus.write bus addr value)
      ⟨o.value, o.bus,
        .write addr value :: ((Bus.writeEvents bus addr value).map .event ++ o.trace)⟩ := rfl

@[simp] theorem run_note (e : Event) (next : BusM α) (bus : β) :
    (BusM.note e next).run bus =
      let o := next.run bus
      ⟨o.value, o.bus, .event e :: o.trace⟩ := rfl

/-- Running one program after another runs the second on the bus that the first leaves. -/
theorem run_bind (x : BusM α) (f : α → BusM γ) (bus : β) :
    (x >>= f).run bus =
      let o := x.run bus
      let p := (f o.value).run o.bus
      ⟨p.value, p.bus, o.trace ++ p.trace⟩ := by
  induction x generalizing bus with
  | done => rfl
  | read addr next ih => simp [ih]
  | write addr value next ih => simp [ih]
  | note e next ih => simp [ih]

/-- Applying a function to the value of a program changes nothing else. -/
@[simp] theorem run_map (f : α → γ) (x : BusM α) (bus : β) :
    (f <$> x).run bus =
      let o := x.run bus
      ⟨f o.value, o.bus, o.trace⟩ := by
  rw [← bind_pure_comp, run_bind]
  simp

@[simp] theorem run_readByte (addr : UInt16) (bus : β) :
    (readByte addr).run bus =
      ⟨(Bus.read bus addr).1, (Bus.read bus addr).2, [.read addr (Bus.read bus addr).1]⟩ := rfl

@[simp] theorem run_writeByte (addr : UInt16) (value : UInt8) (bus : β) :
    (writeByte addr value).run bus =
      ⟨(), Bus.write bus addr value,
        .write addr value :: (Bus.writeEvents bus addr value).map .event⟩ := by
  simp [writeByte]

@[simp] theorem run_tell (e : Event) (bus : β) : (tell e).run bus = ⟨(), bus, [.event e]⟩ := rfl

/-- Reading a word reads its low byte and then, on the bus that this leaves, its high byte. -/
theorem run_readWord (addr : UInt16) (bus : β) :
    (readWord addr).run bus =
      let low := Bus.read bus addr
      let high := Bus.read low.2 (addr + 1)
      ⟨wordOf low.1 high.1, high.2, [.read addr low.1, .read (addr + 1) high.1]⟩ := rfl

end BusM

end Nes
