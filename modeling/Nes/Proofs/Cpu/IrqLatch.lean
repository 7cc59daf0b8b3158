import Nes.Proofs.Cpu.Command
import Nes.Proofs.Cpu.Handlers

/-!
# The latch for maskable interrupts

A request for a maskable interrupt is looked at twice.  When it is made, it is latched only if such
interrupts are enabled; and once it is latched, it waits for a cycle in which the processor could
start something, has no other interrupt to take, and has such interrupts enabled.  Then the handler
is entered and the latch is cleared.  Between the two, programs may disable and enable interrupts
and handlers of other interrupts may run.

On a run of commands the handlers that are entered are read off the path.  How many of them are
handlers of maskable interrupts is found by a balance: a command that enters one clears the latch,
and only a request that is accepted can set it again.

## Main definitions

* `Cpu.OpenToIrq`: a latched maskable interrupt is taken in the next cycle.
* `Cpu.Enters`: the next cycle enters a handler.
* `Cpu.irqEntries`, `Cpu.acceptedIrqs`: the entries and the accepted requests of a run.

## Main statements

* `Cpu.pendingIrq_command`, `Cpu.irqEntries_add_pending_le`: the balance of a command and of a run.
* `Cpu.irq_waits`: what is latched waits.
* `Cpu.irq_discipline`: all of it, from power-on.
-/

namespace Nes

/-- A bus on which every read gives the same byte. -/
abbrev Bus.always (value : UInt8) : Bus Unit where
  read _ _ := (value, ())
  write _ _ _ := ()
  peek _ _ := value

namespace Cpu

-- The opcode matrix is looked up in, and never evaluated.
attribute [local irreducible] OpcodeMatrix.entries

/-! ### A cycle -/

/-- The processor could take a maskable interrupt: it runs and is between two instructions, no other
interrupt waits, and maskable ones are enabled. -/
def OpenToIrq (cpu : Cpu) : Prop :=
  cpu.halted = none ∧ cpu.cyclesLeft = 0 ∧ cpu.pendingNmi = false ∧
    cpu.registers.isSet Flag.irqDisable = false

instance (cpu : Cpu) : Decidable cpu.OpenToIrq := inferInstanceAs (Decidable (_ ∧ _))

/-- **The next cycle enters the handler of a maskable interrupt if one is latched and the processor
is open to it, and only then.** -/
theorem taken?_eq_irq_iff {cpu : Cpu} :
    cpu.taken? = some irqVector ↔ cpu.pendingIrq = true ∧ cpu.OpenToIrq := by
  by_cases hs : cpu.Starts
  · rw [taken?_of_starts hs, nextInterrupt?_eq_irq_iff]
    exact ⟨fun ⟨hnmi, hirq, hmask⟩ => ⟨hirq, hs.1, hs.2, hnmi, hmask⟩,
      fun ⟨hirq, _, _, hnmi, hmask⟩ => ⟨hnmi, hirq, hmask⟩⟩
  · rw [taken?_of_not_starts hs]
    exact ⟨nofun, fun ⟨_, hh, hc, _⟩ => absurd ⟨hh, hc⟩ hs⟩

/-! ### Commands -/

section OnABus

variable {β : Type} [Bus β]

/-- The next cycle enters the handler whose address is stored at a vector. -/
def Enters (cpu : Cpu) (bus : β) (vector : UInt16) : Prop :=
  ∃ low high,
    cpu.tick.path bus = cpu.ready.entryPath vector false low high ++
        [.event (.interruptTaken vector (wordOf low high))] ∧
      (cpu.tick.run bus).value.cpu.registers = cpu.ready.entered (wordOf low high)

theorem enters_of_taken {cpu : Cpu} {vector : UInt16} (h : cpu.taken? = some vector) (bus : β) :
    cpu.Enters bus vector :=
  (cpu.tickPath_run bus).entryPath h

/-- The handlers of maskable interrupts that a list of commands enters. -/
def irqEntries (l : List Command) (cpu : Cpu) (bus : β) : Nat :=
  (handlers ((commands l cpu).path bus)).count irqVector

/-- The requests for maskable interrupts, among the commands of a list, that are made while such
interrupts are enabled. -/
def acceptedIrqs : List Command → Cpu → β → Nat
  | [], _, _ => 0
  | c :: l, cpu, bus =>
    let o := (cpu.command c).run bus
    (if c = .signal .irq ∧ cpu.registers.isSet Flag.irqDisable = false then 1 else 0) +
      acceptedIrqs l o.value o.bus

theorem handlers_tick (cpu : Cpu) (bus : β) :
    handlers (cpu.tick.path bus) = cpu.taken?.toList :=
  (cpu.tickPath_run bus).handlers.1

/-- Only cycles enter handlers. -/
theorem count_handlers_command (c : Command) (cpu : Cpu) (bus : β) :
    (handlers ((cpu.command c).path bus)).count irqVector =
      if c = .signal .tick ∧ cpu.taken? = some irqVector then 1 else 0 := by
  cases c with
  | reset => rfl
  | signal s =>
    cases s with
    | nmi => rfl
    | irq => rfl
    | tick =>
      rw [path_command_tick, handlers_tick]
      -- A cycle enters the one handler that is taken.
      by_cases htaken : cpu.taken? = some irqVector
      · rw [if_pos ⟨rfl, htaken⟩, htaken]
        rfl
      · rw [if_neg fun h => htaken h.2, List.count_eq_zero, Option.mem_toList]
        exact htaken

/-- What a command leaves of the latch. -/
theorem pendingIrq_command (c : Command) (cpu : Cpu) (bus : β) :
    ((cpu.command c).run bus).value.pendingIrq =
      match c with
      | .reset => false
      | .signal .tick => cpu.pendingIrq && cpu.taken? != some irqVector
      | .signal .nmi => cpu.pendingIrq
      | .signal .irq => cpu.pendingIrq || !cpu.registers.isSet Flag.irqDisable := by
  cases c with
  | reset => rfl
  | signal s =>
    cases s with
    | tick =>
      rw [run_command_tick]
      exact (cpu.tickPath_run bus).handlers.2.2
    | nmi => rfl
    | irq => exact congrArg Cpu.pendingIrq cpu.requestIrq_eq

/-- **The balance of a command.** -/
theorem count_handlers_add_pending_le (c : Command) (cpu : Cpu) (bus : β) :
    (handlers ((cpu.command c).path bus)).count irqVector +
        ((cpu.command c).run bus).value.pendingIrq.toNat ≤
      (if c = .signal .irq ∧ cpu.registers.isSet Flag.irqDisable = false then 1 else 0) +
        cpu.pendingIrq.toNat := by
  rw [count_handlers_command, pendingIrq_command]
  cases c with
  | reset => simp
  | signal s =>
    cases s with
    | tick =>
      by_cases htaken : cpu.taken? = some irqVector
      · -- The entry takes what is latched, so the latch pays for it.
        have hp := (taken?_eq_irq_iff.1 htaken).1
        simp [htaken, hp]
      · cases cpu.pendingIrq <;> simp [htaken, Bool.toNat_le]
    | nmi => simp
    | irq => cases cpu.pendingIrq <;> cases cpu.registers.isSet Flag.irqDisable <;> simp

/-! ### Runs -/

theorem irqEntries_cons (c : Command) (l : List Command) (cpu : Cpu) (bus : β) :
    irqEntries (c :: l) cpu bus =
      let o := (cpu.command c).run bus
      (handlers ((cpu.command c).path bus)).count irqVector + irqEntries l o.value o.bus := by
  rw [irqEntries, commands, BusM.path_bind, handlers_append, List.count_append]
  rfl

/-- **The balance of a run.**  An entry takes what was latched at the beginning or what a request
latched that was accepted since. -/
theorem irqEntries_add_pending_le (l : List Command) (cpu : Cpu) (bus : β) :
    irqEntries l cpu bus + ((commands l cpu).run bus).value.pendingIrq.toNat ≤
      acceptedIrqs l cpu bus + cpu.pendingIrq.toNat := by
  -- The balance of the first command is added to that of the others.
  induction l generalizing cpu bus with
  | nil => exact Nat.le_refl _
  | cons c l ih =>
    have hstep := count_handlers_add_pending_le c cpu bus
    have hrest := ih ((cpu.command c).run bus).value ((cpu.command c).run bus).bus
    rw [irqEntries_cons, acceptedIrqs, commands, BusM.run_bind]
    dsimp only
    omega

/-- With nothing latched at the beginning, every entry was requested. -/
theorem irqEntries_le_of_not_pending {cpu : Cpu} (h : cpu.pendingIrq = false) (bus : β)
    (l : List Command) : irqEntries l cpu bus ≤ acceptedIrqs l cpu bus := by
  have hbalance := irqEntries_add_pending_le l cpu bus
  rw [h] at hbalance
  exact Nat.le_trans (Nat.le_add_right _ _) hbalance

/-- **What is latched waits.**  Nothing but a reset and the entry itself clears the latch. -/
theorem irq_waits {wait : List Command} {cpu : Cpu} {bus : β} (hlatched : cpu.pendingIrq = true)
    (hreset : .reset ∉ wait)
    (hclosed : ∀ earlier, earlier ++ [.signal .tick] <+: wait →
      ¬((commands earlier cpu).run bus).value.OpenToIrq) :
    irqEntries wait cpu bus = 0 ∧ ((commands wait cpu).run bus).value.pendingIrq = true := by
  -- By induction on the commands, each of which leaves the latch set.
  induction wait generalizing cpu bus with
  | nil => exact ⟨rfl, hlatched⟩
  | cons c l ih =>
    rw [List.mem_cons, not_or] at hreset
    -- A cycle that entered the handler would have found the processor open.
    have hnone : ¬(c = .signal .tick ∧ cpu.taken? = some irqVector) := by
      rintro ⟨rfl, htaken⟩
      exact hclosed [] ⟨l, rfl⟩ (taken?_eq_irq_iff.1 htaken).2
    have hstill : ((cpu.command c).run bus).value.pendingIrq = true := by
      rw [pendingIrq_command, hlatched]
      cases c with
      | reset => exact absurd rfl hreset.1
      | signal s =>
        cases s with
        | tick =>
          rw [Bool.true_and, bne_iff_ne]
          exact fun h => hnone ⟨rfl, h⟩
        | nmi => rfl
        | irq => rfl
    -- What is before a later cycle is so, too, with this command in front.
    have hrest := ih hstill hreset.2 fun earlier hprefix => by
      have hopen := hclosed (c :: earlier) (List.cons_prefix_cons.2 ⟨rfl, hprefix⟩)
      rwa [commands, BusM.run_bind] at hopen
    rw [irqEntries_cons, count_handlers_command, if_neg hnone, commands, BusM.run_bind]
    exact ⟨(Nat.zero_add _).trans hrest.1, hrest.2⟩

/-- **The discipline of maskable interrupts**, on every bus and after any commands from power-on.

* A command enters the handler once if it is a cycle, an interrupt is latched and the processor is
  open to it.  In all other cases it does not.
* A request that is made while maskable interrupts are disabled changes nothing.  One that is made
  while they are enabled is latched.
* What is latched waits through any commands but a reset, as long as no cycle finds the processor
  open.  The first cycle that does enters the handler and clears the latch, and from then on no
  handler is entered that was not requested since.
* When both latches are set, the handler of the non-maskable interrupt is entered first, and the
  other latch stays set.
* A handler is entered no more often than requests were accepted. -/
theorem irq_discipline (bus : β) (before : List Command) :
    let o := (commands before {}).run bus
    let cpu := o.value
    (∀ c, (handlers ((cpu.command c).path o.bus)).count irqVector =
      if c = .signal .tick ∧ cpu.pendingIrq = true ∧ cpu.OpenToIrq then 1 else 0) ∧
    (cpu.registers.isSet Flag.irqDisable = true → cpu.command (.signal .irq) = pure cpu) ∧
    (cpu.registers.isSet Flag.irqDisable = false →
      cpu.command (.signal .irq) = pure { cpu with pendingIrq := true }) ∧
    (cpu.pendingIrq = true → ∀ wait, .reset ∉ wait →
      (∀ earlier, earlier ++ [.signal .tick] <+: wait →
        ¬((commands earlier cpu).run o.bus).value.OpenToIrq) →
      let w := (commands wait cpu).run o.bus
      irqEntries wait cpu o.bus = 0 ∧ w.value.pendingIrq = true ∧
      (w.value.OpenToIrq →
        let entry := w.value.tick.run w.bus
        w.value.Enters w.bus irqVector ∧ entry.value.cpu.pendingIrq = false ∧
        ∀ after, irqEntries after entry.value.cpu entry.bus ≤
          acceptedIrqs after entry.value.cpu entry.bus)) ∧
    (cpu.Starts → cpu.pendingNmi = true → cpu.pendingIrq = true →
      let entry := cpu.tick.run o.bus
      cpu.Enters o.bus nmiVector ∧ irqEntries [.signal .tick] cpu o.bus = 0 ∧
        entry.value.cpu.pendingNmi = false ∧ entry.value.cpu.pendingIrq = true) ∧
    irqEntries before {} bus ≤ acceptedIrqs before {} bus := by
  intro o cpu
  refine ⟨fun c => ?_, fun hmask => ?_, fun hmask => ?_, fun hlatched wait hreset hclosed => ?_,
    fun hs hnmi hirq => ?_, ?_⟩
  · rw [count_handlers_command]
    simp only [taken?_eq_irq_iff]
  · rw [command_irq, requestIrq, if_pos hmask]
  · rw [command_irq, requestIrq, if_neg (Bool.eq_false_iff.1 hmask)]
  · -- What is latched, and the cycle that takes it
    obtain ⟨hnone, hstill⟩ := irq_waits hlatched hreset hclosed
    refine ⟨hnone, hstill, fun hopen => ?_⟩
    have htaken := taken?_eq_irq_iff.2 ⟨hstill, hopen⟩
    obtain ⟨-, -, hclear⟩ := (tickPath_run ((commands wait cpu).run o.bus).value
      ((commands wait cpu).run o.bus).bus).handlers
    rw [htaken, bne_self_eq_false, Bool.and_false] at hclear
    refine ⟨enters_of_taken htaken _, hclear, fun after => ?_⟩
    exact irqEntries_le_of_not_pending hclear _ after
  · -- Both latches are set.
    have htaken := taken?_eq_nmi_iff.2 ⟨hs, hnmi⟩
    obtain ⟨-, hleft, hstill⟩ := (cpu.tickPath_run o.bus).handlers
    rw [htaken] at hleft hstill
    refine ⟨enters_of_taken htaken o.bus, ?_, ?_, ?_⟩
    · rw [irqEntries_cons, count_handlers_command, htaken, if_neg fun h => absurd h.2 (by decide)]
      rfl
    · rw [hleft, bne_self_eq_false, Bool.and_false]
    · rw [hstill, hirq]
      decide
  · -- Nothing is latched at power-on.
    exact irqEntries_le_of_not_pending rfl bus before

/-- Every read gives the instruction that enables interrupts.  A request is latched after the first
of them.  A non-maskable interrupt goes first, and its handler starts with interrupts disabled, so
the other one waits for nine cycles. -/
theorem irq_discipline_after_nmi :
    letI := Bus.always 0x58
    let before : List Command := [.signal .tick, .signal .tick, .signal .irq, .signal .nmi]
    let wait : List Command := .replicate 9 (.signal .tick)
    let cpu := ((commands before {}).run ()).value
    let later := ((commands wait cpu).run ()).value
    (cpu.pendingIrq = true ∧ later.OpenToIrq) ∧
      cpu.Enters () nmiVector ∧ irqEntries wait cpu () = 0 ∧ later.Enters () irqVector ∧
      (later.tick.run ()).value.cpu.pendingIrq = false := by
  let _bus := Bus.always 0x58
  intro before wait cpu later
  have hs : cpu.halted = none ∧ cpu.cyclesLeft = 0 := by decide +kernel
  have hlatched : cpu.pendingNmi = true ∧ cpu.pendingIrq = true := by decide +kernel
  -- Seven cycles of the entry, and two of the instruction that enables interrupts again
  have hclosed : ∀ k < 9,
      ¬((commands (.replicate k (.signal .tick)) cpu).run ()).value.OpenToIrq := by
    decide +kernel
  have hopen : later.OpenToIrq := by decide +kernel
  obtain ⟨-, -, -, hwaits, hboth, -⟩ := irq_discipline () before
  obtain ⟨hnone, -, hserved⟩ := hwaits hlatched.2 wait (by decide) fun earlier hprefix => by
    obtain ⟨hlength, hall⟩ := List.prefix_replicate_iff.1 hprefix
    obtain ⟨-, hearlier, -⟩ := List.append_eq_replicate_iff.1 hall
    rw [List.length_append] at hlength
    rw [hearlier]
    exact hclosed _ hlength
  obtain ⟨hirq, hclear, -⟩ := hserved hopen
  exact ⟨⟨hlatched.2, hopen⟩, (hboth hs hlatched.1 hlatched.2).1, hnone, hirq, hclear⟩

end OnABus

end Cpu

end Nes
