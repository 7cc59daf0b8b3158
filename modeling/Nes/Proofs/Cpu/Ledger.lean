import Mathlib
import Nes.Proofs.Cpu.Halt
import Nes.Proofs.Cpu.Handlers
import Nes.Proofs.Cpu.Timing

/-!
# The ledger of cycles

A cycle that starts something tells what it starts, and all other cycles tell nothing.  Whoever
listens can therefore keep a ledger: every instruction is charged the cycles of the opcode matrix
and its extra time, every handler of a hardware interrupt is charged seven cycles, and the opcode
that halts the processor is charged nothing.  At every moment the ledger balances: what was charged
is what the processor has counted since its reset together with what it still has to count.

What the bus tells of its own is no part of the ledger.

## Main definitions

* `told`: what was told on a path.
* `Cpu.Charge`, `Cpu.charge?`: what a cycle starts and what that costs.
* `Cpu.charges`: the ledger of a run.
* `Cpu.CycleTelling`: what a cycle tells, case by case.

## Main statements

* `Cpu.charged_tick`: a cycle tells what it is charged for, and keeps the balance.
* `Cpu.cycleTelling`: it tells one thing if it starts something, and nothing otherwise.
* `Cpu.told_signals`, `Cpu.balance_signals`: runs tell what they are charged for and keep the
  balance.
* `Cpu.charges_after_halt`: after a halt nothing is charged.
* `Cpu.ledger_of_run`: all of it, from a reset.
-/

namespace Nes

/-! ### Events on a path -/

/-- What was told on a path, in order. -/
def told (t : List Activity) : List Event := t.filterMap Activity.event?

theorem told_append (t t' : List Activity) : told (t ++ t') = told t ++ told t' :=
  List.filterMap_append

/-- Accesses tell nothing. -/
theorem told_of_accesses {t : List Activity} (h : t.filter Activity.isAccess = t) :
    told t = [] := by
  rw [told, List.filterMap_eq_nil_iff]
  intro a ha
  have haccess := List.filter_eq_self.1 h a ha
  cases a with
  | read addr value => rfl
  | write addr value => rfl
  | event e => exact absurd haccess Bool.false_ne_true

/-- Entering a handler consists of accesses. -/
theorem told_entryPath (r : Registers) (vector : UInt16) (byInstruction : Bool) (low high : UInt8) :
    told (r.entryPath vector byInstruction low high) = [] := rfl

/-- The event says that the handler of a hardware interrupt was entered. -/
def Event.isInterrupt : Event → Bool
  | interruptTaken .. => true
  | _ => false

/-- The event is one that the processor tells. -/
def Event.ofProcessor : Event → Bool
  | executed .. | interruptTaken .. | unimplementedOpcode .. => true
  | _ => false

/-- The events of a kind that no bus tells are told in the order in which they are on the path. -/
theorem BusM.filter_events {α β : Type} [Bus β] (p : Event → Bool)
    (hp : ∀ (bus : β) addr value, ∀ e ∈ Bus.writeEvents bus addr value, p e = false)
    (x : BusM α) (bus : β) : (x.run bus).events.filter p = (told (x.path bus)).filter p := by
  -- On both sides the activities that are such events are picked out first.
  have hpick : ∀ t : List Activity, (told t).filter p =
      told (t.filter fun a => a.event?.any p) := by
    intro t
    induction t with
    | nil => rfl
    | cons a t ih =>
      cases a with
      | read addr value => exact ih
      | write addr value => exact ih
      | event e =>
        show (e :: told t).filter p = _
        rw [List.filter_cons, ih, List.filter_cons]
        show _ = told (if p e = true then _ else _)
        split <;> rfl
  show (told (x.run bus).trace).filter p = _
  rw [hpick, hpick, BusM.filter_trace]
  intro bus addr value e he
  exact hp bus addr value e he

namespace Cpu

-- The opcode matrix is looked up in, and never evaluated, when a cycle is taken apart.
attribute [local irreducible] OpcodeMatrix.entries

/-! ### Charges -/

/-- What a cycle starts, as the ledger has it. -/
inductive Charge
  /-- The handler of a hardware interrupt is entered, and starts at an address. -/
  | handler (vector pc : UInt16)
  /-- The instruction at an address is executed, with extra time for crossed pages and branches. -/
  | instruction (pc : UInt16) (i : Instruction) (extra : Nat)
  /-- The processor halts at an undocumented opcode. -/
  | halt (opcode : UInt8) (pc : UInt16)

namespace Charge

/-- How the start is told. -/
def event : Charge → Event
  | handler vector pc => .interruptTaken vector pc
  | instruction pc i _ => .executed pc i
  | halt opcode pc => .unimplementedOpcode opcode pc

/-- The time of an instruction: its cycles in the opcode matrix and its extra time. -/
def instructionTime : Charge → Nat
  | instruction _ i extra => i.cycles + extra
  | _ => 0

/-- The cycles that are charged. -/
def cycles : Charge → Nat
  | handler .. => interruptCycles
  | instruction _ i extra => i.cycles + extra
  | halt .. => 0

/-- What is charged in total is the time of the instructions and seven cycles for each handler. -/
theorem sum_cycles (l : List Charge) :
    (l.map cycles).sum =
      (l.map instructionTime).sum + interruptCycles * (l.map event).countP Event.isInterrupt := by
  induction l with
  | nil => rfl
  | cons c l ih =>
    rw [List.map_cons, List.sum_cons, List.map_cons, List.sum_cons, List.map_cons,
      List.countP_cons, ih, Nat.mul_add]
    cases c with
    | handler vector pc =>
      have hone : (if (handler vector pc).event.isInterrupt = true then 1 else 0) = 1 := rfl
      have htime : (handler vector pc).instructionTime = 0 := rfl
      have hcycles : (handler vector pc).cycles = interruptCycles := rfl
      rw [hone, htime, hcycles]
      omega
    | instruction pc i extra =>
      have hone : (if (instruction pc i extra).event.isInterrupt = true then 1 else 0) = 0 := rfl
      have htime : (instruction pc i extra).instructionTime = i.cycles + extra := rfl
      have hcycles : (instruction pc i extra).cycles = i.cycles + extra := rfl
      rw [hone, htime, hcycles]
      omega
    | halt opcode pc =>
      have hone : (if (halt opcode pc).event.isInterrupt = true then 1 else 0) = 0 := rfl
      have htime : (halt opcode pc).instructionTime = 0 := rfl
      have hcycles : (halt opcode pc).cycles = 0 := rfl
      rw [hone, htime, hcycles]
      omega

/-- The processor tells what it is charged for. -/
theorem ofProcessor_event (c : Charge) : c.event.ofProcessor = true := by
  cases c <;> rfl

/-- What is told as an error is a halt. -/
theorem eq_halt_of_error {c : Charge} (h : c.event.level = .error) :
    ∃ opcode pc, c = .halt opcode pc := by
  cases c with
  | handler vector pc => exact absurd h nofun
  | instruction pc i extra => exact absurd h nofun
  | halt opcode pc => exact ⟨opcode, pc, rfl⟩

end Charge

variable {β : Type} [Bus β]

/-- What the next cycle is charged for.  The extra time is that of the timetable, found from the
registers before the cycle and the bytes that the bus gives after the opcode. -/
def charge? (cpu : Cpu) (bus : β) : Option Charge :=
  if cpu.Starts then
    match cpu.nextInterrupt? with
    | some vector => some (.handler vector (cpu.tick.run bus).value.cpu.registers.pc)
    | none =>
      let opcode := Bus.read bus cpu.registers.pc
      match Instruction.ofOpcode? opcode.1 with
      | some i => some (.instruction cpu.registers.pc i (i.extraTime cpu.registers opcode.2))
      | none => some (.halt opcode.1 cpu.registers.pc)
  else none

theorem charge?_of_not_starts {cpu : Cpu} (h : ¬cpu.Starts) (bus : β) : cpu.charge? bus = none :=
  if_neg h

theorem charge?_of_interrupt {cpu : Cpu} (h : cpu.Starts) {vector : UInt16}
    (hn : cpu.nextInterrupt? = some vector) (bus : β) : cpu.charge? bus =
      some (.handler vector (cpu.tick.run bus).value.cpu.registers.pc) := by
  rw [charge?, if_pos h, hn]

theorem charge?_of_documented {cpu : Cpu} {bus : β} (h : cpu.Starts)
    (hn : cpu.nextInterrupt? = none) {i : Instruction}
    (hi : Instruction.ofOpcode? (Bus.read bus cpu.registers.pc).1 = some i) : cpu.charge? bus =
      some (.instruction cpu.registers.pc i
        (i.extraTime cpu.registers (Bus.read bus cpu.registers.pc).2)) := by
  rw [charge?, if_pos h, hn]
  dsimp only
  rw [hi]

theorem charge?_of_undocumented {cpu : Cpu} {bus : β} (h : cpu.Starts)
    (hn : cpu.nextInterrupt? = none)
    (hi : Instruction.ofOpcode? (Bus.read bus cpu.registers.pc).1 = none) : cpu.charge? bus =
      some (.halt (Bus.read bus cpu.registers.pc).1 cpu.registers.pc) := by
  rw [charge?, if_pos h, hn]
  dsimp only
  rw [hi]

/-! ### A cycle -/

/-- What relates a cycle to the charge for it: the charge is told and nothing else is, the balance
is kept, and a processor that is charged for a halt has halted. -/
structure Charged (cpu : Cpu) (t : List Activity) (o : Ticked) (charge : Option Charge) :
    Prop where
  /-- The charge is told. -/
  told_eq : told t = charge.toList.map Charge.event
  /-- What is charged is counted now or left to count. -/
  balance : o.cpu.totalCycles + o.cpu.cyclesLeft =
    cpu.totalCycles + cpu.cyclesLeft + (charge.toList.map Charge.cycles).sum
  /-- The count does not go back. -/
  counted : cpu.totalCycles ≤ o.cpu.totalCycles
  /-- Who is charged for a halt has halted. -/
  halted : ∀ opcode pc, charge = some (.halt opcode pc) → o.cpu.halted.isSome

/-- **A cycle tells what it is charged for and keeps the balance.** -/
theorem charged_tick (cpu : Cpu) (bus : β) :
    Charged cpu (cpu.tick.path bus) (cpu.tick.run bus).value (cpu.charge? bus) := by
  have htick := cpu.tickPath_run bus
  have hleads := BusM.leads_path cpu.tick bus
  have hcharge : ∀ vector, cpu.Starts → cpu.nextInterrupt? = some vector → cpu.charge? bus =
      some (.handler vector (cpu.tick.run bus).value.cpu.registers.pc) :=
    fun vector hs hn => charge?_of_interrupt hs hn bus
  generalize (cpu.tick.run bus).value = o at htick hcharge
  generalize cpu.tick.path bus = t at htick hleads
  cases htick with
  | @halted fault hh =>
    rw [charge?_of_not_starts fun hs => absurd (hs.1.symm.trans hh) nofun]
    exact ⟨rfl, rfl, Nat.le_refl _, nofun⟩
  | countDown hh hc =>
    rw [charge?_of_not_starts fun hs => hc hs.2]
    refine ⟨rfl, ?_, Nat.le_succ _, nofun⟩
    show cpu.totalCycles + 1 + (cpu.cyclesLeft - 1) = cpu.totalCycles + cpu.cyclesLeft + 0
    omega
  | nmi hh hc hn low high =>
    rw [hcharge _ ⟨hh, hc⟩ hn]
    refine ⟨?_, ?_, Nat.le_succ _, nofun⟩
    · rw [told_append, told_entryPath]
      rfl
    · show cpu.totalCycles + 1 + 6 = cpu.totalCycles + cpu.cyclesLeft + 7
      omega
  | irq hh hc hn low high =>
    rw [hcharge _ ⟨hh, hc⟩ hn]
    refine ⟨?_, ?_, Nat.le_succ _, nofun⟩
    · rw [told_append, told_entryPath]
      rfl
    · show cpu.totalCycles + 1 + 6 = cpu.totalCycles + cpu.cyclesLeft + 7
      omega
  | @executed hh hc hn opcode i hi found acts op r extra hop hact =>
    -- The opcode and what the resolver reads are the bytes that the bus gives.
    obtain ⟨hopcode, bus', hfound, -⟩ := hleads.imp_right Bus.leads_append.1
    have hmem := OpcodeMatrix.mem_documented hi
    have hextra := extra_eq_extraTime hmem (AddressingMode.finds_of_follows hop) hfound
      (Effect.performs_of_follows hact)
    have hmin := (OpcodeMatrix.cycles_bounds i hmem).1
    obtain ⟨hf, ha⟩ := finds_and_acts hi hop hact
    have hnothing : told (found ++ acts) = [] := by
      apply told_of_accesses
      rw [List.filter_append, hf.isAccess, ha.isAccess]
    rw [charge?_of_documented ⟨hh, hc⟩ hn (by rw [hopcode, hi]), ← hextra]
    refine ⟨?_, ?_, Nat.le_succ _, nofun⟩
    · show .executed cpu.registers.pc i :: told (found ++ acts) = _
      rw [hnothing]
      rfl
    · show cpu.totalCycles + 1 + (i.cycles + extra - 1) =
        cpu.totalCycles + cpu.cyclesLeft + (i.cycles + extra + 0)
      omega
  | @undocumented hh hc hn opcode hi =>
    obtain ⟨hopcode, -⟩ := hleads
    rw [charge?_of_undocumented ⟨hh, hc⟩ hn (by rw [hopcode, hi]), hopcode]
    exact ⟨rfl, rfl, Nat.le_refl _, fun _ _ _ => rfl⟩

/-- What a cycle tells, case by case. -/
structure CycleTelling (cpu : Cpu) (bus : β) : Prop where
  /-- A cycle that starts nothing tells nothing. -/
  nothing : ¬cpu.Starts → told (cpu.tick.path bus) = []
  /-- A cycle that takes an interrupt tells this, with the address at which the handler starts. -/
  handler : cpu.Starts → ∀ vector, cpu.nextInterrupt? = some vector →
    (vector = nmiVector ∨ vector = irqVector) ∧ told (cpu.tick.path bus) =
      [.interruptTaken vector (cpu.tick.run bus).value.cpu.registers.pc]
  /-- A cycle that finds a documented opcode tells the instruction and its address. -/
  instruction : cpu.Starts → cpu.nextInterrupt? = none → ∀ i,
    Instruction.ofOpcode? (Bus.read bus cpu.registers.pc).1 = some i →
    i.opcode = (Bus.read bus cpu.registers.pc).1 ∧
      told (cpu.tick.path bus) = [.executed cpu.registers.pc i]
  /-- A cycle that finds an undocumented opcode tells an error. -/
  halt : cpu.Starts → cpu.nextInterrupt? = none →
    Instruction.ofOpcode? (Bus.read bus cpu.registers.pc).1 = none →
    told (cpu.tick.path bus) =
      [.unimplementedOpcode (Bus.read bus cpu.registers.pc).1 cpu.registers.pc]
  /-- The instruction that enters a handler is told as an instruction, and its handler is not. -/
  brk : cpu.Starts → cpu.nextInterrupt? = none → (Bus.read bus cpu.registers.pc).1 = 0x00 →
    ∃ i, i.mnemonic = .brk ∧ told (cpu.tick.path bus) = [.executed cpu.registers.pc i]

theorem ofOpcode?_brk : Instruction.ofOpcode? 0x00 = some ⟨0x00, .brk, .implied, 7⟩ := by
  decide +kernel

/-- **Every cycle that starts something tells one thing, and no other cycle tells anything.** -/
theorem cycleTelling (cpu : Cpu) (bus : β) : CycleTelling cpu bus := by
  have htold := (cpu.charged_tick bus).told_eq
  refine ⟨?_, ?_, ?_, ?_, ?_⟩
  · intro hs
    rw [htold, charge?_of_not_starts hs]
    rfl
  · intro hs vector hn
    refine ⟨?_, by rw [htold, charge?_of_interrupt hs hn]; rfl⟩
    by_cases hnmi : vector = nmiVector
    · exact .inl hnmi
    · refine .inr (Decidable.byContradiction fun hirq => ?_)
      have hnone : cpu.nextInterrupt? = none := nextInterrupt?_eq_none
        (by rw [hn]; simpa using hnmi) (by rw [hn]; simpa using hirq)
      exact absurd (hn.symm.trans hnone) nofun
  · intro hs hn i hi
    exact ⟨Instruction.opcode_of_ofOpcode? hi, by rw [htold, charge?_of_documented hs hn hi]; rfl⟩
  · intro hs hn hi
    rw [htold, charge?_of_undocumented hs hn hi]
    rfl
  · intro hs hn hzero
    have hi : Instruction.ofOpcode? (Bus.read bus cpu.registers.pc).1 = some _ :=
      (congrArg _ hzero).trans ofOpcode?_brk
    exact ⟨_, rfl, by rw [htold, charge?_of_documented hs hn hi]; rfl⟩

/-! ### Runs -/

/-- The ledger of a run.  Requests are not charged. -/
def charges : List Signal → Cpu → β → List Charge
  | [], _, _ => []
  | .tick :: l, cpu, bus =>
    (cpu.charge? bus).toList ++ charges l (cpu.tick.run bus).value.cpu (cpu.tick.run bus).bus
  | .nmi :: l, cpu, bus => charges l cpu.requestNmi bus
  | .irq :: l, cpu, bus => charges l cpu.requestIrq bus

/-- **On a run, what is charged is told, and nothing else is.** -/
theorem told_signals (l : List Signal) (cpu : Cpu) (bus : β) :
    told ((signals l cpu).path bus) = (charges l cpu bus).map Charge.event := by
  induction l generalizing cpu bus with
  | nil => rfl
  | cons s l ih =>
    cases s with
    | tick =>
      have hone : told ((cpu.signal .tick).path bus) = _ := (cpu.charged_tick bus).told_eq
      rw [signals, BusM.path_bind, told_append, charges, List.map_append, hone]
      exact congrArg _ (ih _ _)
    | nmi => exact ih cpu.requestNmi bus
    | irq => exact ih cpu.requestIrq bus

/-- **The ledger of a run balances.** -/
theorem balance_signals (l : List Signal) (cpu : Cpu) (bus : β) :
    let cpu' := ((signals l cpu).run bus).value
    cpu'.totalCycles + cpu'.cyclesLeft =
      cpu.totalCycles + cpu.cyclesLeft + ((charges l cpu bus).map Charge.cycles).sum := by
  induction l generalizing cpu bus with
  | nil => rfl
  | cons s l ih =>
    cases s with
    | tick =>
      have hone := (cpu.charged_tick bus).balance
      have hrest := ih (cpu.tick.run bus).value.cpu (cpu.tick.run bus).bus
      rw [signals, BusM.run_bind, charges, List.map_append, List.sum_append]
      dsimp only [signal] at hrest ⊢
      omega
    | nmi => exact ih cpu.requestNmi bus
    | irq =>
      -- A request changes neither of the two counts.
      have hsame : cpu.requestIrq.totalCycles = cpu.totalCycles ∧
          cpu.requestIrq.cyclesLeft = cpu.cyclesLeft := by
        rw [requestIrq_eq]
        exact ⟨rfl, rfl⟩
      rw [← hsame.1, ← hsame.2]
      exact ih cpu.requestIrq bus

/-- A processor never counts backwards. -/
theorem totalCycles_le_signals (l : List Signal) (cpu : Cpu) (bus : β) :
    cpu.totalCycles ≤ ((signals l cpu).run bus).value.totalCycles := by
  induction l generalizing cpu bus with
  | nil => exact Nat.le_refl _
  | cons s l ih =>
    have hone : cpu.totalCycles ≤ ((cpu.signal s).run bus).value.cpu.totalCycles := by
      cases s with
      | tick => exact (cpu.charged_tick bus).counted
      | nmi => exact Nat.le_refl _
      | irq =>
        have hirq : cpu.requestIrq.totalCycles = cpu.totalCycles := by rw [requestIrq_eq]
        exact Nat.le_of_eq hirq.symm
    rw [signals, BusM.run_bind]
    exact Nat.le_trans hone (ih _ _)

/-- A halted processor is charged nothing more. -/
theorem charges_of_halted {cpu : Cpu} (h : cpu.halted.isSome) (l : List Signal) (bus : β) :
    charges l cpu bus = [] := by
  induction l generalizing cpu bus with
  | nil => rfl
  | cons s l ih =>
    cases s with
    | tick =>
      obtain ⟨fault, hfault⟩ := Option.isSome_iff_exists.1 h
      have hidle : ¬cpu.Starts := fun hs => absurd (hs.1.symm.trans hfault) nofun
      rw [charges, charge?_of_not_starts hidle, tick_of_halted hfault]
      exact ih h bus
    | nmi =>
      have hnmi : cpu.requestNmi.halted.isSome := h
      exact ih hnmi bus
    | irq =>
      have hirq : cpu.requestIrq.halted.isSome := by
        rw [requestIrq_eq]
        exact h
      exact ih hirq bus

/-- After a halt nothing is charged. -/
theorem charges_after_halt {l : List Signal} {cpu : Cpu} {bus : β} {before after : List Charge}
    {opcode : UInt8} {pc : UInt16}
    (h : charges l cpu bus = before ++ .halt opcode pc :: after) : after = [] := by
  induction l generalizing cpu bus before with
  | nil => exact absurd h (by simp [charges])
  | cons s l ih =>
    cases s with
    | nmi => exact ih h
    | irq => exact ih h
    | tick =>
      rw [charges] at h
      cases hc : cpu.charge? bus with
      | none =>
        rw [hc] at h
        exact ih h
      | some c =>
        rw [hc] at h
        cases before with
        | nil =>
          -- The cycle is the one that halts.
          obtain ⟨rfl, hafter⟩ := List.cons.inj h
          rw [← hafter]
          exact charges_of_halted ((cpu.charged_tick bus).halted _ _ hc) l _
        | cons c' before => exact ih (List.cons.inj h).2

/-- **The ledger of a run from a reset.**  Every cycle that starts something tells exactly one thing
and all others tell nothing; what is told is what is charged; what is charged is counted or left to
count; and an error is told last, and told once at most. -/
theorem ledger_of_run (cpu : Cpu) (bus : β) (l : List Signal) :
    let start := cpu.reset.run bus
    let run := signals l start.value
    let o := run.run start.bus
    let events := told (run.path start.bus)
    let ledger := charges l start.value start.bus
    CycleTelling o.value o.bus ∧
      events = ledger.map Charge.event ∧
      ((∀ (b : β) addr value, ∀ e ∈ Bus.writeEvents b addr value, e.ofProcessor = false) →
        o.events.filter Event.ofProcessor = events) ∧
      cpu.totalCycles ≤ o.value.totalCycles ∧
      o.value.totalCycles - cpu.totalCycles + o.value.cyclesLeft =
        (ledger.map Charge.instructionTime).sum + 7 * events.countP Event.isInterrupt ∧
      ∀ before e after, events = before ++ e :: after → e.level = .error → after = [] := by
  intro start run o events ledger
  have htold : events = ledger.map Charge.event := told_signals l start.value start.bus
  obtain ⟨pc, hstart⟩ := cpu.run_reset bus
  -- The reset keeps the count of cycles and leaves nothing in flight.
  have htotal : start.value.totalCycles = cpu.totalCycles := by
    show (cpu.reset.run bus).value.totalCycles = _
    rw [hstart]
  have hleft : start.value.cyclesLeft = 0 := by
    show (cpu.reset.run bus).value.cyclesLeft = _
    rw [hstart]
  refine ⟨cycleTelling _ _, htold, ?_, ?_, ?_, ?_⟩
  · -- What the bus tells is not of the processor.
    intro hbus
    rw [BusM.filter_events _ hbus run start.bus, List.filter_eq_self]
    intro e he
    rw [show told (run.path start.bus) = _ from htold] at he
    obtain ⟨c, -, rfl⟩ := List.mem_map.1 he
    exact c.ofProcessor_event
  · rw [← htotal]
    exact totalCycles_le_signals l start.value start.bus
  · -- The balance, counted from the reset
    have hle := totalCycles_le_signals l start.value start.bus
    have hbalance := balance_signals l start.value start.bus
    have hsum := Charge.sum_cycles ledger
    rw [← htold] at hsum
    dsimp only at hbalance
    show ((signals l start.value).run start.bus).value.totalCycles - cpu.totalCycles +
      ((signals l start.value).run start.bus).value.cyclesLeft = _
    rw [show interruptCycles = 7 from rfl] at hsum
    have hledger : ledger = charges l start.value start.bus := rfl
    rw [← hledger] at hbalance
    omega
  · intro before e after hevents herror
    -- The events are told of charges, and the one that is an error is told of a halt.
    rw [htold] at hevents
    obtain ⟨before', rest, hledger, rfl, hrest⟩ := List.map_eq_append_iff.1 hevents
    obtain ⟨c, after', rfl, rfl, rfl⟩ := List.map_eq_cons_iff.1 hrest
    obtain ⟨opcode, pc, rfl⟩ := Charge.eq_halt_of_error herror
    rw [charges_after_halt hledger]
    rfl

/-- In a memory of zeros the first instruction enters its own handler.  It is told as an
instruction, an interrupt that is requested later tells nothing yet, and seven cycles are charged. -/
theorem ledger_of_run_with_brk : ∃ bus : FlatMemory,
    let start := ({ pendingNmi := true, totalCycles := 100 } : Cpu).reset.run bus
    let o := (signals [.tick, .nmi] start.value).run start.bus
    (∀ (b : FlatMemory) addr value, ∀ e ∈ Bus.writeEvents b addr value, e.ofProcessor = false) ∧
      o.events.filter Event.ofProcessor = [.executed 0x0000 ⟨0x00, .brk, .implied, 7⟩] ∧
      o.value.totalCycles - 100 + o.value.cyclesLeft = 7 := by
  obtain ⟨bus, hread⟩ : ∃ bus : FlatMemory, ∀ addr, Bus.read bus addr = (0x00, bus) :=
    ⟨.filled 0x00, fun addr => Prod.ext (FlatMemory.get_filled 0x00 addr) rfl⟩
  have hbus : ∀ (b : FlatMemory) addr value, ∀ e ∈ Bus.writeEvents b addr value,
      e.ofProcessor = false := fun b addr value e he => absurd he List.not_mem_nil
  have hstart : ({ pendingNmi := true, totalCycles := 100 } : Cpu).reset.run bus =
      ⟨{ totalCycles := 100 }, bus, [.read 0xFFFC 0x00, .read 0xFFFD 0x00]⟩ := by
    have hzero : wordOf 0x00 0x00 = 0 := by decide
    rw [reset, BusM.run_bind, BusM.run_readWord]
    dsimp only
    rw [hread, hread, hzero]
    rfl
  -- The first cycle finds the instruction that enters a handler.
  have hcharge : charge? { totalCycles := 100 } bus =
      some (.instruction 0x0000 ⟨0x00, .brk, .implied, 7⟩ 0) := by
    have hi : Instruction.ofOpcode? (Bus.read bus 0x0000).1 =
        some ⟨0x00, .brk, .implied, 7⟩ := by
      rw [hread]
      exact ofOpcode?_brk
    exact charge?_of_documented ⟨rfl, rfl⟩ rfl hi
  have hledger : charges [.tick, .nmi] { totalCycles := 100 } bus =
      [.instruction 0x0000 ⟨0x00, .brk, .implied, 7⟩ 0] := by
    rw [charges, hcharge]
    rfl
  obtain ⟨-, hevents, hfilter, -, hbalance, -⟩ :=
    ledger_of_run { pendingNmi := true, totalCycles := 100 } bus [.tick, .nmi]
  rw [hstart] at hevents hfilter hbalance
  rw [hevents, hledger] at hbalance
  rw [hledger] at hevents
  refine ⟨bus, ?_⟩
  rw [hstart]
  exact ⟨hbus, (hfilter hbus).trans hevents, hbalance⟩

end Cpu

end Nes
