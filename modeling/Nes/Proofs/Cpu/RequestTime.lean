import Nes.Proofs.Cpu.IrqLatch

/-!
# Requests while an instruction is in flight

From the first cycle of an instruction or of an interrupt entry to the next one that starts
something, the processor counts down.  A request for an interrupt that is made in between sets a
latch, and for a maskable one it asks for a flag first; counting down changes neither latches nor
flags.  So it makes no difference when a request is made, or how often, as long as it is made before
the next start.

## Main definitions

* `Cpu.idle`: the processor after a number of cycles in which it starts nothing.
* `Cpu.waited`: the processor after cycles and requests, of which only the number of cycles and the
  kinds of requests count.

## Main statements

* `Cpu.signals_in_flight`: what is left of any signals that come before the next start.
* `Cpu.request_time_irrelevant`: requests may as well be made just before the next start.
-/

namespace Nes

namespace Cpu

-- The opcode matrix is looked up in, and never evaluated.
attribute [local irreducible] OpcodeMatrix.entries

/-! ### Counting down -/

/-- The processor after `n` cycles in which it starts nothing. -/
def idle (cpu : Cpu) (n : Nat) : Cpu :=
  match cpu.halted with
  | some _ => cpu
  | none => { cpu with cyclesLeft := cpu.cyclesLeft - n, totalCycles := cpu.totalCycles + n }

theorem idle_of_halted {cpu : Cpu} {fault : CpuFault} (h : cpu.halted = some fault) (n : Nat) :
    cpu.idle n = cpu := by
  rw [idle, h]

theorem idle_of_running {cpu : Cpu} (h : cpu.halted = none) (n : Nat) : cpu.idle n =
    { cpu with cyclesLeft := cpu.cyclesLeft - n, totalCycles := cpu.totalCycles + n } := by
  rw [idle, h]

theorem idle_zero (cpu : Cpu) : cpu.idle 0 = cpu := by
  unfold idle
  split <;> rfl

theorem idle_idle (cpu : Cpu) (m n : Nat) : (cpu.idle m).idle n = cpu.idle (m + n) := by
  cases hh : cpu.halted with
  | some fault => rw [idle_of_halted hh, idle_of_halted hh, idle_of_halted hh]
  | none =>
    rw [idle_of_running hh, idle_of_running (by exact hh), idle_of_running hh, Nat.sub_sub,
      Nat.add_assoc]

/-- What decides about requests does not change meanwhile. -/
theorem idle_keeps (cpu : Cpu) (n : Nat) :
    (cpu.idle n).registers = cpu.registers ∧ (cpu.idle n).pendingNmi = cpu.pendingNmi ∧
      (cpu.idle n).pendingIrq = cpu.pendingIrq := by
  unfold idle
  split <;> exact ⟨rfl, rfl, rfl⟩

/-- Nor do requests change anything about counting down. -/
theorem idle_withLatches (cpu : Cpu) (nmi irq : Bool) (n : Nat) :
    (cpu.withLatches nmi irq).idle n = (cpu.idle n).withLatches nmi irq := by
  cases hh : cpu.halted with
  | some fault => rw [idle_of_halted hh, idle_of_halted (by exact hh)]
  | none =>
    rw [idle_of_running hh, idle_of_running (by exact hh)]
    rfl

/-- **A cycle with an instruction in flight makes no access.** -/
theorem tick_in_flight {cpu : Cpu} (hc : cpu.cyclesLeft ≠ 0) :
    ∃ result, cpu.tick = pure ⟨cpu.idle 1, result⟩ := by
  cases hh : cpu.halted with
  | some fault => exact ⟨_, by rw [tick_of_halted hh, idle_of_halted hh]⟩
  | none => exact ⟨_, by rw [tick_of_busy hh hc, idle_of_running hh, countDown]⟩

/-! ### Signals before the next start -/

/-- The processor after signals among which are no more cycles than it has left. -/
def waited (cpu : Cpu) (l : List Signal) : Cpu :=
  (cpu.idle (l.count .tick)).withLatches
    (cpu.pendingNmi || decide (.nmi ∈ l))
    (cpu.pendingIrq || (decide (.irq ∈ l) && !cpu.registers.isSet Flag.irqDisable))

theorem waited_nil (cpu : Cpu) : cpu.waited [] = cpu := by
  rw [waited, List.count_nil, idle_zero]
  simp [withLatches]

theorem waited_withLatches (cpu : Cpu) (nmi irq : Bool) (l : List Signal) :
    (cpu.withLatches nmi irq).waited l = (cpu.idle (l.count .tick)).withLatches
      (nmi || decide (.nmi ∈ l))
      (irq || (decide (.irq ∈ l) && !cpu.registers.isSet Flag.irqDisable)) := by
  rw [waited, idle_withLatches]
  rfl

theorem requestNmi_waited (cpu : Cpu) (l : List Signal) :
    cpu.requestNmi.waited l = cpu.waited (.nmi :: l) := by
  have hset : cpu.requestNmi = cpu.withLatches true cpu.pendingIrq := rfl
  rw [hset, waited_withLatches, waited]
  simp

theorem requestIrq_waited (cpu : Cpu) (l : List Signal) :
    cpu.requestIrq.waited l = cpu.waited (.irq :: l) := by
  have hset : cpu.requestIrq = cpu.withLatches cpu.pendingNmi
      (cpu.pendingIrq || !cpu.registers.isSet Flag.irqDisable) := cpu.requestIrq_eq
  rw [hset, waited_withLatches, waited]
  -- A second request finds the flag as the first did.
  cases cpu.registers.isSet Flag.irqDisable <;> simp

theorem idle_waited (cpu : Cpu) (l : List Signal) :
    (cpu.idle 1).waited l = cpu.waited (.tick :: l) := by
  obtain ⟨hregisters, hnmi, hirq⟩ := cpu.idle_keeps 1
  rw [waited, waited, idle_idle, hregisters, hnmi, hirq, List.count_cons_self, Nat.add_comm]
  simp

/-- **Before the next start only the number of cycles and the kinds of requests count.** -/
theorem signals_in_flight {cpu : Cpu} {l : List Signal} (hl : l.count .tick ≤ cpu.cyclesLeft) :
    signals l cpu = pure (cpu.waited l) := by
  -- By induction on the signals: each leads to a processor that waits for the others.
  induction l generalizing cpu with
  | nil => rw [signals, waited_nil]
  | cons s l ih =>
    cases s with
    | nmi =>
      rw [List.count_cons_of_ne (by decide)] at hl
      have hleft : l.count .tick ≤ cpu.requestNmi.cyclesLeft := hl
      rw [signals, signal, pure_bind, ih hleft, requestNmi_waited]
    | irq =>
      rw [List.count_cons_of_ne (by decide)] at hl
      have hleft : l.count .tick ≤ cpu.requestIrq.cyclesLeft := by
        rw [requestIrq_eq]
        exact hl
      rw [signals, signal, pure_bind, ih hleft, requestIrq_waited]
    | tick =>
      rw [List.count_cons_self] at hl
      have hbusy : cpu.cyclesLeft ≠ 0 := by omega
      obtain ⟨result, htick⟩ := tick_in_flight hbusy
      -- A cycle takes one of those that are left, unless the processor has halted.
      have hleft : l.count .tick ≤ (cpu.idle 1).cyclesLeft := by
        cases hh : cpu.halted with
        | some fault =>
          rw [idle_of_halted hh]
          omega
        | none =>
          rw [idle_of_running hh]
          exact Nat.le_sub_one_of_lt hl
      rw [signals, signal, htick, pure_bind, ih hleft, idle_waited]

/-- Signals are commands. -/
theorem commands_map_signal_append (l : List Signal) (more : List Command) (cpu : Cpu) :
    commands (l.map .signal ++ more) cpu = signals l cpu >>= commands more := by
  induction l generalizing cpu with
  | nil => rfl
  | cons s l ih =>
    rw [List.map_cons, List.cons_append, commands, signals, bind_assoc, command, bind_map_left]
    exact bind_congr fun t => ih t.cpu

/-! ### The next start -/

variable {β : Type} [Bus β]

/-- The handler that is entered when something is started. -/
theorem handlers_tick_of_starts {cpu : Cpu} (hs : cpu.Starts) (bus : β) :
    handlers (cpu.tick.path bus) =
      if cpu.pendingNmi then [nmiVector]
      else if cpu.pendingIrq && !cpu.registers.isSet Flag.irqDisable then [irqVector]
      else [] := by
  rw [handlers_tick, taken?_of_starts hs, nextInterrupt?]
  split
  · rfl
  · split <;> rfl

theorem enters_of_mem_handlers {cpu : Cpu} {bus : β} {vector : UInt16}
    (h : vector ∈ handlers (cpu.tick.path bus)) : cpu.Enters bus vector := by
  rw [handlers_tick, Option.mem_toList] at h
  exact enters_of_taken h bus

/-- **It makes no difference when an interrupt is requested while an instruction is in flight.**
Take all cycles that the processor has left, and among them requests for interrupts, as many and in
any order.

* The same requests made after the last of these cycles, once each or more often, leave the same
  processor and the same bus, and so everything that is done from then on goes the same way.
* A processor that was reached from power-on and has cycles left has not halted.
* If it has not halted, the cycles change nothing but the two counts of cycles, and the requests
  nothing but the latches.  The bus is not accessed, and no handler is entered.
* In the next cycle the interrupt is taken: the non-maskable one if it waits, and otherwise the
  maskable one if it waits and is enabled. -/
theorem request_time_irrelevant (bus : β) {cpu : Cpu} {l : List Signal}
    (hl : l.count .tick = cpu.cyclesLeft) :
    (∀ last : List Signal, (∀ s, s ∈ last ↔ s ∈ l ∧ s ≠ .tick) →
      let late := List.replicate cpu.cyclesLeft .tick ++ last
      (signals l cpu).run bus = (signals late cpu).run bus ∧
      ∀ more : List Command,
        (commands (l.map .signal ++ more) cpu).run bus =
          (commands (late.map .signal ++ more) cpu).run bus) ∧
    (cpu.Reachable → 0 < cpu.cyclesLeft → cpu.halted = none) ∧
    (cpu.halted = none →
      (∀ n ≤ cpu.cyclesLeft, (ticks n cpu).run bus =
        ⟨{ cpu with cyclesLeft := cpu.cyclesLeft - n, totalCycles := cpu.totalCycles + n }, bus,
          []⟩) ∧
      let masked := cpu.registers.isSet Flag.irqDisable
      let nmi := cpu.pendingNmi || decide (.nmi ∈ l)
      let irq := cpu.pendingIrq || (decide (.irq ∈ l) && !masked)
      let due : Cpu :=
        { cpu with
          cyclesLeft := 0
          totalCycles := cpu.totalCycles + cpu.cyclesLeft
          pendingNmi := nmi
          pendingIrq := irq }
      (signals l cpu).run bus = ⟨due, bus, []⟩ ∧
      handlers (due.tick.path bus) =
        (if nmi then [nmiVector] else if irq && !masked then [irqVector] else []) ∧
      ∀ vector ∈ handlers (due.tick.path bus), due.Enters bus vector) := by
  have hrun : signals l cpu = pure (cpu.waited l) := signals_in_flight (Nat.le_of_eq hl)
  refine ⟨fun last hlast => ?_, fun hreach hleft => ?_, fun hh => ⟨?_, ?_, ?_, ?_⟩⟩
  · intro late
    -- Both orders have as many cycles and the same kinds of requests.
    have hticks : late.count .tick = l.count .tick := by
      have hnone : last.count .tick = 0 := List.count_eq_zero.2 fun h => ((hlast _).1 h).2 rfl
      rw [List.count_append, List.count_replicate_self, hnone, hl, Nat.add_zero]
    have hkind {s : Signal} (hs : s ≠ .tick) : s ∈ late ↔ s ∈ l := by
      rw [List.mem_append, hlast, List.mem_replicate]
      exact ⟨fun h => h.elim (fun h => absurd h.2 hs) fun h => h.1, fun h => .inr ⟨h, hs⟩⟩
    have hsame : signals late cpu = signals l cpu := by
      rw [hrun, signals_in_flight (Nat.le_of_eq (hticks.trans hl)), waited, waited, hticks]
      simp only [hkind (s := .nmi) (by decide), hkind (s := .irq) (by decide)]
    refine ⟨by rw [hsame], fun more => ?_⟩
    rw [commands_map_signal_append, commands_map_signal_append, hsame]
  · -- A halted processor has no cycles left.
    cases hh : cpu.halted with
    | none => rfl
    | some fault =>
      have hzero := hreach.cyclesLeft_of_halted (Option.isSome_of_eq_some hh)
      omega
  · exact fun n hn => run_ticks_of_busy hh hn bus
  · rw [hrun, waited, idle_of_running hh, hl, Nat.sub_self]
    rfl
  · exact handlers_tick_of_starts (by exact ⟨hh, rfl⟩) bus
  · exact fun vector hmem => enters_of_mem_handlers hmem

/-- Two requests of each kind around the last two cycles of an instruction are the same as one of
each kind after them: the handler of the non-maskable interrupt is entered. -/
theorem request_time_irrelevant_around_two_cycles :
    letI := Bus.always 0xEA
    let cpu : Cpu := { registers := { status := Flag.unused }, cyclesLeft := 2 }
    let l : List Signal := [.irq, .tick, .nmi, .irq, .tick, .nmi]
    let due := ((signals l cpu).run ()).value
    l.count .tick = cpu.cyclesLeft ∧
      (signals l cpu).run () = (signals [.tick, .tick, .irq, .nmi] cpu).run () ∧
      due.pendingIrq = true ∧ due.Enters () nmiVector := by
  let _bus := Bus.always 0xEA
  intro cpu l due
  have hl : l.count .tick = cpu.cyclesLeft := by decide
  obtain ⟨hsame, -, hrunning⟩ := request_time_irrelevant () hl
  obtain ⟨-, hrun, hhandlers, henters⟩ := hrunning rfl
  have hdue : due = _ := congrArg Outcome.value hrun
  refine ⟨hl, (hsame [.irq, .nmi] ?_).1, by decide +kernel, ?_⟩
  · intro s
    cases s <;> decide
  · rw [hdue]
    refine henters nmiVector ?_
    rw [hhandlers]
    decide +kernel

end Cpu

end Nes
