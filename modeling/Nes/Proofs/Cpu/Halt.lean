import Nes.Proofs.Cpu.Starting

/-!
# A halted processor

A processor that has halted makes no access in its cycles and counts none.  The signals that it gets
from outside set its two interrupt latches at most, and it reports the same fault in every cycle.  A
reset starts it over, with both latches clear.

## Main definitions

* `Cpu.Signal`, `Cpu.signals`: what a processor gets from outside, short of a reset.
* `Cpu.withLatches`: the processor with other interrupts waiting.

## Main statements

* `Cpu.tick_of_halted`, `Cpu.signals_of_halted`: a halted processor only collects interrupts.
* `Cpu.run_reset`: what a reset leaves.
-/

namespace Nes

namespace Cpu

/-- What a processor gets from outside: cycles and requests for interrupts. -/
inductive Signal
  | tick | nmi | irq
  deriving DecidableEq

/-- What a signal leaves; only cycles can fail. -/
def signal (cpu : Cpu) : Signal → BusM Ticked
  | .tick => cpu.tick
  | .nmi => pure ⟨cpu.requestNmi, .ok ()⟩
  | .irq => pure ⟨cpu.requestIrq, .ok ()⟩

/-- The processor after a list of signals. -/
def signals : List Signal → Cpu → BusM Cpu
  | [], cpu => pure cpu
  | s :: l, cpu => do
    let t ← cpu.signal s
    signals l t.cpu

/-- The processor with other interrupts waiting. -/
def withLatches (cpu : Cpu) (nmi irq : Bool) : Cpu :=
  { cpu with pendingNmi := nmi, pendingIrq := irq }

theorem requestIrq_withLatches (cpu : Cpu) (nmi irq : Bool) : ∃ irq',
    (cpu.withLatches nmi irq).requestIrq = cpu.withLatches nmi irq' :=
  ⟨_, (cpu.withLatches nmi irq).requestIrq_eq⟩

/-- **A halted processor only reports its fault.** -/
theorem tick_of_halted {cpu : Cpu} {fault : CpuFault} (h : cpu.halted = some fault) :
    cpu.tick = pure ⟨cpu, .error fault⟩ := by
  have hidle : (cpu.halted.isNone && cpu.atBoundary) = false := by
    rw [h]
    rfl
  rw [tick, hidle, if_neg Bool.false_ne_true, finishTick_of_halted h]

variable {β : Type} [Bus β]

/-- **Signals do nothing to a halted processor but set its latches**, and nothing to the bus. -/
theorem run_signals_of_halted {cpu : Cpu} {fault : CpuFault} (h : cpu.halted = some fault)
    (l : List Signal) (bus : β) :
    ∃ nmi irq, (signals l cpu).run bus = ⟨cpu.withLatches nmi irq, bus, []⟩ := by
  -- The latches are generalised, since every signal may set one of them.
  suffices hgen : ∀ nmi irq, ∃ nmi' irq',
      (signals l (cpu.withLatches nmi irq)).run bus = ⟨cpu.withLatches nmi' irq', bus, []⟩ from
    hgen cpu.pendingNmi cpu.pendingIrq
  induction l with
  | nil => exact fun nmi irq => ⟨nmi, irq, rfl⟩
  | cons s l ih =>
    intro nmi irq
    have hone : ∃ nmi' irq' result, (cpu.withLatches nmi irq).signal s =
        pure ⟨cpu.withLatches nmi' irq', result⟩ := by
      cases s with
      | tick => exact ⟨nmi, irq, .error fault, tick_of_halted h⟩
      | nmi => exact ⟨true, irq, .ok (), rfl⟩
      | irq =>
        obtain ⟨irq', hirq⟩ := cpu.requestIrq_withLatches nmi irq
        exact ⟨nmi, irq', .ok (), by rw [signal, hirq]⟩
    obtain ⟨nmi', irq', result, hone⟩ := hone
    rw [signals, hone, pure_bind]
    exact ih nmi' irq'

/-- **A reset starts over**: no fault and no latch is left, and the count of cycles goes on. -/
theorem run_reset (cpu : Cpu) (bus : β) : ∃ start,
    (cpu.reset.run bus).value = { registers := { pc := start }, totalCycles := cpu.totalCycles } :=
  ⟨((BusM.readWord resetVector).run bus).value, by
    rw [reset, BusM.run_bind]
    rfl⟩

/-- **What a halted processor is after any signals**: its registers and its count of cycles are what
they were, its next cycle fails without an access, and a reset starts it over. -/
theorem signals_of_halted {cpu : Cpu} {fault : CpuFault} (h : cpu.halted = some fault)
    (l : List Signal) (bus : β) :
    let o := (signals l cpu).run bus
    o.bus = bus ∧ o.trace = [] ∧
      o.value.registers = cpu.registers ∧ o.value.totalCycles = cpu.totalCycles ∧
      o.value.tick.run bus = ⟨⟨o.value, .error fault⟩, bus, []⟩ ∧
      ∃ start, (o.value.reset.run bus).value =
        { registers := { pc := start }, totalCycles := cpu.totalCycles } := by
  obtain ⟨nmi, irq, hsignals⟩ := run_signals_of_halted h l bus
  have hhalted : (cpu.withLatches nmi irq).halted = some fault := h
  dsimp only
  rw [hsignals]
  refine ⟨rfl, rfl, rfl, rfl, ?_, (cpu.withLatches nmi irq).run_reset bus⟩
  rw [tick_of_halted hhalted]
  rfl

end Cpu

end Nes
