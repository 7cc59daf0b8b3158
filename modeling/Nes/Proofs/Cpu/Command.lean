import Nes.Proofs.Cpu.Halt

/-!
# A processor under command

A processor is driven from outside by four commands: it is reset, it goes through a cycle, or an
interrupt of one of two kinds is requested.  A run is a list of commands, in any order, on a bus
that stays the same throughout.

## Main definitions

* `Cpu.Command`, `Cpu.command`: the commands and what they leave.
* `Cpu.commands`: runs.
* `Cpu.Reachable`: the processors that commands lead to from power-on.

## Main statements

* `Cpu.Reachable.preserves`: what every command keeps holds of all reachable processors.
* `Cpu.Reachable.cyclesLeft_of_halted`: a processor halts between two instructions only.
-/

namespace Nes

namespace Cpu

/-- What is done to a processor. -/
inductive Command
  | reset
  | signal (s : Signal)
  deriving DecidableEq

/-- What a command leaves. -/
def command (cpu : Cpu) : Command → BusM Cpu
  | .reset => cpu.reset
  | .signal s => Ticked.cpu <$> cpu.signal s

/-- What a list of commands leaves. -/
def commands : List Command → Cpu → BusM Cpu
  | [], cpu => pure cpu
  | c :: l, cpu => do
    let cpu ← cpu.command c
    commands l cpu

/-- The processors that can be reached from power-on by commands.  The bus may be another one for
every command. -/
inductive Reachable : Cpu → Prop
  /-- Power is switched on. -/
  | powerOn : Reachable {}
  | command {cpu : Cpu} (h : Reachable cpu) {β : Type} [Bus β] (bus : β) (c : Command) :
    Reachable ((cpu.command c).run bus).value

/-- **What every command keeps holds of all reachable processors.** -/
theorem Reachable.preserves {P : Cpu → Prop} (hon : P {})
    (hstep : ∀ {cpu : Cpu} {β : Type} [Bus β] (bus : β) (c : Command), P cpu →
      P ((cpu.command c).run bus).value) {cpu : Cpu} (h : cpu.Reachable) : P cpu := by
  induction h with
  | powerOn => exact hon
  | command _ bus c ih => exact hstep bus c ih

section OnABus

variable {β : Type} [Bus β]

/-! ### Single commands -/

@[simp] theorem run_command_tick (cpu : Cpu) (bus : β) :
    (cpu.command (.signal .tick)).run bus =
      ⟨(cpu.tick.run bus).value.cpu, (cpu.tick.run bus).bus, (cpu.tick.run bus).trace⟩ :=
  BusM.run_map Ticked.cpu cpu.tick bus

@[simp] theorem path_command_tick (cpu : Cpu) (bus : β) :
    (cpu.command (.signal .tick)).path bus = cpu.tick.path bus := by
  show (Ticked.cpu <$> cpu.tick).path bus = cpu.tick.path bus
  rw [← bind_pure_comp, BusM.path_bind]
  exact List.append_nil _

@[simp] theorem command_irq (cpu : Cpu) : cpu.command (.signal .irq) = pure cpu.requestIrq := rfl

/-! ### Reachable processors -/

theorem Reachable.tick {cpu : Cpu} (h : cpu.Reachable) (bus : β) :
    (cpu.tick.run bus).value.cpu.Reachable := by
  have hone := h.command bus (.signal .tick)
  rwa [run_command_tick] at hone

theorem Reachable.reset {cpu : Cpu} (h : cpu.Reachable) (bus : β) :
    (cpu.reset.run bus).value.Reachable :=
  h.command bus .reset

theorem Reachable.requestNmi {cpu : Cpu} (h : cpu.Reachable) (bus : β) :
    cpu.requestNmi.Reachable :=
  h.command bus (.signal .nmi)

theorem Reachable.requestIrq {cpu : Cpu} (h : cpu.Reachable) (bus : β) :
    cpu.requestIrq.Reachable :=
  h.command bus (.signal .irq)

end OnABus

/-- **A processor that has halted is between two instructions.** -/
theorem Reachable.cyclesLeft_of_halted {cpu : Cpu} (h : cpu.Reachable)
    (hh : cpu.halted.isSome = true) : cpu.cyclesLeft = 0 := by
  refine h.preserves (P := fun cpu => cpu.halted.isSome = true → cpu.cyclesLeft = 0)
    (fun _ => rfl) ?_ hh
  intro cpu β _ bus c hcpu
  cases c with
  | reset =>
    intro _
    obtain ⟨start, hreset⟩ := cpu.run_reset bus
    show (cpu.reset.run bus).value.cyclesLeft = 0
    rw [hreset]
  | signal s =>
    cases s with
    | nmi => exact hcpu
    | irq =>
      show cpu.requestIrq.halted.isSome = true → cpu.requestIrq.cyclesLeft = 0
      rw [requestIrq_eq]
      exact hcpu
    | tick =>
      rw [run_command_tick]
      have htick := cpu.tickPath_run bus
      generalize (cpu.tick.run bus).value = o at htick
      generalize cpu.tick.path bus = t at htick
      -- A cycle that does not halt leaves a processor that runs, so it is excluded.
      cases htick with
      | halted => exact hcpu
      | undocumented _ hc => exact fun _ => hc
      | countDown hrun | nmi hrun | irq hrun | executed hrun =>
        intro hsome
        have hsome : cpu.halted.isSome = true := hsome
        rw [hrun] at hsome
        exact absurd hsome Bool.false_ne_true

end Cpu

end Nes
