import Nes.Proofs.Cpu.Tick

/-!
# The count of cycles

The processor counts its cycles and never looks at the count.  Two processors that differ in nothing
else make the same accesses, get the same results and differ in nothing else afterwards, by the same
number as before.

## Main definitions

* `Cpu.later n`: the processor with `n` more cycles counted.

## Main statements

* `Cpu.tick_later`, `Cpu.ticks_later`: cycles do not depend on the count.
-/

namespace Nes

namespace Cpu

-- The opcode matrix is looked up in, and never evaluated.
attribute [local irreducible] OpcodeMatrix.entries

/-- The processor with `n` more cycles counted. -/
def later (cpu : Cpu) (n : Nat) : Cpu := { cpu with totalCycles := cpu.totalCycles + n }

/-- What a cycle leaves, with `n` more cycles counted. -/
def Ticked.later (o : Ticked) (n : Nat) : Ticked := ⟨o.cpu.later n, o.result⟩

theorem finishTick_later (cpu : Cpu) (n : Nat) :
    (cpu.later n).finishTick = cpu.finishTick.later n := by
  cases hh : cpu.halted with
  | some fault => rw [finishTick_of_halted hh, finishTick_of_halted (by exact hh), Ticked.later]
  | none =>
    have hcount : (cpu.later n).countDown = cpu.countDown.later n := by
      simp only [countDown, later, Nat.add_right_comm]
    rw [finishTick_of_running hh, finishTick_of_running (by exact hh), Ticked.later, hcount]

theorem interrupt_later (cpu : Cpu) (n : Nat) (vector : UInt16) :
    (cpu.later n).interrupt vector = (·.later n) <$> cpu.interrupt vector := by
  simp only [interrupt, map_bind, map_pure]
  rfl

theorem execute_later (cpu : Cpu) (n : Nat) (i : Instruction) (r : Registers) :
    (cpu.later n).execute i r = (·.later n) <$> cpu.execute i r := by
  simp only [execute, map_bind, map_pure]
  rfl

theorem executeNext_later (cpu : Cpu) (n : Nat) :
    (cpu.later n).executeNext = (·.later n) <$> cpu.executeNext := by
  have hregisters : (cpu.later n).registers = cpu.registers := rfl
  unfold executeNext
  rw [hregisters, map_bind]
  refine bind_congr fun fetched => ?_
  cases hi : Instruction.ofOpcode? fetched.1 with
  | some i =>
    simp only [hi, map_bind]
    exact bind_congr fun _ => cpu.execute_later n i fetched.2
  | none =>
    simp only [hi, map_bind]
    rfl

theorem start_later (cpu : Cpu) (n : Nat) : (cpu.later n).start = (·.later n) <$> cpu.start := by
  have hnext : (cpu.later n).nextInterrupt? = cpu.nextInterrupt? := rfl
  rw [start_eq, start_eq, hnext]
  split
  · exact interrupt_later { cpu with registers := cpu.ready, pendingNmi := false } n nmiVector
  · split
    · exact interrupt_later { cpu with registers := cpu.ready, pendingIrq := false } n irqVector
    · exact executeNext_later { cpu with registers := cpu.ready } n

/-- **A cycle does not depend on the count of cycles.** -/
theorem tick_later (cpu : Cpu) (n : Nat) : (cpu.later n).tick = (·.later n) <$> cpu.tick := by
  have hidle : ((cpu.later n).halted.isNone && (cpu.later n).atBoundary) =
      (cpu.halted.isNone && cpu.atBoundary) := rfl
  unfold tick
  rw [hidle]
  split
  · rw [start_later, bind_map_left, map_bind]
    refine bind_congr fun started => ?_
    rw [finishTick_later, map_pure]
  · rw [finishTick_later, map_pure]

/-- Neither do many. -/
theorem ticks_later (k : Nat) (cpu : Cpu) (n : Nat) :
    ticks k (cpu.later n) = (·.later n) <$> ticks k cpu := by
  induction k generalizing cpu with
  | zero => rfl
  | succ k ih =>
    rw [ticks, ticks, tick_later, bind_map_left, map_bind]
    exact bind_congr fun o => ih o.cpu

/-! ### Cycles on a bus -/

variable {β : Type} [Bus β]

theorem run_tick_later (cpu : Cpu) (n : Nat) (bus : β) :
    (cpu.later n).tick.run bus =
      ⟨(cpu.tick.run bus).value.later n, (cpu.tick.run bus).bus, (cpu.tick.run bus).trace⟩ := by
  rw [tick_later, BusM.run_map]

theorem run_ticks_later (k : Nat) (cpu : Cpu) (n : Nat) (bus : β) :
    (ticks k (cpu.later n)).run bus =
      ⟨((ticks k cpu).run bus).value.later n, ((ticks k cpu).run bus).bus,
        ((ticks k cpu).run bus).trace⟩ := by
  rw [ticks_later, BusM.run_map]

end Cpu

end Nes
