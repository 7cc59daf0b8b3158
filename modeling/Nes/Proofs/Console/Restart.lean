import Nes.Proofs.Console.Mirrors
import Nes.Proofs.Console.Operation
import Nes.Proofs.Cpu.CycleCount
import Nes.Proofs.Cpu.Halt

/-!
# After a reset

A reset leaves nothing of the processor but its count of cycles, and it starts the count of clocks
over, which decides in which clocks the processor advances.  The two bytes that it reads are at the
end of the address space, where reading has no effect.  So two consoles that differ in their
processors and in their counts of clocks are the same after a reset, except for the count of cycles.

Nothing looks at the count of cycles.  Whatever is done to the two consoles afterwards, they answer
the same and remain the same, and the counts remain as far apart as they were.

## Main definitions

* `Console.later n`: the console with `n` more cycles counted.
* `Console.uncounted`: the console without its count of cycles.
* `Operation.keepsCpu`: the processor is not taken out.

## Main statements

* `Console.operate_later`, `Console.operateAll_later`: operations do not depend on the count.
* `Console.reset_eq`: what a reset leaves.
* `Console.reset_forgets`: after a reset, the past of the processor has no influence.
-/

namespace Nes

namespace Console

/-- The console with `n` more cycles counted. -/
def later (c : Console) (n : Nat) : Console := { c with cpu := c.cpu.later n }

/-- The console without its count of cycles. -/
def uncounted (c : Console) : Console := { c with cpu := { c.cpu with totalCycles := 0 } }

theorem uncounted_later (c : Console) (n : Nat) : (c.later n).uncounted = c.uncounted := rfl

/-! ### Clocks -/

theorem cycle_later (c : Console) (n : Nat) :
    (c.later n).cycle = ⟨c.cycle.value.later n, c.cycle.bus, c.cycle.trace⟩ := by
  show cpuPart c.cpuIsDue (c.cpu.later n) c.dotted = _
  unfold cycle cpuPart
  split
  · exact c.cpu.run_tick_later n c.dotted
  · rfl

/-- **A clock does not depend on the count of cycles.** -/
theorem clock_later (c : Console) (n : Nat) :
    (c.later n).clock = ⟨c.clock.console.later n, c.clock.result, c.clock.events⟩ := by
  rw [clock_eq, clock_eq, cycle_later]
  cases c.cycle.bus.ppu.nmiRequest <;> rfl

end Console

/-- What a run leaves, with `n` more cycles counted. -/
def Run.later (r : Run) (n : Nat) : Run := { r with console := r.console.later n }

theorem Run.clock_later (r : Run) (n : Nat) : (r.later n).clock = r.clock.later n := by
  rw [clock_eq, clock_eq]
  dsimp only [later]
  rw [Console.clock_later]

/-- **Neither does a run**, if its condition does not. -/
theorem Run.extend_later {stop : Console → Bool} {n : Nat}
    (hstop : ∀ c : Console, stop (c.later n) = stop c) (limit : Nat) (r : Run) :
    (r.later n).extend stop limit = (r.extend stop limit).later n := by
  induction limit generalizing r with
  | zero => rfl
  | succ limit ih =>
    have htest : ((r.later n).fault.isSome || stop (r.later n).console) =
        (r.fault.isSome || stop r.console) := congrArg _ (hstop r.console)
    unfold extend
    rw [htest]
    split
    · rfl
    · rw [clock_later, ih]

/-- The processor stays in the console during the operation. -/
def Operation.keepsCpu : Operation → Bool
  | mapCpu _ => false
  | _ => true

namespace Console

/-! ### Operations -/

theorem stepInstruction_later (c : Console) (n : Nat) :
    (c.later n).stepInstruction = c.stepInstruction.later n := by
  have hstarted : (c.later n).runUntil (fun c => !c.cpu.atBoundary) clocksPerCycle =
      (c.runUntil (fun c => !c.cpu.atBoundary) clocksPerCycle).later n :=
    Run.extend_later (fun _ => rfl) clocksPerCycle { console := c }
  unfold stepInstruction
  dsimp only
  rw [hstarted]
  exact Run.extend_later (fun _ => rfl) _ _

theorem stepFrame_later (c : Console) (n : Nat) :
    (c.later n).stepFrame = c.stepFrame.later n := by
  have hrun : (c.later n).takeFrameComplete.2.runUntil (·.space.ppu.frameComplete)
      Beam.frameLength = (c.takeFrameComplete.2.runUntil (·.space.ppu.frameComplete)
        Beam.frameLength).later n :=
    Run.extend_later (fun _ => rfl) Beam.frameLength { console := c.takeFrameComplete.2 }
  unfold stepFrame
  dsimp only
  rw [hrun]
  show (if (c.takeFrameComplete.2.runUntil _ Beam.frameLength).fault.isSome then _ else _) = _
  split <;> rfl

/-- What a reset reads has no effect on the memory. -/
theorem bus_reset (cpu : Cpu) (s : AddressSpace) : (cpu.reset.run s).bus = s := by
  -- The vector is not in the picture unit.
  have hlow : (s.read resetVector).2 = s :=
    AddressSpace.read_of_not_register (AddressSpace.target_ne_register (.inr (by decide)))
  have hhigh : (s.read (resetVector + 1)).2 = s :=
    AddressSpace.read_of_not_register (AddressSpace.target_ne_register (.inr (by decide)))
  rw [Cpu.reset, BusM.run_bind, BusM.run_readWord]
  show ((s.read resetVector).2.read (resetVector + 1)).2 = s
  rw [hlow, hhigh]

/-- The address at which the processor starts after a reset. -/
def startAddress (s : AddressSpace) : UInt16 := ((BusM.readWord resetVector).run s).value

/-- **What a reset leaves**: a processor that is new but for its count of cycles, the memory as it
was, and no clock counted. -/
theorem reset_eq (c : Console) : c.reset =
    (later ⟨{ registers := { pc := startAddress c.space } }, c.space, 0⟩ c.cpu.totalCycles,
      [.busReset (startAddress c.space)]) := by
  have hbus := bus_reset c.cpu c.space
  have hvalue : (c.cpu.reset.run c.space).value =
      { registers := { pc := startAddress c.space }, totalCycles := c.cpu.totalCycles } := by
    rw [Cpu.reset, BusM.run_bind]
    rfl
  have hevents : (c.cpu.reset.run c.space).events = [] := rfl
  unfold reset
  dsimp only
  rw [hbus, hvalue, hevents]
  simp only [later, Cpu.later, Nat.zero_add, List.nil_append]

theorem reset_later (c : Console) (n : Nat) :
    (c.later n).reset = (c.reset.1.later n, c.reset.2) := by
  rw [reset_eq, reset_eq]
  simp only [later, Cpu.later, Nat.add_assoc]

/-- **No operation depends on the count of cycles**, as long as the processor is not taken out. -/
theorem operate_later (c : Console) (n : Nat) {o : Operation} (ho : o.keepsCpu = true) :
    (c.later n).operate o = ⟨(c.operate o).console.later n, (c.operate o).answer⟩ := by
  cases o with
  | reset =>
    unfold operate
    dsimp only
    rw [reset_later]
  | clock =>
    unfold operate
    dsimp only
    rw [clock_later]
  | stepInstruction =>
    unfold operate
    dsimp only
    rw [stepInstruction_later]
    rfl
  | stepFrame =>
    unfold operate
    dsimp only
    rw [stepFrame_later]
    rfl
  | tick =>
    unfold operate
    dsimp only
    rw [show (c.later n).cpu.tick.run (c.later n).space = _ from c.cpu.run_tick_later n c.space]
    rfl
  -- Whether the request is kept depends on a flag, and not on the count.
  | requestIrq =>
    have hirq : (c.cpu.later n).requestIrq = c.cpu.requestIrq.later n := by
      rw [Cpu.requestIrq_eq, Cpu.requestIrq_eq]
      rfl
    show Operated.mk { c with cpu := (c.cpu.later n).requestIrq } {} = _
    rw [hirq]
    rfl
  | mapCpu f => exact absurd ho Bool.false_ne_true
  | _ => rfl

/-- **Nor does any number of operations.** -/
theorem operateAll_later (c : Console) (n : Nat) {ops : List Operation}
    (hops : ∀ o ∈ ops, o.keepsCpu = true) :
    (c.later n).operateAll ops = (c.operateAll ops).later n ∧
      (c.later n).answers ops = c.answers ops := by
  induction ops generalizing c with
  | nil => exact ⟨rfl, rfl⟩
  | cons o ops ih =>
    have hone := c.operate_later n (hops o (List.mem_cons_self ..))
    obtain ⟨hafter, hanswers⟩ := ih (c.operate o).console
      fun o' ho' => hops o' (List.mem_cons_of_mem _ ho')
    rw [operateAll, List.foldl_cons, answers, hone]
    exact ⟨hafter, congrArg _ hanswers⟩

/-- **A reset forgets the past of the processor.**  Let two consoles agree in what the processor can
reach.  Their processors, also as to what is in flight, what waits and whether they have halted, and
their counts of clocks may be any.

* Both resets tell the same.  After them, the same operations have the same answers, faults and
  events included, and every address shows the same byte.
* The consoles are equal, except that their counts of cycles differ by as much as before.
* The reset does nothing to work RAM, picture unit and cartridge and does not touch the count of
  cycles, and a second one changes nothing. -/
theorem reset_forgets {c d : Console} (h : c.space = d.space) {ops : List Operation}
    (hops : ∀ o ∈ ops, o.keepsCpu = true) :
    let c' := c.reset.1.operateAll ops
    let d' := d.reset.1.operateAll ops
    (c.reset.2 = d.reset.2 ∧ c.reset.1.answers ops = d.reset.1.answers ops ∧
      ∀ addr, c'.peek addr = d'.peek addr) ∧
    (c'.uncounted = d'.uncounted ∧
      c'.cpu.totalCycles + d.cpu.totalCycles = d'.cpu.totalCycles + c.cpu.totalCycles) ∧
    c.reset.1.space = c.space ∧ c.reset.1.cpu.totalCycles = c.cpu.totalCycles ∧
    c.reset.1.reset = c.reset := by
  intro c' d'
  -- Both are one console, with different numbers of cycles counted.
  obtain ⟨e, he⟩ : ∃ e : Console,
      e = ⟨{ registers := { pc := startAddress c.space } }, c.space, 0⟩ := ⟨_, rfl⟩
  have hc : c.reset = (e.later c.cpu.totalCycles, [.busReset (startAddress c.space)]) := by
    rw [he]
    exact c.reset_eq
  have hd : d.reset = (e.later d.cpu.totalCycles, [.busReset (startAddress c.space)]) := by
    rw [he, h]
    exact d.reset_eq
  obtain ⟨hcafter, hcanswers⟩ := e.operateAll_later c.cpu.totalCycles hops
  obtain ⟨hdafter, hdanswers⟩ := e.operateAll_later d.cpu.totalCycles hops
  have hc' : c' = (e.operateAll ops).later c.cpu.totalCycles := by
    rw [← hcafter]
    show c.reset.1.operateAll ops = _
    rw [hc]
  have hd' : d' = (e.operateAll ops).later d.cpu.totalCycles := by
    rw [← hdafter]
    show d.reset.1.operateAll ops = _
    rw [hd]
  refine ⟨⟨?_, ?_, ?_⟩, ⟨?_, ?_⟩, ?_, ?_, ?_⟩
  · rw [hc, hd]
  · rw [hc, hd]
    exact hcanswers.trans hdanswers.symm
  · intro addr
    rw [hc', hd']
    rfl
  · rw [hc', hd', uncounted_later, uncounted_later]
  · rw [hc', hd']
    show (e.operateAll ops).cpu.totalCycles + _ + _ = (e.operateAll ops).cpu.totalCycles + _ + _
    omega
  · rw [hc, he]
    rfl
  · rw [hc, he]
    exact Nat.zero_add _
  · rw [reset_eq c.reset.1, reset_eq c]
    simp only [later, Cpu.later, Nat.zero_add]

/-- A processor that has halted with both interrupts waiting behaves after a reset like one that was
never used. -/
theorem reset_forgets_halt : ∃ c d : Console,
    (c.space = d.space ∧ c.cpu ≠ d.cpu ∧ c.systemClock ≠ d.systemClock ∧
      d.cpu.halted = some (.unimplementedOpcode 0x02 0x8000)) ∧
    (∀ o ∈ [Operation.clock, .requestNmi, .stepInstruction, .read 0x2002, .reset, .stepFrame],
      o.keepsCpu = true) ∧
    c.reset.1.answers
        [.clock, .requestNmi, .stepInstruction, .read 0x2002, .reset, .stepFrame] =
      d.reset.1.answers
        [.clock, .requestNmi, .stepInstruction, .read 0x2002, .reset, .stepFrame] ∧
    d.reset.1.cpu.totalCycles = 29780 := by
  obtain ⟨-, cart, -⟩ := Cartridge.exists_load
  obtain ⟨c, hc⟩ : ∃ c, c = powerOn cart := ⟨_, rfl⟩
  -- Nothing of this processor is evaluated but the fields in question.
  obtain ⟨cpu, hcpu⟩ : ∃ cpu : Cpu, cpu =
      { registers := { x := 0x12, pc := 0x8000 }, pendingNmi := true, pendingIrq := true,
        totalCycles := 29780, halted := some (.unimplementedOpcode 0x02 0x8000) } := ⟨_, rfl⟩
  have hhalted : cpu.halted = some (.unimplementedOpcode 0x02 0x8000) := by rw [hcpu]
  have hne : c.cpu ≠ cpu := by
    rw [hc, hcpu]
    exact fun h => absurd (congrArg Cpu.totalCycles h) (show (0 : Nat) ≠ 29780 by decide)
  have hclock : c.systemClock ≠ 89340 := by
    rw [hc]
    show (0 : Nat) ≠ 89340
    decide
  have hops : ∀ o ∈ [Operation.clock, .requestNmi, .stepInstruction, .read 0x2002, .reset,
      .stepFrame], o.keepsCpu = true := by
    simp [Operation.keepsCpu]
  obtain ⟨d, hd⟩ : ∃ d : Console, d = ⟨cpu, c.space, 89340⟩ := ⟨_, rfl⟩
  have hspace : c.space = d.space := by rw [hd]
  obtain ⟨⟨-, hanswers, -⟩, -, -⟩ := reset_forgets hspace hops
  obtain ⟨-, -, -, hcount, -⟩ := reset_forgets hspace.symm hops
  refine ⟨c, d, ⟨hspace, ?_, ?_, ?_⟩, hops, hanswers, ?_⟩
  · rw [hd]
    exact hne
  · rw [hd]
    exact hclock
  · rw [hd]
    exact hhalted
  · rw [hcount, hd, hcpu]

end Console

end Nes
