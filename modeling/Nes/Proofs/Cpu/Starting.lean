import Nes.Proofs.Cpu.OperandPath
import Nes.Proofs.Cpu.Tick

/-!
# Starting an instruction

A running processor between two instructions, with no interrupt to take, reads an opcode.  If that
is documented, the cycle goes on to find the operand and to carry out the operation on whatever the
bus is by then; if not, the processor halts in place.  Here the two outcomes are given as a whole,
for every bus: what the cycle leaves of the processor and of the bus, and its trace.

## Main definitions

* `Cpu.Executes`: the next cycle executes an instruction on an operand.

## Main statements

* `Cpu.run_tick_of_documented`, `Cpu.run_tick_of_undocumented`: the two outcomes.
-/

namespace Nes

namespace Cpu

-- The opcode matrix is looked up in, and never evaluated.
attribute [local irreducible] OpcodeMatrix.entries

variable {β : Type} [Bus β]

/-- The next cycle executes the instruction `i` on the operand `op`: it reads the opcode and then
what leads to the operand, and carries out the operation on the bus that these reads leave. -/
def Executes (cpu : Cpu) (bus : β) (i : Instruction) (op : Operand) : Prop :=
  ∃ found bus', i.mode.Finds (cpu.registers.pc + 1) cpu.registers.x cpu.registers.y found op ∧
    Bus.Leads bus (.read cpu.registers.pc i.opcode :: found) bus' ∧
    let acted := (i.mnemonic.effect.perform op
      (cpu.ready.jumpTo (cpu.registers.pc + UInt16.ofNat i.length))).run bus'
    cpu.tick.run bus =
      ⟨⟨{ cpu with
          registers := acted.value.1
          cyclesLeft := i.cycles + acted.value.2 - 1
          totalCycles := cpu.totalCycles + 1 }, .ok ()⟩,
        acted.bus,
        .read cpu.registers.pc i.opcode :: .event (.executed cpu.registers.pc i) ::
          (found ++ acted.trace)⟩

theorem run_execute (cpu : Cpu) (i : Instruction) (r : Registers) (bus : β) :
    (cpu.execute i r).run bus =
      let found := (i.mode.resolve BusM.readByte r.pc r.x r.y).run bus
      let acted := (i.mnemonic.effect.perform found.value
        (r.jumpTo (r.pc + UInt16.ofNat i.mode.operandLength))).run found.bus
      ⟨{ cpu with registers := acted.value.1, cyclesLeft := i.cycles + acted.value.2 }, acted.bus,
        found.trace ++ acted.trace⟩ := by
  unfold execute Registers.fetchOperand
  simp only [BusM.run_bind, BusM.run_pure, List.append_nil]

/-- A cycle that takes no interrupt executes what comes next. -/
theorem run_tick_of_start {cpu : Cpu} (hh : cpu.halted = none) (hc : cpu.cyclesLeft = 0)
    (hn : cpu.nextInterrupt? = none) (bus : β) :
    cpu.tick.run bus =
      let o := (executeNext { cpu with registers := cpu.ready }).run bus
      ⟨o.value.finishTick, o.bus, o.trace⟩ := by
  have hb : (cpu.halted.isNone && cpu.atBoundary) = true := by
    rw [hh, atBoundary_iff.2 hc]
    rfl
  have hnmi : cpu.nextInterrupt? ≠ some nmiVector := by
    rw [hn]
    exact (Option.some_ne_none _).symm
  have hirq : cpu.nextInterrupt? ≠ some irqVector := by
    rw [hn]
    exact (Option.some_ne_none _).symm
  rw [tick, if_pos hb, start_eq, if_neg hnmi, if_neg hirq, BusM.run_bind]
  simp only [BusM.run_pure, List.append_nil]

/-- **What a cycle does that reads a documented opcode.** -/
theorem run_tick_of_documented {cpu : Cpu} (hh : cpu.halted = none) (hc : cpu.cyclesLeft = 0)
    (hn : cpu.nextInterrupt? = none) {bus : β} {i : Instruction}
    (hi : Instruction.ofOpcode? (Bus.read bus cpu.registers.pc).1 = some i) :
    cpu.tick.run bus =
      let found := (i.mode.resolve BusM.readByte (cpu.registers.pc + 1) cpu.registers.x
        cpu.registers.y).run (Bus.read bus cpu.registers.pc).2
      let acted := (i.mnemonic.effect.perform found.value (cpu.ready.jumpTo
        (cpu.registers.pc + 1 + UInt16.ofNat i.mode.operandLength))).run found.bus
      ⟨⟨{ cpu with
          registers := acted.value.1
          cyclesLeft := i.cycles + acted.value.2 - 1
          totalCycles := cpu.totalCycles + 1 }, .ok ()⟩,
        acted.bus,
        .read cpu.registers.pc i.opcode :: .event (.executed cpu.registers.pc i) ::
          (found.trace ++ acted.trace)⟩ := by
  have hpc : cpu.ready.pc = cpu.registers.pc := rfl
  rw [run_tick_of_start hh hc hn, Instruction.opcode_of_ofOpcode? hi]
  unfold executeNext Registers.fetch
  simp only [BusM.run_bind, BusM.run_readByte, BusM.run_pure, hpc, hi, BusM.run_tell, run_execute]
  rw [finishTick_of_running (by exact hh)]
  rfl

/-- **What a cycle does that reads an undocumented opcode.** -/
theorem run_tick_of_undocumented {cpu : Cpu} (hh : cpu.halted = none) (hc : cpu.cyclesLeft = 0)
    (hn : cpu.nextInterrupt? = none) {bus : β} {opcode : UInt8}
    (hop : (Bus.read bus cpu.registers.pc).1 = opcode)
    (hi : Instruction.ofOpcode? opcode = none) :
    cpu.tick.run bus =
      ⟨⟨{ cpu with
          registers := cpu.ready
          halted := some (.unimplementedOpcode opcode cpu.registers.pc) },
          .error (.unimplementedOpcode opcode cpu.registers.pc)⟩,
        (Bus.read bus cpu.registers.pc).2,
        [.read cpu.registers.pc opcode,
          .event (.unimplementedOpcode opcode cpu.registers.pc)]⟩ := by
  have hpc : cpu.ready.pc = cpu.registers.pc := rfl
  rw [run_tick_of_start hh hc hn]
  unfold executeNext Registers.fetch
  simp only [BusM.run_bind, BusM.run_readByte, BusM.run_pure, hpc, hop, hi, BusM.run_tell]
  rw [finishTick_of_halted rfl]
  rfl

end Cpu

end Nes
