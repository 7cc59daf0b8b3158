import Nes.Proofs.Checked.Program
import Nes.Proofs.Cpu.Timing

/-!
# The processor in fixed widths

The arithmetic of the processor wraps, with few exceptions.  Addition through the carry is done in a
word, so that the carry can be seen.  The cost of an instruction is a byte, put together from the
opcode matrix and from what the operation adds.  It is counted down before it is looked at, which is
safe because everything that the processor starts takes time.  And the cycles are counted.

## Main definitions

* `Checked.tick`: one cycle.
* `Checked.peekOperand`: resolving an operand without side effects.
* `Cpu.beforeCount`: the processor before its cycle is counted.

## Main statements

* `Cpu.cyclesLeft_execute`: an instruction costs two to seven cycles, whatever it finds.
* `Cpu.cyclesLeft_beforeCount`: one to seven cycles are left when one of them is counted.
* `Checked.tick_eq`: no cycle is trapped as long as cycles can be counted.
-/

namespace Nes

/-! ### What things cost -/

/-- What an operation adds to the cost of an instruction. -/
theorem Effect.Performs.extra_le {op : Operand} {r r' : Registers} {e : Effect} {t : List Activity}
    {extra : Nat} (h : Effect.Performs op r e t r' extra) : extra ≤ 2 := by
  cases h with
  | read => exact Nat.le_trans (Bool.toNat_le op.pageCrossed) (by decide)
  | branch =>
    unfold Operand.branch
    split
    · split
      · dsimp only
        split <;> decide
      · exact Nat.zero_le 2
    · exact Nat.zero_le 2
  | _ => decide

namespace Cpu

/-- A documented instruction costs two to seven cycles, with what the operation adds. -/
theorem cycles_add_extra_bounds {i : Instruction} (hi : i ∈ OpcodeMatrix.documented)
    {start : UInt16} {x y : UInt8} {r r' : Registers} {found acts : List Activity} {op : Operand}
    {extra : Nat} (hop : i.mode.Finds start x y found op)
    (hact : i.mnemonic.effect.Performs op r acts r' extra) :
    2 ≤ i.cycles + extra ∧ i.cycles + extra ≤ 7 := by
  obtain ⟨hmin, hmax, hreader, hbranch⟩ := OpcodeMatrix.cycles_bounds i hi
  refine ⟨Nat.le_add_right_of_le hmin, ?_⟩
  by_cases hb : i.mnemonic ∈ Mnemonic.branches
  · have htwo := hact.extra_le
    have hfive := hbranch hb
    omega
  · rw [Mnemonic.extra_eq 0 hact fun h => absurd h hb, Mnemonic.branchTaken_eq_false hb]
    -- Only a mode that can leave the page adds a cycle, and its instructions take five at most.
    by_cases hm : i.mode ∈ [AddressingMode.absoluteX, .absoluteY, .indirectY]
    · split
      · next hread =>
        have hfive := hreader hread hm
        have hone : op.penalty ≤ 1 := Bool.toNat_le op.pageCrossed
        split <;> omega
      · exact hmax
    · have hnone : op.penalty = 0 := congrArg Bool.toNat (hop.pageCrossed_eq_false hm)
      rw [hnone, ite_self, if_neg Bool.false_ne_true, ite_self]
      exact hmax

/-- What is started costs two to seven cycles, unless the processor halts instead.  None of them is
counted yet. -/
theorem cost_of_start {cpu cpu' : Cpu} {t : List Activity} (h : cpu.start.Follows t cpu') :
    cpu'.totalCycles = cpu.totalCycles ∧
      (cpu'.halted = none → 2 ≤ cpu'.cyclesLeft ∧ cpu'.cyclesLeft ≤ 7) := by
  have hseven : 2 ≤ interruptCycles ∧ interruptCycles ≤ 7 := by decide
  rw [start_eq] at h
  split at h
  · obtain ⟨low, high, -, rfl⟩ := follows_interrupt h
    exact ⟨rfl, fun _ => hseven⟩
  · split at h
    · obtain ⟨low, high, -, rfl⟩ := follows_interrupt h
      exact ⟨rfl, fun _ => hseven⟩
    · obtain ⟨opcode, i, op, found, acts, r, extra, hi, hop, hact, -, rfl⟩ | ⟨opcode, -, -, rfl⟩ :=
        follows_executeNext h
      · exact ⟨rfl, fun _ => cycles_add_extra_bounds (OpcodeMatrix.mem_documented hi)
          (AddressingMode.finds_of_follows hop) (Effect.performs_of_follows hact)⟩
      · exact ⟨rfl, nofun⟩

/-- A processor that goes on with what is in flight has cycles left of it. -/
theorem one_le_cyclesLeft {cpu : Cpu} (h : ¬(cpu.halted.isNone && cpu.atBoundary) = true)
    (hh : cpu.halted = none) : 1 ≤ cpu.cyclesLeft := by
  rw [hh, Option.isNone_none, Bool.true_and, Bool.not_eq_true, atBoundary_eq_false_iff] at h
  exact Nat.one_le_iff_ne_zero.2 h

section OnABus

variable {β : Type} [Bus β]

/-- **An instruction costs two to seven cycles**, whatever it finds on the bus. -/
theorem cyclesLeft_execute (cpu : Cpu) {opcode : UInt8} {i : Instruction}
    (hi : Instruction.ofOpcode? opcode = some i) (r : Registers) (bus : β) :
    2 ≤ ((cpu.execute i r).run bus).value.cyclesLeft ∧
      ((cpu.execute i r).run bus).value.cyclesLeft ≤ 7 := by
  obtain ⟨op, found, acts, r', extra, hop, hact, -, hcpu⟩ :=
    follows_execute (BusM.follows_path (cpu.execute i r) bus)
  rw [hcpu]
  exact cycles_add_extra_bounds (OpcodeMatrix.mem_documented hi)
    (AddressingMode.finds_of_follows hop) (Effect.performs_of_follows hact)

/-- The processor before its cycle is counted: with the instruction in flight, or with what it
starts. -/
def beforeCount (cpu : Cpu) (bus : β) : Cpu :=
  if cpu.halted.isNone && cpu.atBoundary then (cpu.start.run bus).value else cpu

/-- The cycle is counted on this processor. -/
theorem value_tick (cpu : Cpu) (bus : β) :
    (cpu.tick.run bus).value = (cpu.beforeCount bus).finishTick := by
  unfold tick beforeCount
  split
  · rw [BusM.run_bind]
    rfl
  · rfl

/-- **One to seven cycles are left when one of them is counted.** -/
theorem cyclesLeft_beforeCount {cpu : Cpu} (hc : cpu.cyclesLeft ≤ 6) {bus : β}
    (hh : (cpu.beforeCount bus).halted = none) :
    1 ≤ (cpu.beforeCount bus).cyclesLeft ∧ (cpu.beforeCount bus).cyclesLeft ≤ 7 := by
  unfold beforeCount at hh ⊢
  split at hh
  · next h =>
    rw [if_pos h]
    have hstart := (cost_of_start (BusM.follows_path cpu.start bus)).2 hh
    omega
  · next h =>
    rw [if_neg h]
    exact ⟨one_le_cyclesLeft h hh, Nat.le_succ_of_le hc⟩

end OnABus

end Cpu

namespace Checked

/-! ### Instructions -/

/-- Adds a byte and the carry to the accumulator, in a word. -/
def addCarry (r : Registers) (v : UInt8) : Checked Registers := do
  let sum ← unsigned 16 (r.a.toNat + v.toNat)
  let sum ← unsigned 16 (sum + (r.isSet Flag.carry).toNat)
  let result := UInt8.ofNat sum
  let overflowed := ~~~(r.a ^^^ v) &&& (r.a ^^^ result) &&& 0x80 != 0
  pure (((r.assign Flag.carry (0xFF < sum)).assign Flag.overflow overflowed).loadA result)

/-- Carries out an operation.  Only addition and subtraction compute in a word. -/
def perform (mnemonic : Mnemonic) (op : Operand) (r : Registers) : Process (Registers × Nat) :=
  match mnemonic with
  | .adc => do
    let v ← sure (op.load r)
    let r ← settle (addCarry r v)
    pure (r, op.penalty)
  | .sbc => do
    let v ← sure (op.load r)
    let r ← settle (addCarry r (v ^^^ 0xFF))
    pure (r, op.penalty)
  | _ => sure (mnemonic.effect.perform op r)

/-- What an opcode stands for, by its place in the opcode matrix. -/
def lookup (opcode : UInt8) : Checked (Option Instruction) := do
  let place ← index OpcodeMatrix.entries.size opcode.toNat
  pure (OpcodeMatrix.entries[place].map fun entry =>
    ⟨opcode, entry.mnemonic, entry.mode, entry.cycles⟩)

/-- Executes an instruction whose opcode was just fetched. -/
def execute (cpu : Cpu) (instruction : Instruction) (registers : Registers) : Process Cpu := do
  let (operand, registers) ← sure (registers.fetchOperand instruction.mode)
  let (registers, extra) ← perform instruction.mnemonic operand registers
  let cycles ← settle (unsigned 8 (instruction.cycles + extra))
  pure { cpu with registers := registers, cyclesLeft := cycles }

/-- Executes the instruction at the program counter, or halts there. -/
def executeNext (cpu : Cpu) : Process Cpu := do
  let pc := cpu.registers.pc
  let (opcode, registers) ← sure cpu.registers.fetch
  match ← settle (lookup opcode) with
  | some instruction =>
    sure (BusM.tell (.executed pc instruction))
    execute cpu instruction registers
  | none =>
    sure (BusM.tell (.unimplementedOpcode opcode pc))
    pure (cpu.halt (.unimplementedOpcode opcode pc))

theorem addCarry_eq (r : Registers) (v : UInt8) : addCarry r v = .ok (r.addCarry v) := by
  have ha := r.a.toNat_lt
  have hv := v.toNat_lt
  have hc := Bool.toNat_le (r.isSet Flag.carry)
  have hcarry : (r.isSet Flag.carry).toUInt16 = UInt16.ofNat (r.isSet Flag.carry).toNat := by
    cases r.isSet Flag.carry <;> rfl
  -- The sum fits the word, so the word is the sum.
  have hsum : r.a.toUInt16 + v.toUInt16 + (r.isSet Flag.carry).toUInt16 =
      UInt16.ofNat (r.a.toNat + v.toNat + (r.isSet Flag.carry).toNat) := by
    rw [hcarry, UInt16.ofNat_add, UInt16.ofNat_add, UInt16.ofNat_uInt8ToNat,
      UInt16.ofNat_uInt8ToNat]
  unfold addCarry Registers.addCarry
  rw [unsigned_eq (by omega), ok_bind, unsigned_eq (by omega), ok_bind, hsum]
  generalize hn : r.a.toNat + v.toNat + (r.isSet Flag.carry).toNat = n
  have hfits : n < UInt16.size := by
    show n < 65536
    omega
  have hexceeds : (0xFF < UInt16.ofNat n) ↔ 0xFF < n := by
    rw [UInt16.lt_iff_toNat_lt, UInt16.toNat_ofNat_of_lt' hfits]
    rfl
  have hbyte : (UInt16.ofNat n).toUInt8 = UInt8.ofNat n := UInt16.toUInt8_ofNat' n
  simp only [hexceeds, hbyte]
  rfl

theorem perform_eq (mnemonic : Mnemonic) (op : Operand) (r : Registers) :
    perform mnemonic op r = sure (mnemonic.effect.perform op r) := by
  cases mnemonic
  case adc =>
    refine sure_bind_eq fun t v _ => ?_
    rw [addCarry_eq]
    rfl
  case sbc =>
    refine sure_bind_eq fun t v _ => ?_
    rw [addCarry_eq]
    rfl
  all_goals rfl

theorem lookup_eq (opcode : UInt8) : lookup opcode = .ok (Instruction.ofOpcode? opcode) := by
  have hplace : opcode.toNat < OpcodeMatrix.entries.size := by
    rw [OpcodeMatrix.size_entries]
    exact opcode.toNat_lt
  rw [lookup, index_eq hplace, Instruction.ofOpcode?, Array.getElem?_eq_getElem hplace]
  rfl

/-- **A documented instruction is executed without a trap.** -/
theorem execute_eq (cpu : Cpu) {i : Instruction} (hi : i ∈ OpcodeMatrix.documented)
    (r : Registers) : execute cpu i r = sure (cpu.execute i r) := by
  refine sure_bind_eq fun t (op, r₁) hfetch => ?_
  obtain ⟨_, found, _, -, hop, -, hpair⟩ := BusM.follows_bind.1 hfetch
  cases hpair
  dsimp only
  rw [perform_eq]
  refine sure_bind_eq fun acts (r', extra) hact => ?_
  have hcost := Cpu.cycles_add_extra_bounds hi (AddressingMode.finds_of_follows hop)
    (Effect.performs_of_follows hact)
  dsimp only
  rw [unsigned_eq (by omega)]
  rfl

theorem executeNext_eq (cpu : Cpu) : executeNext cpu = sure cpu.executeNext := by
  refine sure_bind_eq fun t (opcode, r) _ => ?_
  dsimp only
  rw [lookup_eq, settle_ok_bind]
  cases hi : Instruction.ofOpcode? opcode with
  | some i =>
    refine sure_bind_eq fun _ _ _ => ?_
    exact execute_eq cpu (OpcodeMatrix.mem_documented hi) r
  | none => exact sure_bind_eq fun _ _ _ => rfl

/-! ### Cycles -/

/-- Starts what comes next. -/
def start (cpu : Cpu) : Process Cpu :=
  let cpu := { cpu with registers := cpu.registers.assign Flag.unused true }
  if cpu.pendingNmi then
    sure (Cpu.interrupt { cpu with pendingNmi := false } nmiVector)
  else if cpu.pendingIrq && !cpu.registers.isSet Flag.irqDisable then
    sure (Cpu.interrupt { cpu with pendingIrq := false } irqVector)
  else
    executeNext cpu

/-- What a cycle leaves of a processor that had something to do in it.  The cost is counted down
without a look at it. -/
def finishTick (cpu : Cpu) : Checked Cpu.Ticked :=
  match cpu.halted with
  | some fault => pure ⟨cpu, .error fault⟩
  | none => do
    let cyclesLeft ← sub cpu.cyclesLeft 1
    let totalCycles ← unsigned 64 (cpu.totalCycles + 1)
    pure ⟨{ cpu with cyclesLeft := cyclesLeft, totalCycles := totalCycles }, .ok ()⟩

/-- One cycle. -/
def tick (cpu : Cpu) : Process Cpu.Ticked :=
  if cpu.halted.isNone && cpu.atBoundary then do
    let cpu ← start cpu
    settle (finishTick cpu)
  else
    settle (finishTick cpu)

theorem start_eq (cpu : Cpu) : start cpu = sure cpu.start := by
  unfold start Cpu.start
  dsimp only
  split
  · rfl
  · split
    · rfl
    · exact executeNext_eq _

theorem finishTick_eq {cpu : Cpu} (hleft : cpu.halted = none → 1 ≤ cpu.cyclesLeft)
    (htotal : cpu.totalCycles + 1 < 2 ^ 64) : finishTick cpu = .ok cpu.finishTick := by
  unfold finishTick Cpu.finishTick
  cases hh : cpu.halted with
  | some fault => rfl
  | none =>
    dsimp only
    rw [sub_eq (hleft hh), ok_bind, unsigned_eq htotal, Cpu.countDown, hh]
    rfl

/-- **No cycle is trapped** as long as another cycle can be counted. -/
theorem tick_eq {cpu : Cpu} (h : cpu.totalCycles + 1 < 2 ^ 64) : tick cpu = sure cpu.tick := by
  unfold tick Cpu.tick
  split
  · rw [start_eq]
    refine sure_bind_eq fun t cpu' hstart => ?_
    obtain ⟨htotal, hcost⟩ := Cpu.cost_of_start hstart
    rw [finishTick_eq (fun hh => Nat.le_of_succ_le (hcost hh).1) (htotal ▸ h)]
    rfl
  · next hbusy =>
    rw [finishTick_eq (Cpu.one_le_cyclesLeft hbusy) h]
    rfl

/-! ### Inspection -/

/-- The operand that the instruction at the program counter has in a given mode, resolved without
side effects. -/
def peekOperand (cpu : Cpu) (mode : AddressingMode) (s : AddressSpace) : Checked Operand :=
  let start := cpu.registers.pc + 1
  mode.resolve (peek s) start cpu.registers.x cpu.registers.y

theorem peekOperand_eq (cpu : Cpu) (mode : AddressingMode) (s : AddressSpace) :
    peekOperand cpu mode s = .ok (cpu.peekOperand mode s) := by
  have hpeek : peek s = fun addr => .ok (s.peek addr) := funext (peek_eq s)
  rw [peekOperand, hpeek]
  cases mode <;> rfl

end Checked

end Nes
