import Nes.Proofs.Bus.Ram
import Nes.Proofs.Cpu.Entry
import Nes.Proofs.Cpu.ResultFlags

/-!
# Routines

A routine is a list of actions, each an operation and the address of its operand.  The processor
carries it out if it executes one instruction for each action, in whatever mode the instruction
names that address, and takes no interrupt in between.

What an instruction does to the registers and to memory depends on its action only, if its operand
lies in memory.  So a theorem about routines that are carried out needs neither opcodes nor the
program counter.  These come in once, to show that the processor carries out what is written in
memory at the program counter, as long as the routine does not overwrite itself.

## Main definitions

* `Cpu.Action`, `Cpu.CarriesOut`: routines.
* `Cpu.steps`: the processor after a number of instructions.
* `Bus.HasCode`: a routine is written in memory.

## Main statements

* `Cpu.step_of_action`: one instruction, as a whole.
* `Cpu.step_of_read`, `Cpu.step_of_store`, `Cpu.step_of_modify`: what it does, by families.
* `Cpu.carriesOut_of_hasCode`: what is written in memory is carried out.
-/

namespace Nes

open Registers (Part Keeps)

namespace Mnemonic

/-- The operations that use the bus for their operand only. -/
def operandUsers : List Mnemonic := readers ++ writers ++ modifiers

/-- An operation on an operand does not lead elsewhere and does not enable or disable interrupts. -/
theorem goesOn_of_operandUsers : ∀ m ∈ operandUsers, ∀ b,
    .pc ∉ m.changes b ∧ .irqDisable ∉ m.changes b := by
  decide +kernel

end Mnemonic

namespace Cpu

/-- What an instruction does: an operation, and the address of the operand if it has one. -/
structure Action where
  /-- The operation. -/
  mnemonic : Mnemonic
  /-- The address of the operand; none if it is in the accumulator, or if there is none. -/
  address : Option UInt16
  deriving DecidableEq

/-- The processor after a number of instructions. -/
def steps : (n : Nat) → Cpu → BusM Cpu
  | 0, cpu => pure cpu
  | n + 1, cpu => do
    let s ← cpu.step
    steps n s.cpu

-- The opcode matrix is looked up in, and never evaluated.
attribute [local irreducible] OpcodeMatrix.entries

section OnABus

variable {β : Type} [Bus β]

/-- What the instruction at the program counter does, by the bytes that reading it gives. -/
def action? (cpu : Cpu) (bus : β) : Option Action :=
  let opcode := Bus.read bus cpu.registers.pc
  (Instruction.ofOpcode? opcode.1).map fun i =>
    let operand := (i.mode.resolve BusM.readByte (cpu.registers.pc + 1) cpu.registers.x
      cpu.registers.y).run opcode.2
    ⟨i.mnemonic, operand.value.address⟩

/-- The address behind the instruction at the program counter. -/
def follower (cpu : Cpu) (bus : β) : UInt16 :=
  match Instruction.ofOpcode? (Bus.read bus cpu.registers.pc).1 with
  | some i => cpu.registers.pc + UInt16.ofNat i.length
  | none => cpu.registers.pc

/-- The registers with which the operation of the instruction at the program counter is carried
out. -/
def prepared (cpu : Cpu) (bus : β) : Registers := cpu.ready.jumpTo (cpu.follower bus)

theorem keeps_prepared (cpu : Cpu) (bus : β) :
    Keeps [.pc] cpu.registers (cpu.prepared bus) := cpu.keeps_ready _

theorem isSet_prepared (cpu : Cpu) (bus : β) {mask : UInt8} (h : Flag.unused &&& mask = 0) :
    (cpu.prepared bus).isSet mask = cpu.registers.isSet mask := cpu.isSet_ready h

@[simp] theorem a_prepared (cpu : Cpu) (bus : β) : (cpu.prepared bus).a = cpu.registers.a := rfl

/-- The processor carries out these actions, one instruction for each, and takes no interrupt in
between. -/
def CarriesOut : List Action → Cpu → β → Prop
  | [], _, _ => True
  | a :: l, cpu, bus =>
    cpu.Starts ∧ cpu.nextInterrupt? = none ∧ cpu.action? bus = some a ∧
      CarriesOut l (cpu.step.run bus).value.cpu (cpu.step.run bus).bus

@[simp] theorem value_steps_zero (cpu : Cpu) (bus : β) :
    ((steps 0 cpu).run bus).value = cpu := rfl

@[simp] theorem bus_steps_zero (cpu : Cpu) (bus : β) : ((steps 0 cpu).run bus).bus = bus := rfl

@[simp] theorem value_steps_succ (n : Nat) (cpu : Cpu) (bus : β) :
    ((steps (n + 1) cpu).run bus).value =
      ((steps n (cpu.step.run bus).value.cpu).run (cpu.step.run bus).bus).value := by
  rw [steps, BusM.run_bind]

@[simp] theorem bus_steps_succ (n : Nat) (cpu : Cpu) (bus : β) :
    ((steps (n + 1) cpu).run bus).bus =
      ((steps n (cpu.step.run bus).value.cpu).run (cpu.step.run bus).bus).bus := by
  rw [steps, BusM.run_bind]

theorem steps_add (m n : Nat) (cpu : Cpu) : steps (m + n) cpu = steps m cpu >>= steps n := by
  induction m generalizing cpu with
  | zero => rw [Nat.zero_add, steps, pure_bind]
  | succ m ih =>
    rw [Nat.succ_add, steps, steps, bind_assoc]
    exact congrArg _ (funext fun s => ih s.cpu)

theorem value_steps_add (m n : Nat) (cpu : Cpu) (bus : β) :
    ((steps (m + n) cpu).run bus).value =
      ((steps n ((steps m cpu).run bus).value).run ((steps m cpu).run bus).bus).value := by
  rw [steps_add, BusM.run_bind]

theorem bus_steps_add (m n : Nat) (cpu : Cpu) (bus : β) :
    ((steps (m + n) cpu).run bus).bus =
      ((steps n ((steps m cpu).run bus).value).run ((steps m cpu).run bus).bus).bus := by
  rw [steps_add, BusM.run_bind]

theorem carriesOut_append {l l' : List Action} {cpu : Cpu} {bus : β} :
    CarriesOut (l ++ l') cpu bus ↔ CarriesOut l cpu bus ∧
      CarriesOut l' ((steps l.length cpu).run bus).value ((steps l.length cpu).run bus).bus := by
  induction l generalizing cpu bus with
  | nil => exact ⟨fun h => ⟨trivial, h⟩, fun h => h.2⟩
  | cons a l ih =>
    rw [List.length_cons, value_steps_succ, bus_steps_succ, List.cons_append, CarriesOut,
      CarriesOut, ih]
    simp only [and_assoc]

/-! ### One instruction -/

/-- An instruction as a whole: all cycles after the first only count. -/
theorem run_step_of_tick {cpu cpu' : Cpu} {bus : β} (hs : (cpu.tick.run bus).value = ⟨cpu', .ok ()⟩)
    (hh : cpu'.halted = none) :
    (cpu.step.run bus).value = ⟨{ cpu' with
        cyclesLeft := 0, totalCycles := cpu'.totalCycles + cpu'.cyclesLeft },
        .ok (1 + cpu'.cyclesLeft)⟩ ∧
      (cpu.step.run bus).bus = (cpu.tick.run bus).bus := by
  unfold step
  simp only [BusM.run_bind, hs, run_ticks_of_busy hh (Nat.le_refl _), BusM.run_pure, Nat.sub_self,
    and_self]

section Step

variable {P : UInt16 → Prop} (hram : Bus.RamAt β P) {cpu : Cpu} {bus : β} {a : Action}

include hram

/-- **What an instruction does**: its bytes are read, and then its operation is carried out on the
bus that this leaves, in which no byte of memory has changed. -/
theorem step_of_action (hs : cpu.Starts) (hn : cpu.nextInterrupt? = none)
    (ha : cpu.action? bus = some a) :
    ∃ op fetched cycles time, op.address = a.address ∧
      (∀ {addr}, P addr → Bus.peek fetched addr = Bus.peek bus addr) ∧
      let acted := (a.mnemonic.effect.perform op (cpu.prepared bus)).run (β := β) fetched
      (cpu.step.run bus).bus = acted.bus ∧
      (cpu.step.run bus).value =
        ⟨{ cpu with registers := acted.value.1, cyclesLeft := 0, totalCycles := cycles },
          .ok time⟩ := by
  obtain ⟨i, hi, rfl⟩ := Option.map_eq_some_iff.1 ha
  have hfollower : cpu.follower bus = cpu.registers.pc + UInt16.ofNat i.length := by
    rw [follower, hi]
  -- The first cycle does it all, and those after it only count down.
  have htick := run_tick_of_documented hs.1 hs.2 hn hi
  rw [i.add_length, ← hfollower] at htick
  have hstep := run_step_of_tick (congrArg Outcome.value htick) hs.1
  have hwrite := (AddressingMode.finds_of_follows (BusM.follows_path
    (i.mode.resolve BusM.readByte (cpu.registers.pc + 1) cpu.registers.x cpu.registers.y)
    (Bus.read bus cpu.registers.pc).2)).write_notMem
  refine ⟨_, _, _, _, rfl, fun haddr => ?_, hstep.2.trans (congrArg Outcome.bus htick), hstep.1⟩
  -- Fetching the operand writes nothing.
  have hkept := hram.peek_run haddr fun addr v hmem => absurd hmem (hwrite addr v)
  exact hkept.trans (hram.peek_read bus _ haddr)

variable {m : Mnemonic} (hs : cpu.Starts) (hn : cpu.nextInterrupt? = none)

include hs hn

/-- An operation that reads its operand uses the byte that lies there, and leaves memory alone. -/
theorem step_of_read {addr : UInt16} (ha : cpu.action? bus = some ⟨m, some addr⟩) (haddr : P addr)
    {use : Registers → UInt8 → Registers} (he : m.effect = .read use ∨ m.effect = .probe use) :
    (cpu.step.run bus).value.cpu.registers = use (cpu.prepared bus) (Bus.peek bus addr) ∧
    ∀ {other}, P other → Bus.peek (cpu.step.run bus).bus other = Bus.peek bus other := by
  obtain ⟨op, fetched, cycles, time, hop, hpeek, hbus, hvalue⟩ := step_of_action hram hs hn ha
  have hload := hram.read_ram fetched haddr
  rcases he with he | he <;>
  · simp only [he, Effect.perform, Operand.load, hop, BusM.run_bind, BusM.run_readByte, hload,
      BusM.run_pure, hpeek haddr] at hbus hvalue
    rw [hbus, hvalue]
    exact ⟨rfl, fun hother => hpeek hother⟩

/-- An operation that stores a register changes no register, and the byte at its operand only. -/
theorem step_of_store {addr : UInt16} (ha : cpu.action? bus = some ⟨m, some addr⟩) (haddr : P addr)
    {source : Registers → UInt8} (he : m.effect = .store source) :
    (cpu.step.run bus).value.cpu.registers = cpu.prepared bus ∧
    ∀ {other}, P other → Bus.peek (cpu.step.run bus).bus other =
      if other = addr then source (cpu.prepared bus) else Bus.peek bus other := by
  obtain ⟨op, fetched, cycles, time, hop, hpeek, hbus, hvalue⟩ := step_of_action hram hs hn ha
  simp only [he, Effect.perform, Operand.store, hop, BusM.run_bind, BusM.run_writeByte,
    BusM.run_pure] at hbus hvalue
  rw [hbus, hvalue]
  refine ⟨rfl, fun hother => ?_⟩
  rw [hram.peek_write _ _ haddr hother, hpeek hother]

/-- An operation in place changes the byte at its operand only, and leaves the registers that it
does with the flags of the new byte. -/
theorem step_of_modify {addr : UInt16} (ha : cpu.action? bus = some ⟨m, some addr⟩)
    (haddr : P addr) {change : Registers → UInt8 → Registers × UInt8}
    (he : m.effect = .modify change) :
    let changed := change (cpu.prepared bus) (Bus.peek bus addr)
    (cpu.step.run bus).value.cpu.registers = changed.1.updateZN changed.2 ∧
    ∀ {other}, P other → Bus.peek (cpu.step.run bus).bus other =
      if other = addr then changed.2 else Bus.peek bus other := by
  obtain ⟨op, fetched, cycles, time, hop, hpeek, hbus, hvalue⟩ := step_of_action hram hs hn ha
  have hload := hram.read_ram fetched haddr
  simp only [he, Effect.perform, Operand.load, Operand.store, hop, BusM.run_bind,
    BusM.run_readByte, hload, BusM.run_writeByte, BusM.run_pure, hpeek haddr] at hbus hvalue
  rw [hbus, hvalue]
  refine ⟨rfl, fun hother => ?_⟩
  rw [hram.peek_write _ _ haddr hother, hpeek hother]

/-- The same operation on the accumulator leaves memory alone. -/
theorem step_of_modify_accumulator (ha : cpu.action? bus = some ⟨m, none⟩)
    {change : Registers → UInt8 → Registers × UInt8} (he : m.effect = .modify change) :
    let changed := change (cpu.prepared bus) cpu.registers.a
    (cpu.step.run bus).value.cpu.registers =
      { changed.1 with a := changed.2 }.updateZN changed.2 ∧
    ∀ {other}, P other → Bus.peek (cpu.step.run bus).bus other = Bus.peek bus other := by
  obtain ⟨op, fetched, cycles, time, hop, hpeek, hbus, hvalue⟩ := step_of_action hram hs hn ha
  simp only [he, Effect.perform, Operand.load, Operand.store, hop, BusM.run_bind,
    BusM.run_pure] at hbus hvalue
  rw [hbus, hvalue]
  exact ⟨rfl, fun hother => hpeek hother⟩

/-! ### Going on -/

/-- After an operation on an operand in memory the following instruction can start. -/
theorem goesOn_of_operandUser (hm : m ∈ Mnemonic.operandUsers) {addr : UInt16}
    (ha : cpu.action? bus = some ⟨m, some addr⟩) :
    let cpu' := (cpu.step.run bus).value.cpu
    cpu'.Starts ∧ cpu'.nextInterrupt? = none ∧ cpu'.registers.pc = cpu.follower bus := by
  obtain ⟨op, fetched, cycles, time, hop, -, -, hvalue⟩ := step_of_action hram hs hn ha
  have hkeeps := (Effect.performs_of_follows (BusM.follows_path
    (m.effect.perform op (cpu.prepared bus)) fetched)).keeps fun _ => by
      rw [hop]
      exact Option.some_ne_none addr
  obtain ⟨hpc, hirq⟩ := Mnemonic.goesOn_of_operandUsers m hm op.address.isNone
  -- The flag that disables interrupts is as it was, so still none is due.
  have hkept : Registers.isSet _ Flag.irqDisable = (cpu.prepared bus).isSet Flag.irqDisable :=
    hkeeps .irqDisable hirq
  rw [cpu.isSet_prepared bus (by decide)] at hkept
  obtain ⟨hnmi, hnone⟩ := nextInterrupt?_eq_none_iff.1 hn
  intro cpu'
  refine ⟨?_, ?_, ?_⟩
  · dsimp only [cpu']
    rw [hvalue]
    exact ⟨hs.1, rfl⟩
  · rw [nextInterrupt?_eq_none_iff]
    dsimp only [cpu']
    rw [hvalue]
    exact ⟨hnmi, hnone.imp_right hkept.trans⟩
  · dsimp only [cpu']
    rw [hvalue]
    exact hkeeps .pc hpc

/-- An operation on an operand in memory changes no other byte, and if it only reads, no byte. -/
theorem peek_step_of_operandUser (hm : m ∈ Mnemonic.operandUsers) {addr : UInt16}
    (ha : cpu.action? bus = some ⟨m, some addr⟩) (haddr : P addr) {other : UInt16}
    (hother : P other) (hne : m ∈ Mnemonic.readers ∨ other ≠ addr) :
    Bus.peek (cpu.step.run bus).bus other = Bus.peek bus other := by
  -- Operations that read, that store and that do both
  cases m
  case lda | ldx | ldy | adc | sbc | and | ora | eor | cmp =>
    exact (step_of_read hram hs hn ha haddr (.inl rfl)).2 hother
  case cpx | cpy | bit => exact (step_of_read hram hs hn ha haddr (.inr rfl)).2 hother
  case sta | stx | sty =>
    rw [(step_of_store hram hs hn ha haddr rfl).2 hother, if_neg (hne.resolve_left (by decide))]
  case inc | dec | asl | lsr | rol | ror =>
    rw [(step_of_modify hram hs hn ha haddr rfl).2 hother, if_neg (hne.resolve_left (by decide))]
  all_goals exact absurd hm (by decide)

end Step

end OnABus

end Cpu

/-! ### Routines in memory -/

namespace Cpu.Action

/-- An action works on memory and does not write to the given cells. -/
inductive Spares (P : UInt16 → Prop) (cells : List UInt16) : Action → Prop
  | reads {m : Mnemonic} {addr : UInt16} (hm : m ∈ Mnemonic.readers) (haddr : P addr) :
    Spares P cells ⟨m, some addr⟩
  | writes {m : Mnemonic} {addr : UInt16} (hm : m ∈ Mnemonic.writers ++ Mnemonic.modifiers)
    (haddr : P addr) (hcells : addr ∉ cells) : Spares P cells ⟨m, some addr⟩

variable {P : UInt16 → Prop} {cells cells' : List UInt16} {a : Action}

theorem Spares.mono (h : a.Spares P cells) (hcells : ∀ cell ∈ cells', cell ∈ cells) :
    a.Spares P cells' := by
  cases h with
  | reads hm haddr => exact .reads hm haddr
  | writes hm haddr hnot => exact .writes hm haddr fun hmem => hnot (hcells _ hmem)

theorem Spares.exists_address (h : a.Spares P cells) :
    ∃ m addr, a = ⟨m, some addr⟩ ∧ m ∈ Mnemonic.operandUsers ∧ P addr ∧
      (m ∈ Mnemonic.readers ∨ addr ∉ cells) := by
  cases h with
  | @reads m addr hm haddr =>
    have hmem : m ∈ Mnemonic.readers ++ Mnemonic.writers := List.mem_append_left _ hm
    exact ⟨m, addr, rfl, List.mem_append_left _ hmem, haddr, .inl hm⟩
  | @writes m addr hm haddr hnot =>
    have hmem : m ∈ Mnemonic.operandUsers := by
      rw [Mnemonic.operandUsers, List.append_assoc]
      exact List.mem_append_right _ hm
    exact ⟨m, addr, rfl, hmem, haddr, .inr hnot⟩

end Cpu.Action

namespace Bus

open Cpu (Action)

variable {β : Type} [Bus β]

/-- The actions are written at an address, one instruction after the other, each with the address of
its operand behind the opcode. -/
def HasCode (bus : β) : UInt16 → List Action → Prop
  | _, [] => True
  | pc, a :: l =>
    (∃ opcode addr cycles, a.address = some addr ∧
      Instruction.ofOpcode? opcode = some ⟨opcode, a.mnemonic, .absolute, cycles⟩ ∧
      Bus.Holds bus [(pc, opcode), (pc + 1, addr.toUInt8), (pc + 2, (addr >>> 8).toUInt8)]) ∧
    HasCode bus (pc + 3) l

/-- Where the bytes of a memory are given by a function, what it holds can be evaluated. -/
theorem holds_of_all {bus : β} {f : UInt16 → UInt8} (hf : ∀ addr, Bus.peek bus addr = f addr)
    {bytes : List (UInt16 × UInt8)} (h : (bytes.all fun p => f p.1 == p.2) = true) :
    Bus.Holds bus bytes :=
  fun p hp => (hf p.1).trans (eq_of_beq (List.all_eq_true.1 h p hp))

end Bus

/-- The addresses of the bytes of so many instructions. -/
def codeCells (pc : UInt16) : Nat → List UInt16
  | 0 => []
  | n + 1 => [pc, pc + 1, pc + 2] ++ codeCells (pc + 3) n

namespace Cpu

open Bus (HasCode)

-- The opcode matrix is looked up in, and never evaluated.
attribute [local irreducible] OpcodeMatrix.entries

variable {β : Type} [Bus β]

theorem hasCode_congr {bus bus' : β} {pc : UInt16} {l : List Action} (h : HasCode bus pc l)
    (hpeek : ∀ cell ∈ codeCells pc l.length, Bus.peek bus' cell = Bus.peek bus cell) :
    HasCode bus' pc l := by
  induction l generalizing pc with
  | nil => trivial
  | cons a l ih =>
    obtain ⟨⟨opcode, addr, cycles, haddr, hop, hholds⟩, hrest⟩ := h
    refine ⟨⟨opcode, addr, cycles, haddr, hop, fun p hp => ?_⟩,
      ih hrest fun cell hcell => hpeek cell (List.mem_append_right _ hcell)⟩
    rw [hpeek p.1 (List.mem_append_left _ (List.mem_map_of_mem hp)), hholds p hp]

variable {P : UInt16 → Prop} (hram : Bus.RamAt β P) {cpu : Cpu} {bus : β} {l : List Action}

include hram

/-- The instruction at the program counter does what the first action says. -/
theorem action?_of_hasCode {a : Action} (h : HasCode bus cpu.registers.pc (a :: l))
    (hcode : ∀ cell ∈ codeCells cpu.registers.pc (l.length + 1), P cell) :
    cpu.action? bus = some a ∧ cpu.follower bus = cpu.registers.pc + 3 := by
  obtain ⟨⟨opcode, addr, cycles, haddr, hop, hholds⟩, -⟩ := h
  have hread : ∀ p : UInt16 × UInt8, p ∈ [(cpu.registers.pc, opcode),
      (cpu.registers.pc + 1, addr.toUInt8), (cpu.registers.pc + 2, (addr >>> 8).toUInt8)] →
      Bus.read bus p.1 = (p.2, bus) := by
    intro p hp
    rw [hram.read_ram bus (hcode p.1 (List.mem_append_left _ (List.mem_map_of_mem hp))),
      hholds p hp]
  have hopcode := hread _ (.head _)
  have hlow := hread _ (.tail _ (.head _))
  have hhigh := hread _ (.tail _ (.tail _ (.head _)))
  have hnext : cpu.registers.pc + 1 + 1 = cpu.registers.pc + 2 := by grind
  dsimp only at hopcode hlow hhigh
  constructor
  · simp only [action?, hopcode, hop, Option.map_some, AddressingMode.resolve, readWord, readWordAt,
      BusM.run_bind, BusM.run_readByte, BusM.run_pure, hlow, hnext, hhigh, wordOf_toUInt8,
      Operand.plain, ← haddr]
  · rw [follower, hopcode, hop]
    rfl

/-- **What is written in memory at the program counter is carried out**, if the routine works on
memory and does not write to itself. -/
theorem carriesOut_of_hasCode (hs : cpu.Starts) (hn : cpu.nextInterrupt? = none)
    (h : HasCode bus cpu.registers.pc l)
    (hcode : ∀ cell ∈ codeCells cpu.registers.pc l.length, P cell)
    (hspares : ∀ a ∈ l, a.Spares P (codeCells cpu.registers.pc l.length)) :
    CarriesOut l cpu bus := by
  -- By induction on the actions: the first leaves the code of the others alone, and they can start.
  induction l generalizing cpu bus with
  | nil => trivial
  | cons a l ih =>
    obtain ⟨haction, hfollower⟩ := action?_of_hasCode hram h hcode
    obtain ⟨m, addr, rfl, hm, haddr, hwrite⟩ := (hspares a (.head _)).exists_address
    obtain ⟨hs', hn', hpc⟩ := goesOn_of_operandUser hram hs hn hm haction
    -- The cells of what is still to come are not those that this instruction writes.
    have hrest : ∀ cell ∈ codeCells (cpu.registers.pc + 3) l.length,
        cell ∈ codeCells cpu.registers.pc (l.length + 1) :=
      fun cell hcell => List.mem_append_right _ hcell
    rw [hfollower] at hpc
    refine ⟨hs, hn, haction, ih hs' hn' ?_ ?_ ?_⟩
    · rw [hpc]
      refine hasCode_congr h.2 fun cell hcell => ?_
      refine peek_step_of_operandUser hram hs hn hm haction haddr (hcode cell (hrest cell hcell))
        (hwrite.imp_right ?_)
      rintro hnot rfl
      exact hnot (hrest _ hcell)
    · rw [hpc]
      exact fun cell hcell => hcode cell (hrest cell hcell)
    · rw [hpc]
      exact fun a' ha' => (hspares a' (.tail _ ha')).mono hrest

end Cpu

end Nes
