import Nes.Proofs.Cpu.Entry

/-!
# The status on the stack

A copy of the status is pushed in four ways: by the entry into a handler, of which there are three,
and by the instruction that pushes nothing else.  Bit five of a copy is set, and bit four tells
whether an instruction pushed it.  All other bits are those of the register, which itself never has
any other value in the two bits, whatever bytes it was restored from.

Since the two bits are the same in every live status, a copy determines the status that it was made
from.  Pulling it restores that status.

## Main definitions

* `written`: what is written in a trace.
* `Pusher`, `Pusher.Due`: what pushes a copy, and when.

## Main statements

* `Cpu.written_of_due`: what a cycle writes that pushes a copy.
* `Cpu.written_of_not_due`: every other write stores data or a return address.
* `Cpu.tick_of_plp`: what is pulled is put right.
* `Cpu.Reachable.status_pushed`: the register, its copies, and their return.
-/

namespace Nes

/-! ### What is written -/

/-- The cell and the byte of a write. -/
def Activity.write? : Activity → Option (UInt16 × UInt8)
  | .write addr value => some (addr, value)
  | _ => none

/-- What is written in a trace, in order. -/
def written (t : List Activity) : List (UInt16 × UInt8) := t.filterMap Activity.write?

@[simp] theorem written_append (t t' : List Activity) :
    written (t ++ t') = written t ++ written t' :=
  List.filterMap_append

theorem AddressingMode.Finds.written_eq {start : UInt16} {x y : UInt8} {mode : AddressingMode}
    {t : List Activity} {op : Operand} (h : Finds start x y mode t op) : written t = [] := by
  cases h <;> rfl

/-- The bits of a copy. -/
theorem pushedStatus_bits (status : UInt8) (byInstruction : Bool) :
    pushedStatus status byInstruction &&& 0x20 = 0x20 ∧
      pushedStatus status byInstruction &&& 0x10 = (if byInstruction then 0x10 else 0) ∧
      pushedStatus status byInstruction &&& 0xCF = status &&& 0xCF := by
  revert status
  apply forall_byte
  revert byInstruction
  decide +kernel

/-- The bits of a live status. -/
theorem Registers.Live.bits {r : Registers} (h : r.Live) :
    r.status &&& 0x20 = 0x20 ∧ r.status &&& 0x10 = 0 := by
  have hbits : ∀ status : UInt8, status &&& 0x30 = 0x20 →
      status &&& 0x20 = 0x20 ∧ status &&& 0x10 = 0 := by
    apply forall_byte
    decide +kernel
  exact hbits r.status h

theorem ofOpcode?_php : Instruction.ofOpcode? 0x08 = some ⟨0x08, .php, .implied, 3⟩ := by
  decide +kernel

theorem ofOpcode?_plp : Instruction.ofOpcode? 0x28 = some ⟨0x28, .plp, .implied, 4⟩ := by
  decide +kernel

/-- The instructions that push a status have one opcode each. -/
theorem OpcodeMatrix.pusher_opcode : ∀ i ∈ documented,
    (i.mnemonic = .php → i.opcode = 0x08) ∧ (i.mnemonic = .brk → i.opcode = 0x00) := by
  decide +kernel

/-! ### What pushes a status -/

/-- What pushes a copy of the status. -/
inductive Pusher
  /-- The instruction that pushes the status alone. -/
  | php
  /-- The entry into a handler. -/
  | entry (k : Entry)
  deriving DecidableEq

namespace Pusher

/-- The copy is pushed by an instruction. -/
def byInstruction : Pusher → Bool
  | php => true
  | entry k => k.byInstruction

/-- What is pushed, and where; the status comes last. -/
def frame (k : Pusher) (r : Registers) : List (UInt16 × UInt8) :=
  match k with
  | php => [(stackCell r.sp, pushedStatus r.status true)]
  | entry k => k.frame r

/-- The number of bytes that are pushed before the status. -/
def depth : Pusher → Nat
  | php => 0
  | entry _ => 2

/-- The status is pushed below what is pushed before it. -/
theorem frame_eq (k : Pusher) (r : Registers) : ∃ before,
    before.length = k.depth ∧
      k.frame r = before ++
        [(stackCell (r.sp - UInt8.ofNat k.depth), pushedStatus r.status k.byInstruction)] := by
  -- Only an entry pushes something before the status.
  cases k with
  | php =>
    have hsp : r.sp - UInt8.ofNat 0 = r.sp := by grind
    refine ⟨[], rfl, ?_⟩
    rw [depth, hsp]
    rfl
  | entry k => exact ⟨[_, _], rfl, rfl⟩

theorem byInstruction_iff (k : Pusher) :
    k.byInstruction = true ↔ k = .php ∨ k = .entry .brk := by
  rcases k with _ | (_ | _ | _) <;> decide

variable {β : Type} [Bus β]

/-- The next cycle of a processor between two instructions pushes the status in this way. -/
def Due (k : Pusher) (cpu : Cpu) (bus : β) : Prop :=
  match k with
  | php => cpu.nextInterrupt? = none ∧ (Bus.read bus cpu.registers.pc).1 = 0x08
  | entry k => k.Due cpu bus

end Pusher

namespace Cpu

-- The opcode matrix is looked up in, and never evaluated, when a cycle is taken apart.
attribute [local irreducible] OpcodeMatrix.entries

variable {β : Type} [Bus β] {cpu : Cpu} {bus : β}

/-! ### Single cycles -/

/-- The instruction that pushes the status changes nothing of it. -/
theorem tick_of_php (hs : cpu.Starts) (hk : Pusher.php.Due cpu bus) :
    let o := cpu.tick.run bus
    o.accesses = [.read cpu.registers.pc 0x08,
        .write (stackCell cpu.registers.sp) (pushedStatus cpu.registers.status true)] ∧
      o.value.cpu.registers.status = cpu.ready.status := by
  obtain ⟨hn, hop⟩ := hk
  obtain ⟨found, acts, op, r, extra, hfinds, hperforms, hvalue, haccesses⟩ :=
    performs_of_documented hs hn (by rw [hop]; exact ofOpcode?_php)
  cases hfinds
  cases hperforms
  dsimp only
  rw [hvalue, haccesses]
  refine ⟨?_, rfl⟩
  show [Activity.read cpu.registers.pc 0x08,
    .write (stackCell cpu.registers.sp) (cpu.ready.statusToPush true)] = _
  rw [statusToPush_ready]

/-- **What is pulled is put right**: the two bits get the values of a live status, and the others
are those of the byte. -/
theorem tick_of_plp (hs : cpu.Starts) (hn : cpu.nextInterrupt? = none)
    (hop : (Bus.read bus cpu.registers.pc).1 = 0x28) :
    let o := cpu.tick.run bus
    ∃ byte,
      o.accesses = [.read cpu.registers.pc 0x28, .read (stackCell (cpu.registers.sp + 1)) byte] ∧
      o.value.cpu.registers.status = (byte &&& ~~~Flag.breakCommand) ||| Flag.unused := by
  obtain ⟨found, acts, op, r, extra, hfinds, hperforms, hvalue, haccesses⟩ :=
    performs_of_documented hs hn (by rw [hop]; exact ofOpcode?_plp)
  cases hfinds
  cases hperforms with
  | pull byte =>
    dsimp only
    rw [hvalue, haccesses]
    exact ⟨byte, rfl, rfl⟩

/-- **What a cycle writes that pushes a status**, in any of the four ways. -/
theorem written_of_due (hlive : cpu.registers.Live) (hs : cpu.Starts) {k : Pusher}
    (hk : k.Due cpu bus) :
    written (cpu.tick.run bus).accesses = k.frame cpu.registers := by
  cases k with
  | php =>
    rw [(tick_of_php hs hk).1]
    rfl
  | entry k =>
    obtain ⟨-, low, high, haccesses, -⟩ := k.tick_of_due hlive hs hk
    rw [haccesses]
    cases k <;> rfl

/-- **Every other write stores data or a return address.**  In a cycle that does not push the
status, only an instruction writes, and it is not one of the two that push it. -/
theorem written_of_not_due (hnone : ∀ k : Pusher, ¬ (cpu.Starts ∧ k.Due cpu bus))
    {p : UInt16 × UInt8} (hp : p ∈ written (cpu.tick.run bus).accesses) :
    ∃ i, Instruction.ofOpcode? (Bus.read bus cpu.registers.pc).1 = some i ∧
      i.mnemonic ∈ Mnemonic.writers ++ Mnemonic.modifiers ++ [.pha, .jsr] := by
  -- The accesses are those of one of the kinds of cycles, and most of these write nothing or push
  -- the status.
  obtain ⟨hlaw, hleads⟩ := cpu.busLaw_tick bus
  generalize (cpu.tick.run bus).accesses = t at hlaw hleads hp
  generalize (cpu.tick.run bus).value.cpu.registers = r at hlaw
  cases hlaw with
  | idle h => exact absurd hp List.not_mem_nil
  | nmi hs hn =>
    exact absurd ⟨hs, nextInterrupt?_eq_nmi_iff.2 hn, nofun⟩ (hnone (.entry .nmi))
  | irq hs hn hi hm =>
    exact absurd ⟨hs, nextInterrupt?_eq_irq_iff.2 ⟨hn, hi, hm⟩, nofun⟩ (hnone (.entry .irq))
  | undocumented hs hn hi hop => exact absurd hp List.not_mem_nil
  | @documented _ hs hn hi opcode i hop found acts op hf ha =>
    have hnext : cpu.nextInterrupt? = none := nextInterrupt?_eq_none_iff.2 ⟨hn, hi⟩
    have hopcode : (Bus.read bus cpu.registers.pc).1 = i.opcode :=
      hleads.1.trans (Instruction.opcode_of_ofOpcode? hop).symm
    obtain ⟨hphp, hbrk⟩ := OpcodeMatrix.pusher_opcode i (OpcodeMatrix.mem_documented hop)
    refine ⟨i, by rw [hleads.1, hop], ?_⟩
    -- Finding the operand writes nothing.
    have hacts : p ∈ written acts := by
      have hall : p ∈ written found ++ written acts := by
        rw [← written_append]
        exact hp
      rwa [hf.written_eq, List.nil_append] at hall
    generalize i.mnemonic = m at ha hphp hbrk
    generalize op.address = address at ha
    -- The two instructions that push the status would make it due.
    cases ha with
    | writes hmem => exact List.mem_append_left _ (List.mem_append_left _ hmem)
    | modifies hmem => exact List.mem_append_left _ (List.mem_append_right _ hmem)
    | pha => decide
    | jsr => decide
    | php => exact absurd ⟨hs, hnext, hopcode.trans (hphp rfl)⟩ (hnone .php)
    | brk => exact absurd ⟨hs, hnext, fun _ => hopcode.trans (hbrk rfl)⟩ (hnone (.entry .brk))
    | _ => exact absurd hacts List.not_mem_nil

theorem written_reset (cpu : Cpu) (bus : β) : written (cpu.reset.run bus).accesses = [] := by
  rw [BusM.accesses_run]
  rfl

/-! ### The register and its copies -/

/-- **The status and its copies.**  However a processor was reset, clocked and interrupted before,
on whatever buses:

* bit five of its status is set and bit four is clear;
* a copy that the next cycle pushes has bit five set, has bit four set exactly if an instruction
  pushes it, and agrees with the status in all other bits; it lies below the return address where
  there is one;
* nothing else that the next cycle writes is a copy of the status: it is written by a store, by an
  operation in place, or by an instruction that pushes the accumulator or a return address; and a
  reset writes nothing;
* the instruction that only pushes the status leaves it alone, and if the same byte is ever pulled
  as a status, on whatever bus and by whatever processor, the status is again what it was. -/
theorem Reachable.status_pushed {cpu : Cpu} (hr : cpu.Reachable) (bus : β) :
    let o := cpu.tick.run bus
    (cpu.registers.status &&& 0x20 = 0x20 ∧ cpu.registers.status &&& 0x10 = 0) ∧
    (∀ k : Pusher, cpu.Starts → k.Due cpu bus → ∃ before byte,
      written o.accesses =
        before ++ [(stackCell (cpu.registers.sp - UInt8.ofNat k.depth), byte)] ∧
      before.length = k.depth ∧
      byte &&& 0x20 = 0x20 ∧
      (byte &&& 0x10 = 0x10 ↔ k = .php ∨ k = .entry .brk) ∧
      (byte &&& 0x10 = 0 ↔ k = .entry .nmi ∨ k = .entry .irq) ∧
      byte &&& 0xCF = cpu.registers.status &&& 0xCF) ∧
    ((∀ k : Pusher, ¬ (cpu.Starts ∧ k.Due cpu bus)) → ∀ p ∈ written o.accesses, ∃ i,
      Instruction.ofOpcode? (Bus.read bus cpu.registers.pc).1 = some i ∧
      i.mnemonic ∈ Mnemonic.writers ++ Mnemonic.modifiers ++ [.pha, .jsr]) ∧
    written (cpu.reset.run bus).accesses = [] ∧
    (cpu.Starts → Pusher.php.Due cpu bus → ∃ byte,
      o.accesses = [.read cpu.registers.pc 0x08, .write (stackCell cpu.registers.sp) byte] ∧
      o.value.cpu.registers.status = cpu.registers.status ∧
      ∀ {γ : Type} [Bus γ] (later : Cpu) (bus' : γ), later.Starts → later.nextInterrupt? = none →
        (Bus.read bus' later.registers.pc).1 = 0x28 →
        (later.tick.run bus').accesses = [.read later.registers.pc 0x28,
          .read (stackCell (later.registers.sp + 1)) byte] →
        (later.tick.run bus').value.cpu.registers.status = cpu.registers.status) := by
  have hlive := hr.live
  refine ⟨hlive.bits, ?_, fun hnone p hp => written_of_not_due hnone hp, cpu.written_reset bus, ?_⟩
  · intro k hs hk
    obtain ⟨before, hlength, hframe⟩ := k.frame_eq cpu.registers
    obtain ⟨hunused, hbreak, hflags⟩ := pushedStatus_bits cpu.registers.status k.byInstruction
    refine ⟨before, _, (written_of_due hlive hs hk).trans hframe, hlength, hunused, ?_, ?_, hflags⟩
    · rw [hbreak, ← k.byInstruction_iff]
      cases k.byInstruction <;> decide
    · rw [hbreak]
      rcases k with _ | (_ | _ | _) <;> decide
  · intro hs hk
    obtain ⟨haccesses, hstatus⟩ := tick_of_php hs hk
    refine ⟨_, haccesses, ?_, ?_⟩
    · rw [hstatus, ready, hlive.assign_unused]
    · intro γ _ later bus' hs' hn' hop' hpulled
      obtain ⟨byte, hread, hrestored⟩ := tick_of_plp hs' hn' hop'
      -- The byte that is pulled is the one that was pushed.
      rw [hread] at hpulled
      injection hpulled with _ hpulled
      injection hpulled with hpulled
      injection hpulled with _ hbyte
      rw [hrestored, hbyte, hlive.restore_pushed]

/-- From power-on, a processor pushes its status and pulls it again. -/
theorem Reachable.status_pushed_and_pulled :
    letI : Bus Unit :=
      Bus.holding fun addr => if addr = 0 then 0x08 else if addr = 1 then 0x28 else 0x34
    let cpu : Cpu := {}
    let later := ((ticks 3 cpu).run ()).value
    (cpu.Reachable ∧ cpu.Starts ∧ later.Starts ∧ later.registers.pc = 1) ∧
      (cpu.tick.run ()).accesses = [.read 0 0x08, .write 0x01FD 0x34] ∧
      (later.tick.run ()).accesses = [.read 1 0x28, .read 0x01FD 0x34] ∧
      (later.tick.run ()).value.cpu.registers.status = cpu.registers.status := by
  let _bus : Bus Unit :=
    Bus.holding fun addr => if addr = 0 then 0x08 else if addr = 1 then 0x28 else 0x34
  intro cpu later
  have hstart : cpu.Starts ∧ later.Starts ∧ later.registers.pc = 1 := by decide +kernel
  have hpulled : (later.tick.run ()).accesses = [.read 1 0x28, .read 0x01FD 0x34] := by
    decide +kernel
  obtain ⟨-, -, -, -, hphp⟩ := Reachable.powerOn.status_pushed ()
  obtain ⟨byte, haccesses, -, hback⟩ := hphp hstart.1 ⟨by decide +kernel, by decide +kernel⟩
  -- The byte that the theorem speaks of is the one that this cycle writes.
  have hbyte : byte = 0x34 := by
    have hpushed : (cpu.tick.run ()).accesses = [.read 0 0x08, .write 0x01FD 0x34] := by
      decide +kernel
    rw [haccesses] at hpushed
    injection hpushed with _ hpushed
    injection hpushed with hpushed
    injection hpushed
  refine ⟨⟨.powerOn, hstart⟩, ?_, hpulled, ?_⟩
  · rw [haccesses, hbyte]
    decide
  · have hintact : (later.tick.run ()).accesses = [.read later.registers.pc 0x28,
        .read (stackCell (later.registers.sp + 1)) byte] := by
      rw [hbyte]
      decide +kernel
    rw [hback later () hstart.2.1 (by decide +kernel) (by decide +kernel) hintact]

end Cpu

end Nes
