import Nes.Bus.Flat
import Nes.Proofs.Console.Mirrors
import Nes.Proofs.Console.Peek
import Nes.Proofs.Console.Reachable
import Nes.Proofs.Cpu.Entry

/-!
# Returning from interrupts in memory

Plain memory and the address space of the console both have memory in page one.  In plain memory an
entry changes three bytes; in the console it changes three cells of the work RAM, and nothing else
but what fetching an opcode does.

## Main statements

* `FlatMemory.stackIsRam`, `AddressSpace.stackIsRam`: page one is memory.
* `FlatMemory.get_of_due`, `AddressSpace.bus_of_due`: what an entry leaves of the rest.
* `Console.Reachable.cpu`: a reachable console has a reachable processor.
* `Entry.return_undoes_entry`: the return from interrupt undoes an entry.
-/

namespace Nes

theorem toNat_stackCell (sp : UInt8) : (stackCell sp).toNat = 256 + sp.toNat := by
  revert sp
  apply forall_byte
  decide +kernel

theorem stackCell_inj {sp other : UInt8} : stackCell sp = stackCell other ↔ sp = other := by
  rw [← UInt16.toNat_inj, toNat_stackCell, toNat_stackCell, ← UInt8.toNat_inj]
  omega

theorem Entry.le_vector (k : Entry) : 0x4000 ≤ k.vector ∧ 0x4000 ≤ k.vector + 1 := by
  cases k <;> decide

/-! ### Plain memory -/

namespace FlatMemory

/-- **Page one of plain memory is memory.** -/
theorem stackIsRam : Bus.StackIsRam FlatMemory where
  read_stack := fun _ _ => rfl
  peek_write := by
    intro mem sp other value
    show (mem.set (stackCell sp) value).get (stackCell other) =
      if other = sp then value else mem.get (stackCell other)
    rw [get_set]
    simp only [stackCell_inj]
  peek_read := fun _ _ _ => rfl

theorem get_store (mem : FlatMemory) {bytes : List (UInt16 × UInt8)} {addr : UInt16}
    (h : addr ∉ bytes.map Prod.fst) : (Bus.store mem bytes).get addr = mem.get addr := by
  induction bytes generalizing mem with
  | nil => rfl
  | cons p bytes ih =>
    rw [List.map_cons, List.mem_cons, not_or] at h
    show (Bus.store (mem.set p.1 p.2) bytes).get addr = mem.get addr
    rw [ih _ h.2, get_set, if_neg h.1]

/-- **An entry changes the three bytes of its frame at most.** -/
theorem get_of_due {k : Entry} {cpu : Cpu} {mem : FlatMemory} (hlive : cpu.registers.Live)
    (hs : cpu.Starts) (hk : k.Due cpu mem) {addr : UInt16}
    (h : addr ∉ (k.frame cpu.registers).map Prod.fst) :
    (cpu.tick.run mem).bus.get addr = mem.get addr := by
  have hfetch : k.afterFetch mem cpu.registers.pc = mem := by cases k <;> rfl
  rw [Entry.bus_of_due hlive hs hk, hfetch]
  exact get_store mem h

end FlatMemory

/-! ### The address space of the console -/

theorem stackCell_lt (sp : UInt8) : stackCell sp < 0x2000 := by
  have hlt := sp.toNat_lt
  rw [UInt16.lt_iff_toNat_lt, toNat_stackCell]
  show 256 + sp.toNat < 0x2000
  omega

theorem WorkRam.cell_stackCell_inj {sp other : UInt8} :
    cell (stackCell sp) = cell (stackCell other) ↔ sp = other := by
  have hsp := sp.toNat_lt
  have hother := other.toNat_lt
  rw [Fin.ext_iff]
  show (stackCell sp).toNat % 0x800 = (stackCell other).toNat % 0x800 ↔ sp = other
  rw [toNat_stackCell, toNat_stackCell, ← UInt8.toNat_inj]
  omega

namespace AddressSpace

theorem peek_stackCell (s : AddressSpace) (sp : UInt8) :
    s.peek (stackCell sp) = s.ram.get (stackCell sp) := by
  rw [← fst_read, read_ram s (stackCell_lt sp)]

/-- A byte of page one goes to the work RAM. -/
theorem write_stackCell (s : AddressSpace) (sp value : UInt8) :
    s.write (stackCell sp) value = { s with ram := s.ram.set (stackCell sp) value } := by
  rw [write, s.target_ram (stackCell_lt sp)]

/-- **Page one of the console is memory.** -/
theorem stackIsRam : Bus.StackIsRam AddressSpace where
  read_stack := by
    intro s sp
    have hstays := read_of_not_register (target_ne_register (s := s) (.inl (stackCell_lt sp)))
    exact Prod.ext (s.fst_read (stackCell sp)) hstays
  peek_write := by
    intro s sp other value
    show (s.write (stackCell sp) value).peek (stackCell other) =
      if other = sp then value else s.peek (stackCell other)
    rw [peek_stackCell, peek_stackCell, write_stackCell, WorkRam.get_set]
    simp only [WorkRam.cell_stackCell_inj]
  peek_read := by
    intro s addr sp
    show (s.read addr).2.peek (stackCell sp) = s.peek (stackCell sp)
    rw [peek_stackCell, peek_stackCell, s.ram_read addr]

/-- **An entry changes three cells of the work RAM**, after what fetching its opcode does. -/
theorem bus_of_due {k : Entry} {cpu : Cpu} {s : AddressSpace} (hlive : cpu.registers.Live)
    (hs : cpu.Starts) (hk : k.Due cpu s) :
    let fetched := k.afterFetch s cpu.registers.pc
    (cpu.tick.run s).bus =
      { fetched with
        ram := (k.frame cpu.registers).foldl (fun ram p => ram.set p.1 p.2) fetched.ram } := by
  obtain ⟨hlow, hhigh⟩ := k.le_vector
  have hvector : ∀ (s : AddressSpace) {addr : UInt16}, 0x4000 ≤ addr → (Bus.read s addr).2 = s :=
    fun s _ h => read_of_not_register (target_ne_register (.inr h))
  -- The vector lies outside of the registers, so reading it changes nothing.
  rw [Entry.bus_of_due hlive hs hk]
  dsimp only
  rw [hvector _ hlow, hvector _ hhigh]
  show ((((k.afterFetch s cpu.registers.pc).write (stackCell _) _).write (stackCell _) _).write
    (stackCell _) _) = _
  -- The three pushes, from the last to the first
  rw [write_stackCell, write_stackCell, write_stackCell]
  rfl

end AddressSpace

/-! ### The processor of a console -/

namespace Console

theorem cpu_clock_reachable {c : Console} (h : c.cpu.Reachable) :
    c.clock.console.cpu.Reachable := by
  have hcycle : c.cycle.value.cpu.Reachable := by
    unfold cycle cpuPart
    split
    · exact h.tick c.dotted
    · exact h
  rw [clock_eq]
  dsimp only
  split
  · exact hcycle.requestNmi c.space
  · exact hcycle

/-- **A reachable console has a reachable processor.** -/
theorem Reachable.cpu {c : Console} (h : c.Reachable) : c.cpu.Reachable := by
  have hrun : ∀ {stop : Console → Bool} {limit : Nat} {r : Run}, r.console.cpu.Reachable →
      (r.extend stop limit).console.cpu.Reachable :=
    Run.extend_preserves (P := fun c => c.cpu.Reachable) fun _ => cpu_clock_reachable
  -- By induction on how the console was reached: a run reaches nothing that its clocks do not.
  induction h with
  | powerOn => exact .powerOn
  | @reset c _ ih => exact ih.reset c.space
  | clock _ ih => exact cpu_clock_reachable ih
  | stepInstruction _ ih => exact hrun (hrun ih)
  | stepFrame _ ih =>
    unfold Console.stepFrame
    dsimp only
    split <;> exact hrun ih
  | read _ _ ih => exact ih
  | write _ _ _ ih => exact ih
  | loadProgram _ _ ih => exact ih
  | @requestNmi c _ ih => exact ih.requestNmi c.space
  | @requestIrq c _ ih => exact ih.requestIrq c.space
  | tickOn _ bus ih => exact ih.tick bus
  | resetOn _ bus ih => exact ih.reset bus
  | exchange _ _ _ ih => exact ih

end Console

/-! ### There and back -/

namespace Entry

/-- **The return from interrupt undoes an entry.**  Page one is memory in plain memory and in the
console, and a reachable processor, such as that of a reachable console, has a live status, with bit
five set and bit four clear.  Where this is so, whatever the stack pointer is:

* An entry succeeds.  It accesses the bus to fetch the instruction that interrupts, if there is one,
  to push three bytes and to read the vector.  Of the registers it changes the stack pointer, the
  program counter and the flag that disables interrupts, which is set.
* The three bytes lie in page one, where no other byte has changed.  The status among them differs
  from the live one in bit four at most, which is set if an instruction interrupts and clear if the
  hardware does.
* A later processor that executes the return with the stack pointer of just after the entry and with
  these bytes in place gets back the stack pointer and the status of before the entry, and goes on
  at the return address.  What else its registers and the memory hold does not matter.

In plain memory an entry changes no other byte.  In the console it changes nothing else but what
fetching the opcode changes. -/
theorem return_undoes_entry :
    Bus.StackIsRam FlatMemory ∧ Bus.StackIsRam AddressSpace ∧
    (∀ cpu : Cpu, cpu.Reachable → cpu.registers.Live) ∧
    (∀ c : Console, c.Reachable → c.cpu.Reachable) ∧
    (∀ {β : Type} [Bus β], Bus.StackIsRam β → ∀ (k : Entry) (cpu : Cpu) (bus : β),
      cpu.registers.Live → cpu.Starts → k.Due cpu bus →
      let r := cpu.registers
      let entry := cpu.tick.run bus
      let entered := entry.value.cpu.registers
      (entry.value.result = .ok () ∧ ∃ low high,
        entry.accesses = k.fetched r.pc ++ (k.frame r).map (fun p => .write p.1 p.2) ++
          [.read k.vector low, .read (k.vector + 1) high] ∧
        entered =
          { r with
            sp := r.sp - 3, status := r.status ||| Flag.irqDisable, pc := wordOf low high }) ∧
      Bus.Holds entry.bus (k.frame r) ∧
      (∀ sp, stackCell sp ∉ (k.frame r).map Prod.fst →
        Bus.peek entry.bus (stackCell sp) = Bus.peek bus (stackCell sp)) ∧
      pushedStatus r.status k.byInstruction ^^^ r.status = (if k = brk then 0x10 else 0) ∧
      ∀ (later : Cpu) (bus' : β), later.Starts → later.nextInterrupt? = none →
        (Bus.read bus' later.registers.pc).1 = 0x40 → later.registers.sp = entered.sp →
        Bus.Holds bus' (k.frame r) →
        let back := later.tick.run bus'
        back.value.result = .ok () ∧
          back.value.cpu.registers =
            { later.registers with
              sp := r.sp, status := r.status, pc := k.returnAddress r.pc }) ∧
    (∀ (k : Entry) (cpu : Cpu) (mem : FlatMemory),
      cpu.registers.Live → cpu.Starts → k.Due cpu mem →
      ∀ addr, addr ∉ (k.frame cpu.registers).map Prod.fst →
        (cpu.tick.run mem).bus.get addr = mem.get addr) ∧
    (∀ (k : Entry) (cpu : Cpu) (s : AddressSpace),
      cpu.registers.Live → cpu.Starts → k.Due cpu s →
      let fetched := k.afterFetch s cpu.registers.pc
      (cpu.tick.run s).bus =
        { fetched with
          ram := (k.frame cpu.registers).foldl (fun ram p => ram.set p.1 p.2) fetched.ram }) := by
  -- What remains is the statement for any bus whose page one is memory.
  refine ⟨FlatMemory.stackIsRam, AddressSpace.stackIsRam, fun cpu h => h.live, fun c h => h.cpu, ?_,
    fun k cpu mem hlive hs hk addr => FlatMemory.get_of_due hlive hs hk,
    fun k cpu s hlive hs hk => AddressSpace.bus_of_due hlive hs hk⟩
  intro β _ hram k cpu bus hlive hs hk
  obtain ⟨hresult, low, high, haccesses, hregisters⟩ := tick_of_due hlive hs hk
  -- The bit tells the entries apart: only an instruction sets it.
  have hbit : pushedStatus cpu.registers.status k.byInstruction ^^^ cpu.registers.status =
      if k = brk then 0x10 else 0 := by
    rw [hlive.pushed_xor]
    cases k <;> rfl
  refine ⟨⟨hresult, low, high, haccesses, hregisters⟩, holds_of_due hram hlive hs hk,
    fun sp => peek_of_not_mem_frame hram hlive hs hk, hbit, ?_⟩
  -- Of the bus after the entry only the three bytes are used, and of the later processor only its
  -- stack pointer.
  intro later bus' hstarts hn hop hsp hframe
  have hsp' : later.registers.sp = cpu.registers.sp - 3 := by
    rw [hsp, hregisters]
    rfl
  exact return_of_holds hram hlive hstarts hn hop hsp' hframe

/-- The stack pointer is `0x01`, so the frame of this interrupt lies at both ends of page one.  The
handler consists of the return, in a memory full of its opcode. -/
theorem return_undoes_entry_around_the_page : ∃ (cpu later : Cpu) (mem : FlatMemory),
    (cpu.registers.Live ∧ cpu.Starts ∧ nmi.Due cpu mem ∧ later.Starts ∧
      later.nextInterrupt? = none) ∧
    cpu.registers.sp = 0x01 ∧ cpu.registers.pc = 0x1234 ∧ later.registers.a = 0x55 ∧
    let mem' := (cpu.tick.run mem).bus
    mem'.get 0x0101 = 0x12 ∧ mem'.get 0x0100 = 0x34 ∧ mem'.get 0x01FF = 0x24 ∧
    (later.tick.run mem').value.cpu.registers =
      { later.registers with sp := 0x01, status := 0x24, pc := 0x1234 } := by
  obtain ⟨mem, hmem⟩ : ∃ mem : FlatMemory, ∀ addr, mem.get addr = 0x40 :=
    ⟨.filled 0x40, FlatMemory.get_filled 0x40⟩
  -- Both processors are kept as variables, so that no cycle is evaluated.
  obtain ⟨cpu, hcpu⟩ : ∃ cpu : Cpu,
      cpu = { registers := { sp := 0x01, pc := 0x1234 }, pendingNmi := true } := ⟨_, rfl⟩
  obtain ⟨later, hlater⟩ : ∃ later : Cpu,
      later = { registers := { a := 0x55, sp := 0xFE, pc := 0x4040 } } := ⟨_, rfl⟩
  have hlive : cpu.registers.Live := by rw [hcpu]; decide
  have hs : cpu.Starts := by rw [hcpu]; exact ⟨rfl, rfl⟩
  have hk : nmi.Due cpu mem := by rw [hcpu]; exact ⟨rfl, fun h => absurd h (by decide)⟩
  have hstarts : later.Starts := by rw [hlater]; exact ⟨rfl, rfl⟩
  have hn : later.nextInterrupt? = none := by rw [hlater]; rfl
  have hframe : nmi.frame cpu.registers = [(0x0101, 0x12), (0x0100, 0x34), (0x01FF, 0x24)] := by
    rw [hcpu]
    decide
  obtain ⟨hram, -, -, -, hall, hflat, -⟩ := return_undoes_entry
  obtain ⟨⟨-, low, high, -, hentered⟩, hholds, -, -, hreturn⟩ := hall hram nmi cpu mem hlive hs hk
  -- The handler starts outside of page one, where the entry has changed nothing.
  have hop : (Bus.read (cpu.tick.run mem).bus later.registers.pc).1 = 0x40 := by
    show (cpu.tick.run mem).bus.get later.registers.pc = 0x40
    rw [hflat nmi cpu mem hlive hs hk, hmem]
    rw [hframe, hlater]
    decide
  have hsp : later.registers.sp = (cpu.tick.run mem).value.cpu.registers.sp := by
    rw [hentered, hlater, hcpu]
    rfl
  obtain ⟨-, hback⟩ := hreturn later _ hstarts hn hop hsp hholds
  rw [hframe] at hholds
  refine ⟨cpu, later, mem, ⟨hlive, hs, hk, hstarts, hn⟩, by rw [hcpu], by rw [hcpu],
    by rw [hlater], hholds _ (.head _), hholds _ (.tail _ (.head _)),
    hholds _ (.tail _ (.tail _ (.head _))), ?_⟩
  rw [hback, hcpu]
  rfl

end Entry

end Nes
