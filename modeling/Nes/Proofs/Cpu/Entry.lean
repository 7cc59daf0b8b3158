import Nes.Proofs.Cpu.BusTrace
import Nes.Proofs.Cpu.LiveStatus

/-!
# Into a handler and back

A handler is entered by a hardware interrupt of one of two kinds or by an instruction.  All three
ways push a return address and the status, which the return from interrupt pulls.  They differ in
the address, in the vector, and in the bit of the pushed status that tells an instruction from a
hardware interrupt.  The return discards that bit, and since a live status does not have it, nothing
is lost.

What is pushed can be pulled again where page one is memory.  The stack pointer has eight bits, so
the three bytes may lie at both ends of the page.

## Main definitions

* `Bus.StackIsRam`: page one of a bus is memory.
* `Entry`: the three ways, with what they push (`Entry.frame`) and when they are taken
  (`Entry.Due`).
* `Bus.Holds`: bytes lie in memory.

## Main statements

* `Entry.tick_of_due`: what an entry does.
* `Entry.holds_of_due`, `Entry.peek_of_due`: what lies in page one after it.
* `Entry.return_of_holds`: the return from interrupt restores what was pushed.
-/

namespace Nes

/-! ### The stack as memory -/

/-- Page one is memory: its bytes are read without side effects, a byte that is written is read back
and no other changes, and reading elsewhere changes none. -/
structure Bus.StackIsRam (β : Type) [Bus β] : Prop where
  read_stack : ∀ (bus : β) (sp : UInt8),
    Bus.read bus (stackCell sp) = (Bus.peek bus (stackCell sp), bus)
  peek_write : ∀ (bus : β) (sp other : UInt8) (value : UInt8),
    Bus.peek (Bus.write bus (stackCell sp) value) (stackCell other) =
      if other = sp then value else Bus.peek bus (stackCell other)
  peek_read : ∀ (bus : β) (addr : UInt16) (sp : UInt8),
    Bus.peek (Bus.read bus addr).2 (stackCell sp) = Bus.peek bus (stackCell sp)

namespace Bus

variable {β : Type} [Bus β]

/-- The given bytes lie at the given addresses. -/
def Holds (bus : β) (bytes : List (UInt16 × UInt8)) : Prop :=
  ∀ p ∈ bytes, Bus.peek bus p.1 = p.2

/-- Stores bytes in order. -/
def store (bus : β) (bytes : List (UInt16 × UInt8)) : β :=
  bytes.foldl (fun bus p => Bus.write bus p.1 p.2) bus

end Bus

/-- A word is put together again from its bytes. -/
theorem wordOf_toUInt8 (w : UInt16) : wordOf w.toUInt8 (w >>> 8).toUInt8 = w := by
  have hhigh : (w >>> 8).toNat = w.toNat / 256 := by
    rw [UInt16.toNat_shiftRight]
    exact Nat.shiftRight_eq_div_pow _ 8
  have hlt := w.toNat_lt
  rw [← UInt16.toNat_inj, toNat_wordOf, UInt16.toNat_toUInt8, UInt16.toNat_toUInt8, hhigh]
  omega

/-- The three cells of a frame are different cells, wherever the stack pointer is. -/
theorem stack_cells_ne (sp : UInt8) : sp - 1 ≠ sp ∧ sp - 2 ≠ sp ∧ sp - 2 ≠ sp - 1 := by
  revert sp
  apply forall_byte
  decide +kernel

/-- A live status is restored from its copy on the stack. -/
theorem Registers.Live.restore_pushed {r : Registers} (h : r.Live) (byInstruction : Bool) :
    (pushedStatus r.status byInstruction &&& ~~~Flag.breakCommand) ||| Flag.unused = r.status := by
  have hbyte : ∀ status : UInt8, status &&& 0x30 = 0x20 → ∀ byInstruction,
      (pushedStatus status byInstruction &&& ~~~Flag.breakCommand) ||| Flag.unused = status := by
    apply forall_byte
    decide +kernel
  exact hbyte r.status h byInstruction

/-- The copy on the stack differs from a live status in bit four at most. -/
theorem Registers.Live.pushed_xor {r : Registers} (h : r.Live) (byInstruction : Bool) :
    pushedStatus r.status byInstruction ^^^ r.status = if byInstruction then 0x10 else 0 := by
  have hbyte : ∀ status : UInt8, status &&& 0x30 = 0x20 → ∀ byInstruction,
      pushedStatus status byInstruction ^^^ status = if byInstruction then 0x10 else 0 := by
    apply forall_byte
    decide +kernel
  exact hbyte r.status h byInstruction

/-! ### The three ways into a handler -/

/-- The ways into an interrupt handler. -/
inductive Entry
  /-- A non-maskable interrupt. -/
  | nmi
  /-- A maskable interrupt. -/
  | irq
  /-- The instruction that interrupts. -/
  | brk
  deriving DecidableEq

namespace Entry

/-- The address at which the address of the handler is stored. -/
def vector : Entry → UInt16
  | nmi => 0xFFFA
  | irq | brk => 0xFFFE

/-- The handler is entered by an instruction. -/
def byInstruction : Entry → Bool
  | brk => true
  | nmi | irq => false

/-- The address to return to, if the processor was at the address `pc`.  The instruction that
interrupts is returned to behind the byte that follows it. -/
def returnAddress (k : Entry) (pc : UInt16) : UInt16 :=
  match k with
  | brk => pc + 2
  | nmi | irq => pc

/-- What is pushed, and where. -/
def frame (k : Entry) (r : Registers) : List (UInt16 × UInt8) :=
  [(stackCell r.sp, (k.returnAddress r.pc >>> 8).toUInt8),
   (stackCell (r.sp - 1), (k.returnAddress r.pc).toUInt8),
   (stackCell (r.sp - 2), pushedStatus r.status k.byInstruction)]

/-- The opcode that is fetched before the handler is entered. -/
def fetched (k : Entry) (pc : UInt16) : List Activity :=
  match k with
  | brk => [.read pc 0x00]
  | nmi | irq => []

/-- The accesses of the cycle that enters the handler at the address with the bytes `low` and
`high`. -/
def accesses (k : Entry) (r : Registers) (low high : UInt8) : List Activity :=
  k.fetched r.pc ++ (k.frame r).map (fun p => .write p.1 p.2) ++
    [.read k.vector low, .read (k.vector + 1) high]

/-- The vector of the hardware interrupt, if it is one. -/
def interrupt? : Entry → Option UInt16
  | nmi => some nmiVector
  | irq => some irqVector
  | brk => none

variable {β : Type} [Bus β]

/-- The next cycle of a processor between two instructions enters the handler in this way. -/
def Due (k : Entry) (cpu : Cpu) (bus : β) : Prop :=
  cpu.nextInterrupt? = k.interrupt? ∧ (k = brk → (Bus.read bus cpu.registers.pc).1 = 0x00)

/-- The bus after the opcode was fetched. -/
def afterFetch (k : Entry) (bus : β) (pc : UInt16) : β :=
  match k with
  | brk => (Bus.read bus pc).2
  | nmi | irq => bus

end Entry

theorem ofOpcode?_brk : Instruction.ofOpcode? 0x00 = some ⟨0x00, .brk, .implied, 7⟩ := by
  decide +kernel

theorem ofOpcode?_rti : Instruction.ofOpcode? 0x40 = some ⟨0x40, .rti, .implied, 6⟩ := by
  decide +kernel

namespace Entry

-- The opcode matrix is looked up in, and never evaluated, when a cycle is taken apart.
attribute [local irreducible] OpcodeMatrix.entries

variable {β : Type} [Bus β] {k : Entry} {cpu : Cpu} {bus : β}

/-- **What an entry does**: the accesses of the cycle, and the registers after it. -/
theorem tick_of_due (hlive : cpu.registers.Live) (hs : cpu.Starts) (hk : k.Due cpu bus) :
    let o := cpu.tick.run bus
    o.value.result = .ok () ∧ ∃ low high,
      o.accesses = k.accesses cpu.registers low high ∧
      o.value.cpu.registers = cpu.registers.entered (wordOf low high) := by
  -- The flag without a meaning is set already, so the start of the cycle changes nothing.
  have hready : cpu.ready = cpu.registers := hlive.assign_unused
  obtain ⟨hnext, hbrk⟩ := hk
  cases k with
  -- The hardware enters at once.
  | nmi | irq =>
    have hentered := Cpu.entered_of_interrupt hs hnext bus
    rw [hready] at hentered
    exact hentered
  -- The instruction is fetched first, and pushes the address after its second byte.
  | brk =>
    have hi : Instruction.ofOpcode? (Bus.read bus cpu.registers.pc).1 =
        some ⟨0x00, .brk, .implied, 7⟩ := by
      rw [hbrk rfl]
      exact ofOpcode?_brk
    obtain ⟨found, acts, op, r, extra, hfinds, hperforms, hvalue, haccesses⟩ :=
      Cpu.performs_of_documented hs hnext hi
    cases hfinds
    cases hperforms with
    | softwareInterrupt low high =>
      dsimp only
      rw [hvalue, haccesses]
      -- The second byte is passed over, and not read.
      have hpc : cpu.registers.pc + UInt16.ofNat 1 + 1 = cpu.registers.pc + 2 := by grind
      refine ⟨rfl, low, high, ?_, ?_⟩
      · show [Activity.read cpu.registers.pc 0x00,
            .write (stackCell cpu.registers.sp)
              ((cpu.registers.pc + UInt16.ofNat 1 + 1) >>> 8).toUInt8,
            .write (stackCell (cpu.registers.sp - 1))
              (cpu.registers.pc + UInt16.ofNat 1 + 1).toUInt8,
            .write (stackCell (cpu.registers.sp - 2)) (cpu.ready.statusToPush true),
            .read irqVector low, .read (irqVector + 1) high] = _
        rw [hpc, cpu.statusToPush_ready]
        rfl
      · rw [hready]
        rfl

/-- The bus after an entry: the frame was stored and the vector read, and nothing else happened
after the fetch. -/
theorem bus_of_leads {r : Registers} {low high : UInt8} {bus' : β}
    (h : Bus.Leads bus (k.accesses r low high) bus') :
    let stored := Bus.store (k.afterFetch bus r.pc) (k.frame r)
    bus' = (Bus.read (Bus.read stored k.vector).2 (k.vector + 1)).2 := by
  -- The bytes of the vector are those that the last two reads give.
  cases k with
  | nmi =>
    obtain ⟨-, -, rfl⟩ := h
    rfl
  | irq =>
    obtain ⟨-, -, rfl⟩ := h
    rfl
  | brk =>
    obtain ⟨-, -, -, rfl⟩ := h
    rfl

theorem bus_of_due (hlive : cpu.registers.Live) (hs : cpu.Starts) (hk : k.Due cpu bus) :
    let stored := Bus.store (k.afterFetch bus cpu.registers.pc) (k.frame cpu.registers)
    (cpu.tick.run bus).bus = (Bus.read (Bus.read stored k.vector).2 (k.vector + 1)).2 := by
  obtain ⟨-, low, high, haccesses, -⟩ := tick_of_due hlive hs hk
  have hleads := BusM.leads_accesses cpu.tick bus
  rw [haccesses] at hleads
  exact bus_of_leads hleads

/-! ### What lies in page one -/

section Stack

variable (hram : Bus.StackIsRam β)

include hram

theorem peek_afterFetch (pc : UInt16) (sp : UInt8) :
    Bus.peek (k.afterFetch bus pc) (stackCell sp) = Bus.peek bus (stackCell sp) := by
  cases k with
  | nmi => rfl
  | irq => rfl
  | brk => exact hram.peek_read bus pc sp

/-- **Page one after an entry.** -/
theorem peek_of_due (hlive : cpu.registers.Live) (hs : cpu.Starts) (hk : k.Due cpu bus)
    (sp : UInt8) :
    let r := cpu.registers
    Bus.peek (cpu.tick.run bus).bus (stackCell sp) =
      if sp = r.sp - 2 then pushedStatus r.status k.byInstruction
      else if sp = r.sp - 1 then (k.returnAddress r.pc).toUInt8
      else if sp = r.sp then (k.returnAddress r.pc >>> 8).toUInt8
      else Bus.peek bus (stackCell sp) := by
  dsimp only
  -- The last of the three pushes comes first, as it is what is found.
  rw [bus_of_due hlive hs hk, hram.peek_read, hram.peek_read]
  simp only [Bus.store, frame, List.foldl_cons, List.foldl_nil, hram.peek_write]
  rw [peek_afterFetch hram]

/-- The frame lies in memory after an entry. -/
theorem holds_of_due (hlive : cpu.registers.Live) (hs : cpu.Starts) (hk : k.Due cpu bus) :
    Bus.Holds (cpu.tick.run bus).bus (k.frame cpu.registers) := by
  obtain ⟨h₁, h₂, h₃⟩ := stack_cells_ne cpu.registers.sp
  have hpeek := peek_of_due hram hlive hs hk
  intro p hp
  simp only [frame, List.mem_cons, List.not_mem_nil, or_false] at hp
  rcases hp with rfl | rfl | rfl
  · rw [hpeek, if_neg h₂.symm, if_neg h₁.symm, if_pos rfl]
  · rw [hpeek, if_neg h₃.symm, if_pos rfl]
  · rw [hpeek, if_pos rfl]

/-- No other byte of page one has changed. -/
theorem peek_of_not_mem_frame (hlive : cpu.registers.Live) (hs : cpu.Starts)
    (hk : k.Due cpu bus) {sp : UInt8}
    (hsp : stackCell sp ∉ (k.frame cpu.registers).map Prod.fst) :
    Bus.peek (cpu.tick.run bus).bus (stackCell sp) = Bus.peek bus (stackCell sp) := by
  simp only [frame, List.map_cons, List.map_nil, List.mem_cons, List.not_mem_nil, or_false,
    not_or] at hsp
  obtain ⟨h₀, h₁, h₂⟩ := hsp
  have hne : ∀ {other : UInt8}, stackCell sp ≠ stackCell other → sp ≠ other := by
    rintro other h rfl
    exact h rfl
  rw [peek_of_due hram hlive hs hk, if_neg (hne h₂), if_neg (hne h₁), if_neg (hne h₀)]

/-- **The return from interrupt restores what an entry pushed.**  The registers `r` are those before
the entry; whatever else the processor that returns has in its own, they stay as they are. -/
theorem return_of_holds {r : Registers} (hlive : r.Live) (hs : cpu.Starts)
    (hn : cpu.nextInterrupt? = none) (hop : (Bus.read bus cpu.registers.pc).1 = 0x40)
    (hsp : cpu.registers.sp = r.sp - 3) (hframe : Bus.Holds bus (k.frame r)) :
    let o := cpu.tick.run bus
    o.value.result = .ok () ∧
      o.value.cpu.registers =
        { cpu.registers with sp := r.sp, status := r.status, pc := k.returnAddress r.pc } := by
  have hi : Instruction.ofOpcode? (Bus.read bus cpu.registers.pc).1 =
      some ⟨0x40, .rti, .implied, 6⟩ := by
    rw [hop]
    exact ofOpcode?_rti
  have hleads := BusM.leads_accesses cpu.tick bus
  obtain ⟨found, acts, op, r', extra, hfinds, hperforms, hvalue, haccesses⟩ :=
    Cpu.performs_of_documented hs hn hi
  cases hfinds
  cases hperforms with
  | returnFromInterrupt status low high =>
    -- The three bytes are read where the frame lies, and reading them changes nothing.
    have h₁ : cpu.registers.sp + 1 = r.sp - 2 := by rw [hsp]; grind
    have h₂ : cpu.registers.sp + 2 = r.sp - 1 := by rw [hsp]; grind
    have h₃ : cpu.registers.sp + 3 = r.sp := by rw [hsp]; grind
    have hread : ∀ sp, Bus.read (Bus.read bus cpu.registers.pc).2 (stackCell sp) =
        (Bus.peek bus (stackCell sp), (Bus.read bus cpu.registers.pc).2) := by
      intro sp
      rw [hram.read_stack, hram.peek_read]
    rw [haccesses] at hleads
    have hrest : Bus.Leads (Bus.read bus cpu.registers.pc).2
        [.read (stackCell (cpu.registers.sp + 1)) status,
         .read (stackCell (cpu.registers.sp + 2)) low,
         .read (stackCell (cpu.registers.sp + 3)) high] _ := hleads.2
    simp only [Bus.Leads, hread, h₁, h₂, h₃] at hrest
    obtain ⟨rfl, rfl, rfl, -⟩ := hrest
    have hhigh := hframe _ (.head _)
    have hlow := hframe _ (.tail _ (.head _))
    have hstatus := hframe _ (.tail _ (.tail _ (.head _)))
    dsimp only at hhigh hlow hstatus
    dsimp only
    rw [hvalue, hhigh, hlow, hstatus, wordOf_toUInt8]
    refine ⟨rfl, ?_⟩
    show Registers.mk cpu.registers.a cpu.registers.x cpu.registers.y (cpu.registers.sp + 3)
      (k.returnAddress r.pc) _ = _
    rw [h₃, hlive.restore_pushed]

end Stack

end Entry

end Nes
