import Nes.Proofs.Cpu.EffectPath
import Nes.Proofs.Cpu.OperandPath
import Nes.Proofs.Cpu.Tick
import Nes.Proofs.Cpu.Timetable

/-!
# The accesses of a cycle

On a bus with devices a read that is not needed does harm: it may acknowledge an interrupt or move
an address on.  So it matters which accesses the processor makes, in which order, and that it makes
no others.

The law of the accesses is stated here by kinds of operations.  An instruction reads its opcode,
then what it needs to find its operand, and then it acts: by one read, by one write, by a read and
a write of the same cell, on the stack, or not at all.  Entering an interrupt handler writes three
bytes to the stack and reads a vector.  In all other cycles the bus is left alone.

## Main definitions

* `Mnemonic.Acts`: the accesses by which an operation acts once its operand is found.
* `Cpu.BusLaw`: the accesses of a cycle.

## Main statements

* `Mnemonic.acts_of_performs`: every documented operation acts as its kind does.
* `Cpu.performs_of_documented`: a cycle that reads a documented opcode, as a whole.
* `Cpu.busLaw_tick`: every cycle obeys the law, on every bus.
-/

namespace Nes

/-! ### What is written -/

/-- A status byte on the stack: bit five is set, and bit four tells whether an instruction pushed
it.  The other bits are those of the status register. -/
def pushedStatus (status : UInt8) (byInstruction : Bool) : UInt8 :=
  (status &&& 0xCF) ||| (if byInstruction then 0x30 else 0x20)

theorem Registers.statusToPush_eq (r : Registers) (byInstruction : Bool) :
    r.statusToPush byInstruction = pushedStatus r.status byInstruction := by
  have h : ∀ status : UInt8,
      status ||| Flag.unused ||| Flag.breakCommand = pushedStatus status true ∧
        (status ||| Flag.unused) &&& ~~~Flag.breakCommand = pushedStatus status false := by
    apply forall_byte
    decide +kernel
  cases byInstruction with
  | true => exact (h r.status).1
  | false => exact (h r.status).2

theorem Cpu.statusToPush_ready (cpu : Cpu) (byInstruction : Bool) :
    cpu.ready.statusToPush byInstruction = pushedStatus cpu.registers.status byInstruction := by
  have h : ∀ status : UInt8, (status ||| Flag.unused) &&& 0xCF = status &&& 0xCF := by
    apply forall_byte
    decide +kernel
  rw [Registers.statusToPush_eq, pushedStatus, pushedStatus]
  congr 1
  exact h cpu.registers.status

namespace Mnemonic

/-- The byte that an operation stores. -/
def stored (m : Mnemonic) (r : Registers) : UInt8 :=
  match m with
  | stx => r.x
  | sty => r.y
  | _ => r.a

/-- The byte by which an operation replaces the byte `v`. -/
def modified (m : Mnemonic) (r : Registers) (v : UInt8) : UInt8 :=
  let carry := (r.isSet Flag.carry).toUInt8
  match m with
  | inc => v + 1
  | dec => v - 1
  | asl => v <<< 1
  | lsr => v >>> 1
  | rol => v <<< 1 ||| carry
  | ror => v >>> 1 ||| carry <<< 7
  | _ => v

/-- The operations that use the stack. -/
def stackers : List Mnemonic := [pha, php, pla, plp, jsr, rts, rti, brk]

/-- The operations that use the bus. -/
def busUsers : List Mnemonic := readers ++ writers ++ modifiers ++ stackers

/-- The accesses by which an operation acts on the operand at an address, if it has one.  The
registers are those with which the instruction starts, with the program counter at its opcode. -/
inductive Acts (r : Registers) : Mnemonic → Option UInt16 → List Activity → Prop
  /-- One read of the operand. -/
  | reads {m : Mnemonic} (hm : m ∈ readers) (addr : UInt16) (v : UInt8) :
    Acts r m (some addr) [.read addr v]
  /-- One write to the operand, and no read of it. -/
  | writes {m : Mnemonic} (hm : m ∈ writers) (addr : UInt16) :
    Acts r m (some addr) [.write addr (m.stored r)]
  /-- One read and then one write of the same cell. -/
  | modifies {m : Mnemonic} (hm : m ∈ modifiers) (addr : UInt16) (v : UInt8) :
    Acts r m (some addr) [.read addr v, .write addr (m.modified r v)]
  /-- Nothing, if the accumulator is modified. -/
  | modifiesAccumulator {m : Mnemonic} (hm : m ∈ modifiers) : Acts r m none []
  | pha (addr : Option UInt16) : Acts r .pha addr [.write (stackCell r.sp) r.a]
  | php (addr : Option UInt16) :
    Acts r .php addr [.write (stackCell r.sp) (pushedStatus r.status true)]
  | pla (addr : Option UInt16) (v : UInt8) : Acts r .pla addr [.read (stackCell (r.sp + 1)) v]
  | plp (addr : Option UInt16) (v : UInt8) : Acts r .plp addr [.read (stackCell (r.sp + 1)) v]
  /-- The address of the last byte of the instruction is pushed. -/
  | jsr (addr : Option UInt16) :
    Acts r .jsr addr
      [.write (stackCell r.sp) ((r.pc + 2) >>> 8).toUInt8,
       .write (stackCell (r.sp - 1)) (r.pc + 2).toUInt8]
  | rts (addr : Option UInt16) (low high : UInt8) :
    Acts r .rts addr [.read (stackCell (r.sp + 1)) low, .read (stackCell (r.sp + 2)) high]
  | rti (addr : Option UInt16) (status low high : UInt8) :
    Acts r .rti addr
      [.read (stackCell (r.sp + 1)) status, .read (stackCell (r.sp + 2)) low,
       .read (stackCell (r.sp + 3)) high]
  /-- The address of the byte after the next is pushed. -/
  | brk (addr : Option UInt16) (low high : UInt8) :
    Acts r .brk addr
      [.write (stackCell r.sp) ((r.pc + 2) >>> 8).toUInt8,
       .write (stackCell (r.sp - 1)) (r.pc + 2).toUInt8,
       .write (stackCell (r.sp - 2)) (pushedStatus r.status true),
       .read 0xFFFE low, .read 0xFFFF high]
  /-- Nothing, for all other operations. -/
  | nothing {m : Mnemonic} (hm : m ∉ busUsers) (addr : Option UInt16) : Acts r m addr []

/-- Acting makes accesses only. -/
theorem Acts.isAccess {r : Registers} {m : Mnemonic} {addr : Option UInt16} {t : List Activity}
    (h : Acts r m addr t) : t.filter Activity.isAccess = t := by
  cases h <;> rfl

/-- Only operations on the accumulator and those without an operand have none in memory. -/
theorem address_ne_none {i : Instruction} (hi : i ∈ OpcodeMatrix.documented) {start : UInt16}
    {x y : UInt8} {t : List Activity} {op : Operand} (hop : i.mode.Finds start x y t op)
    (hm : i.mnemonic ∈ readers ++ writers) : ∃ addr, op.address = some addr := by
  obtain ⟨h₁, h₂⟩ := OpcodeMatrix.memory_mode i hi hm
  exact hop.address_ne_none h₁ h₂

/-- **Every documented operation acts as its kind does.** -/
theorem acts_of_performs {cpu : Cpu} {i : Instruction} (hi : i ∈ OpcodeMatrix.documented)
    {found acts : List Activity} {op : Operand} {r' : Registers} {extra : Nat}
    (hop : i.mode.Finds (cpu.registers.pc + 1) cpu.registers.x cpu.registers.y found op)
    (h : i.mnemonic.effect.Performs op
      (cpu.ready.jumpTo (cpu.registers.pc + 1 + UInt16.ofNat i.mode.operandLength)) acts r' extra) :
    Acts cpu.registers i.mnemonic op.address acts := by
  have haddr := address_ne_none hi hop
  have hcarry : (cpu.ready.jumpTo (cpu.registers.pc + 1 +
      UInt16.ofNat i.mode.operandLength)).isSet Flag.carry = cpu.registers.isSet Flag.carry :=
    cpu.isSet_ready (by decide)
  have hjsr := OpcodeMatrix.jsr_mode i hi
  have hbrk := OpcodeMatrix.brk_mode i hi
  -- What depends on the mode is known now, so the operations can be gone through one by one.
  generalize i.mnemonic = m at *
  cases m
  case lda | ldx | ldy | adc | sbc | and | ora | eor | cmp | cpx | cpy | bit =>
    obtain ⟨addr, ha⟩ := haddr (by decide)
    cases h
    next v hl =>
      rw [Operand.follows_load, ha] at hl
      rw [ha, hl]
      exact .reads (by decide) addr v
  case sta | stx | sty =>
    obtain ⟨addr, ha⟩ := haddr (by decide)
    cases h
    next hs =>
      rw [Operand.follows_store, ha] at hs
      rw [ha, hs.1]
      exact .writes (by decide) addr
  case inc | dec | asl | lsr | rol | ror =>
    cases h
    next v _ hl hs =>
      rw [Operand.follows_load] at hl
      rw [Operand.follows_store] at hs
      cases ha : op.address with
      | some addr =>
        rw [ha] at hl hs
        rw [hl, hs.1]
        -- The rotations take the carry from the registers, where it is as it was at the start.
        simp only [Registers.increment, Registers.decrement, Registers.shiftLeft,
          Registers.shiftRight, Registers.rotateLeft, Registers.rotateRight, hcarry]
        exact .modifies (by decide) addr v
      | none =>
        rw [ha] at hl hs
        rw [hl.1, hs.1]
        exact .modifiesAccumulator (by decide)
  case pha =>
    cases h
    exact .pha _
  case php =>
    have hacts := Acts.php (r := cpu.registers) op.address
    rw [← cpu.statusToPush_ready] at hacts
    cases h
    exact hacts
  case pla =>
    cases h
    exact .pla _ _
  case plp =>
    cases h
    exact .plp _ _
  case jsr =>
    have hpc : cpu.registers.pc + 1 + UInt16.ofNat i.mode.operandLength - 1 =
        cpu.registers.pc + 2 := by
      rw [hjsr rfl]
      show cpu.registers.pc + 1 + 2 - 1 = cpu.registers.pc + 2
      grind
    cases h
    have hacts := Acts.jsr (r := cpu.registers) op.address
    rw [← hpc] at hacts
    exact hacts
  case rts =>
    cases h
    exact .rts _ _ _
  case rti =>
    cases h
    exact .rti _ _ _ _
  case brk =>
    have hpc : cpu.registers.pc + 1 + UInt16.ofNat i.mode.operandLength + 1 =
        cpu.registers.pc + 2 := by
      rw [hbrk rfl]
      show cpu.registers.pc + 1 + 0 + 1 = cpu.registers.pc + 2
      grind
    cases h
    next low high =>
      have hacts := Acts.brk (r := cpu.registers) op.address low high
      rw [← hpc, ← cpu.statusToPush_ready] at hacts
      exact hacts
  all_goals
    cases h
    exact .nothing (by decide) _

end Mnemonic

namespace Cpu

/-- An instruction that is executed finds its operand as its mode does and acts as its kind does. -/
theorem finds_and_acts {cpu : Cpu} {opcode : UInt8} {i : Instruction}
    (hi : Instruction.ofOpcode? opcode = some i) {found acts : List Activity} {op : Operand}
    {r : Registers} {extra : Nat}
    (hop : (i.mode.resolve BusM.readByte (cpu.registers.pc + 1) cpu.registers.x
      cpu.registers.y).Follows found op)
    (hact : (i.mnemonic.effect.perform op (cpu.ready.jumpTo
      (cpu.registers.pc + 1 + UInt16.ofNat i.mode.operandLength))).Follows acts (r, extra)) :
    i.mode.Finds (cpu.registers.pc + 1) cpu.registers.x cpu.registers.y found op ∧
      i.mnemonic.Acts cpu.registers op.address acts := by
  have hfinds := AddressingMode.finds_of_follows hop
  have hperforms := Effect.performs_of_follows hact
  exact ⟨hfinds, Mnemonic.acts_of_performs (OpcodeMatrix.mem_documented hi) hfinds hperforms⟩

/-- The processor is about to start something. -/
def Starts (cpu : Cpu) : Prop := cpu.halted = none ∧ cpu.cyclesLeft = 0

instance (cpu : Cpu) : Decidable cpu.Starts := inferInstanceAs (Decidable (_ ∧ _))

/-- **What a cycle does that reads a documented opcode**: it finds the operand as the mode does,
performs the operation with the program counter at the following instruction, and makes no other
accesses. -/
theorem performs_of_documented {β : Type} [Bus β] {cpu : Cpu} {bus : β} {i : Instruction}
    (hs : cpu.Starts) (hn : cpu.nextInterrupt? = none)
    (hi : Instruction.ofOpcode? (Bus.read bus cpu.registers.pc).1 = some i) :
    ∃ found acts op r extra,
      i.mode.Finds (cpu.registers.pc + 1) cpu.registers.x cpu.registers.y found op ∧
      Effect.Performs op (cpu.ready.jumpTo (cpu.registers.pc + UInt16.ofNat i.length))
        i.mnemonic.effect acts r extra ∧
      (cpu.tick.run bus).value =
        ⟨{ cpu with
            registers := r, cyclesLeft := i.cycles + extra - 1
            totalCycles := cpu.totalCycles + 1 }, .ok ()⟩ ∧
      (cpu.tick.run bus).accesses = .read cpu.registers.pc i.opcode :: (found ++ acts) := by
  have htick := cpu.tickPath_run bus
  have hleads := BusM.leads_path cpu.tick bus
  rw [BusM.accesses_run]
  generalize (cpu.tick.run bus).value = o at htick
  generalize cpu.tick.path bus = t at htick hleads
  cases htick with
  | halted hh => exact absurd (hs.1.symm.trans hh) nofun
  | countDown hh hc => exact absurd hs.2 hc
  | nmi hh hc hn' => exact absurd (hn.symm.trans hn') nofun
  | irq hh hc hn' => exact absurd (hn.symm.trans hn') nofun
  | undocumented hh hc hn' hnone =>
    rw [hleads.1, hnone] at hi
    exact absurd hi nofun
  | @executed hh hc hn' opcode j hj found acts op r extra hop hact =>
    -- The opcode on the path is the one that the bus gives.
    rw [hleads.1, hj] at hi
    cases hi
    obtain ⟨hf, ha⟩ := finds_and_acts hj hop hact
    have hpc := Instruction.add_length i cpu.registers.pc
    rw [hpc] at hact
    refine ⟨found, acts, op, r, extra, hf, Effect.performs_of_follows hact, rfl, ?_⟩
    rw [Instruction.opcode_of_ofOpcode? hj]
    simp only [List.filter_cons, List.filter_append, Activity.isAccess, hf.isAccess, ha.isAccess,
      if_true, if_false, Bool.false_eq_true]

/-- The accesses of entering the handler whose address is stored at a vector. -/
def entryAccesses (r : Registers) (vector : UInt16) (low high : UInt8) : List Activity :=
  [.write (stackCell r.sp) (r.pc >>> 8).toUInt8,
   .write (stackCell (r.sp - 1)) r.pc.toUInt8,
   .write (stackCell (r.sp - 2)) (pushedStatus r.status false),
   .read vector low,
   .read (vector + 1) high]

/-- The accesses of a cycle, and the registers after it where nothing is accessed. -/
inductive BusLaw (cpu : Cpu) : List Activity → Registers → Prop
  /-- A halted processor, and one with an instruction in flight, makes no access and changes no
  register. -/
  | idle (h : cpu.halted ≠ none ∨ 0 < cpu.cyclesLeft) : BusLaw cpu [] cpu.registers
  /-- Entering the handler of a non-maskable interrupt. -/
  | nmi {r : Registers} (hs : cpu.Starts) (hn : cpu.pendingNmi = true) (low high : UInt8) :
    BusLaw cpu (entryAccesses cpu.registers 0xFFFA low high) r
  /-- Entering the handler of a maskable interrupt. -/
  | irq {r : Registers} (hs : cpu.Starts) (hn : cpu.pendingNmi = false)
    (hi : cpu.pendingIrq = true) (hm : cpu.registers.isSet Flag.irqDisable = false)
    (low high : UInt8) : BusLaw cpu (entryAccesses cpu.registers 0xFFFE low high) r
  /-- An undocumented opcode is read, and nothing else. -/
  | undocumented {r : Registers} (hs : cpu.Starts) (hn : cpu.pendingNmi = false)
    (hi : cpu.pendingIrq = false ∨ cpu.registers.isSet Flag.irqDisable = true) {opcode : UInt8}
    (hop : Instruction.ofOpcode? opcode = none) :
    BusLaw cpu [.read cpu.registers.pc opcode] r
  /-- A documented opcode is read, then what its mode needs to find the operand, and then the
  operation acts. -/
  | documented {r : Registers} (hs : cpu.Starts) (hn : cpu.pendingNmi = false)
    (hi : cpu.pendingIrq = false ∨ cpu.registers.isSet Flag.irqDisable = true) {opcode : UInt8}
    {i : Instruction} (hop : Instruction.ofOpcode? opcode = some i) {found acts : List Activity}
    {op : Operand}
    (hf : i.mode.Finds (cpu.registers.pc + 1) cpu.registers.x cpu.registers.y found op)
    (ha : i.mnemonic.Acts cpu.registers op.address acts) :
    BusLaw cpu (.read cpu.registers.pc opcode :: (found ++ acts)) r

theorem filter_entryPath (cpu : Cpu) (vector : UInt16) (low high : UInt8) (e : Event) :
    (cpu.ready.entryPath vector false low high ++ [Activity.event e]).filter Activity.isAccess =
      entryAccesses cpu.registers vector low high := by
  rw [Registers.entryPath, statusToPush_ready]
  rfl

variable {β : Type} [Bus β]

/-- What a cycle does that takes an interrupt: it enters the handler. -/
theorem entered_of_interrupt {cpu : Cpu} (hs : cpu.Starts) {vector : UInt16}
    (hn : cpu.nextInterrupt? = some vector) (bus : β) :
    let o := cpu.tick.run bus
    o.value.result = .ok () ∧ ∃ low high,
      o.accesses = entryAccesses cpu.registers vector low high ∧
      o.value.cpu.registers = cpu.ready.entered (wordOf low high) := by
  have htick := cpu.tickPath_run bus
  dsimp only
  rw [BusM.accesses_run]
  generalize (cpu.tick.run bus).value = o at htick
  generalize cpu.tick.path bus = t at htick
  -- An interrupt is due, so only two kinds of cycles are left.
  cases htick with
  | halted hh => exact absurd (hs.1.symm.trans hh) nofun
  | countDown hh hc => exact absurd hs.2 hc
  | nmi hh hc hn' low high =>
    cases hn.symm.trans hn'
    exact ⟨rfl, low, high, cpu.filter_entryPath _ low high _, rfl⟩
  | irq hh hc hn' low high =>
    cases hn.symm.trans hn'
    exact ⟨rfl, low, high, cpu.filter_entryPath _ low high _, rfl⟩
  | executed hh hc hn' => exact absurd (hn.symm.trans hn') nofun
  | undocumented hh hc hn' => exact absurd (hn.symm.trans hn') nofun

/-- **Every cycle obeys the law of the accesses, on every bus.**  The accesses are those that were
made on the bus: reads gave the bytes that it holds, and nothing else happened to it. -/
theorem busLaw_tick (cpu : Cpu) (bus : β) :
    let o := cpu.tick.run bus
    BusLaw cpu o.accesses o.value.cpu.registers ∧ Bus.Leads bus o.accesses o.bus := by
  refine ⟨?_, BusM.leads_accesses cpu.tick bus⟩
  have htick := cpu.tickPath_run bus
  -- The accesses in the trace are those on the path, and the path is one of the five cases.
  rw [BusM.accesses_run]
  generalize (cpu.tick.run bus).value = o at htick
  generalize cpu.tick.path bus = t at htick
  cases htick with
  | halted hh => exact .idle (.inl (by rw [hh]; simp))
  | countDown hh hc => exact .idle (.inr (Nat.pos_of_ne_zero hc))
  | nmi hh hc hn low high =>
    rw [filter_entryPath]
    exact .nmi ⟨hh, hc⟩ (nextInterrupt?_eq_nmi_iff.1 hn) low high
  | irq hh hc hn low high =>
    obtain ⟨hnmi, hirq, hm⟩ := nextInterrupt?_eq_irq_iff.1 hn
    rw [filter_entryPath]
    exact .irq ⟨hh, hc⟩ hnmi hirq hm low high
  | executed hh hc hn hi hop hact =>
    obtain ⟨hnmi, hirq⟩ := nextInterrupt?_eq_none_iff.1 hn
    obtain ⟨hf, ha⟩ := finds_and_acts hi hop hact
    simp only [List.filter_cons, List.filter_append, Activity.isAccess, hf.isAccess, ha.isAccess,
      if_true, if_false, Bool.false_eq_true]
    exact .documented ⟨hh, hc⟩ hnmi hirq hi hf ha
  | undocumented hh hc hn hi =>
    obtain ⟨hnmi, hirq⟩ := nextInterrupt?_eq_none_iff.1 hn
    exact .undocumented ⟨hh, hc⟩ hnmi hirq hi

end Cpu

end Nes
