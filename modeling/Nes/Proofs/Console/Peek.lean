import Nes.Proofs.Console.Mirrors
import Nes.Proofs.Cpu.Starting

/-!
# Peeking and reading

The inspector of a console looks at memory without side effects, and the processor reads it with the
side effects that some registers of the picture unit have.  Both see the same byte.  What a read does
afterwards matters only to two registers, the status register and the data register: only reading
one of them changes anything, and only what these two show can be changed.

So what is inspected of an instruction could differ from what is executed only if its bytes and the
pointer that it names lead to these registers twice.  They cannot.  The bytes of an instruction
stand next to each other, and the neighbours of the two registers show zero.  A pointer with a zero
byte that was read beside one of them leads to page zero or to the first register of a page, and
neither is one of the two.

## Main definitions

* `IsVolatile`: the addresses of the two registers.
* `Apart`: at most one of two addresses is one of these.

## Main statements

* `AddressSpace.fst_read`, `AddressSpace.peek_read`: what a read gives, and what it changes.
* `AddressSpace.peek_of_finds`: all bytes that lead to an operand are those that were there at first.
* `Console.tick_as_inspected`: what is inspected is executed.
-/

namespace Nes

/-! ### Registers -/

namespace Ppu

/-- Reading this register changes what it shows. -/
def Register.isVolatile : Register → Bool
  | .status | .videoData => true
  | _ => false

theorem Register.isVolatile_ofAddress (addr : UInt16) :
    (Register.ofAddress addr).isVolatile = true ↔ addr.toNat % 8 = 2 ∨ addr.toNat % 8 = 7 := by
  have hlt : addr.toNat % 8 < 8 := Nat.mod_lt _ (by decide)
  unfold ofAddress
  generalize addr.toNat % 8 = n at hlt
  revert n
  decide

theorem Register.ofAddress_eq_oamData (addr : UInt16) :
    Register.ofAddress addr = .oamData ↔ addr.toNat % 8 = 4 := by
  have hlt : addr.toNat % 8 < 8 := Nat.mod_lt _ (by decide)
  unfold ofAddress
  generalize addr.toNat % 8 = n at hlt
  revert n
  decide

/-- A register gives the byte that it shows. -/
theorem fst_readRegister (p : Ppu) (cart : Cartridge) (r : Register) :
    (p.readRegister cart r).1 = p.peekRegister cart r := by
  cases r with
  | videoData =>
    show (if p.videoAddress < paletteStart then p.readBuffer else p.readVideo cart p.videoAddress) =
      if paletteStart ≤ p.videoAddress then p.readVideo cart p.videoAddress else p.readBuffer
    simp only [← UInt16.not_lt, ite_not]
  | _ => rfl

theorem snd_readRegister (p : Ppu) (cart : Cartridge) {r : Register} (h : r.isVolatile = false) :
    (p.readRegister cart r).2 = p := by
  cases r with
  | status | videoData => exact absurd h Bool.noConfusion
  | _ => rfl

/-- Reading a register changes what a volatile one shows at most. -/
theorem peekRegister_readRegister (p : Ppu) (cart : Cartridge) (r : Register) {other : Register}
    (h : other.isVolatile = false) :
    (p.readRegister cart r).2.peekRegister cart other = p.peekRegister cart other := by
  cases other with
  | status | videoData => exact absurd h Bool.noConfusion
  | oamData =>
    show (p.readRegister cart r).2.oamByte = p.oamByte
    cases r <;> rfl
  | _ => rfl

/-- Most registers show zero. -/
theorem peekRegister_eq_zero (p : Ppu) (cart : Cartridge) {r : Register}
    (h : r.isVolatile = false) (hoam : r ≠ .oamData) : p.peekRegister cart r = 0 := by
  cases r with
  | status | videoData => exact absurd h Bool.noConfusion
  | oamData => exact absurd rfl hoam
  | _ => rfl

end Ppu

/-! ### Addresses -/

/-- The addresses at which the status register and the data register appear. -/
def IsVolatile (addr : UInt16) : Prop :=
  0x2000 ≤ addr.toNat ∧ addr.toNat < 0x4000 ∧ (addr.toNat % 8 = 2 ∨ addr.toNat % 8 = 7)

/-- At most one of two addresses is volatile. -/
def Apart (a b : UInt16) : Prop := ¬ (IsVolatile a ∧ IsVolatile b)

theorem toNat_add_one (a : UInt16) : (a + 1).toNat = (a.toNat + 1) % 65536 := by
  rw [UInt16.toNat_add]
  rfl

/-- Volatile addresses are not neighbours. -/
theorem apart_add_one (a : UInt16) : Apart a (a + 1) := by
  rintro ⟨ha, hb⟩
  simp only [IsVolatile, toNat_add_one] at ha hb
  omega

theorem apart_add_two (a : UInt16) : Apart a (a + 1 + 1) := by
  rintro ⟨ha, hb⟩
  simp only [IsVolatile, toNat_add_one] at ha hb
  omega

theorem apart_nextInPage (a : UInt16) : Apart a (nextInPage a) := by
  rintro ⟨ha, hb⟩
  simp only [IsVolatile, toNat_nextInPage] at ha hb
  omega

/-- Page zero is not volatile. -/
theorem not_isVolatile_toUInt16 (cell : UInt8) : ¬ IsVolatile cell.toUInt16 := by
  have hlt : cell.toUInt16.toNat < 256 := cell.toNat_lt
  intro h
  simp only [IsVolatile] at h
  omega

theorem Apart.of_right {a b : UInt16} (h : ¬ IsVolatile b) : Apart a b := fun hab => h hab.2

/-- A pointer with a zero byte is not volatile, and neither is the address after it. -/
theorem not_isVolatile_wordOf {low high : UInt8} (h : low = 0 ∨ high = 0) :
    ¬ IsVolatile (wordOf low high) ∧ ¬ IsVolatile (nextInPage (wordOf low high)) := by
  have hlow : low.toNat < 256 := low.toNat_lt
  have hzero : low.toNat = 0 ∨ high.toNat = 0 := h.imp (congrArg UInt8.toNat) (congrArg UInt8.toNat)
  simp only [IsVolatile, toNat_nextInPage, toNat_wordOf]
  omega

/-! ### Reads of the address space -/

namespace AddressSpace

/-- **A read gives the byte that is peeked.** -/
theorem fst_read (s : AddressSpace) (addr : UInt16) : (s.read addr).1 = s.peek addr := by
  unfold read peek
  cases s.target addr with
  | register r => exact Ppu.fst_readRegister s.ppu s.cartridge r
  | prg cell => rfl
  | ram => rfl
  | unmapped => rfl

/-- The registers appear in the second eighth of the address space, and only there. -/
theorem target_eq_register_iff {s : AddressSpace} {addr : UInt16} {r : Ppu.Register} :
    s.target addr = .register r ↔
      0x2000 ≤ addr.toNat ∧ addr.toNat < 0x4000 ∧ .ofAddress addr = r := by
  constructor
  · intro h
    have hge : 0x2000 ≤ addr := UInt16.not_lt.1 fun hlt => target_ne_register (.inl hlt) r h
    have hlt : addr < 0x4000 := UInt16.not_le.1 fun hle => target_ne_register (.inr hle) r h
    rw [s.target_register hge hlt] at h
    exact ⟨UInt16.le_iff_toNat_le.1 hge, UInt16.lt_iff_toNat_lt.1 hlt, Target.register.inj h⟩
  · rintro ⟨hge, hlt, rfl⟩
    exact s.target_register (UInt16.le_iff_toNat_le.2 hge) (UInt16.lt_iff_toNat_lt.2 hlt)

/-- A register is volatile if its address is. -/
theorem isVolatile_iff_of_target {s : AddressSpace} {addr : UInt16} {r : Ppu.Register}
    (h : s.target addr = .register r) : r.isVolatile = true ↔ IsVolatile addr := by
  obtain ⟨hge, hlt, rfl⟩ := target_eq_register_iff.1 h
  rw [Ppu.Register.isVolatile_ofAddress]
  exact ⟨fun hr => ⟨hge, hlt, hr⟩, fun ha => ha.2.2⟩

/-- Reading an address that is not volatile changes nothing. -/
theorem snd_read (s : AddressSpace) {addr : UInt16} (h : ¬ IsVolatile addr) :
    (s.read addr).2 = s := by
  unfold read
  cases ht : s.target addr with
  | register r =>
    rw [← isVolatile_iff_of_target ht, Bool.not_eq_true] at h
    dsimp only
    rw [Ppu.snd_readRegister s.ppu s.cartridge h]
  | prg cell => rfl
  | ram => rfl
  | unmapped => rfl

/-- **A read changes what is peeked at no other address, unless both are volatile.** -/
theorem peek_read (s : AddressSpace) {a b : UInt16} (h : Apart a b) :
    (s.read a).2.peek b = s.peek b := by
  by_cases ha : IsVolatile a
  · have hb : ¬ IsVolatile b := fun hb => h ⟨ha, hb⟩
    obtain ⟨r, hr⟩ : ∃ r, s.target a = .register r :=
      ⟨_, target_eq_register_iff.2 ⟨ha.1, ha.2.1, rfl⟩⟩
    have hread : (s.read a).2 = { s with ppu := (s.ppu.readRegister s.cartridge r).2 } := by
      rw [read, hr]
    have htarget : (s.read a).2.target b = s.target b := by
      rw [target, target, cartridge_read]
    unfold peek
    rw [htarget, hread]
    cases ht : s.target b with
    | register r' =>
      rw [← isVolatile_iff_of_target ht, Bool.not_eq_true] at hb
      exact Ppu.peekRegister_readRegister s.ppu s.cartridge r hb
    | prg cell => rfl
    | ram => rfl
    | unmapped => rfl
  · rw [s.snd_read ha]

/-- Next to a volatile address zero is peeked. -/
theorem peek_eq_zero (s : AddressSpace) {addr : UInt16} (h₁ : 0x2000 ≤ addr.toNat)
    (h₂ : addr.toNat < 0x8000)
    (h₃ : addr.toNat % 8 ≠ 2 ∧ addr.toNat % 8 ≠ 4 ∧ addr.toNat % 8 ≠ 7) : s.peek addr = 0 := by
  by_cases hlt : addr.toNat < 0x4000
  · have ht := target_eq_register_iff (s := s).2 ⟨h₁, hlt, rfl⟩
    have hr : (Ppu.Register.ofAddress addr).isVolatile = false := by
      rw [Bool.eq_false_iff, ne_eq, Ppu.Register.isVolatile_ofAddress]
      omega
    have hoam : Ppu.Register.ofAddress addr ≠ .oamData := by
      rw [ne_eq, Ppu.Register.ofAddress_eq_oamData]
      exact h₃.2.1
    rw [peek, ht]
    exact Ppu.peekRegister_eq_zero s.ppu s.cartridge hr hoam
  · have ht := s.target_unmapped (UInt16.le_iff_toNat_le.2 (Nat.not_lt.1 hlt))
      (UInt16.lt_iff_toNat_lt.2 h₂)
    rw [peek, ht]

/-! ### Reads one after the other -/

/-- All bytes that are read are those that were peeked at first. -/
def Faithful (s : AddressSpace) (t : List Activity) : Prop :=
  ∀ addr v, .read addr v ∈ t → v = s.peek addr

/-- Two reads, of which at most one is volatile. -/
def ReadsApart : Activity → Activity → Prop
  | .read a _, .read b _ => Apart a b
  | _, _ => False

/-- **Reads that are apart from each other give the bytes that were peeked at first.** -/
theorem faithful_of_leads {s s' : AddressSpace} {t : List Activity} (hl : Bus.Leads s t s')
    (hpair : t.Pairwise ReadsApart) : s.Faithful t := by
  -- By induction on the reads: the first changes nothing that the others see.
  induction t generalizing s with
  | nil => intro addr v h; exact absurd h List.not_mem_nil
  | cons a t ih =>
    obtain ⟨ha, hrest⟩ := List.pairwise_cons.1 hpair
    cases a with
    | read b w =>
      have htail := ih hl.2 hrest
      intro addr v h
      rcases List.mem_cons.1 h with h | h
      · cases h
        rw [← hl.1]
        exact s.fst_read _
      · rw [htail addr v h]
        exact s.peek_read (ha _ h)
    | write b w =>
      intro addr v h
      rcases List.mem_cons.1 h with h | h
      · cases h
      · exact absurd (ha _ h) id
    | event e =>
      intro addr v h
      rcases List.mem_cons.1 h with h | h
      · cases h
      · exact absurd (ha _ h) id

/-- A volatile address among those of an instruction leaves a zero in its pointer. -/
theorem pointer_zero (s : AddressSpace) {pc : UInt16}
    (h : IsVolatile pc ∨ IsVolatile (pc + 1) ∨ IsVolatile (pc + 1 + 1)) :
    s.peek (pc + 1) = 0 ∨ s.peek (pc + 1 + 1) = 0 := by
  simp only [IsVolatile, toNat_add_one] at h
  rcases h with h | h | h
  · -- The first operand byte follows the volatile opcode.
    left
    apply peek_eq_zero <;> rw [toNat_add_one] <;> omega
  · right
    apply peek_eq_zero <;> rw [toNat_add_one, toNat_add_one] <;> omega
  · left
    apply peek_eq_zero <;> rw [toNat_add_one] <;> omega

/-- A pointer and what it names are apart from the instruction that holds the pointer. -/
theorem apart_pointer (s : AddressSpace) (pc : UInt16) {a : UInt16}
    (ha : a = pc ∨ a = pc + 1 ∨ a = pc + 1 + 1) :
    Apart a (wordOf (s.peek (pc + 1)) (s.peek (pc + 1 + 1))) ∧
      Apart a (nextInPage (wordOf (s.peek (pc + 1)) (s.peek (pc + 1 + 1)))) := by
  by_cases hv : IsVolatile a
  · have hzero : s.peek (pc + 1) = 0 ∨ s.peek (pc + 1 + 1) = 0 := s.pointer_zero (by
      rcases ha with rfl | rfl | rfl
      · exact .inl hv
      · exact .inr (.inl hv)
      · exact .inr (.inr hv))
    obtain ⟨hp, hn⟩ := not_isVolatile_wordOf hzero
    exact ⟨.of_right hp, .of_right hn⟩
  · exact ⟨fun h => hv h.1, fun h => hv h.1⟩

/-- **All bytes that lead to an operand are those that were there at first**, although the opcode
and each other were read before. -/
theorem peek_of_finds {s s' : AddressSpace} {pc : UInt16} {x y opcode : UInt8}
    {mode : AddressingMode} {found : List Activity} {op : Operand}
    (hf : mode.Finds (pc + 1) x y found op)
    (hl : Bus.Leads s (.read pc opcode :: found) s') : s.Faithful found := by
  have h₁ := apart_add_one pc
  have h₂ := apart_add_two pc
  have h₃ := apart_add_one (pc + 1)
  have hpage : ∀ (a : UInt16) (cell : UInt8), Apart a cell.toUInt16 := fun a cell =>
    .of_right (not_isVolatile_toUInt16 cell)
  -- The opcode is one of the reads that have to be apart.
  suffices h : s.Faithful (.read pc opcode :: found) from
    fun addr v hmem => h addr v (List.mem_cons_of_mem _ hmem)
  cases hf with
  | indirect low high targetLow targetHigh =>
    -- The bytes of the instruction come first, since they say where the pointer leads.
    obtain ⟨b, hbytes, -⟩ : ∃ b,
        Bus.Leads s [.read pc opcode, .read (pc + 1) low, .read (pc + 1 + 1) high] b ∧
        Bus.Leads b [.read (wordOf low high) targetLow,
          .read (nextInPage (wordOf low high)) targetHigh] s' := Bus.leads_append.1 hl
    have hfirst := faithful_of_leads hbytes (by simp [ReadsApart, h₁, h₂, h₃])
    have hlow : low = s.peek (pc + 1) := hfirst _ _ (by simp)
    have hhigh : high = s.peek (pc + 1 + 1) := hfirst _ _ (by simp)
    obtain ⟨ha, hb⟩ := s.apart_pointer pc (.inl rfl)
    obtain ⟨hc, hd⟩ := s.apart_pointer pc (.inr (.inl rfl))
    obtain ⟨he, hf⟩ := s.apart_pointer pc (.inr (.inr rfl))
    rw [← hlow, ← hhigh] at ha hb hc hd he hf
    have hnext := apart_nextInPage (wordOf low high)
    apply faithful_of_leads hl
    simp [ReadsApart, h₁, h₂, h₃, ha, hb, hc, hd, he, hf, hnext]
  | implied | accumulator | immediate => exact faithful_of_leads hl (by simp)
  | zeroPage | zeroPageX | zeroPageY | relative =>
    exact faithful_of_leads hl (by simp [ReadsApart, h₁])
  | absolute | absoluteX | absoluteY =>
    exact faithful_of_leads hl (by simp [ReadsApart, h₁, h₂, h₃])
  | indirectX | indirectY =>
    -- Pointers in page zero are apart from everything.
    exact faithful_of_leads hl (by simp [ReadsApart, h₁, hpage, -UInt8.toUInt16_add])

end AddressSpace

/-! ### What is inspected is executed -/

namespace Cpu

/-- The instruction that is inspected is the next to be executed, on the operand that is
inspected. -/
theorem executes_of_peek {cpu : Cpu} {s : AddressSpace} (hh : cpu.halted = none)
    (hc : cpu.cyclesLeft = 0) (hn : cpu.nextInterrupt? = none) {i : Instruction} {op : Operand}
    (h : cpu.peekInstruction? s = some (i, op)) : cpu.Executes s i op := by
  obtain ⟨i', hi, hpair⟩ := Option.map_eq_some_iff.1 h
  obtain ⟨rfl, rfl⟩ := Prod.mk.inj hpair
  -- The opcode that is read is the one that is peeked.
  have hread : (Bus.read s cpu.registers.pc).1 = i'.opcode :=
    (s.fst_read cpu.registers.pc).trans (Instruction.opcode_of_ofOpcode? hi).symm
  have hi' : Instruction.ofOpcode? (Bus.read s cpu.registers.pc).1 = some i' := by
    rw [hread, Instruction.opcode_of_ofOpcode? hi]
    exact hi
  obtain ⟨x, hx⟩ : ∃ x : BusM Operand, x = i'.mode.resolve BusM.readByte
      (cpu.registers.pc + 1) cpu.registers.x cpu.registers.y := ⟨_, rfl⟩
  obtain ⟨bus, hbus⟩ : ∃ bus : AddressSpace, bus = (Bus.read s cpu.registers.pc).2 := ⟨_, rfl⟩
  have hf : i'.mode.Finds (cpu.registers.pc + 1) cpu.registers.x cpu.registers.y (x.path bus)
      (x.run bus).value := by
    apply AddressingMode.finds_of_follows
    rw [← hx]
    exact x.follows_path bus
  have hl : Bus.Leads s (.read cpu.registers.pc i'.opcode :: x.path bus) (x.run bus).bus := by
    refine ⟨hread, ?_⟩
    rw [← hbus]
    exact x.leads_path bus
  have hop : (x.run bus).value = cpu.peekOperand i'.mode s :=
    hf.eq_resolve (AddressSpace.peek_of_finds hf hl)
  refine ⟨x.path bus, (x.run bus).bus, hop ▸ hf, hl, ?_⟩
  rw [run_tick_of_documented hh hc hn hi', ← hbus, ← hx, Instruction.add_length]
  dsimp only
  rw [hop, BusM.trace_eq_path hf.write_notMem]

end Cpu

namespace Console

/-- **What is inspected is executed.**  In any state of a console whose processor is about to start
an instruction:

* if the inspector finds no instruction, the next cycle fails with the byte that is peeked at the
  program counter;
* if it finds one, the next cycle executes that instruction on the operand that was inspected,
  although it reads both with side effects. -/
theorem tick_as_inspected {c : Console} (hrun : c.cpu.halted = none)
    (hstart : c.cpu.atBoundary = true) (hnmi : c.cpu.pendingNmi = false)
    (hirq : ¬ (c.cpu.pendingIrq = true ∧ c.cpu.registers.isSet Flag.irqDisable = false)) :
    (c.cpu.peekInstruction? c.space = none →
      (c.cpu.tick.run c.space).value.result =
        .error (.unimplementedOpcode (c.peek c.cpu.registers.pc) c.cpu.registers.pc)) ∧
    (∀ i op, c.cpu.peekInstruction? c.space = some (i, op) → c.cpu.Executes c.space i op) := by
  have hc := Cpu.atBoundary_iff.1 hstart
  have hn : c.cpu.nextInterrupt? = none := by
    rw [Cpu.nextInterrupt?_eq_none_iff]
    refine ⟨hnmi, ?_⟩
    -- A maskable interrupt may be latched, as long as it is disabled.
    by_cases hp : c.cpu.pendingIrq = true
    · exact .inr (Bool.of_not_eq_false fun hi => hirq ⟨hp, hi⟩)
    · exact .inl (Bool.of_not_eq_true hp)
  constructor
  · intro h
    have hi : Instruction.ofOpcode? (c.peek c.cpu.registers.pc) = none :=
      Option.map_eq_none_iff.1 h
    rw [Cpu.run_tick_of_undocumented hrun hc hn (c.space.fst_read c.cpu.registers.pc) hi]
    rfl
  · intro i op h
    exact Cpu.executes_of_peek hrun hc hn h

/-- The program counter is at the status register, which shows the opcode of a store as long as it
is not read; the address of the store is in the next two registers. -/
theorem tick_as_inspected_at_status : ∃ c : Console,
    (c.cpu.halted = none ∧ c.cpu.atBoundary = true ∧ c.cpu.pendingNmi = false ∧
      ¬ (c.cpu.pendingIrq = true ∧ c.cpu.registers.isSet Flag.irqDisable = false)) ∧
    c.cpu.registers.pc = 0x2002 ∧
    c.cpu.Executes c.space ⟨0x8D, .sta, .absolute, 4⟩ ⟨.absolute, some 0x0200, false⟩ := by
  obtain ⟨c, hcpu, hpeek⟩ : ∃ c : Console, c.cpu = { registers := { pc := 0x2002 } } ∧
      c.cpu.peekInstruction? c.space =
        some (⟨0x8D, .sta, .absolute, 4⟩, ⟨.absolute, some 0x0200, false⟩) := by
    refine ⟨⟨{ registers := { pc := 0x2002 } }, ⟨.blank, { Ppu.powerOn with
      status := ⟨0x80⟩, readBuffer := 0x0D, oam := .replicate 256 0x02 }, .blank⟩, 0⟩, rfl, ?_⟩
    decide +kernel
  have hrun : c.cpu.halted = none := by rw [hcpu]
  have hstart : c.cpu.atBoundary = true := by rw [hcpu]; rfl
  have hnmi : c.cpu.pendingNmi = false := by rw [hcpu]
  have hirq : ¬ (c.cpu.pendingIrq = true ∧ c.cpu.registers.isSet Flag.irqDisable = false) := by
    rw [hcpu]
    decide
  refine ⟨c, ⟨hrun, hstart, hnmi, hirq⟩, by rw [hcpu], ?_⟩
  exact (tick_as_inspected hrun hstart hnmi hirq).2 _ _ hpeek

end Console

end Nes
