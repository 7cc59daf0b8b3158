import Nes.Proofs.Cpu.BusTrace
import Nes.Proofs.Cpu.RegisterFrame

/-!
# The frame of every instruction, and the flags of its result

A handbook gives two tables.  One lists for each part of the registers the instructions that change
it.  The other gives the flags: an instruction that produces a byte shows in the zero and the
negative flag whether the byte is zero and what its highest bit is, a comparison shows the same of a
difference that it does not keep, and the bit test shows bits of the byte that it reads.

The first table is checked here against the lists of what each operation changes, and both are shown
to hold of every documented instruction, in whatever state it is executed and on every bus.

## Main definitions

* `Registers.Part.changers`: the instructions that change a part.
* `Registers.Describes`: the two flags of a byte.
* `Mnemonic.place?`, `Place.Holds`: where a produced byte is left.
* `Mnemonic.SetsFlags`: the table of flags.

## Main statements

* `Registers.Part.mem_changers`: the two ways to list changes agree.
* `Effect.Performs.setsFlags`: operations set flags as the table says.
* `Cpu.register_and_flag_frame`: what an instruction changes, and the flags of its result.
-/

namespace Nes

/-! ### The table of changes -/

namespace Mnemonic

/-- The operations. -/
def all : List Mnemonic :=
  [adc, and, asl, bcc, bcs, beq, bit, bmi, bne, bpl, brk, bvc, bvs, clc, cld, cli, clv, cmp, cpx,
    cpy, dec, dex, dey, eor, inc, inx, iny, jmp, jsr, lda, ldx, ldy, lsr, nop, ora, pha, php, pla,
    plp, rol, ror, rti, rts, sbc, sec, sed, sei, sta, stx, sty, tax, tay, tsx, txa, txs, tya]

theorem mem_all (m : Mnemonic) : m ∈ all := by
  cases m <;> decide

/-- The operations that move bits of a byte through the carry. -/
def shifters : List Mnemonic := [asl, lsr, rol, ror]

/-- The operations that go to another place in any case. -/
def jumpers : List Mnemonic := [jmp, jsr, rts, rti, brk]

/-- The operations that produce a byte of data. -/
def producers : List Mnemonic :=
  [lda, ldx, ldy, adc, sbc, and, ora, eor, inc, dec, asl, lsr, rol, ror, tax, tay, txa, tya, tsx,
    inx, iny, dex, dey, pla]

/-- The operations that compare a register with a byte. -/
def comparers : List Mnemonic := [cmp, cpx, cpy]

/-- Only the operations that shift depend on where their operand is. -/
theorem changes_congr {m : Mnemonic} (h : m ∉ shifters) (b b' : Bool) :
    m.changes b = m.changes b' := by
  cases m
  case asl | lsr | rol | ror => exact absurd (by decide) h
  all_goals rfl

end Mnemonic

namespace Registers.Part

/-- The instructions that change a part, by their operations. -/
def changers (inAccumulator : Bool) : Part → List Mnemonic
  | a => [.lda, .txa, .tya, .pla, .adc, .sbc, .and, .ora, .eor] ++
    (if inAccumulator then Mnemonic.shifters else [])
  | x => [.ldx, .tax, .tsx, .inx, .dex]
  | y => [.ldy, .tay, .iny, .dey]
  | sp => [.txs, .pha, .php, .pla, .plp, .jsr, .rts, .rti, .brk]
  | pc => Mnemonic.jumpers ++ Mnemonic.branches
  | carry => [.adc, .sbc, .cmp, .cpx, .cpy, .asl, .lsr, .rol, .ror, .clc, .sec, .plp, .rti]
  | overflow => [.adc, .sbc, .bit, .clv, .plp, .rti]
  | decimal => [.cld, .sed, .plp, .rti]
  | irqDisable => [.cli, .sei, .plp, .rti, .brk]
  | zero | negative => Mnemonic.producers ++ Mnemonic.comparers ++ [.bit, .plp, .rti]

/-- **What an operation changes is changed by that operation**: the lists by operations and the
lists by parts agree. -/
theorem mem_changers {m : Mnemonic} {b : Bool} {p : Part} (h : p ∈ m.changes b) :
    m ∈ p.changers b := by
  have hall : ∀ b : Bool, ∀ m ∈ Mnemonic.all, ∀ p ∈ m.changes b, m ∈ p.changers b := by
    decide +kernel
  exact hall b m m.mem_all p h

end Registers.Part

namespace OpcodeMatrix

/-- A shift has an operand. -/
theorem shifters_mode : ∀ i ∈ documented, i.mnemonic ∈ Mnemonic.shifters → i.mode ≠ .implied := by
  decide +kernel

/-- What counts a byte up or down has it in memory. -/
theorem counters_mode : ∀ i ∈ documented, i.mnemonic ∈ [Mnemonic.inc, .dec] →
    i.mode ≠ .implied ∧ i.mode ≠ .accumulator := by
  decide +kernel

end OpcodeMatrix

/-- The operand of a shift lies in the accumulator if its mode says so. -/
theorem AddressingMode.Finds.isNone_address {start : UInt16} {x y : UInt8} {mode : AddressingMode}
    {t : List Activity} {op : Operand} (h : Finds start x y mode t op) (hmode : mode ≠ .implied) :
    op.address.isNone = (mode == .accumulator) := by
  cases h with
  | implied => exact absurd rfl hmode
  | _ => rfl

/-! ### The table of flags -/

namespace Registers

/-- The zero and the negative flag describe a byte. -/
def Describes (r : Registers) (v : UInt8) : Prop :=
  r.isSet Flag.zero = (v == 0) ∧ r.isSet Flag.negative = v.toNat.testBit 7

theorem and_eq_testBit : ∀ v : UInt8, (v &&& 0x80 != 0) = v.toNat.testBit 7 ∧
    (v &&& 0x40 != 0) = v.toNat.testBit 6 := by
  apply forall_byte
  decide +kernel

theorem describes_updateZN (r : Registers) (v : UInt8) : (r.updateZN v).Describes v := by
  constructor
  · have hzero : (r.updateZN v).isSet Flag.zero =
        (r.assign Flag.zero (v == 0)).isSet Flag.zero := isSet_assign_of_disjoint (by decide) _ _
    rw [hzero, isSet_assign_self (by decide)]
  · have hnegative : (r.updateZN v).isSet Flag.negative = (v &&& 0x80 != 0) :=
      isSet_assign_self (by decide) _ _
    rw [hnegative, (and_eq_testBit v).1]

theorem isSet_carry_compare (r : Registers) (register v : UInt8) :
    (r.compare register v).isSet Flag.carry = decide (v.toNat ≤ register.toNat) := by
  have hcarry : (r.compare register v).isSet Flag.carry =
      (r.assign Flag.carry (v ≤ register)).isSet Flag.carry :=
    keeps_updateZN _ _ .carry (by decide)
  rw [hcarry, isSet_assign_self (by decide)]
  exact decide_eq_decide.2 UInt8.le_iff_toNat_le

/-- The flags that the bit test sets. -/
theorem isSet_testBits (r : Registers) (v : UInt8) :
    (r.testBits v).isSet Flag.zero = (r.a &&& v == 0) ∧
      (r.testBits v).isSet Flag.negative = v.toNat.testBit 7 ∧
      (r.testBits v).isSet Flag.overflow = v.toNat.testBit 6 := by
  obtain ⟨hseven, hsix⟩ := and_eq_testBit v
  refine ⟨?_, ?_, ?_⟩
  · rw [testBits, isSet_assign_of_disjoint (by decide), isSet_assign_of_disjoint (by decide),
      isSet_assign_self (by decide)]
  · rw [testBits, isSet_assign_of_disjoint (by decide), isSet_assign_self (by decide), hseven]
  · rw [testBits, isSet_assign_self (by decide), hsix]

end Registers

/-- Where a produced byte is left. -/
inductive Place
  | a | x | y
  /-- In memory or in the accumulator, in place of the operand. -/
  | operand

/-- Where an operation leaves the byte that it produces. -/
def Mnemonic.place? : Mnemonic → Option Place
  | lda | adc | sbc | and | ora | eor | txa | tya | pla => some .a
  | ldx | tax | tsx | inx | dex => some .x
  | ldy | tay | iny | dey => some .y
  | inc | dec | asl | lsr | rol | ror => some .operand
  | _ => none

theorem Mnemonic.exists_place {m : Mnemonic} (h : m ∈ producers) :
    ∃ place, m.place? = some place := by
  have hall : ∀ m ∈ producers, m.place?.isSome := by decide
  exact Option.isSome_iff_exists.1 (hall m h)

/-- The byte `v` was left there, with the registers `r` afterwards. -/
def Place.Holds (place : Place) (op : Operand) (acts : List Activity) (r : Registers) (v : UInt8) :
    Prop :=
  match place with
  | a => r.a = v
  | x => r.x = v
  | y => r.y = v
  | operand =>
    match op.address with
    | some addr => ∃ old, acts = [.read addr old, .write addr v]
    | none => acts = [] ∧ r.a = v

/-- The register that an operation compares. -/
def Mnemonic.compared? (m : Mnemonic) (r : Registers) : Option UInt8 :=
  match m with
  | cmp => some r.a
  | cpx => some r.x
  | cpy => some r.y
  | _ => none

/-- The flags that an operation sets, by what it does to its operand.  The registers are those
before and after. -/
structure Mnemonic.SetsFlags (m : Mnemonic) (op : Operand) (acts : List Activity)
    (r r' : Registers) : Prop where
  /-- A produced byte is described. -/
  produced : m ∈ producers → ∃ place v,
    m.place? = some place ∧ place.Holds op acts r' v ∧ r'.Describes v
  /-- Of a comparison the difference is described, and the carry tells that it is not negative. -/
  compared : ∀ register, m.compared? r = some register → ∃ addr v,
    op.address = some addr ∧ acts = [.read addr v] ∧
      r'.isSet Flag.carry = decide (v.toNat ≤ register.toNat) ∧ r'.Describes (register - v)
  /-- The bit test shows two bits of the byte, and whether it has one in common with the
  accumulator. -/
  tested : m = .bit → ∃ addr v,
    op.address = some addr ∧ acts = [.read addr v] ∧
      r'.isSet Flag.zero = (r.a &&& v == 0) ∧ r'.isSet Flag.negative = v.toNat.testBit 7 ∧
      r'.isSet Flag.overflow = v.toNat.testBit 6

/-! ### Operations -/

namespace Effect.Performs

variable {m : Mnemonic} {op : Operand} {r r' : Registers} {t : List Activity} {extra : Nat}

/-- A byte that is produced is described by the flags. -/
theorem produced (h : Effect.Performs op r m.effect t r' extra) {place : Place}
    (hp : m.place? = some place) : ∃ v, place.Holds op t r' v ∧ r'.Describes v := by
  cases m
  case lda | and | ora | eor | adc | sbc | txa | tya | pla | ldx | tax | tsx | inx | dex | ldy |
      tay | iny | dey =>
    cases hp
    cases h
    exact ⟨_, rfl, Registers.describes_updateZN _ _⟩
  -- The byte is left where the operand was loaded from.
  case inc | dec | asl | lsr | rol | ror =>
    cases hp
    cases h
    next v _ hl hs =>
      refine ⟨_, ?_, Registers.describes_updateZN _ _⟩
      rw [Operand.follows_load] at hl
      rw [Operand.follows_store] at hs
      unfold Place.Holds
      cases ha : op.address with
      | some addr =>
        rw [ha] at hl hs
        rw [hl, hs.1]
        exact ⟨v, rfl⟩
      | none =>
        rw [ha] at hl hs
        rw [hl.1, hs.1, hs.2]
        exact ⟨rfl, rfl⟩
  all_goals exact absurd hp nofun

/-- A comparison shows the difference. -/
theorem compared (h : Effect.Performs op r m.effect t r' extra) {addr : UInt16}
    (ha : op.address = some addr) {register : UInt8} (hc : m.compared? r = some register) :
    ∃ v, t = [.read addr v] ∧ r'.isSet Flag.carry = decide (v.toNat ≤ register.toNat) ∧
      r'.Describes (register - v) := by
  cases m
  case cmp | cpx | cpy =>
    cases hc
    cases h
    next v hl =>
      rw [Operand.follows_load, ha] at hl
      exact ⟨v, hl, r.isSet_carry_compare _ v, Registers.describes_updateZN _ _⟩
  all_goals exact absurd hc nofun

/-- The bit test shows bits of its operand. -/
theorem tested (h : Effect.Performs op r Mnemonic.bit.effect t r' extra) {addr : UInt16}
    (ha : op.address = some addr) :
    ∃ v, t = [.read addr v] ∧ r'.isSet Flag.zero = (r.a &&& v == 0) ∧
      r'.isSet Flag.negative = v.toNat.testBit 7 ∧ r'.isSet Flag.overflow = v.toNat.testBit 6 := by
  cases h with
  | probe hl =>
    rw [Operand.follows_load, ha] at hl
    exact ⟨_, hl, r.isSet_testBits _⟩

/-- **Operations set flags as the table says**, if those that read their operand have one in
memory. -/
theorem setsFlags (h : Effect.Performs op r m.effect t r' extra)
    (hmem : m ∈ Mnemonic.readers → ∃ addr, op.address = some addr) :
    m.SetsFlags op t r r' where
  produced hm := by
    obtain ⟨place, hp⟩ := Mnemonic.exists_place hm
    obtain ⟨v, hv⟩ := h.produced hp
    exact ⟨place, v, hp, hv⟩
  compared register hc := by
    have hreader : m ∈ Mnemonic.readers := by
      cases m
      case cmp | cpx | cpy => decide
      all_goals exact absurd hc nofun
    obtain ⟨addr, ha⟩ := hmem hreader
    obtain ⟨v, hv⟩ := h.compared ha hc
    exact ⟨addr, v, ha, hv⟩
  tested hm := by
    subst hm
    obtain ⟨addr, ha⟩ := hmem (by decide)
    obtain ⟨v, hv⟩ := h.tested ha
    exact ⟨addr, v, ha, hv⟩

end Effect.Performs

/-! ### Instructions -/

namespace Cpu

open Registers (Part)

-- The opcode matrix is looked up in, and never evaluated.
attribute [local irreducible] OpcodeMatrix.entries

/-- Starting an instruction leaves everything alone but the program counter. -/
theorem keeps_ready (cpu : Cpu) (target : UInt16) :
    Registers.Keeps [.pc] cpu.registers (cpu.ready.jumpTo target) := by
  intro p hp
  cases p
  case pc => exact absurd (by decide) hp
  case a | x | y | sp => rfl
  all_goals exact cpu.isSet_ready (by decide)

variable {β : Type} [Bus β]

/-- **What an instruction changes, and the flags of its result.**  A documented instruction is
executed, in any state of the processor and on any bus:

* the program counter moves to the following instruction, unless it is one of the five that go
  elsewhere or a branch that the flags allow;
* every other part of the registers changes only in the instructions on its list, the accumulator
  also in the shifts that have it for their operand;
* the transfer to the stack pointer, the push of the accumulator and the stores set nothing in the
  status but the bit without a meaning;
* the flags are those of the byte that is produced, of the difference that is compared, or of the
  byte that is tested, as the accesses of the cycle show them. -/
theorem register_and_flag_frame {cpu : Cpu} {bus : β} {i : Instruction} (hs : cpu.Starts)
    (hn : cpu.nextInterrupt? = none)
    (hi : Instruction.ofOpcode? (Bus.read bus cpu.registers.pc).1 = some i) :
    let o := cpu.tick.run bus
    let r := cpu.registers
    let r' := o.value.cpu.registers
    o.value.result = .ok () ∧
    (i.mnemonic ∉ Mnemonic.jumpers → i.mnemonic.branchTaken r = false →
      r'.pc = r.pc + UInt16.ofNat i.length) ∧
    (∀ part : Part, part ≠ .pc → i.mnemonic ∉ part.changers (i.mode == .accumulator) →
      part.Same r r') ∧
    (i.mnemonic ∈ [.txs, .pha] ++ Mnemonic.writers → r'.status = r.status ||| Flag.unused) ∧
    ∃ found op acts,
      i.mode.Finds (r.pc + 1) r.x r.y found op ∧
      o.accesses = .read r.pc i.opcode :: (found ++ acts) ∧
      i.mnemonic.SetsFlags op acts r r' := by
  obtain ⟨found, acts, op, r', extra, hfinds, hperforms, hvalue, haccesses⟩ :=
    performs_of_documented hs hn hi
  have hdoc := OpcodeMatrix.mem_documented hi
  have hstart := cpu.keeps_ready (cpu.registers.pc + UInt16.ofNat i.length)
  have hmemory : i.mnemonic ∈ Mnemonic.readers ++ Mnemonic.writers →
      ∃ addr, op.address = some addr := Mnemonic.address_ne_none hdoc hfinds
  -- What the operation changes, counted from the state in which it is performed.
  have hkeeps : Registers.Keeps (i.mnemonic.changes (i.mode == .accumulator))
      (cpu.ready.jumpTo (cpu.registers.pc + UInt16.ofNat i.length)) r' := by
    have hop := hperforms.keeps fun hm => by
      rw [← Option.isSome_iff_ne_none, Option.isSome_iff_exists]
      rcases List.mem_append.1 hm with hwriter | hcounter
      · exact hmemory (List.mem_append_right _ hwriter)
      · obtain ⟨himplied, haccumulator⟩ := OpcodeMatrix.counters_mode i hdoc hcounter
        exact hfinds.address_ne_none himplied haccumulator
    by_cases hshift : i.mnemonic ∈ Mnemonic.shifters
    · rwa [hfinds.isNone_address (OpcodeMatrix.shifters_mode i hdoc hshift)] at hop
    · rwa [Mnemonic.changes_congr hshift _ op.address.isNone]
  dsimp only
  rw [hvalue, haccesses]
  refine ⟨rfl, ?_, ?_, ?_, found, op, acts, hfinds, rfl, ?_⟩
  · intro hjump htaken
    by_cases hbranch : i.mnemonic ∈ Mnemonic.branches
    · have hready := cpu.branchTaken_ready i.mnemonic
        (cpu.ready.jumpTo (cpu.registers.pc + UInt16.ofNat i.length)) rfl
      exact hperforms.pc_of_not_taken hbranch (hready.trans htaken)
    · refine hkeeps .pc fun hmem => ?_
      rcases List.mem_append.1 (Part.mem_changers hmem) with h | h
      · exact hjump h
      · exact hbranch h
  · intro part hpc hpart
    have hall := hstart.trans hkeeps
    apply hall
    rw [List.mem_append, List.mem_singleton, not_or]
    exact ⟨hpc, fun hmem => hpart (Part.mem_changers hmem)⟩
  · intro hplain
    exact hperforms.status_of_plain hplain
  · have hflags := hperforms.setsFlags fun hreader => hmemory (List.mem_append_left _ hreader)
    exact ⟨hflags.produced, hflags.compared, hflags.tested⟩

/-- The accumulator is compared with a byte that is greater by one. -/
theorem register_and_flag_frame_of_compare :
    letI : Bus Unit := Bus.holding fun _ => 0xC9
    let cpu : Cpu := { registers := { a := 0xC8 } }
    let r' := (cpu.tick.run ()).value.cpu.registers
    (cpu.Starts ∧ cpu.nextInterrupt? = none ∧
      Instruction.ofOpcode? (Bus.read () cpu.registers.pc).1 = some ⟨0xC9, .cmp, .immediate, 2⟩) ∧
    r'.pc = 2 ∧ r'.a = 0xC8 ∧ r'.isSet Flag.decimal = false ∧
      r'.isSet Flag.carry = false ∧ r'.isSet Flag.zero = false ∧ r'.isSet Flag.negative = true := by
  let _bus : Bus Unit := Bus.holding fun _ => 0xC9
  intro cpu r'
  have hs : cpu.Starts ∧ cpu.nextInterrupt? = none ∧
      Instruction.ofOpcode? (Bus.read () cpu.registers.pc).1 =
        some ⟨0xC9, .cmp, .immediate, 2⟩ := by
    decide +kernel
  obtain ⟨-, hpc, hkeeps, -, found, op, acts, hfinds, haccesses, hflags⟩ :=
    register_and_flag_frame hs.1 hs.2.1 hs.2.2
  obtain ⟨addr, v, -, hacts, hcarry, hzero, hnegative⟩ := hflags.compared 0xC8 rfl
  -- The byte that the theorem speaks of is the one that this cycle reads.
  have hv : v = 0xC9 := by
    have hread : (cpu.tick.run ()).accesses = [.read 0 0xC9, .read 1 0xC9] := by decide +kernel
    cases hfinds
    rw [haccesses, hacts] at hread
    injection hread with _ hread
    injection hread with hread
    injection hread
  have hdecimal : r'.isSet Flag.decimal = cpu.registers.isSet Flag.decimal :=
    hkeeps .decimal (by decide) (by decide)
  rw [hv] at hcarry hzero hnegative
  exact ⟨hs, hpc (by decide) rfl, hkeeps .a (by decide) (by decide), hdecimal.trans (by decide),
    hcarry, hzero, hnegative⟩

end Cpu

end Nes
