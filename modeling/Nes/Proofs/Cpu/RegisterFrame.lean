import Nes.Proofs.Cpu.LiveStatus
import Nes.Proofs.Cpu.Timing

/-!
# What operations leave alone

The registers of the processor have eleven parts that a program can tell apart: five registers that
hold a number, and six flags.  Most operations change few of them.  For each operation a list says
which ones, and everything that is not on the list is as it was before.

Flags share a register, so that a flag is left alone if the masks that are assigned have no bit in
common with its own.  Parts that are changed one after the other are put together by appending the
lists.

## Main definitions

* `Registers.Part`, `Registers.Keeps`: the parts, and that all but some are as they were.
* `Mnemonic.changes`: the parts that each operation may change.

## Main statements

* `Registers.isSet_assign_of_disjoint`, `Registers.isSet_assign_self`: flags are independent.
* `Effect.Performs.keeps`: an operation changes the parts on its list at most.
* `Effect.Performs.pc_of_not_taken`: a branch that is not taken changes not even these.
-/

namespace Nes

namespace Registers

/-! ### Flags -/

/-- A flag does not change when other flags are assigned. -/
theorem isSet_assign_of_disjoint {flag mask : UInt8} (h : flag &&& mask = 0) (r : Registers)
    (on : Bool) : (r.assign mask on).isSet flag = r.isSet flag := by
  cases on with
  | true => exact isSet_assign_true (by rw [UInt8.and_comm, h])
  | false =>
    -- The mask of the flag survives the complement.
    have hkept : ~~~mask &&& flag = flag := by
      calc ~~~mask &&& flag = (flag &&& mask) ||| (flag &&& ~~~mask) := by
            rw [h, UInt8.zero_or, UInt8.and_comm]
        _ = flag &&& (mask ||| ~~~mask) := (UInt8.toBitVec_inj.1 BitVec.and_or_distrib_left).symm
        _ = flag := by rw [UInt8.or_not_self, UInt8.and_neg_one]
    show (r.status &&& ~~~mask &&& flag != 0) = (r.status &&& flag != 0)
    rw [UInt8.and_assoc, hkept]

/-- A flag that is assigned has the value that it was given. -/
theorem isSet_assign_self {flag : UInt8} (h : flag ≠ 0) (r : Registers) (on : Bool) :
    (r.assign flag on).isSet flag = on := by
  cases on with
  | true =>
    have hand : (r.status ||| flag) &&& flag = (r.status &&& flag) ||| (flag &&& flag) :=
      UInt8.toBitVec_inj.1 BitVec.and_or_distrib_right
    show ((r.status ||| flag) &&& flag != 0) = true
    rw [hand, UInt8.and_self, bne_iff_ne, ne_eq, UInt8.or_eq_zero_iff]
    exact fun hzero => h hzero.2
  | false =>
    show (r.status &&& ~~~flag &&& flag != 0) = false
    rw [UInt8.and_assoc, UInt8.not_and_self, UInt8.and_zero]
    rfl

/-! ### Parts -/

/-- The parts of the registers that can be told apart. -/
inductive Part
  | a | x | y | sp | pc | carry | zero | irqDisable | decimal | overflow | negative
  deriving DecidableEq

namespace Part

/-- The mask of a flag. -/
def mask : Part → UInt8
  | carry => Flag.carry
  | zero => Flag.zero
  | irqDisable => Flag.irqDisable
  | decimal => Flag.decimal
  | overflow => Flag.overflow
  | negative => Flag.negative
  | _ => 0

/-- The flags. -/
def flags : List Part := [carry, zero, irqDisable, decimal, overflow, negative]

/-- A part has the same value before and after. -/
def Same (p : Part) (r r' : Registers) : Prop :=
  match p with
  | a => r'.a = r.a
  | x => r'.x = r.x
  | y => r'.y = r.y
  | sp => r'.sp = r.sp
  | pc => r'.pc = r.pc
  | flag => r'.isSet flag.mask = r.isSet flag.mask

theorem Same.refl (p : Part) (r : Registers) : p.Same r r := by
  cases p <;> rfl

theorem Same.trans {p : Part} {r r' r'' : Registers} (h : p.Same r r') (h' : p.Same r' r'') :
    p.Same r r'' := by
  cases p <;> exact Eq.trans h' h

end Part

/-- All parts but those on a list are as they were. -/
def Keeps (changed : List Part) (r r' : Registers) : Prop := ∀ p, p ∉ changed → p.Same r r'

theorem Keeps.refl (r : Registers) : Keeps [] r r := fun p _ => .refl p r

theorem Keeps.trans {l l' : List Part} {r r' r'' : Registers} (h : Keeps l r r')
    (h' : Keeps l' r' r'') : Keeps (l ++ l') r r'' := by
  intro p hp
  rw [List.mem_append, not_or] at hp
  exact (h p hp.1).trans (h' p hp.2)

theorem Keeps.mono {l l' : List Part} {r r' : Registers} (h : Keeps l r r') (hl : l ⊆ l') :
    Keeps l' r r' :=
  fun p hp => h p fun hmem => hp (hl hmem)

/-- What changes the status alone changes flags at most. -/
theorem keeps_of_status {r r' : Registers} (h : r' = { r with status := r'.status }) :
    Keeps Part.flags r r' := by
  intro p hp
  rw [h]
  cases p
  case a | x | y | sp | pc => rfl
  all_goals exact absurd (by decide) hp

/-- Assigning flags changes no others. -/
theorem keeps_assign {l : List Part} {mask : UInt8}
    (h : ∀ p ∈ Part.flags, p ∉ l → p.mask &&& mask = 0) (r : Registers) (on : Bool) :
    Keeps l r (r.assign mask on) := by
  intro p hp
  cases p
  case a | x | y | sp | pc => rfl
  all_goals exact isSet_assign_of_disjoint (h _ (by decide) hp) r on

theorem keeps_updateZN (r : Registers) (v : UInt8) :
    Keeps [.zero, .negative] r (r.updateZN v) :=
  (keeps_assign (l := [.zero]) (by decide) r _).trans
    (keeps_assign (l := [.negative]) (by decide) _ _)

/-- Changing a register changes no other and no flag. -/
theorem keeps_setA (r : Registers) (v : UInt8) : Keeps [.a] r { r with a := v } := by
  intro p hp
  cases p
  case a => exact absurd (by decide) hp
  all_goals rfl

theorem keeps_setX (r : Registers) (v : UInt8) : Keeps [.x] r { r with x := v } := by
  intro p hp
  cases p
  case x => exact absurd (by decide) hp
  all_goals rfl

theorem keeps_setY (r : Registers) (v : UInt8) : Keeps [.y] r { r with y := v } := by
  intro p hp
  cases p
  case y => exact absurd (by decide) hp
  all_goals rfl

theorem keeps_setSp (r : Registers) (v : UInt8) : Keeps [.sp] r { r with sp := v } := by
  intro p hp
  cases p
  case sp => exact absurd (by decide) hp
  all_goals rfl

theorem keeps_jumpTo (r : Registers) (target : UInt16) : Keeps [.pc] r (r.jumpTo target) := by
  intro p hp
  cases p
  case pc => exact absurd (by decide) hp
  all_goals rfl

theorem keeps_loadA (r : Registers) (v : UInt8) : Keeps [.a, .zero, .negative] r (r.loadA v) :=
  (keeps_setA r v).trans (keeps_updateZN _ v)

theorem keeps_loadX (r : Registers) (v : UInt8) : Keeps [.x, .zero, .negative] r (r.loadX v) :=
  (keeps_setX r v).trans (keeps_updateZN _ v)

theorem keeps_loadY (r : Registers) (v : UInt8) : Keeps [.y, .zero, .negative] r (r.loadY v) :=
  (keeps_setY r v).trans (keeps_updateZN _ v)

theorem keeps_addCarry (r : Registers) (v : UInt8) :
    Keeps [.carry, .overflow, .a, .zero, .negative] r (r.addCarry v) :=
  (keeps_assign (l := [.carry]) (by decide) r _).trans
    ((keeps_assign (l := [.overflow]) (by decide) _ _).trans (keeps_loadA _ _))

theorem keeps_compare (r : Registers) (register v : UInt8) :
    Keeps [.carry, .zero, .negative] r (r.compare register v) :=
  (keeps_assign (l := [.carry]) (by decide) r _).trans (keeps_updateZN _ _)

theorem keeps_testBits (r : Registers) (v : UInt8) :
    Keeps [.zero, .negative, .overflow] r (r.testBits v) :=
  (keeps_assign (l := [.zero]) (by decide) r _).trans
    ((keeps_assign (l := [.negative]) (by decide) _ _).trans
      (keeps_assign (l := [.overflow]) (by decide) _ _))

theorem keeps_restoreStatus (r : Registers) (byte : UInt8) :
    Keeps Part.flags r (r.restoreStatus byte) :=
  keeps_of_status rfl

theorem keeps_entered (r : Registers) (target : UInt16) :
    Keeps [.sp, .irqDisable, .pc] r (r.entered target) := by
  have hflag : ∀ r : Registers, Keeps [.irqDisable] r (r.assign Flag.irqDisable true) := fun r =>
    keeps_assign (by decide) r true
  exact ((keeps_setSp r (r.sp - 3)).trans (hflag _)).trans (keeps_jumpTo _ target)

end Registers

open Registers (Part Keeps)

/-! ### Operands -/

namespace Operand

/-- Storing in memory changes no register, and storing without an address changes the
accumulator. -/
theorem keeps_store {op : Operand} {r r' : Registers} {value : UInt8} {t : List Activity}
    (h : (op.store r value).Follows t r') :
    Keeps (if op.address.isNone then [.a] else []) r r' := by
  rw [follows_store] at h
  cases ha : op.address with
  | some addr =>
    rw [ha] at h
    rw [h.2]
    exact .refl r
  | none =>
    rw [ha] at h
    rw [h.2]
    exact Registers.keeps_setA r value

theorem keeps_jump (op : Operand) (r : Registers) : Keeps [.pc] r (op.jump r) := by
  unfold jump
  split
  · exact Registers.keeps_jumpTo r _
  · exact (Keeps.refl r).mono (List.nil_subset _)

theorem branch_fst (op : Operand) (r : Registers) (mask : UInt8) (value : Bool) :
    (op.branch r mask value).1 = if r.isSet mask = value then op.jump r else r := by
  unfold branch jump
  cases op.address with
  | some target =>
    by_cases hset : r.isSet mask = value
    · simp only [hset, if_true]
    · simp only [hset, if_false]
  | none => exact (ite_self r).symm

theorem keeps_branch (op : Operand) (r : Registers) (mask : UInt8) (value : Bool) :
    Keeps [.pc] r (op.branch r mask value).1 := by
  rw [branch_fst]
  split
  · exact op.keeps_jump r
  · exact (Keeps.refl r).mono (List.nil_subset _)

end Operand

/-! ### Operations -/

/-- The parts that an operation may change.  The operations in place change the accumulator if that
is their operand. -/
def Mnemonic.changes (inAccumulator : Bool) : Mnemonic → List Part
  | lda | txa | tya | and | ora | eor => [.a, .zero, .negative]
  | adc | sbc => [.carry, .overflow, .a, .zero, .negative]
  | ldx | tax | tsx | inx | dex => [.x, .zero, .negative]
  | ldy | tay | iny | dey => [.y, .zero, .negative]
  | cmp | cpx | cpy => [.carry, .zero, .negative]
  | bit => [.zero, .negative, .overflow]
  | sta | stx | sty | nop => []
  | inc | dec => [.zero, .negative]
  | asl | lsr | rol | ror =>
    [.carry] ++ (if inAccumulator then [.a] else []) ++ [.zero, .negative]
  | bcc | bcs | beq | bne | bmi | bpl | bvc | bvs | jmp => [.pc]
  | clc | sec => [.carry]
  | cli | sei => [.irqDisable]
  | cld | sed => [.decimal]
  | clv => [.overflow]
  | txs | pha | php => [.sp]
  | pla => [.sp, .a, .zero, .negative]
  | plp => .sp :: Part.flags
  | jsr | rts => [.sp, .pc]
  | rti => [.sp, .pc] ++ Part.flags
  | brk => [.pc, .sp, .irqDisable]

/-- **An operation changes the parts on its list at most.** -/
theorem Effect.Performs.keeps {m : Mnemonic} {op : Operand} {r r' : Registers} {t : List Activity}
    {extra : Nat} (h : Effect.Performs op r m.effect t r' extra)
    (hmem : m ∈ Mnemonic.writers ++ [.inc, .dec] → op.address ≠ none) :
    Keeps (m.changes op.address.isNone) r r' := by
  cases m
  case lda | and | ora | eor | txa | tya =>
    cases h
    exact r.keeps_loadA _
  case ldx | tax | tsx | inx | dex =>
    cases h
    exact r.keeps_loadX _
  case ldy | tay | iny | dey =>
    cases h
    exact r.keeps_loadY _
  case adc | sbc =>
    cases h
    exact r.keeps_addCarry _
  case cmp | cpx | cpy =>
    cases h
    exact r.keeps_compare _ _
  case bit =>
    cases h
    exact r.keeps_testBits _
  case sta | stx | sty =>
    cases h
    next hs =>
      have hstore := Operand.keeps_store hs
      rwa [Option.isNone_eq_false_iff.2 (Option.isSome_iff_ne_none.2 (hmem (by decide)))] at hstore
  case inc | dec =>
    cases h
    next hs =>
      have hstore := Operand.keeps_store hs
      rw [Option.isNone_eq_false_iff.2 (Option.isSome_iff_ne_none.2 (hmem (by decide)))] at hstore
      exact hstore.trans (Registers.keeps_updateZN _ _)
  case asl | lsr | rol | ror =>
    -- The carry is assigned before the result is stored.
    have hcarry : ∀ on, Keeps [.carry] r (r.assign Flag.carry on) := fun on =>
      Registers.keeps_assign (by decide) r on
    cases h
    next hs =>
      exact ((hcarry _).trans (Operand.keeps_store hs)).trans (Registers.keeps_updateZN _ _)
  case bcc | bcs | beq | bne | bmi | bpl | bvc | bvs =>
    cases h
    exact op.keeps_branch r _ _
  case clc | sec =>
    cases h
    exact Registers.keeps_assign (l := [.carry]) (by decide) r _
  case cli | sei =>
    cases h
    exact Registers.keeps_assign (l := [.irqDisable]) (by decide) r _
  case cld | sed =>
    cases h
    exact Registers.keeps_assign (l := [.decimal]) (by decide) r _
  case clv =>
    cases h
    exact Registers.keeps_assign (l := [.overflow]) (by decide) r _
  case nop =>
    cases h
    exact .refl r
  case txs | pha | php =>
    cases h
    exact r.keeps_setSp _
  case pla =>
    cases h
    exact (r.keeps_setSp _).trans (Registers.keeps_loadA _ _)
  case plp =>
    cases h
    exact (r.keeps_setSp _).trans (Registers.keeps_restoreStatus _ _)
  case jmp =>
    cases h
    exact op.keeps_jump r
  case jsr =>
    cases h
    exact (r.keeps_setSp _).trans (op.keeps_jump _)
  case rts =>
    cases h
    exact (r.keeps_setSp (r.sp + 2)).trans (Registers.keeps_jumpTo _ (wordOf _ _ + 1))
  case rti =>
    cases h
    exact ((r.keeps_setSp (r.sp + 3)).trans (Registers.keeps_jumpTo _ (wordOf _ _))).trans
      (Registers.keeps_restoreStatus _ _)
  case brk =>
    have hl : [Part.pc] ++ [.sp, .irqDisable, .pc] ⊆ [.pc, .sp, .irqDisable] := by decide
    cases h
    exact ((r.keeps_jumpTo _).trans (Registers.keeps_entered _ _)).mono hl

/-- A branch that is not taken goes on with the following instruction. -/
theorem Effect.Performs.pc_of_not_taken {m : Mnemonic} {op : Operand} {r r' : Registers}
    {t : List Activity} {extra : Nat} (h : Effect.Performs op r m.effect t r' extra)
    (hm : m ∈ Mnemonic.branches) (hn : m.branchTaken r = false) : r'.pc = r.pc := by
  cases m
  case bcc | bcs | beq | bne | bmi | bpl | bvc | bvs =>
    cases h
    rw [Operand.branch_fst, if_neg]
    simpa [Mnemonic.branchTaken] using hn
  all_goals exact absurd hm (by decide)

/-- The transfer to the stack pointer, the push of the accumulator and the stores change no flag. -/
theorem Effect.Performs.status_of_plain {m : Mnemonic} {op : Operand} {r r' : Registers}
    {t : List Activity} {extra : Nat} (h : Effect.Performs op r m.effect t r' extra)
    (hm : m ∈ [Mnemonic.txs, .pha] ++ Mnemonic.writers) : r'.status = r.status := by
  cases m
  case txs | pha =>
    cases h
    rfl
  case sta | stx | sty =>
    cases h
    next hs => exact Operand.status_of_store hs
  all_goals exact absurd hm (by decide)

end Nes
