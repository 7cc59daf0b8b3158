import Nes.Cpu.Effect
import Nes.Proofs.Cpu.StackPath

/-!
# What the families of operations do

For each family of operations: the accesses by which it is carried out, what it leaves in the
registers and what it adds to the cost of the instruction.  The operand is already resolved, and
the program counter is at the following instruction.

## Main definitions

* `Effect.Performs`: the cases, one for each family.

## Main statements

* `Effect.performs_of_follows`: a path through an operation is one of these cases.
-/

namespace Nes

namespace Operand

/-- A byte in memory is read once, and the accumulator without an access. -/
theorem follows_load {op : Operand} {r : Registers} {t : List Activity} {v : UInt8} :
    (op.load r).Follows t v ↔
      match op.address with
      | some addr => t = [.read addr v]
      | none => t = [] ∧ v = r.a := by
  unfold load
  cases op.address with
  | some addr => exact BusM.follows_readByte
  | none => exact BusM.follows_pure.trans (and_congr_right fun _ => eq_comm)

/-- A byte in memory is written once, and the accumulator without an access. -/
theorem follows_store {op : Operand} {r r' : Registers} {value : UInt8} {t : List Activity} :
    (op.store r value).Follows t r' ↔
      match op.address with
      | some addr => t = [.write addr value] ∧ r' = r
      | none => t = [] ∧ r' = { r with a := value } := by
  unfold store
  cases op.address with
  | some addr =>
    simp only [BusM.follows_bind, BusM.follows_writeByte, BusM.follows_pure]
    constructor
    · rintro ⟨_, _, _, rfl, rfl, rfl, rfl⟩
      exact ⟨rfl, rfl⟩
    · rintro ⟨rfl, rfl⟩
      exact ⟨(), _, [], rfl, rfl, rfl, rfl⟩
  | none => exact BusM.follows_pure.trans (and_congr_right fun _ => eq_comm)

end Operand

namespace Effect

/-- Carrying out an operation on the operand `op` with the registers `r` makes some accesses and
leaves some registers, at some cost beyond that in the opcode matrix. -/
inductive Performs (op : Operand) (r : Registers) :
    Effect → List Activity → Registers → Nat → Prop
  | read {use : Registers → UInt8 → Registers} {t : List Activity} {v : UInt8}
    (hl : (op.load r).Follows t v) : Performs op r (.read use) t (use r v) op.penalty
  | probe {use : Registers → UInt8 → Registers} {t : List Activity} {v : UInt8}
    (hl : (op.load r).Follows t v) : Performs op r (.probe use) t (use r v) 0
  | store {source : Registers → UInt8} {t : List Activity} {r' : Registers}
    (hs : (op.store r (source r)).Follows t r') : Performs op r (.store source) t r' 0
  | modify {change : Registers → UInt8 → Registers × UInt8} {t₁ t₂ : List Activity} {v : UInt8}
    {r' : Registers} (hl : (op.load r).Follows t₁ v)
    (hs : (op.store (change r v).1 (change r v).2).Follows t₂ r') :
    Performs op r (.modify change) (t₁ ++ t₂) (r'.updateZN (change r v).2) 0
  | branch {mask : UInt8} {value : Bool} :
    Performs op r (.branch mask value) [] (op.branch r mask value).1 (op.branch r mask value).2
  | internal {change : Registers → Registers} : Performs op r (.internal change) [] (change r) 0
  | push {source : Registers → UInt8} :
    Performs op r (.push source) [.write (stackCell r.sp) (source r)] { r with sp := r.sp - 1 } 0
  | pull {use : Registers → UInt8 → Registers} (v : UInt8) :
    Performs op r (.pull use) [.read (stackCell (r.sp + 1)) v] (use { r with sp := r.sp + 1 } v) 0
  | jump : Performs op r .jump [] (op.jump r) 0
  | call :
    Performs op r .call
      [.write (stackCell r.sp) ((r.pc - 1) >>> 8).toUInt8,
       .write (stackCell (r.sp - 1)) (r.pc - 1).toUInt8]
      (op.jump { r with sp := r.sp - 2 }) 0
  | returnFromCall (low high : UInt8) :
    Performs op r .returnFromCall
      [.read (stackCell (r.sp + 1)) low, .read (stackCell (r.sp + 2)) high]
      { r with sp := r.sp + 2, pc := wordOf low high + 1 } 0
  | returnFromInterrupt (status low high : UInt8) :
    Performs op r .returnFromInterrupt
      [.read (stackCell (r.sp + 1)) status, .read (stackCell (r.sp + 2)) low,
       .read (stackCell (r.sp + 3)) high]
      ({ r with sp := r.sp + 3, pc := wordOf low high }.restoreStatus status) 0
  | softwareInterrupt (low high : UInt8) :
    Performs op r .softwareInterrupt
      ((r.jumpTo (r.pc + 1)).entryPath irqVector true low high)
      ((r.jumpTo (r.pc + 1)).entered (wordOf low high)) 0

/-- **A path through an operation is one of the cases of its family.** -/
theorem performs_of_follows {e : Effect} {op : Operand} {r r' : Registers} {t : List Activity}
    {extra : Nat} (h : (e.perform op r).Follows t (r', extra)) :
    Performs op r e t r' extra := by
  -- In every case the bind is split into the paths of its parts, and the part that ends the
  -- operation makes no access.
  cases e with
  | read use =>
    obtain ⟨v, t₁, _, rfl, hl, rfl, hpair⟩ := BusM.follows_bind.1 h
    cases hpair
    rw [List.append_nil]
    exact .read hl
  | probe use =>
    obtain ⟨v, t₁, _, rfl, hl, rfl, hpair⟩ := BusM.follows_bind.1 h
    cases hpair
    rw [List.append_nil]
    exact .probe hl
  | store source =>
    obtain ⟨r₁, t₁, _, rfl, hs, rfl, hpair⟩ := BusM.follows_bind.1 h
    cases hpair
    rw [List.append_nil]
    exact .store hs
  -- The load and the store each have a path.
  | modify change =>
    obtain ⟨v, t₁, _, rfl, hl, hrest⟩ := BusM.follows_bind.1 h
    obtain ⟨r₁, t₂, _, rfl, hs, rfl, hpair⟩ := BusM.follows_bind.1 hrest
    cases hpair
    rw [List.append_nil]
    exact .modify hl hs
  | branch mask value =>
    obtain ⟨rfl, hpair⟩ := h
    rw [Prod.ext_iff] at hpair
    obtain ⟨rfl, rfl⟩ := hpair
    exact .branch
  | internal change =>
    obtain ⟨rfl, hpair⟩ := h
    cases hpair
    exact .internal
  -- The path of a push is known, and so is that of every other access to the stack below.
  | push source =>
    obtain ⟨r₁, t₁, _, rfl, hs, rfl, hpair⟩ := BusM.follows_bind.1 h
    cases hpair
    obtain ⟨rfl, rfl⟩ := Registers.follows_push.1 hs
    exact .push
  | pull use =>
    obtain ⟨⟨v, r₁⟩, t₁, _, rfl, hl, rfl, hpair⟩ := BusM.follows_bind.1 h
    cases hpair
    obtain ⟨rfl, rfl⟩ := Registers.follows_pull.1 hl
    exact .pull v
  | jump =>
    obtain ⟨rfl, hpair⟩ := h
    cases hpair
    exact .jump
  | call =>
    obtain ⟨r₁, t₁, _, rfl, hs, rfl, hpair⟩ := BusM.follows_bind.1 h
    cases hpair
    obtain ⟨rfl, rfl⟩ := Registers.follows_pushWord.1 hs
    exact .call
  | returnFromCall =>
    obtain ⟨⟨v, r₁⟩, t₁, _, rfl, hl, rfl, hpair⟩ := BusM.follows_bind.1 h
    cases hpair
    obtain ⟨low, high, rfl, rfl, rfl⟩ := Registers.follows_pullWord.1 hl
    exact .returnFromCall low high
  -- The status comes first, so the return address is pulled one place further up.
  | returnFromInterrupt =>
    obtain ⟨⟨status, r₁⟩, t₁, _, rfl, hl, hrest⟩ := BusM.follows_bind.1 h
    obtain ⟨rfl, rfl⟩ := Registers.follows_pull.1 hl
    obtain ⟨⟨v, r₁⟩, t₁, _, rfl, hw, rfl, hpair⟩ := BusM.follows_bind.1 hrest
    cases hpair
    obtain ⟨low, high, rfl, rfl, rfl⟩ := Registers.follows_pullWord.1 hw
    -- The places are counted from the stack pointer of before the first pull.
    have h2 : r.sp + 1 + 1 = r.sp + 2 := by grind
    have h3 : r.sp + 1 + 2 = r.sp + 3 := by grind
    have hreturn : Performs op r .returnFromInterrupt _ _ _ := .returnFromInterrupt status low high
    simp only [Registers.restoreStatus, Registers.jumpTo, h2, h3] at hreturn ⊢
    exact hreturn
  -- The entry is the one that a request for an interrupt makes, one byte further on.
  | softwareInterrupt =>
    obtain ⟨r₁, t₁, _, rfl, hs, rfl, hpair⟩ := BusM.follows_bind.1 h
    cases hpair
    obtain ⟨low, high, rfl, rfl⟩ := Registers.follows_enterInterrupt hs
    rw [List.append_nil]
    exact .softwareInterrupt low high

end Effect

end Nes
