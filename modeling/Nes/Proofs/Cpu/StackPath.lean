import Nes.Cpu.Stack
import Nes.Proofs.Bus.Path

/-!
# Fetching, the stack and interrupt entry

The paths of the small programs from which instructions and interrupts are put together.  The stack
pointer has eight bits, so the cells of a push or a pull of several bytes are named by differences
and sums that wrap around within page one.

## Main definitions

* `stackCell`: the cells of the stack.
* `Registers.entryPath`, `Registers.entered`: the accesses of an interrupt entry, and what it
  leaves in the registers.

## Main statements

* `Registers.follows_pushWord`, `Registers.follows_pullWord`: words on the stack.
* `Registers.follows_enterInterrupt`: entering an interrupt handler.
-/

namespace Nes

/-- The cell of the stack that a stack pointer names. -/
def stackCell (sp : UInt8) : UInt16 := 0x0100 ||| sp.toUInt16

theorem Registers.stackAddress_eq (r : Registers) : r.stackAddress = stackCell r.sp := rfl

namespace Registers

theorem follows_push {r r' : Registers} {value : UInt8} {t : List Activity} :
    (r.push value).Follows t r' ↔
      t = [.write (stackCell r.sp) value] ∧ r' = { r with sp := r.sp - 1 } := by
  simp only [push, stackAddress_eq, BusM.follows_bind, BusM.follows_writeByte, BusM.follows_pure]
  constructor
  · rintro ⟨_, _, _, rfl, rfl, rfl, rfl⟩
    exact ⟨rfl, rfl⟩
  · rintro ⟨rfl, rfl⟩
    exact ⟨(), _, [], rfl, rfl, rfl, rfl⟩

theorem follows_pull {r r' : Registers} {value : UInt8} {t : List Activity} :
    r.pull.Follows t (value, r') ↔
      t = [.read (stackCell (r.sp + 1)) value] ∧ r' = { r with sp := r.sp + 1 } := by
  simp only [pull, stackAddress_eq, BusM.follows_bind, BusM.follows_readByte, BusM.follows_pure,
    Prod.mk.injEq]
  constructor
  · rintro ⟨_, _, _, rfl, rfl, rfl, rfl, rfl⟩
    exact ⟨rfl, rfl⟩
  · rintro ⟨rfl, rfl⟩
    exact ⟨value, _, [], rfl, rfl, rfl, rfl, rfl⟩

theorem follows_pushWord {r r' : Registers} {value : UInt16} {t : List Activity} :
    (r.pushWord value).Follows t r' ↔
      t = [.write (stackCell r.sp) (value >>> 8).toUInt8, .write (stackCell (r.sp - 1)) value.toUInt8] ∧
        r' = { r with sp := r.sp - 2 } := by
  have hsp : r.sp - 1 - 1 = r.sp - 2 := by grind
  simp only [pushWord, BusM.follows_bind, follows_push]
  constructor
  · rintro ⟨_, _, _, rfl, ⟨rfl, rfl⟩, rfl, rfl⟩
    exact ⟨rfl, by rw [hsp]⟩
  · rintro ⟨rfl, rfl⟩
    exact ⟨_, _, _, rfl, ⟨rfl, rfl⟩, rfl, by rw [hsp]⟩

theorem follows_pullWord {r r' : Registers} {value : UInt16} {t : List Activity} :
    r.pullWord.Follows t (value, r') ↔ ∃ low high,
      t = [.read (stackCell (r.sp + 1)) low, .read (stackCell (r.sp + 2)) high] ∧
        value = wordOf low high ∧ r' = { r with sp := r.sp + 2 } := by
  have hsp : r.sp + 1 + 1 = r.sp + 2 := by grind
  simp only [pullWord, BusM.follows_bind, BusM.follows_pure, Prod.mk.injEq, Prod.exists, follows_pull]
  constructor
  · rintro ⟨low, _, _, _, rfl, ⟨rfl, rfl⟩, high, _, _, _, rfl, ⟨rfl, rfl⟩, rfl, rfl, rfl⟩
    exact ⟨low, high, by rw [hsp]; rfl, rfl, by rw [hsp]⟩
  · rintro ⟨low, high, rfl, rfl, rfl⟩
    exact ⟨low, _, _, _, by rw [← hsp]; rfl, ⟨rfl, rfl⟩, high, _, _, [], rfl, ⟨rfl, rfl⟩, rfl, rfl,
      by rw [hsp]⟩

theorem follows_fetch {r r' : Registers} {value : UInt8} {t : List Activity} :
    r.fetch.Follows t (value, r') ↔ t = [.read r.pc value] ∧ r' = r.jumpTo (r.pc + 1) := by
  simp only [fetch, BusM.follows_bind, BusM.follows_readByte, BusM.follows_pure, Prod.mk.injEq]
  constructor
  · rintro ⟨_, _, _, rfl, rfl, rfl, rfl, rfl⟩
    exact ⟨rfl, rfl⟩
  · rintro ⟨rfl, rfl⟩
    exact ⟨value, _, [], rfl, rfl, rfl, rfl, rfl⟩

/-! ### Interrupt entry -/

/-- The accesses that enter the handler named by a vector which holds the bytes `low` and `high`:
program counter and status go to the stack, and the vector is read. -/
def entryPath (r : Registers) (vector : UInt16) (byInstruction : Bool) (low high : UInt8) :
    List Activity :=
  [.write (stackCell r.sp) (r.pc >>> 8).toUInt8,
   .write (stackCell (r.sp - 1)) r.pc.toUInt8,
   .write (stackCell (r.sp - 2)) (r.statusToPush byInstruction),
   .read vector low,
   .read (vector + 1) high]

/-- The registers after entering a handler at the address `target`. -/
def entered (r : Registers) (target : UInt16) : Registers :=
  { r with sp := r.sp - 3, status := r.status ||| Flag.irqDisable, pc := target }

theorem follows_enterInterrupt {r r' : Registers} {vector : UInt16} {byInstruction : Bool}
    {t : List Activity} (h : (r.enterInterrupt vector byInstruction).Follows t r') :
    ∃ low high, t = r.entryPath vector byInstruction low high ∧ r' = r.entered (wordOf low high) := by
  simp only [enterInterrupt, BusM.follows_bind, BusM.follows_pure, follows_pushWord, follows_push,
    BusM.follows_readWord] at h
  obtain ⟨_, _, _, rfl, ⟨rfl, rfl⟩, _, _, _, rfl, ⟨rfl, rfl⟩, _, _, _, rfl, ⟨low, high, rfl, rfl⟩,
    rfl, rfl⟩ := h
  have hsp : r.sp - 2 - 1 = r.sp - 3 := by grind
  refine ⟨low, high, rfl, ?_⟩
  simp [assign, jumpTo, entered, hsp]

end Registers

end Nes
