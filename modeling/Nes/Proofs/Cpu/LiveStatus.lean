import Nes.Proofs.Bits
import Nes.Proofs.Cpu.Command
import Nes.Proofs.Cpu.EffectPath

/-!
# The two bits without a flag

Two bits of the status register hold no flag of the processor.  Bit five always reads as set, and
bit four exists only in the copies on the stack.  A status that comes back from the stack may have
any value in both, so it depends on the way it is taken over that the register keeps them.

A status with bit five set and bit four clear is called live.  The processor has one when power is
switched on, and every operation and every interrupt entry keeps it: flags are assigned by masks
that leave the two bits alone, and what is pulled from the stack is put right.

## Main definitions

* `Registers.Live`: the status is that of a processor and not a copy from the stack.

## Main statements

* `Effect.Performs.live`: every operation keeps a live status.
* `Cpu.TickPath.live`: so does every cycle.
* `Cpu.Reachable.live`: every reachable processor has one.
-/

namespace Nes

namespace Registers

/-- The status is that of a processor: bit five is set and bit four is clear. -/
def Live (r : Registers) : Prop := r.status &&& 0x30 = 0x20

instance (r : Registers) : Decidable r.Live := inferInstanceAs (Decidable (_ = _))

/-- What changes no status changes no live status. -/
theorem Live.of_status_eq {r r' : Registers} (h : r.Live) (hs : r'.status = r.status) :
    r'.Live := by
  rw [Live, hs]
  exact h

/-- A flag is not one of the two bits. -/
theorem Live.assign {r : Registers} (h : r.Live) (mask : UInt8) (hm : mask &&& 0x30 = 0)
    (on : Bool) : (r.assign mask on).Live := by
  have hclear : ∀ mask : UInt8, mask &&& 0x30 = 0 → ~~~mask &&& 0x30 = 0x30 := by
    apply forall_byte
    decide +kernel
  cases on with
  | true =>
    show (r.status ||| mask) &&& 0x30 = 0x20
    have hdist : (r.status ||| mask) &&& 0x30 = (r.status &&& 0x30) ||| (mask &&& 0x30) :=
      UInt8.toBitVec_inj.1 BitVec.and_or_distrib_right
    rw [hdist, hm, UInt8.or_zero]
    exact h
  | false =>
    show (r.status &&& ~~~mask) &&& 0x30 = 0x20
    rw [UInt8.and_assoc, hclear mask hm]
    exact h

theorem Live.updateZN {r : Registers} (h : r.Live) (v : UInt8) : (r.updateZN v).Live :=
  (h.assign _ (by decide) _).assign _ (by decide) _

theorem Live.addCarry {r : Registers} (h : r.Live) (v : UInt8) : (r.addCarry v).Live :=
  ((h.assign _ (by decide) _).assign _ (by decide) _).updateZN _

theorem Live.compare {r : Registers} (h : r.Live) (register v : UInt8) :
    (r.compare register v).Live :=
  (h.assign _ (by decide) _).updateZN _

theorem Live.testBits {r : Registers} (h : r.Live) (v : UInt8) : (r.testBits v).Live :=
  ((h.assign _ (by decide) _).assign _ (by decide) _).assign _ (by decide) _

theorem Live.entered {r : Registers} (h : r.Live) (target : UInt16) : (r.entered target).Live :=
  (h.assign Flag.irqDisable (by decide) true).of_status_eq rfl

/-- What comes back from the stack is put right. -/
theorem live_restoreStatus (r : Registers) (byte : UInt8) : (r.restoreStatus byte).Live := by
  have h : ∀ byte : UInt8, ((byte &&& ~~~Flag.breakCommand) ||| Flag.unused) &&& 0x30 = 0x20 := by
    apply forall_byte
    decide +kernel
  exact h byte

/-- Setting bit five does nothing to a live status. -/
theorem Live.assign_unused {r : Registers} (h : r.Live) : r.assign Flag.unused true = r := by
  have hset : ∀ status : UInt8, status &&& 0x30 = 0x20 → status ||| Flag.unused = status := by
    apply forall_byte
    decide +kernel
  rw [Registers.assign, if_pos rfl, hset r.status h]

end Registers

/-! ### Operations -/

theorem Operand.status_of_store {op : Operand} {r r' : Registers} {value : UInt8}
    {t : List Activity} (h : (op.store r value).Follows t r') : r'.status = r.status := by
  rw [follows_store] at h
  cases ha : op.address with
  | some addr =>
    rw [ha] at h
    rw [h.2]
  | none =>
    rw [ha] at h
    rw [h.2]

theorem Operand.status_jump (op : Operand) (r : Registers) : (op.jump r).status = r.status := by
  unfold jump
  split <;> rfl

theorem Operand.status_branch (op : Operand) (r : Registers) (mask : UInt8) (value : Bool) :
    (op.branch r mask value).1.status = r.status := by
  unfold branch
  split
  · split <;> rfl
  · rfl

/-- **Every operation keeps a live status.** -/
theorem Effect.Performs.live {m : Mnemonic} {op : Operand} {r r' : Registers} {t : List Activity}
    {extra : Nat} (h : Effect.Performs op r m.effect t r' extra) (hr : r.Live) : r'.Live := by
  cases m
  case lda | ldx | ldy | and | ora | eor =>
    cases h
    exact Registers.Live.updateZN (hr.of_status_eq rfl) _
  case adc | sbc =>
    cases h
    exact hr.addCarry _
  case cmp | cpx | cpy =>
    cases h
    exact hr.compare _ _
  case bit =>
    cases h
    exact hr.testBits _
  case sta | stx | sty =>
    cases h
    next hs => exact hr.of_status_eq (Operand.status_of_store hs)
  case inc | dec =>
    cases h
    next hs => exact (hr.of_status_eq (Operand.status_of_store hs)).updateZN _
  case asl | lsr | rol | ror =>
    -- The carry is assigned before the result is stored.
    cases h
    next hs =>
      have hcarry := hr.assign Flag.carry (by decide)
      exact ((hcarry _).of_status_eq (Operand.status_of_store hs)).updateZN _
  case bcc | bcs | beq | bne | bmi | bpl | bvc | bvs =>
    cases h
    exact hr.of_status_eq (op.status_branch r _ _)
  case tax | tay | txa | tya | tsx | inx | iny | dex | dey =>
    cases h
    exact Registers.Live.updateZN (hr.of_status_eq rfl) _
  case clc | sec | cli | sei | cld | sed | clv =>
    cases h
    exact hr.assign _ (by decide) _
  case txs | nop | pha | php | rts =>
    cases h
    exact hr.of_status_eq rfl
  case pla =>
    cases h
    exact Registers.Live.updateZN (hr.of_status_eq rfl) _
  case plp | rti =>
    cases h
    exact Registers.live_restoreStatus _ _
  case jmp | jsr =>
    cases h
    exact hr.of_status_eq (op.status_jump _)
  case brk =>
    cases h
    exact Registers.Live.entered (hr.of_status_eq rfl) _

/-! ### Cycles and runs -/

namespace Cpu

/-- **Every cycle keeps a live status.** -/
theorem TickPath.live {cpu : Cpu} {t : List Activity} {o : Ticked} (h : TickPath cpu t o)
    (hr : cpu.registers.Live) : o.cpu.registers.Live := by
  have hready : cpu.ready.Live := by
    rw [ready, hr.assign_unused]
    exact hr
  cases h with
  | halted => exact hr
  | countDown => exact hr
  | nmi => exact hready.entered _
  | irq => exact hready.entered _
  | executed hh hc hn hi hop hact =>
    exact (Effect.performs_of_follows hact).live (hready.of_status_eq rfl)
  | undocumented => exact hready

theorem live_powerOn : ({} : Registers).Live := by decide

theorem live_command {β : Type} [Bus β] {cpu : Cpu} (hr : cpu.registers.Live) (bus : β)
    (c : Command) : ((cpu.command c).run bus).value.registers.Live := by
  cases c with
  | reset =>
    obtain ⟨start, hreset⟩ := cpu.run_reset bus
    show ((cpu.reset.run bus).value).registers.Live
    rw [hreset]
    exact live_powerOn.of_status_eq rfl
  | signal s =>
    cases s with
    | tick =>
      rw [run_command_tick]
      exact (cpu.tickPath_run bus).live hr
    | nmi => exact hr
    | irq =>
      show cpu.requestIrq.registers.Live
      rw [requestIrq_eq]
      exact hr

/-- **Every reachable processor has a live status.** -/
theorem Reachable.live {cpu : Cpu} (h : cpu.Reachable) : cpu.registers.Live :=
  h.preserves (P := fun cpu => cpu.registers.Live) live_powerOn fun bus c hr =>
    live_command hr bus c

end Cpu

end Nes
