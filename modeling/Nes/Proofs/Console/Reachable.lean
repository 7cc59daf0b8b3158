import Nes.Console.Run
import Nes.Proofs.Console.Clock

/-!
# Reachable consoles

A console is reached by loading a cartridge, switching power on, and then doing any of the things
that can be done to a console, in any order: clocking it, also in steps of an instruction or a
frame, accessing its memory, resetting it, requesting interrupts.  The processor can be taken out as
well.  It may make cycles on some other bus, be reset there, or change places with that of another
console.

## Main definitions

* `Console.Reachable`: the consoles that can be reached.
* `Console.Sound`: what holds of all of them.

## Main statements

* `Console.Reachable.sound`: every reachable console is sound.
-/

namespace Nes

namespace Console

/-- The consoles that can be reached. -/
inductive Reachable : Console → Prop
  /-- Power is switched on. -/
  | powerOn {image : Array UInt8} {cartridge : Cartridge}
    (h : Cartridge.load image = .ok cartridge) : Reachable (powerOn cartridge)
  | reset {c : Console} (h : Reachable c) : Reachable c.reset.1
  | clock {c : Console} (h : Reachable c) : Reachable c.clock.console
  | stepInstruction {c : Console} (h : Reachable c) : Reachable c.stepInstruction.console
  | stepFrame {c : Console} (h : Reachable c) : Reachable c.stepFrame.console
  | read {c : Console} (h : Reachable c) (addr : UInt16) : Reachable (c.read addr).2
  | write {c : Console} (h : Reachable c) (addr : UInt16) (value : UInt8) :
    Reachable (c.write addr value).1
  | loadProgram {c : Console} (h : Reachable c) (program : Array UInt8) :
    Reachable (c.loadProgram program).1
  | requestNmi {c : Console} (h : Reachable c) : Reachable c.requestNmi
  | requestIrq {c : Console} (h : Reachable c) : Reachable c.requestIrq
  /-- The processor makes a cycle on another bus. -/
  | tickOn {c : Console} (h : Reachable c) {β : Type} [Bus β] (bus : β) :
    Reachable { c with cpu := (c.cpu.tick.run bus).value.cpu }
  /-- The processor is reset on another bus. -/
  | resetOn {c : Console} (h : Reachable c) {β : Type} [Bus β] (bus : β) :
    Reachable { c with cpu := (c.cpu.reset.run bus).value }
  /-- The processor is replaced by that of another console. -/
  | exchange {c d : Console} (h : Reachable c) (hd : Reachable d) :
    Reachable { c with cpu := d.cpu }

/-- What holds of every reachable console. -/
structure Sound (c : Console) : Prop where
  /-- The beam is in the frame. -/
  inFrame : c.space.ppu.beam.InFrame
  /-- The request line is clear. -/
  nmiRequest : c.space.ppu.nmiRequest = false
  /-- At most six cycles are left of the instruction in flight. -/
  cyclesLeft_le : c.cpu.cyclesLeft ≤ 6
  /-- The cartridge was loaded from an image. -/
  loaded : ∃ image cartridge, Cartridge.load image = .ok cartridge ∧
    c.space.cartridge.wiring = cartridge.wiring

/-- Another console with the same beam, request line and wiring is sound if its processor is. -/
theorem Sound.transfer {c d : Console} (h : c.Sound)
    (hbeam : d.space.ppu.beam = c.space.ppu.beam)
    (hline : d.space.ppu.nmiRequest = c.space.ppu.nmiRequest)
    (hwiring : d.space.cartridge.wiring = c.space.cartridge.wiring)
    (hcpu : d.cpu.cyclesLeft ≤ 6) : d.Sound where
  inFrame := hbeam ▸ h.inFrame
  nmiRequest := hline.trans h.nmiRequest
  cyclesLeft_le := hcpu
  loaded := by
    rw [hwiring]
    exact h.loaded

/-- A change of the processor alone. -/
theorem Sound.withCpu {c : Console} (h : c.Sound) {cpu : Cpu} (hcpu : cpu.cyclesLeft ≤ 6) :
    Sound { c with cpu := cpu } :=
  h.transfer rfl rfl rfl hcpu

/-- A change of the address space that leaves clockwork and wiring alone. -/
theorem Sound.withSpace {c : Console} (h : c.Sound) {space : AddressSpace}
    (hclock : space.ppu.clockwork = c.space.ppu.clockwork)
    (hwiring : space.cartridge.wiring = c.space.cartridge.wiring) :
    Sound { c with space := space } :=
  h.transfer (congrArg (·.1) hclock) (congrArg (·.2.1) hclock) hwiring h.cyclesLeft_le

theorem wiring_clock (c : Console) :
    c.clock.console.space.cartridge.wiring = c.space.cartridge.wiring :=
  fixed_clock Cartridge.fixed_wiring c

theorem sound_powerOn {image : Array UInt8} {cartridge : Cartridge}
    (h : Cartridge.load image = .ok cartridge) : (powerOn cartridge).Sound where
  inFrame := Beam.inFrame_default
  nmiRequest := rfl
  cyclesLeft_le := Nat.zero_le 6
  loaded := ⟨image, cartridge, h, rfl⟩

theorem Sound.clock {c : Console} (h : c.Sound) : c.clock.console.Sound where
  inFrame := by
    rw [beam_clock]
    exact h.inFrame.advance
  nmiRequest := c.nmiRequest_clock
  cyclesLeft_le := cyclesLeft_clock_le h.cyclesLeft_le
  loaded := by
    rw [wiring_clock]
    exact h.loaded

theorem Sound.reset {c : Console} (h : c.Sound) : c.reset.1.Sound :=
  h.transfer (congrArg (·.1) (AddressSpace.clockwork_run c.cpu.reset c.space))
    (congrArg (·.2.1) (AddressSpace.clockwork_run c.cpu.reset c.space))
    (AddressSpace.wiring_run c.cpu.reset c.space) (Nat.zero_le 6)

theorem Sound.read {c : Console} (h : c.Sound) (addr : UInt16) : (c.read addr).2.Sound := by
  apply h.withSpace (c.space.clockwork_read addr)
  rw [c.space.cartridge_read addr]

theorem Sound.writeAll {c : Console} (h : c.Sound) (writes : List (UInt16 × UInt8)) :
    (c.writeAll writes).1.Sound :=
  h.withSpace
    (AddressSpace.writeAll_preserves (·.ppu.clockwork) AddressSpace.clockwork_write c.space writes)
    (AddressSpace.writeAll_preserves (·.cartridge.wiring) AddressSpace.wiring_write c.space writes)

theorem Sound.takeFrameComplete {c : Console} (h : c.Sound) : c.takeFrameComplete.2.Sound :=
  h.transfer rfl rfl rfl h.cyclesLeft_le

end Console

/-- What every clock keeps is kept by a run. -/
theorem Run.extend_preserves {P : Console → Prop} (hclock : ∀ c, P c → P c.clock.console)
    {stop : Console → Bool} {limit : Nat} {r : Run} (h : P r.console) :
    P (extend stop limit r).console := by
  induction limit generalizing r with
  | zero => exact h
  | succ limit ih =>
    unfold extend
    split
    · exact h
    · exact ih (hclock r.console h)

namespace Console

theorem Sound.stepInstruction {c : Console} (h : c.Sound) : c.stepInstruction.console.Sound := by
  apply Run.extend_preserves fun _ => Sound.clock
  exact Run.extend_preserves (fun _ => Sound.clock) h

theorem Sound.stepFrame {c : Console} (h : c.Sound) : c.stepFrame.console.Sound := by
  have hrun : (c.takeFrameComplete.2.runUntil (·.space.ppu.frameComplete)
      Beam.frameLength).console.Sound :=
    Run.extend_preserves (fun _ => Sound.clock) h.takeFrameComplete
  unfold Console.stepFrame
  dsimp only
  split
  · exact hrun
  · exact hrun.takeFrameComplete

/-- **Every reachable console is sound.** -/
theorem Reachable.sound {c : Console} (h : c.Reachable) : c.Sound := by
  induction h with
  | powerOn hload => exact sound_powerOn hload
  | reset _ ih => exact ih.reset
  | clock _ ih => exact ih.clock
  | stepInstruction _ ih => exact ih.stepInstruction
  | stepFrame _ ih => exact ih.stepFrame
  | read _ addr ih => exact ih.read addr
  | write _ addr value ih => exact ih.writeAll [(addr, value)]
  | loadProgram _ program ih => exact ih.writeAll (programWrites program)
  | requestNmi _ ih => exact ih.withCpu ih.cyclesLeft_le
  | requestIrq _ ih =>
    apply ih.withCpu
    show (Cpu.requestIrq _).cyclesLeft ≤ 6
    rw [Cpu.requestIrq_eq]
    exact ih.cyclesLeft_le
  | tickOn _ bus ih => exact ih.withCpu (Cpu.cyclesLeft_tick_le ih.cyclesLeft_le bus)
  | resetOn _ bus ih => exact ih.withCpu (Nat.zero_le 6)
  | exchange _ _ ih ihd => exact ih.withCpu ihd.cyclesLeft_le

end Console

end Nes
