import Nes.Console.AddressSpace
import Nes.Proofs.Bus.Path
import Nes.Proofs.Cartridge.Loading

/-!
# What accesses leave alone

Whoever reads and writes through the address space of the processor, the processor itself or the
outside, reaches memory and registers.  Some parts of the machine are out of reach: the clockwork of
the picture unit, which only the clock drives, and the wiring of the cartridge, on which it depends
what an address means.

## Main definitions

* `Ppu.clockwork`, `Ppu.driven`: what only the clock drives, and what no write reaches.
* `Cartridge.Fixed`: what stores leave alone.

## Main statements

* `Ppu.exists_writeVideo_eq`: storing a byte in picture memory changes memories only.
* `Ppu.writeScroll_eq`, `Ppu.writeAddress_eq`: what a byte of a pair changes.
* `AddressSpace.clockwork_run`, `AddressSpace.wiring_run`: no bus program reaches them.
* `Cartridge.Fixed.run`: no bus program changes what is fixed.
* `AddressSpace.eq_of_mem_writeEvents`: what a write tells is not about the processor.
-/

namespace Nes

/-! ### The clockwork -/

namespace Ppu

/-- What only the clock drives: the beam, the two signals to the rest of the machine and the number
of frames. -/
def clockwork (p : Ppu) : Beam × Bool × Bool × Nat :=
  (p.beam, p.nmiRequest, p.frameComplete, p.frameCount)

theorem clockwork_readRegister (p : Ppu) (cart : Cartridge) (register : Register) :
    (p.readRegister cart register).2.clockwork = p.clockwork := by
  cases register <;> rfl

/-- What no write reaches: the clockwork and the status register. -/
def driven (p : Ppu) : (Beam × Bool × Bool × Nat) × Status := (p.clockwork, p.status)

/-- Storing a byte in picture memory is a matter of the memories alone, whatever state the picture
unit is in otherwise. -/
theorem exists_writeVideo_eq (cart : Cartridge) (addr : UInt16) (value : UInt8) :
    ∃ (store : VideoMemory → VideoMemory) (cart' : Cartridge), ∀ p : Ppu,
      p.writeVideo cart addr value = ({ p with memory := store p.memory }, cart') := by
  unfold writeVideo
  dsimp only
  split
  · exact ⟨id, _, fun _ => rfl⟩
  · exact ⟨(·.set (.ofAddress cart.header.mirroring (addr &&& videoMask)) value), cart,
      fun _ => rfl⟩

/-- A byte for the scroll position is one of its two, and the next byte is the other one. -/
theorem writeScroll_eq (p : Ppu) (value : UInt8) : p.writeScroll value =
    { p with
      scrollX := if p.secondWrite then p.scrollX else value
      scrollY := if p.secondWrite then value else p.scrollY
      secondWrite := !p.secondWrite } := by
  unfold writeScroll
  cases p.secondWrite <;> rfl

/-- A byte for the address replaces its low byte or its high one, and the next byte the other. -/
theorem writeAddress_eq (p : Ppu) (value : UInt8) : p.writeAddress value =
    { p with
      videoAddress :=
        if p.secondWrite then (p.videoAddress &&& 0xFF00) ||| value.toUInt16
        else ((value.toUInt16 &&& 0x3F) <<< 8) ||| (p.videoAddress &&& 0x00FF)
      secondWrite := !p.secondWrite } := by
  unfold writeAddress
  cases p.secondWrite <;> rfl

theorem driven_writeVideo (p : Ppu) (cart : Cartridge) (addr : UInt16) (value : UInt8) :
    (p.writeVideo cart addr value).1.driven = p.driven := by
  obtain ⟨store, cart', h⟩ := exists_writeVideo_eq cart addr value
  rw [h]
  rfl

theorem driven_writeRegister (p : Ppu) (cart : Cartridge) (register : Register)
    (value : UInt8) : (p.writeRegister cart register value).1.driven = p.driven := by
  cases register with
  | videoData => exact driven_writeVideo p cart p.videoAddress value
  | scroll =>
    show (p.writeScroll value).driven = p.driven
    rw [writeScroll_eq]
    rfl
  | videoAddress =>
    show (p.writeAddress value).driven = p.driven
    rw [writeAddress_eq]
    rfl
  | control => rfl
  | mask => rfl
  | status => rfl
  | oamAddress => rfl
  | oamData => rfl

theorem clockwork_writeVideo (p : Ppu) (cart : Cartridge) (addr : UInt16) (value : UInt8) :
    (p.writeVideo cart addr value).1.clockwork = p.clockwork :=
  congrArg (·.1) (p.driven_writeVideo cart addr value)

theorem clockwork_writeRegister (p : Ppu) (cart : Cartridge) (register : Register)
    (value : UInt8) : (p.writeRegister cart register value).1.clockwork = p.clockwork :=
  congrArg (·.1) (p.driven_writeRegister cart register value)

end Ppu

/-! ### The wiring -/

namespace Ppu

/-- A register leads to the picture memory of the cartridge at most. -/
theorem writeRegister_cartridge (p : Ppu) (cart : Cartridge) (register : Register)
    (value : UInt8) : (p.writeRegister cart register value).2 = cart ∨
      ∃ cell, (p.writeRegister cart register value).2 = cart.setChr cell value := by
  cases register with
  | videoData =>
    unfold writeRegister writeVideo
    dsimp only
    split
    · next cart' htaken =>
      obtain ⟨cell, -, hcart⟩ := Cartridge.exists_setChr_of_writeChr? htaken
      exact .inr ⟨cell, hcart⟩
    · exact .inl rfl
  | control => exact .inl rfl
  | mask => exact .inl rfl
  | status => exact .inl rfl
  | oamAddress => exact .inl rfl
  | oamData => exact .inl rfl
  | scroll => exact .inl rfl
  | videoAddress => exact .inl rfl

theorem prg_writeRegister (p : Ppu) (cart : Cartridge) (register : Register) (value : UInt8) :
    (p.writeRegister cart register value).2.prg = cart.prg := by
  obtain h | ⟨cell, h⟩ := writeRegister_cartridge p cart register value
  · rw [h]
  · rw [h]
    rfl

end Ppu

/-! ### What stores leave alone -/

namespace Cartridge

/-- What neither a store to program memory nor one by way of the picture unit changes. -/
structure Fixed {δ : Type} (f : Cartridge → δ) : Prop where
  setPrg : ∀ cart cell value, f (setPrg cart cell value) = f cart
  writeVideo : ∀ (p : Ppu) cart addr value, f (p.writeVideo cart addr value).2 = f cart

theorem fixed_wiring : Fixed wiring where
  setPrg := wiring_setPrg
  writeVideo := by
    intro p cart addr value
    unfold Ppu.writeVideo
    dsimp only
    split
    · next cart' htaken =>
      obtain ⟨cell, -, rfl⟩ := exists_setChr_of_writeChr? htaken
      exact wiring_setChr cart cell value
    · rfl

theorem Fixed.writeRegister {δ : Type} {f : Cartridge → δ} (hf : Fixed f) (p : Ppu)
    (cart : Cartridge) (r : Ppu.Register) (value : UInt8) :
    f (p.writeRegister cart r value).2 = f cart := by
  cases r with
  | videoData => exact hf.writeVideo p cart p.videoAddress value
  | _ => rfl

end Cartridge

/-! ### Accesses of the processor -/

namespace AddressSpace

/-- The cartridge claims nothing in the lower half of the address space. -/
theorem target_of_lt (s : AddressSpace) {addr : UInt16} (h : addr < 0x8000) :
    s.target addr = innerTarget addr := by
  have hnone : s.cartridge.prgCell? addr = none := by
    rw [Cartridge.prgCell?, Mapper.prgOffset?, if_neg (UInt16.not_le.2 h)]
    rfl
  rw [target, hnone]

theorem write_control (s : AddressSpace) (value : UInt8) :
    s.write 0x2000 value = { s with ppu := { s.ppu with control := ⟨value⟩ } } := by
  have htarget : s.target 0x2000 = .register .control := s.target_of_lt (by decide)
  rw [write, htarget]
  rfl

theorem clockwork_read (s : AddressSpace) (addr : UInt16) :
    (s.read addr).2.ppu.clockwork = s.ppu.clockwork := by
  unfold read
  cases s.target addr with
  | register r => exact Ppu.clockwork_readRegister s.ppu s.cartridge r
  | prg cell => rfl
  | ram => rfl
  | unmapped => rfl

theorem clockwork_write (s : AddressSpace) (addr : UInt16) (value : UInt8) :
    (s.write addr value).ppu.clockwork = s.ppu.clockwork := by
  unfold write
  cases s.target addr with
  | register r => exact Ppu.clockwork_writeRegister s.ppu s.cartridge r value
  | prg cell => rfl
  | ram => rfl
  | unmapped => rfl

/-- Only writes change the cartridge. -/
theorem cartridge_read (s : AddressSpace) (addr : UInt16) :
    (s.read addr).2.cartridge = s.cartridge := by
  unfold read
  cases s.target addr <;> rfl

/-- **No bus program reaches the clockwork.** -/
theorem clockwork_run {α : Type} (x : BusM α) (s : AddressSpace) :
    (x.run s).bus.ppu.clockwork = s.ppu.clockwork :=
  BusM.run_preserves (fun s : AddressSpace => s.ppu.clockwork) clockwork_read clockwork_write x s

/-- What every write keeps is kept by many writes. -/
theorem writeAll_preserves {δ : Type} (f : AddressSpace → δ)
    (hw : ∀ s addr value, f (write s addr value) = f s) (s : AddressSpace)
    (writes : List (UInt16 × UInt8)) : f (s.writeAll writes).1 = f s := by
  unfold writeAll
  generalize (#[] : Array Event) = told
  induction writes generalizing s told with
  | nil => rfl
  | cons w writes ih => rw [List.foldl_cons, ih, hw]

/-- A write tells that nothing answers it, or that the picture unit kept it. -/
theorem eq_of_mem_writeEvents {s : AddressSpace} {addr : UInt16} {value : UInt8} {e : Event}
    (h : e ∈ s.writeEvents addr value) :
    e = .unmappedWrite addr value ∨ ∃ a, e = .patternWriteKept a value := by
  unfold writeEvents at h
  -- Only the data register and an address where nothing answers are told of.
  cases ht : s.target addr with
  | register r =>
    rw [ht] at h
    cases r with
    | videoData =>
      have hkept : e ∈ Ppu.writeVideoEvents s.cartridge s.ppu.videoAddress value := h
      unfold Ppu.writeVideoEvents at hkept
      dsimp only at hkept
      split at hkept
      · exact .inr ⟨_, List.mem_singleton.1 hkept⟩
      · exact absurd hkept List.not_mem_nil
    | _ => exact absurd h List.not_mem_nil
  | unmapped =>
    rw [ht] at h
    exact .inl (List.mem_singleton.1 h)
  | prg cell =>
    rw [ht] at h
    exact absurd h List.not_mem_nil
  | ram =>
    rw [ht] at h
    exact absurd h List.not_mem_nil

/-- No write tells of an interrupt. -/
theorem interruptTaken_notMem_writeEvents (s : AddressSpace) (addr : UInt16) (value : UInt8)
    (vector pc : UInt16) : .interruptTaken vector pc ∉ s.writeEvents addr value := by
  intro h
  obtain h | ⟨a, h⟩ := eq_of_mem_writeEvents h
  · exact Event.noConfusion h
  · exact Event.noConfusion h

end AddressSpace

/-! ### What is fixed stays -/

namespace Cartridge.Fixed

variable {δ : Type} {f : Cartridge → δ} (hf : Fixed f)

include hf

theorem write (s : AddressSpace) (addr : UInt16) (value : UInt8) :
    f (s.write addr value).cartridge = f s.cartridge := by
  unfold AddressSpace.write
  cases s.target addr with
  | register r => exact hf.writeRegister s.ppu s.cartridge r value
  | prg cell => exact hf.setPrg s.cartridge cell value
  | ram => rfl
  | unmapped => rfl

/-- **No bus program changes what is fixed.** -/
theorem run {α : Type} (x : BusM α) (s : AddressSpace) :
    f (x.run s).bus.cartridge = f s.cartridge := by
  refine BusM.run_preserves (fun s : AddressSpace => f s.cartridge) ?_ hf.write x s
  intro s addr
  exact congrArg f (s.cartridge_read addr)

theorem writeAll (s : AddressSpace) (writes : List (UInt16 × UInt8)) :
    f (s.writeAll writes).1.cartridge = f s.cartridge :=
  AddressSpace.writeAll_preserves (fun s => f s.cartridge) hf.write s writes

end Cartridge.Fixed

namespace AddressSpace

theorem wiring_write (s : AddressSpace) (addr : UInt16) (value : UInt8) :
    (s.write addr value).cartridge.wiring = s.cartridge.wiring :=
  Cartridge.fixed_wiring.write s addr value

/-- **No bus program changes the wiring.** -/
theorem wiring_run {α : Type} (x : BusM α) (s : AddressSpace) :
    (x.run s).bus.cartridge.wiring = s.cartridge.wiring :=
  Cartridge.fixed_wiring.run x s

end AddressSpace

end Nes
