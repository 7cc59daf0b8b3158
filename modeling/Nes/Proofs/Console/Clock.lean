import Nes.Console.Basic
import Nes.Proofs.Console.Access
import Nes.Proofs.Cpu.Handlers
import Nes.Proofs.Cpu.Timing

/-!
# One clock

In a clock the beam moves on by one dot, the processor may make a cycle, and the request line of the
picture unit is read and cleared.  Here it is stated what becomes of each of the parts that decide
about the non-maskable interrupt: the beam, the line, the latch of the processor, the cycles that
are left of the instruction in flight and the count of clocks.

The handler of a non-maskable interrupt is entered in the first clock in which the processor could
start an instruction.  How far away that clock is can be computed from the count of clocks and the
cycles that are left, and the distance shrinks with every clock.

## Main definitions

* `Event.isNmiEntry`: the handler of a non-maskable interrupt was entered.
* `Cpu.entersNmi`, `Console.entersNmi`: that happens in the next cycle, and in the next clock.
* `Console.clocksToStart`: how many clocks it takes until the processor starts something.

## Main statements

* `Cpu.countP_events_tick`, `Cpu.pendingNmi_tick`: what a cycle does to the latch.
* `Console.countP_events_clock`, `Console.pendingNmi_clock`: what a clock does to it.
* `Console.clocksToStart_clock`: the distance shrinks.
-/

namespace Nes

/-- The handler of a non-maskable interrupt was entered. -/
def Event.isNmiEntry : Event → Bool
  | .interruptTaken vector _ => vector == nmiVector
  | _ => false

/-- The same of an activity. -/
def Activity.isNmiEntry : Activity → Bool
  | .event e => e.isNmiEntry
  | _ => false

theorem countP_isNmiEntry (t : List Activity) :
    t.countP Activity.isNmiEntry = (handlers t).count nmiVector := by
  rw [handlers, List.count_eq_countP, List.countP_filterMap]
  congr 1
  funext a
  cases a with
  | read addr value => rfl
  | write addr value => rfl
  | event e => cases e <;> rfl

/-! ### A cycle of the processor -/

namespace Cpu

/-- The next cycle enters the handler of a non-maskable interrupt. -/
def entersNmi (cpu : Cpu) : Bool := cpu.halted.isNone && cpu.atBoundary && cpu.pendingNmi

theorem entersNmi_eq_true_iff {cpu : Cpu} : cpu.entersNmi = true ↔
    cpu.halted = none ∧ cpu.cyclesLeft = 0 ∧ cpu.pendingNmi = true := by
  simp [entersNmi, atBoundary, and_assoc]

theorem entersNmi_eq (cpu : Cpu) : cpu.entersNmi = (cpu.taken? == some nmiVector) := by
  rw [Bool.eq_iff_iff, entersNmi_eq_true_iff, beq_iff_eq, taken?_eq_nmi_iff]
  exact and_assoc.symm

/-- The path of a cycle enters that handler once or never, and takes the latch with it. -/
theorem TickPath.entersNmi {cpu : Cpu} {t : List Activity} {o : Ticked} (h : TickPath cpu t o) :
    t.countP Activity.isNmiEntry = cpu.entersNmi.toNat ∧
      o.cpu.pendingNmi = (cpu.pendingNmi && !cpu.entersNmi) := by
  obtain ⟨hentered, hlatch, -⟩ := h.handlers
  rw [countP_isNmiEntry, hentered, hlatch, entersNmi_eq]
  refine ⟨?_, rfl⟩
  cases cpu.taken? with
  | none => rfl
  | some vector =>
    rw [Option.toList_some, List.count_singleton, Option.some_beq_some]
    cases vector == nmiVector <;> rfl

/-- **The handlers that a cycle enters are told.** -/
theorem countP_events_tick (cpu : Cpu) (s : AddressSpace) :
    (cpu.tick.run s).events.countP Event.isNmiEntry = cpu.entersNmi.toNat := by
  have hbus : ∀ (b : AddressSpace) addr value, ∀ e ∈ Bus.writeEvents b addr value,
      Activity.isNmiEntry (.event e) = false := by
    intro b addr value e he
    cases e with
    | interruptTaken vector pc =>
      exact absurd he (b.interruptTaken_notMem_writeEvents addr value vector pc)
    | _ => rfl
  -- What the address space tells is never about interrupts, so only the path counts.
  have hpath := BusM.filter_trace Activity.isNmiEntry hbus cpu.tick s
  have htick := (cpu.tickPath_run s).entersNmi.1
  have hfun : (fun a => ((Activity.event? a).map Event.isNmiEntry).getD false) =
      Activity.isNmiEntry := by
    funext a
    cases a <;> rfl
  rw [Outcome.events, List.countP_filterMap, hfun, List.countP_eq_length_filter, hpath,
    ← List.countP_eq_length_filter, htick]

/-- **A cycle clears the latch when it enters the handler, and only then.** -/
theorem pendingNmi_tick {β : Type} [Bus β] (cpu : Cpu) (bus : β) :
    (cpu.tick.run bus).value.cpu.pendingNmi = (cpu.pendingNmi && !cpu.entersNmi) :=
  (cpu.tickPath_run bus).entersNmi.2

/-- A cycle that does not fail was made by a running processor and leaves one. -/
theorem halted_tick {β : Type} [Bus β] {cpu : Cpu} {bus : β}
    (h : (cpu.tick.run bus).value.result = .ok ()) :
    (cpu.tick.run bus).value.cpu.halted = none := by
  have htick := cpu.tickPath_run bus
  generalize (cpu.tick.run bus).value = o at htick h ⊢
  generalize cpu.tick.path bus = t at htick
  cases htick with
  | halted | undocumented => exact absurd h nofun
  | countDown hh | nmi hh | irq hh | executed hh => exact hh

/-- A cycle with an instruction in flight takes one of the cycles that are left of it. -/
theorem cyclesLeft_tick_of_busy {β : Type} [Bus β] {cpu : Cpu} (hh : cpu.halted = none)
    (hc : cpu.cyclesLeft ≠ 0) (bus : β) :
    (cpu.tick.run bus).value.cpu.cyclesLeft = cpu.cyclesLeft - 1 := by
  rw [tick_of_busy hh hc]
  rfl

end Cpu

/-! ### A clock of the console -/

namespace Console

theorem cpuIsDue_iff (c : Console) : c.cpuIsDue = true ↔ c.systemClock % 3 = 0 := by
  rw [cpuIsDue, beq_iff_eq, clocksPerCycle]

/-- What the processor can reach after the dot of the next clock. -/
def dotted (c : Console) : AddressSpace := { c.space with ppu := c.space.ppu.dot }

/-- What the part of the processor in the next clock leaves. -/
def cycle (c : Console) : Outcome Cpu.Ticked AddressSpace := cpuPart c.cpuIsDue c.cpu c.dotted

/-- The next clock enters the handler of a non-maskable interrupt. -/
def entersNmi (c : Console) : Bool := c.cpuIsDue && c.cpu.entersNmi

theorem clock_eq (c : Console) : c.clock =
    { console :=
        { cpu := if c.cycle.bus.ppu.nmiRequest then c.cycle.value.cpu.requestNmi
            else c.cycle.value.cpu
          space := { c.cycle.bus with ppu := { c.cycle.bus.ppu with nmiRequest := false } }
          systemClock := c.systemClock + 1 }
      result := c.cycle.value.result
      events := c.cycle.events } := rfl

theorem clockwork_cycle (c : Console) :
    c.cycle.bus.ppu.clockwork = c.space.ppu.dot.clockwork := by
  unfold cycle cpuPart
  split
  · exact AddressSpace.clockwork_run c.cpu.tick c.dotted
  · rfl

/-- The beam moves on by one dot. -/
theorem beam_clock (c : Console) : c.clock.console.space.ppu.beam = c.space.ppu.beam.advance :=
  congrArg (·.1) c.clockwork_cycle

/-- The request line is clear after every clock. -/
theorem nmiRequest_clock (c : Console) : c.clock.console.space.ppu.nmiRequest = false := rfl

theorem systemClock_clock (c : Console) : c.clock.console.systemClock = c.systemClock + 1 := rfl

/-- The processor sees the request of the dot of this clock, whatever was done to the registers of
the picture unit in between. -/
theorem nmiRequest_cycle {c : Console} (h : c.space.ppu.nmiRequest = false) :
    c.cycle.bus.ppu.nmiRequest = c.space.ppu.raisesNmi := by
  have hline : c.cycle.bus.ppu.nmiRequest = c.space.ppu.dot.nmiRequest :=
    congrArg (·.2.1) c.clockwork_cycle
  rw [hline]
  show (c.space.ppu.nmiRequest || c.space.ppu.raisesNmi) = c.space.ppu.raisesNmi
  rw [h, Bool.false_or]

theorem pendingNmi_cycle (c : Console) :
    c.cycle.value.cpu.pendingNmi = (c.cpu.pendingNmi && !c.entersNmi) := by
  unfold cycle cpuPart entersNmi
  cases c.cpuIsDue with
  | true => exact c.cpu.pendingNmi_tick c.dotted
  | false => simp

/-- **The latch after a clock.**  It is set if the dot of the clock raises an interrupt, or if it was
set and the clock did not enter the handler. -/
theorem pendingNmi_clock {c : Console} (h : c.space.ppu.nmiRequest = false) :
    c.clock.console.cpu.pendingNmi =
      (c.space.ppu.raisesNmi || (c.cpu.pendingNmi && !c.entersNmi)) := by
  rw [clock_eq, ← pendingNmi_cycle, nmiRequest_cycle h]
  cases c.space.ppu.raisesNmi with
  | true => rfl
  | false => rfl

/-- **The handlers that a clock enters are told.** -/
theorem countP_events_clock (c : Console) :
    c.clock.events.countP Event.isNmiEntry = c.entersNmi.toNat := by
  show c.cycle.events.countP Event.isNmiEntry = _
  unfold cycle cpuPart entersNmi
  cases c.cpuIsDue with
  | true => exact c.cpu.countP_events_tick c.dotted
  | false => rfl

/-- Requesting an interrupt changes the latch only. -/
theorem cpu_clock_congr {δ : Type} (f : Cpu → δ) (hf : ∀ cpu : Cpu, f cpu.requestNmi = f cpu)
    (c : Console) : f c.clock.console.cpu = f c.cycle.value.cpu := by
  rw [clock_eq]
  dsimp only
  split
  · exact hf _
  · rfl

/-- A clock that does not fail leaves a running processor if it found one. -/
theorem halted_clock {c : Console} (hh : c.cpu.halted = none) (h : c.clock.result = .ok ()) :
    c.clock.console.cpu.halted = none := by
  rw [cpu_clock_congr (·.halted) fun _ => rfl]
  have hresult : c.cycle.value.result = .ok () := h
  unfold cycle cpuPart at hresult ⊢
  split
  · next hdue =>
    rw [if_pos hdue] at hresult
    exact Cpu.halted_tick hresult
  · exact hh

/-- Six cycles at most are left of the instruction in flight. -/
theorem cyclesLeft_clock_le {c : Console} (h : c.cpu.cyclesLeft ≤ 6) :
    c.clock.console.cpu.cyclesLeft ≤ 6 := by
  rw [cpu_clock_congr (·.cyclesLeft) fun _ => rfl]
  unfold cycle cpuPart
  split
  · exact Cpu.cyclesLeft_tick_le h c.dotted
  · exact h

/-- No clock changes what is fixed of the cartridge. -/
theorem fixed_clock {δ : Type} {f : Cartridge → δ} (hf : Cartridge.Fixed f) (c : Console) :
    f c.clock.console.space.cartridge = f c.space.cartridge := by
  show f c.cycle.bus.cartridge = _
  unfold cycle cpuPart
  split
  · exact hf.run c.cpu.tick c.dotted
  · rfl

/-! ### Until the processor starts something -/

/-- How many clocks it takes until the processor starts an instruction or enters a handler, that
clock included: those to its next cycle, and three for each cycle left. -/
def clocksToStart (c : Console) : Nat :=
  (3 - c.systemClock % 3) % 3 + 3 * c.cpu.cyclesLeft + 1

/-- It takes 21 clocks at most. -/
theorem clocksToStart_le {c : Console} (h : c.cpu.cyclesLeft ≤ 6) : c.clocksToStart ≤ 21 := by
  unfold clocksToStart
  omega

/-- A waiting interrupt is taken when the processor starts something. -/
theorem entersNmi_eq_true_iff {c : Console} (hh : c.cpu.halted = none) :
    c.entersNmi = true ↔ c.cpu.pendingNmi = true ∧ c.clocksToStart = 1 := by
  have hstart : c.clocksToStart = 1 ↔ c.systemClock % 3 = 0 ∧ c.cpu.cyclesLeft = 0 := by
    unfold clocksToStart
    omega
  rw [entersNmi, Bool.and_eq_true, cpuIsDue_iff, Cpu.entersNmi_eq_true_iff, hstart]
  exact ⟨fun ⟨h₁, _, h₂, h₃⟩ => ⟨h₃, h₁, h₂⟩, fun ⟨h₃, h₁, h₂⟩ => ⟨h₁, hh, h₂, h₃⟩⟩

/-- **Every clock in which the processor starts nothing brings the start nearer by one.** -/
theorem clocksToStart_clock {c : Console} (hh : c.cpu.halted = none) (h : c.clocksToStart ≠ 1) :
    c.clock.console.clocksToStart + 1 = c.clocksToStart := by
  have hleft := cpu_clock_congr (·.cyclesLeft) (fun _ => rfl) c
  unfold clocksToStart at h ⊢
  rw [systemClock_clock, hleft]
  unfold cycle cpuPart
  split
  · next hdue =>
    rw [cpuIsDue_iff] at hdue
    have hc : c.cpu.cyclesLeft ≠ 0 := by omega
    rw [Cpu.cyclesLeft_tick_of_busy hh hc]
    omega
  · next hdue =>
    rw [cpuIsDue_iff] at hdue
    dsimp only
    omega

end Console

end Nes
