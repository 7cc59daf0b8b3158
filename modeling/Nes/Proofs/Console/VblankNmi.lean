import Nes.Proofs.Console.Reachable

/-!
# The interrupt of the vertical blank

When the vertical blank begins, the picture unit requests a non-maskable interrupt if that is
enabled.  The request passes a line and a latch of one bit each before the processor takes it, so it
could be lost if the latch were still set, and it could be delivered twice if line or latch were
read without being cleared.  Neither happens.

The latch is empty again in time, because the processor starts something at least every 21 clocks
and the next vertical blank is 89342 clocks away.  The invariant behind this compares the position
of the beam with the distance to the next start.

## Main definitions

* `Call`, `Console.call`, `Console.after`: what is done to a console from outside.
* `Console.Succeeds`: no clock in a list of calls fails.
* `Console.atNmiEdge`: the next dot raises an interrupt.
* `Console.nmiEntries`, `Console.nmiEdges`: what is counted.
* `Console.Prompt`: the invariant.

## Main statements

* `Console.Prompt.call`: every call keeps the invariant.
* `Console.Prompt.served`: an interrupt that waits is taken when the processor starts something.
* `Console.nmi_exactly_once`: no interrupt is lost and none is delivered twice.
-/

namespace Nes

/-- What is done to a console from outside: clocks, accesses to memory, and requests for maskable
interrupts. -/
inductive Call
  | clock
  | read (addr : UInt16)
  | write (addr : UInt16) (value : UInt8)
  | peek (addr : UInt16)
  | requestIrq
  deriving DecidableEq

namespace Console

/-! ### Calls -/

/-- What a call leaves; only clocks can fail. -/
def call (c : Console) : Call → Clocked
  | .clock => c.clock
  | .read addr => ⟨(c.read addr).2, .ok (), []⟩
  | .write addr value => ⟨(c.write addr value).1, .ok (), (c.write addr value).2.toList⟩
  | .peek _ => ⟨c, .ok (), []⟩
  | .requestIrq => ⟨c.requestIrq, .ok (), []⟩

/-- The console after a list of calls. -/
def after (c : Console) (calls : List Call) : Console :=
  calls.foldl (fun c a => (c.call a).console) c

/-- No clock fails. -/
def Succeeds : Console → List Call → Prop
  | _, [] => True
  | c, a :: calls => (c.call a).result = .ok () ∧ Succeeds (c.call a).console calls

/-- The next dot is the one with which the vertical blank begins, and interrupts are enabled. -/
def atNmiEdge (c : Console) : Bool :=
  c.space.ppu.beam == ⟨241, 1⟩ && c.space.ppu.control.bits &&& 0x80 != 0

/-- How often the handler of a non-maskable interrupt is entered during a list of calls. -/
def nmiEntries : Console → List Call → Nat
  | _, [] => 0
  | c, a :: calls =>
    (c.call a).events.countP Event.isNmiEntry + nmiEntries (c.call a).console calls

/-- How many clocks of a list of calls begin the vertical blank with interrupts enabled. -/
def nmiEdges : Console → List Call → Nat
  | _, [] => 0
  | c, a :: calls => (a == .clock && c.atNmiEdge).toNat + nmiEdges (c.call a).console calls

theorem after_cons (c : Console) (a : Call) (calls : List Call) :
    c.after (a :: calls) = (c.call a).console.after calls := rfl

theorem after_append (c : Console) (calls calls' : List Call) :
    c.after (calls ++ calls') = (c.after calls).after calls' := by
  rw [after, List.foldl_append]
  rfl

theorem succeeds_append {c : Console} {calls calls' : List Call} :
    c.Succeeds (calls ++ calls') ↔ c.Succeeds calls ∧ (c.after calls).Succeeds calls' := by
  induction calls generalizing c with
  | nil => exact (true_and _).symm ▸ Iff.rfl
  | cons a calls ih =>
    rw [List.cons_append, Succeeds, Succeeds, ih, after_cons, and_assoc]

/-- A call other than a clock leaves the clockwork and the wiring alone, and of the processor it
changes the latch for maskable interrupts at most. -/
theorem call_of_ne_clock (c : Console) {a : Call} (ha : a ≠ .clock) :
    (c.call a).console.systemClock = c.systemClock ∧
      (c.call a).console.space.ppu.clockwork = c.space.ppu.clockwork ∧
      (c.call a).console.space.cartridge.wiring = c.space.cartridge.wiring ∧
      ∃ irq, (c.call a).console.cpu = { c.cpu with pendingIrq := irq } := by
  cases a with
  | clock => exact absurd rfl ha
  | read addr =>
    refine ⟨rfl, c.space.clockwork_read addr, ?_, c.cpu.pendingIrq, rfl⟩
    show (c.space.read addr).2.cartridge.wiring = _
    rw [AddressSpace.cartridge_read]
  | write addr value =>
    exact ⟨rfl, c.space.clockwork_write addr value, c.space.wiring_write addr value,
      c.cpu.pendingIrq, rfl⟩
  | peek addr => exact ⟨rfl, rfl, rfl, c.cpu.pendingIrq, rfl⟩
  | requestIrq => exact ⟨rfl, rfl, rfl, _, c.cpu.requestIrq_eq⟩

/-- The handlers that a call enters are told; only clocks enter any. -/
theorem countP_events_call (c : Console) (a : Call) :
    (c.call a).events.countP Event.isNmiEntry = (a == .clock && c.entersNmi).toNat := by
  cases a with
  | clock => exact c.countP_events_clock
  | write addr value =>
    have htold : (c.write addr value).2.toList = c.space.writeEvents addr value := by
      simp [write, writeAll, AddressSpace.writeAll]
    show (c.write addr value).2.toList.countP Event.isNmiEntry = 0
    rw [htold, List.countP_eq_zero]
    intro e he
    cases e with
    | interruptTaken vector pc =>
      exact absurd he (c.space.interruptTaken_notMem_writeEvents addr value vector pc)
    | _ => exact Bool.false_ne_true
  | read addr => rfl
  | peek addr => rfl
  | requestIrq => rfl

/-! ### The invariant -/

theorem raisesNmi_eq (c : Console) : c.space.ppu.raisesNmi = c.atNmiEdge := by
  rw [Bool.eq_iff_iff]
  simp only [Ppu.raisesNmi, Beam.entersVblank, Beam.vblankLine, Ppu.Control.nmiEnabled, atNmiEdge,
    Bool.and_eq_true, beq_iff_eq]
  generalize c.space.ppu.beam = b
  obtain ⟨scanline, cycle⟩ := b
  simp only [Beam.mk.injEq]
  exact and_congr_left fun _ => and_comm

/-- The position of the beam after the dot with which the vertical blank begins. -/
def edgePosition : Int := 82524

theorem position_of_atNmiEdge {c : Console} (h : c.atNmiEdge = true) :
    c.space.ppu.beam.position + 1 = edgePosition := by
  have hbeam : c.space.ppu.beam = ⟨241, 1⟩ := by
    rw [atNmiEdge, Bool.and_eq_true, beq_iff_eq] at h
    exact h.1
  rw [hbeam]
  rfl

/-- A sound and running console in which an interrupt that waits was raised by the last vertical
blank, and is taken at most 21 clocks after that. -/
structure Prompt (c : Console) : Prop where
  /-- The console is sound. -/
  sound : c.Sound
  /-- The processor is running. -/
  running : c.cpu.halted = none
  /-- The vertical blank is not over before the processor starts something. -/
  inTime : c.cpu.pendingNmi = true → edgePosition ≤ c.space.ppu.beam.position ∧
    c.space.ppu.beam.position + c.clocksToStart ≤ edgePosition + 21

/-- The latch is empty when an interrupt is raised. -/
theorem Prompt.pendingNmi_of_atNmiEdge {c : Console} (h : c.Prompt) (hedge : c.atNmiEdge = true) :
    c.cpu.pendingNmi = false := by
  have hpos := position_of_atNmiEdge hedge
  cases hp : c.cpu.pendingNmi with
  | false => rfl
  | true =>
    have hin := (h.inTime hp).1
    omega

/-- The latch after a call. -/
theorem Prompt.pendingNmi_call {c : Console} (h : c.Prompt) (a : Call) :
    (c.call a).console.cpu.pendingNmi = (a == .clock && c.atNmiEdge ||
      c.cpu.pendingNmi && !(a == .clock && c.entersNmi)) := by
  by_cases ha : a = .clock
  · subst ha
    show c.clock.console.cpu.pendingNmi = _
    rw [pendingNmi_clock h.sound.nmiRequest, raisesNmi_eq]
    rfl
  · obtain ⟨-, -, -, irq, hcpu⟩ := c.call_of_ne_clock ha
    rw [hcpu, beq_eq_false_iff_ne.2 ha]
    simp

/-- A clock keeps an interrupt waiting only as long as the time suffices. -/
theorem Prompt.clock {c : Console} (h : c.Prompt) (hok : c.clock.result = .ok ()) :
    c.clock.console.Prompt where
  sound := h.sound.clock
  running := halted_clock h.running hok
  inTime := by
    intro hp
    have hadvance := Beam.position_advance h.sound.inFrame
    have hstart := clocksToStart_le h.sound.clock.cyclesLeft_le
    rw [pendingNmi_clock h.sound.nmiRequest, raisesNmi_eq, Bool.or_eq_true] at hp
    rw [beam_clock, hadvance]
    simp only [Beam.frameLength]
    rcases hp with hedge | hwait
    · -- The interrupt is raised by this clock, and the processor starts something in time.
      have hpos := position_of_atNmiEdge hedge
      rw [hpos, edgePosition]
      omega
    · -- It was waiting and goes on to do so, and the start has come nearer.
      rw [Bool.and_eq_true, Bool.not_eq_true', Bool.eq_false_iff, ne_eq,
        entersNmi_eq_true_iff h.running] at hwait
      obtain ⟨hp, hnot⟩ := hwait
      obtain ⟨hlow, hhigh⟩ := h.inTime hp
      have hnear := clocksToStart_clock h.running fun hone => hnot ⟨hp, hone⟩
      rw [edgePosition] at hlow hhigh ⊢
      omega

/-- **Every call keeps the invariant.** -/
theorem Prompt.call {c : Console} (h : c.Prompt) {a : Call} (hok : (c.call a).result = .ok ()) :
    (c.call a).console.Prompt := by
  -- Only a clock moves the beam or lets the processor start something.
  by_cases ha : a = .clock
  · subst ha
    exact h.clock hok
  · obtain ⟨hclock, hwork, hwiring, irq, hcpu⟩ := c.call_of_ne_clock ha
    have hbeam : (c.call a).console.space.ppu.beam = c.space.ppu.beam := congrArg (·.1) hwork
    refine ⟨?_, ?_, ?_⟩
    · apply h.sound.transfer hbeam (congrArg (·.2.1) hwork) hwiring
      rw [hcpu]
      exact h.sound.cyclesLeft_le
    · rw [hcpu]
      exact h.running
    · rw [hbeam, clocksToStart, hclock, hcpu]
      exact h.inTime

/-- So does every list of calls. -/
theorem Prompt.after {c : Console} (h : c.Prompt) {calls : List Call} (hs : c.Succeeds calls) :
    (c.after calls).Prompt := by
  induction calls generalizing c with
  | nil => exact h
  | cons a calls ih => exact ih (h.call hs.1) hs.2

theorem prompt_of_reachable {c : Console} (hc : c.Reachable) (hnmi : c.cpu.pendingNmi = false)
    (hrun : c.cpu.halted = none) : c.Prompt where
  sound := hc.sound
  running := hrun
  inTime := fun hp => absurd hp (hnmi ▸ Bool.false_ne_true)

/-! ### Delivery -/

/-- A call enters a handler or keeps the interrupt waiting, and waits for one more if it raises
one. -/
theorem Prompt.nmi_call {c : Console} (h : c.Prompt) (a : Call) :
    (c.call a).events.countP Event.isNmiEntry + (c.call a).console.cpu.pendingNmi.toNat =
      c.cpu.pendingNmi.toNat + (a == .clock && c.atNmiEdge).toNat := by
  have hedge := h.pendingNmi_of_atNmiEdge
  have henter : c.entersNmi = true → c.cpu.pendingNmi = true := fun he =>
    ((entersNmi_eq_true_iff h.running).1 he).1
  -- A handler is entered only if an interrupt waits, and none waits when one is raised.
  rw [countP_events_call, h.pendingNmi_call]
  cases he : c.entersNmi with
  | true =>
    rw [henter he] at hedge ⊢
    rw [Bool.eq_false_iff.2 fun h' => absurd (hedge h') nofun]
    cases a == .clock <;> rfl
  | false =>
    cases hr : c.atNmiEdge with
    | true =>
      rw [hedge hr]
      cases a == .clock <;> rfl
    | false => cases a == .clock <;> cases c.cpu.pendingNmi <;> rfl

/-- **Entries and interrupts that wait balance.** -/
theorem Prompt.nmi_balance {c : Console} (h : c.Prompt) {calls : List Call}
    (hs : c.Succeeds calls) :
    c.nmiEntries calls + (c.after calls).cpu.pendingNmi.toNat =
      c.cpu.pendingNmi.toNat + c.nmiEdges calls := by
  -- By induction on the calls: each keeps the invariant, and balances by it.
  induction calls generalizing c with
  | nil => exact Nat.add_comm 0 _
  | cons a calls ih =>
    have hhead := h.nmi_call a
    have htail := ih (h.call hs.1) hs.2
    rw [nmiEntries, nmiEdges, after_cons]
    omega

/-- **An interrupt that waits is taken when the processor starts something.** -/
theorem Prompt.served {c : Console} (h : c.Prompt) (hp : c.cpu.pendingNmi = true)
    {calls : List Call} (hs : c.Succeeds calls) (hn : c.clocksToStart ≤ calls.count .clock) :
    ∃ before rest, calls = before ++ .clock :: rest ∧
      before.count .clock < c.clocksToStart ∧
      (c.after before).clock.events.countP Event.isNmiEntry = 1 := by
  have hpos : 0 < c.clocksToStart := Nat.succ_pos _
  -- By induction on the calls: the distance shrinks with each clock, until the start is reached.
  induction calls generalizing c with
  | nil =>
    rw [List.count_nil] at hn
    omega
  | cons a calls ih =>
    by_cases ha : a = .clock
    · subst ha
      -- The start is reached with this clock or later.
      by_cases hone : c.clocksToStart = 1
      · refine ⟨[], calls, rfl, hpos, ?_⟩
        show c.clock.events.countP Event.isNmiEntry = 1
        rw [countP_events_clock, (entersNmi_eq_true_iff h.running).2 ⟨hp, hone⟩]
        rfl
      · have hnear := clocksToStart_clock h.running hone
        have hnot : c.entersNmi = false := Bool.eq_false_iff.2 fun he =>
          hone ((entersNmi_eq_true_iff h.running).1 he).2
        have hp' : c.clock.console.cpu.pendingNmi = true := by
          rw [pendingNmi_clock h.sound.nmiRequest, hp, hnot, Bool.not_false, Bool.and_true,
            Bool.or_true]
        rw [List.count_cons_self] at hn
        obtain ⟨before, rest, rfl, hlt, hent⟩ := ih (h.clock hs.1) hp' hs.2
          (by omega) (Nat.succ_pos _)
        refine ⟨.clock :: before, rest, rfl, ?_, hent⟩
        rw [List.count_cons_self]
        omega
    · obtain ⟨hclock, -, -, irq, hcpu⟩ := c.call_of_ne_clock ha
      have hstart : (c.call a).console.clocksToStart = c.clocksToStart := by
        rw [clocksToStart, hclock, hcpu, clocksToStart]
      have hp' : (c.call a).console.cpu.pendingNmi = true := by
        rw [hcpu]
        exact hp
      rw [List.count_cons_of_ne ha] at hn
      obtain ⟨before, rest, rfl, hlt, hent⟩ := ih (h.call hs.1) hp' hs.2
        (by rw [hstart]; exact hn) (Nat.succ_pos _)
      refine ⟨a :: before, rest, rfl, ?_, hent⟩
      rw [List.count_cons_of_ne ha, ← hstart]
      exact hlt

/-- **An interrupt that is raised is taken within 21 clocks.** -/
theorem Prompt.served_after_edge {c : Console} (h : c.Prompt) (hedge : c.atNmiEdge = true)
    (hok : c.clock.result = .ok ()) {calls : List Call} (hs : c.clock.console.Succeeds calls)
    (hlong : 21 ≤ calls.count .clock) :
    ∃ before rest, calls = before ++ .clock :: rest ∧ before.count .clock < 21 ∧
      (c.clock.console.after before).clock.events.countP Event.isNmiEntry = 1 := by
  have h' := h.clock hok
  have hp : c.clock.console.cpu.pendingNmi = true := by
    rw [pendingNmi_clock h.sound.nmiRequest, raisesNmi_eq, hedge, Bool.true_or]
  have hstart := clocksToStart_le h'.sound.cyclesLeft_le
  obtain ⟨before, rest, hcalls, hlt, hent⟩ := h'.served hp hs (Nat.le_trans hstart hlong)
  exact ⟨before, rest, hcalls, Nat.lt_of_lt_of_le hlt hstart, hent⟩

/-- When an interrupt waits after a call. -/
theorem Prompt.pendingNmi_call_iff {c : Console} (h : c.Prompt) (a : Call) :
    (c.call a).console.cpu.pendingNmi = true ↔ (a = .clock ∧ c.atNmiEdge = true) ∨
      (c.cpu.pendingNmi = true ∧ (c.call a).events.countP Event.isNmiEntry = 0) := by
  rw [h.pendingNmi_call, countP_events_call, Bool.or_eq_true, Bool.and_eq_true, Bool.and_eq_true,
    beq_iff_eq, Bool.not_eq_true', Bool.toNat_eq_zero]

/-! ### Reaching the vertical blank -/

theorem Reachable.call {c : Console} (h : c.Reachable) (a : Call) :
    (c.call a).console.Reachable := by
  cases a with
  | clock => exact h.clock
  | read addr => exact h.read addr
  | write addr value => exact h.write addr value
  | peek addr => exact h
  | requestIrq => exact h.requestIrq

theorem Reachable.after {c : Console} (h : c.Reachable) (calls : List Call) :
    (c.after calls).Reachable := by
  induction calls generalizing c with
  | nil => exact h
  | cons a calls ih => exact ih (h.call a)

/-- Whatever the processor does, each clock moves the beam on by one dot and is counted. -/
theorem after_clocks (c : Console) (n : Nat) :
    (c.after (List.replicate n .clock)).space.ppu.beam = c.space.ppu.beam.advanceBy n ∧
      (c.after (List.replicate n .clock)).systemClock = c.systemClock + n := by
  induction n generalizing c with
  | zero => exact ⟨rfl, rfl⟩
  | succ n ih =>
    obtain ⟨hbeam, hcount⟩ := ih c.clock.console
    rw [List.replicate_succ, after_cons]
    refine ⟨hbeam.trans ?_, hcount.trans ?_⟩
    · rw [beam_clock]
      rfl
    · rw [systemClock_clock]
      omega

/-- A clock in which the processor makes no cycle does not fail. -/
theorem result_clock_of_not_due {c : Console} (h : c.cpuIsDue = false) :
    c.clock.result = .ok () := by
  show c.cycle.value.result = _
  rw [cycle, cpuPart, h]
  rfl

/-- The vertical blank can be reached. -/
theorem exists_atVblank : ∃ c : Console, c.Reachable ∧ c.cpu = {} ∧
    c.space.ppu.beam = ⟨241, 1⟩ ∧ c.systemClock = 82523 := by
  obtain ⟨image, cartridge, hload⟩ := Cartridge.exists_load
  have hon := Reachable.powerOn hload
  obtain ⟨n, hn⟩ : ∃ n : Nat, n = 82523 := ⟨_, rfl⟩
  have hblank := hon.after (List.replicate n .clock)
  obtain ⟨hbeam, hclock⟩ := after_clocks (powerOn cartridge) n
  have hpos := (Beam.inFrame_default.advanceBy n).2
  -- What the processor did in these clocks does not matter.
  generalize (powerOn cartridge).after (List.replicate n .clock) = c at hblank hbeam hclock
  have hstart : ({} : Beam).position = 0 := rfl
  have hcount : (powerOn cartridge).systemClock = 0 := rfl
  -- The processor is exchanged for a fresh one, which has not halted.
  refine ⟨{ c with cpu := {} }, hblank.exchange hon, rfl, ?_, ?_⟩
  · refine hblank.sound.inFrame.eq_of_position (by decide) ?_
    rw [hbeam]
    refine hpos.trans ?_
    show _ = (82523 : Int)
    omega
  · show c.systemClock = 82523
    omega

/-- **No interrupt of the vertical blank is lost, and none is delivered twice.**  From a reachable
console in which none waits and the processor runs, and through all calls of which no clock fails:

* the handler is entered once for each clock that begins the vertical blank with interrupts enabled,
  but for one that may still wait at the end;
* the request line is clear between calls;
* an interrupt waits after a call if and only if the call raised it by the dot that begins the
  vertical blank, whatever else was done to the registers of the picture unit in the same clock or
  since, or it waited before and the call did not enter the handler;
* the handler is entered at most 21 clocks after the clock that raised the interrupt. -/
theorem nmi_exactly_once {c : Console} (hc : c.Reachable) (hnmi : c.cpu.pendingNmi = false)
    (hrun : c.cpu.halted = none) {calls : List Call} (hs : c.Succeeds calls) :
    c.nmiEntries calls + (c.after calls).cpu.pendingNmi.toNat = c.nmiEdges calls ∧
    (∀ before rest, calls = before ++ rest →
      (c.after before).space.ppu.nmiRequest = false) ∧
    (∀ before a rest, calls = before ++ a :: rest →
      let d := c.after before
      (d.call a).console.cpu.pendingNmi = true ↔
        (a = .clock ∧ d.atNmiEdge = true) ∨
          (d.cpu.pendingNmi = true ∧ (d.call a).events.countP Event.isNmiEntry = 0)) ∧
    (∀ before rest, calls = before ++ .clock :: rest → (c.after before).atNmiEdge = true →
      21 ≤ rest.count .clock →
      ∃ wait rest', rest = wait ++ .clock :: rest' ∧ wait.count .clock < 21 ∧
        (c.after (before ++ .clock :: wait)).clock.events.countP Event.isNmiEntry = 1) := by
  -- All four parts follow from the invariant, which holds after each of the calls.
  have h := prompt_of_reachable hc hnmi hrun
  refine ⟨?_, ?_, ?_, ?_⟩
  · have hbalance := h.nmi_balance hs
    rw [hnmi] at hbalance
    exact hbalance.trans (Nat.zero_add _)
  · rintro before rest rfl
    have hd := h.after (succeeds_append.1 hs).1
    exact hd.sound.nmiRequest
  · rintro before a rest rfl
    have hd := h.after (succeeds_append.1 hs).1
    exact hd.pendingNmi_call_iff a
  · rintro before rest rfl hedge hlong
    obtain ⟨hbefore, hclock, hrest⟩ := succeeds_append.1 hs
    have hd := h.after hbefore
    obtain ⟨wait, rest', hcalls, hlt, hent⟩ := hd.served_after_edge hedge hclock hrest hlong
    refine ⟨wait, rest', hcalls, hlt, ?_⟩
    rw [after_append]
    exact hent

/-- The last moment to enable interrupts is reached, with a fresh processor that is not due, and if
they are enabled then, the next clock raises one. -/
theorem nmi_exactly_once_atVblank : ∃ c : Console, ∃ calls,
    (c.Reachable ∧ c.cpu.pendingNmi = false ∧ c.cpu.halted = none ∧ c.Succeeds calls) ∧
      c.nmiEdges calls = 1 ∧
      c.nmiEntries calls + (c.after calls).cpu.pendingNmi.toNat = 1 := by
  obtain ⟨c, hc, hcpu, hbeam, hclock⟩ := exists_atVblank
  refine ⟨c, [.write 0x2000 0x80, .clock], ?_⟩
  have hnmi : c.cpu.pendingNmi = false := by rw [hcpu]
  have hrun : c.cpu.halted = none := by rw [hcpu]
  have hs : c.Succeeds [.write 0x2000 0x80, .clock] := by
    refine ⟨rfl, ?_, trivial⟩
    apply result_clock_of_not_due
    show (c.systemClock % 3 == 0) = false
    rw [hclock]
    rfl
  -- The write comes just in time, since the dot looks at the switch when it is drawn.
  have hone : c.nmiEdges [.write 0x2000 0x80, .clock] = 1 := by
    have hwrite := c.space.write_control 0x80
    have hedge : (c.call (.write 0x2000 0x80)).console.atNmiEdge = true := by
      show (Console.mk c.cpu (c.space.write 0x2000 0x80) c.systemClock).atNmiEdge = true
      rw [hwrite, atNmiEdge, hbeam]
      show ((⟨241, 1⟩ : Beam) == ⟨241, 1⟩ && (0x80 : UInt8) &&& 0x80 != 0) = true
      decide
    simp only [nmiEdges, hedge]
    rfl
  refine ⟨⟨hc, hnmi, hrun, hs⟩, hone, ?_⟩
  rw [← hone]
  exact (nmi_exactly_once hc hnmi hrun hs).1

end Console

end Nes
