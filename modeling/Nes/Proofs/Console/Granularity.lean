import Nes.Proofs.Console.FlatSimulation
import Nes.Proofs.Console.PictureHistory

/-!
# Driving a console in steps of any size

A console is driven clock by clock, by whole instructions or by whole frames, and the three may be
mixed in any order.  A step is a number of clocks, and it says how many; so what remains of a
schedule, in the end, is how many clocks it made.

The one thing that a step does beside its clocks is to remove the note that a frame was completed.
Nothing else in the console looks at this note: two consoles that differ in it at most go through
the same clocks.

## Main definitions

* `Console.Alike`: two consoles are equal but for the note.
* `Console.Completes`, `Console.FailsAt`: how a number of clocks ends.
* `Drive`, `Console.drive`, `Console.Drives`: single steps, and schedules in which all succeed.

## Main statements

* `Console.Alike.clock`, `Console.Alike.clocked`: clocks do not depend on the note.
* `consistsOf_drive`: a step consists of the clocks that it counts, and of these the last may
  fail.
* `Console.drives_as_clocks`: schedules with the same number of clocks lead to the same console.
-/

namespace Nes

/-! ### The note in the picture unit -/

namespace Ppu

/-- The picture unit with the note that a frame was completed, or without it. -/
def withNote (p : Ppu) (noted : Bool) : Ppu := { p with frameComplete := noted }

variable (p : Ppu) (noted : Bool)

theorem readRegister_withNote (cart : Cartridge) (r : Register) :
    (p.withNote noted).readRegister cart r =
      ((p.readRegister cart r).1, (p.readRegister cart r).2.withNote noted) := by
  cases r <;> rfl

theorem writeVideo_withNote (cart : Cartridge) (addr : UInt16) (value : UInt8) :
    (p.withNote noted).writeVideo cart addr value =
      ((p.writeVideo cart addr value).1.withNote noted, (p.writeVideo cart addr value).2) := by
  obtain ⟨store, cart', h⟩ := exists_writeVideo_eq cart addr value
  rw [h, h]
  rfl

theorem writeRegister_withNote (cart : Cartridge) (r : Register) (value : UInt8) :
    (p.withNote noted).writeRegister cart r value =
      ((p.writeRegister cart r value).1.withNote noted, (p.writeRegister cart r value).2) := by
  cases r with
  | videoData =>
    have hvideo := writeVideo_withNote p noted cart p.videoAddress value
    unfold writeRegister
    dsimp only
    rw [show (p.withNote noted).videoAddress = p.videoAddress from rfl, hvideo]
    rfl
  | scroll =>
    show ((p.withNote noted).writeScroll value, cart) = ((p.writeScroll value).withNote noted, cart)
    rw [writeScroll_eq, writeScroll_eq]
    rfl
  | videoAddress =>
    show ((p.withNote noted).writeAddress value, cart) =
      ((p.writeAddress value).withNote noted, cart)
    rw [writeAddress_eq, writeAddress_eq]
    rfl
  | _ => rfl

end Ppu

namespace AddressSpace

/-- The address space with the note in its picture unit, or without it. -/
def withNote (s : AddressSpace) (noted : Bool) : AddressSpace :=
  { s with ppu := s.ppu.withNote noted }

variable (s : AddressSpace) (noted : Bool)

theorem read_withNote (addr : UInt16) :
    (s.withNote noted).read addr = ((s.read addr).1, (s.read addr).2.withNote noted) := by
  have htarget : (s.withNote noted).target addr = s.target addr := rfl
  unfold read
  rw [htarget]
  cases s.target addr with
  | register r =>
    have hregister := s.ppu.readRegister_withNote noted s.cartridge r
    dsimp only [withNote]
    rw [hregister]
  | _ => rfl

theorem write_withNote (addr : UInt16) (value : UInt8) :
    (s.withNote noted).write addr value = (s.write addr value).withNote noted := by
  have htarget : (s.withNote noted).target addr = s.target addr := rfl
  unfold write
  rw [htarget]
  cases s.target addr with
  | register r =>
    have hregister := s.ppu.writeRegister_withNote noted s.cartridge r value
    dsimp only [withNote]
    rw [hregister]
  | _ => rfl

theorem writeEvents_withNote (addr : UInt16) (value : UInt8) :
    (s.withNote noted).writeEvents addr value = s.writeEvents addr value := by
  have htarget : (s.withNote noted).target addr = s.target addr := rfl
  unfold writeEvents
  rw [htarget]
  cases s.target addr with
  | register r => cases r <;> rfl
  | _ => rfl

/-- **Programs neither see the note nor change it.** -/
theorem run_withNote {α : Type} (x : BusM α) :
    x.run (s.withNote noted) =
      ⟨(x.run s).value, (x.run s).bus.withNote noted, (x.run s).trace⟩ := by
  have hread : ∀ s t : AddressSpace, t = s.withNote noted → ∀ addr,
      (s.read addr).1 = (t.read addr).1 ∧ (t.read addr).2 = (s.read addr).2.withNote noted := by
    rintro s t rfl addr
    rw [read_withNote]
    exact ⟨rfl, rfl⟩
  have hwrite : ∀ s t : AddressSpace, t = s.withNote noted → ∀ addr value,
      s.writeEvents addr value = t.writeEvents addr value ∧
        t.write addr value = (s.write addr value).withNote noted := by
    rintro s t rfl addr value
    exact ⟨(s.writeEvents_withNote noted addr value).symm, s.write_withNote noted addr value⟩
  obtain ⟨hvalue, htrace, hbus⟩ := BusM.run_related hread hwrite x (b := s) rfl
  rw [hvalue, htrace, ← hbus]

end AddressSpace

namespace Console

/-! ### Consoles that differ in the note -/

/-- The console with the note, or without it. -/
def withNote (c : Console) (noted : Bool) : Console := { c with space := c.space.withNote noted }

theorem cycle_withNote (c : Console) (noted : Bool) : ∃ noted',
    (c.withNote noted).cycle = ⟨c.cycle.value, c.cycle.bus.withNote noted', c.cycle.trace⟩ := by
  -- The dot of the clock may set the note again.
  obtain ⟨noted', hdotted⟩ : ∃ noted', (c.withNote noted).dotted = c.dotted.withNote noted' :=
    ⟨_, rfl⟩
  refine ⟨noted', ?_⟩
  show cpuPart c.cpuIsDue c.cpu (c.withNote noted).dotted = _
  rw [hdotted]
  unfold cycle cpuPart
  split
  · exact c.dotted.run_withNote noted' c.cpu.tick
  · rfl

/-- Two consoles are equal but for the note that a frame was completed. -/
def Alike (c d : Console) : Prop := c.takeFrameComplete.2 = d.takeFrameComplete.2

theorem alike_iff {c d : Console} : c.Alike d ↔ ∃ noted, d = c.withNote noted := by
  constructor
  · intro h
    refine ⟨d.space.ppu.frameComplete, ?_⟩
    calc d = d.takeFrameComplete.2.withNote d.space.ppu.frameComplete := rfl
      _ = c.takeFrameComplete.2.withNote d.space.ppu.frameComplete := by rw [← show _ = _ from h]
      _ = c.withNote d.space.ppu.frameComplete := rfl
  · rintro ⟨noted, rfl⟩
    rfl

namespace Alike

theorem refl (c : Console) : c.Alike c := rfl

theorem symm {c d : Console} (h : c.Alike d) : d.Alike c := Eq.symm h

theorem trans {c d e : Console} (h₁ : c.Alike d) (h₂ : d.Alike e) : c.Alike e := Eq.trans h₁ h₂

/-- Removing the note changes nothing else. -/
theorem taken (c : Console) : c.takeFrameComplete.2.Alike c := rfl

/-- **A clock does not depend on the note.** -/
theorem clock {c d : Console} (h : c.Alike d) :
    c.clock.result = d.clock.result ∧ c.clock.console.Alike d.clock.console := by
  obtain ⟨noted, rfl⟩ := alike_iff.1 h
  obtain ⟨noted', hcycle⟩ := c.cycle_withNote noted
  rw [clock_eq, clock_eq, hcycle]
  exact ⟨rfl, rfl⟩

/-- Neither do many. -/
theorem clocked {c d : Console} (h : c.Alike d) (n : Nat) :
    (clocked n c).Alike (Console.clocked n d) := by
  induction n generalizing c d with
  | zero => exact h
  | succ n ih => exact ih h.clock.2

theorem result_clocked {c d : Console} (h : c.Alike d) (n : Nat) :
    (Console.clocked n c).clock.result = (Console.clocked n d).clock.result :=
  (h.clocked n).clock.1

end Alike

/-! ### How clocks end -/

theorem clocked_add (m n : Nat) (c : Console) : clocked (m + n) c = clocked n (clocked m c) := by
  induction m generalizing c with
  | zero => rw [Nat.zero_add, clocked]
  | succ m ih => rw [Nat.succ_add, clocked, clocked, ih]

/-- A number of clocks succeeds. -/
def Completes (n : Nat) (c : Console) : Prop := ∀ k < n, (clocked k c).clock.result = .ok ()

/-- The first clock that fails is the one after `n` clocks. -/
structure FailsAt (n : Nat) (fault : CpuFault) (c : Console) : Prop where
  succeeds : c.Completes n
  fails : (clocked n c).clock.result = .error fault

theorem Completes.zero (c : Console) : c.Completes 0 := fun k hk => absurd hk (Nat.not_lt_zero k)

theorem Completes.succ {n : Nat} {c : Console} (h : c.Completes n)
    (hn : (clocked n c).clock.result = .ok ()) : c.Completes (n + 1) := by
  intro k hk
  rcases Nat.lt_succ_iff_lt_or_eq.1 hk with hlt | rfl
  · exact h k hlt
  · exact hn

theorem Completes.add {m n : Nat} {c : Console} (h : c.Completes m)
    (hn : (clocked m c).Completes n) : c.Completes (m + n) := by
  intro k hk
  by_cases hm : k < m
  · exact h k hm
  · obtain ⟨j, rfl⟩ := Nat.exists_eq_add_of_le (Nat.le_of_not_lt hm)
    rw [clocked_add]
    exact hn j (Nat.lt_of_add_lt_add_left hk)

theorem Completes.congr {n : Nat} {c d : Console} (h : c.Completes n) (hd : c.Alike d) :
    d.Completes n := by
  intro k hk
  rw [← hd.result_clocked k]
  exact h k hk

theorem FailsAt.congr {n : Nat} {fault : CpuFault} {c d : Console} (h : c.FailsAt n fault)
    (hd : c.Alike d) : d.FailsAt n fault :=
  ⟨h.succeeds.congr hd, (hd.result_clocked n).symm.trans h.fails⟩

end Console

/-! ### Steps -/

/-- The clocks of a run from a console are those that it counts: it leaves what they leave, but for
the note, and none of them failed, or else only the last. -/
structure Run.ConsistsOf (c : Console) (r : Run) : Prop where
  console : r.console.Alike (Console.clocked r.clocks c)
  succeeds : r.fault = none → c.Completes r.clocks
  fails : ∀ fault, r.fault = some fault → ∃ m, r.clocks = m + 1 ∧ c.FailsAt m fault

namespace Run

open Console

theorem consistsOf_start {c d : Console} (h : d.Alike c) : ConsistsOf c { console := d } :=
  ⟨h, fun _ => Completes.zero c, nofun⟩

namespace ConsistsOf

variable {c : Console} {r : Run} (h : r.ConsistsOf c)

include h

theorem clock (hr : r.fault = none) : r.clock.ConsistsOf c := by
  obtain ⟨hresult, hafter⟩ := h.console.clock
  have hsucceeds := h.succeeds hr
  rw [clock_eq]
  refine ⟨?_, ?_, ?_⟩
  · dsimp only
    rw [clocked_succ]
    exact hafter
  · intro hok
    refine hsucceeds.succ ?_
    rw [← hresult]
    cases hone : r.console.clock.result with
    | ok => rfl
    | error fault =>
      rw [hone] at hok
      exact absurd hok nofun
  · intro fault hfault
    refine ⟨r.clocks, rfl, hsucceeds, ?_⟩
    rw [← hresult]
    cases hone : r.console.clock.result with
    | ok =>
      rw [hone] at hfault
      exact absurd hfault nofun
    | error fault' =>
      rw [hone] at hfault
      exact congrArg _ (Option.some.inj hfault)

/-- A run goes on only as long as no clock has failed. -/
theorem extend (stop : Console → Bool) (limit : Nat) : (r.extend stop limit).ConsistsOf c := by
  induction limit generalizing r with
  | zero => exact h
  | succ limit ih =>
    unfold Run.extend
    split
    · exact h
    · next hgo =>
      rw [Bool.or_eq_true, not_or, Bool.not_eq_true, Option.isSome_eq_false_iff,
        Option.isNone_iff_eq_none] at hgo
      exact ih (h.clock hgo.1)

/-- Removing the note afterwards is no clock. -/
theorem taken : ConsistsOf c { r with console := r.console.takeFrameComplete.2 } :=
  ⟨(Alike.taken r.console).trans h.console, h.succeeds, h.fails⟩

end ConsistsOf

end Run

/-- What drives a console. -/
inductive Drive
  | clock | stepInstruction | stepFrame
  deriving DecidableEq

namespace Console

/-- A single step.  A bare clock counts as one. -/
def drive (c : Console) : Drive → Run
  | .clock => Run.clock { console := c }
  | .stepInstruction => c.stepInstruction
  | .stepFrame => c.stepFrame

/-- **A step consists of the clocks that it counts.** -/
theorem consistsOf_drive (c : Console) (a : Drive) : (c.drive a).ConsistsOf c := by
  have hstart := Run.consistsOf_start (Alike.refl c)
  cases a with
  | clock => exact hstart.clock rfl
  | stepInstruction => exact (hstart.extend _ _).extend _ _
  | stepFrame =>
    have hrun := (Run.consistsOf_start (Alike.taken c)).extend (·.space.ppu.frameComplete)
      Beam.frameLength
    show c.stepFrame.ConsistsOf c
    unfold stepFrame runUntil
    dsimp only
    split
    · exact hrun
    · exact hrun.taken

/-- The steps of a schedule succeed one after the other, make `n` clocks together, as they count
them, and lead from one console to another. -/
inductive Drives : Console → List Drive → Nat → Console → Prop
  | nil (c : Console) : Drives c [] 0 c
  | cons {c d : Console} {a : Drive} {l : List Drive} {n : Nat} (ha : (c.drive a).fault = none)
    (hl : Drives (c.drive a).console l n d) : Drives c (a :: l) ((c.drive a).clocks + n) d

/-- **A schedule consists of its clocks**, and these succeed. -/
theorem Drives.clocks {c d : Console} {l : List Drive} {n : Nat} (h : Drives c l n d) :
    d.Alike (clocked n c) ∧ c.Completes n := by
  -- By induction on the schedule: the note that a step leaves does not matter to the others.
  induction h with
  | nil c => exact ⟨Alike.refl c, Completes.zero c⟩
  | @cons c d a l n ha hl ih =>
    obtain ⟨hafter, hrest⟩ := ih
    have hone := consistsOf_drive c a
    rw [clocked_add]
    exact ⟨hafter.trans (hone.console.clocked n), (hone.succeeds ha).add (hrest.congr hone.console)⟩

/-- **Schedules with the same number of clocks lead to the same console**, but for the note that a
frame was completed.  Let the steps of a schedule succeed and make `n` clocks together, by their own
count.

* The console is the one after `n` clocks, none of which fails.
* If another step fails, further clocks would succeed until one fails with the same fault, and the
  console is the one after this clock.
* After every other schedule that makes `n` clocks, the console is the same. -/
theorem drives_as_clocks {c d : Console} {l : List Drive} {n : Nat} (h : Drives c l n d) :
    d.Alike (clocked n c) ∧ c.Completes n ∧
      (∀ a fault, (d.drive a).fault = some fault →
        ∃ m, c.FailsAt (n + m) fault ∧ (d.drive a).console.Alike (clocked (n + m + 1) c)) ∧
      ∀ l' d', Drives c l' n d' → d.Alike d' := by
  obtain ⟨hafter, hsucceeds⟩ := h.clocks
  refine ⟨hafter, hsucceeds, ?_, ?_⟩
  · intro a fault hfault
    have hlast := consistsOf_drive d a
    obtain ⟨m, hclocks, hfails⟩ := hlast.fails fault hfault
    obtain ⟨hmore, hfail⟩ := hfails.congr hafter
    refine ⟨m, ⟨hsucceeds.add hmore, ?_⟩, ?_⟩
    · rw [clocked_add]
      exact hfail
    · rw [Nat.add_assoc, clocked_add, ← hclocks]
      exact hlast.console.trans (hafter.clocked _)
  · intro l' d' h'
    exact hafter.trans h'.clocks.1.symm

/-- A console whose program memory is full of an undocumented opcode has halted after its first
clock.  Two more clocks succeed, and then running an instruction fails. -/
theorem drives_as_clocks_to_fault : ∃ (c d : Console) (fault : CpuFault), c.Reachable ∧
    Drives c [.clock, .clock] 2 d ∧ (d.drive .stepInstruction).fault = some fault ∧
    d.Alike (clocked 2 c) ∧
    ∃ m, c.FailsAt (2 + m) fault ∧
      (d.drive .stepInstruction).console.Alike (clocked (2 + m + 1) c) := by
  obtain ⟨c, hreachable, -, -, hzero, hcpu, hpeek⟩ := exists_reachable_filled 0x82
  -- The first clock halts the processor.
  have hplain : IsPlain 0x8282 := by decide
  have hpc : c.cpu.registers.pc = 0x8282 := by
    rw [hcpu]
    decide
  have hread : (c.dotted.read c.cpu.registers.pc).1 = 0x82 := by
    rw [hpc, AddressSpace.read_of_plain _ hplain]
    show AddressSpace.peek { c.space with ppu := c.space.ppu.dot } 0x8282 = 0x82
    rw [AddressSpace.peek_withPpu _ _ hplain]
    exact (hpeek 0x8282 hplain).trans (if_neg (by decide))
  have hleft : c.cpu.cyclesLeft = 0 := by rw [hcpu]
  obtain ⟨-, -, ⟨nmi, irq, hstopped⟩, -⟩ := clock_of_undocumented (by rw [hcpu]) hleft
    (by rw [hcpu]; rfl) (by rw [hzero]) hread (by decide +kernel)
  generalize CpuFault.unimplementedOpcode _ _ = fault at hstopped
  obtain ⟨d, hd⟩ : ∃ d, d = c.clock.console := ⟨_, rfl⟩
  rw [← hd] at hstopped
  have hhalted : d.cpu.halted = some fault := by
    rw [hstopped]
    rfl
  have hidle : d.cpu.cyclesLeft = 0 := by
    rw [hstopped]
    exact hleft
  have hone : d.systemClock = 1 := by rw [hd, systemClock_clock, hzero]
  -- Two more clocks are not due to it.
  have hdrives : Drives d [.clock, .clock] 2 (clocked 2 d) := by
    have hnext := (idles_clock hhalted).halted.trans hhalted
    refine .cons (a := .clock) ?_ (.cons (a := .clock) ?_ (.nil _))
    · show faultOf d.clock.result = none
      rw [clock_of_halted hhalted, hone]
      rfl
    · show faultOf d.clock.console.clock.result = none
      rw [clock_of_halted hnext, systemClock_clock, hone]
      rfl
  have hlater := idles_clocked hhalted 2
  have hfault : ((clocked 2 d).drive .stepInstruction).fault = some fault := by
    show (clocked 2 d).stepInstruction.fault = some fault
    rw [stepInstruction_of_halted (hlater.halted.trans hhalted) (hlater.cyclesLeft.trans hidle)]
  obtain ⟨hafter, -, hfails, -⟩ := drives_as_clocks hdrives
  exact ⟨d, clocked 2 d, fault, hd ▸ hreachable.clock, hdrives, hfault, hafter,
    hfails .stepInstruction fault hfault⟩

end Console

end Nes
