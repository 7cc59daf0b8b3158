import Nes.Proofs.Console.PictureHistory

/-!
# Consoles that cannot be told apart

Two consoles with the same processor do the same as long as every access has the same outcome on
their address spaces.  A relation of address spaces is called a simulation if it grants that for
single accesses, and for what the picture unit does by itself, and if it still holds afterwards.
Then it holds through every operation, however long that runs, and all answers are the same.

A simulation may leave out writes to some of the addresses.  The operations must not make such
writes then, neither by the processor nor from outside.

## Main definitions

* `AddressSpace.Simulation`: relations of address spaces that every use keeps.
* `Console.accessesOf`, `Console.accessesOfAll`: the accesses that operations make.
* `Console.Related`, `Run.Related`, `Operated.Related`: the same but for related address spaces.

## Main statements

* `AddressSpace.Simulation.clock`, `AddressSpace.Simulation.extend`: one clock, and a run.
* `AddressSpace.Simulation.operate`, `AddressSpace.Simulation.operateAll`: no operation tells
  related consoles apart.
-/

namespace Nes

/-! ### The accesses of operations -/

namespace Console

/-- The accesses of the processor in a number of clocks. -/
def clockedAccesses : Nat → Console → List Activity
  | 0, _ => []
  | n + 1, c => c.cycle.accesses ++ clockedAccesses n c.clock.console

theorem clockedAccesses_add (m n : Nat) (c : Console) :
    clockedAccesses (m + n) c = clockedAccesses m c ++ clockedAccesses n (clocked m c) := by
  induction m generalizing c with
  | zero => rw [Nat.zero_add]; rfl
  | succ m ih =>
    rw [Nat.succ_add, clockedAccesses, clockedAccesses, ih, List.append_assoc]
    rfl

/-- The accesses that an operation makes, by the processor or from outside in its place.  What
reaches the picture unit directly makes none. -/
def accessesOf (c : Console) : Operation → List Activity
  | .reset => (c.cpu.reset.run c.space).accesses
  | .clock => c.cycle.accesses
  | .stepInstruction => clockedAccesses c.stepInstruction.clocks c
  | .stepFrame => clockedAccesses c.stepFrame.clocks c.takeFrameComplete.2
  | .tick => (c.cpu.tick.run c.space).accesses
  | .read addr => [.read addr (c.read addr).1]
  | .write addr value => [.write addr value]
  | .loadProgram program => (programWrites program).map fun w => .write w.1 w.2
  | .requestNmi | .requestIrq | .mapCpu _ | .dot | .takeNmiRequest | .takeFrameComplete
  | .readRegister _ | .writeRegister .. | .writeVideo .. => []

/-- The accesses that a list of operations makes. -/
def accessesOfAll : Console → List Operation → List Activity
  | _, [] => []
  | c, o :: ops => c.accessesOf o ++ accessesOfAll (c.operate o).console ops

theorem accessesOfAll_append (c : Console) (ops ops' : List Operation) :
    c.accessesOfAll (ops ++ ops') =
      c.accessesOfAll ops ++ (c.operateAll ops).accessesOfAll ops' := by
  induction ops generalizing c with
  | nil => rfl
  | cons o ops ih =>
    rw [List.cons_append, accessesOfAll, accessesOfAll, ih, List.append_assoc]
    rfl

end Console

/-! ### Simulations -/

/-- Two address spaces in the relation `R` cannot be told apart: every use of both has the same
outcome and leaves them in this relation.  Of the writes by way of the processor's addresses, only
those to addresses with the property `W` need to be such. -/
structure AddressSpace.Simulation (W : UInt16 → Prop) (R : AddressSpace → AddressSpace → Prop) :
    Prop where
  read : ∀ {s t}, R s t → ∀ addr,
    (s.read addr).1 = (t.read addr).1 ∧ R (s.read addr).2 (t.read addr).2
  write : ∀ {s t}, R s t → ∀ {addr}, W addr → ∀ value,
    s.writeEvents addr value = t.writeEvents addr value ∧
      R (s.write addr value) (t.write addr value)
  /-- The registers of the picture unit are among these addresses. -/
  register : ∀ {addr : UInt16}, 0x2000 ≤ addr → addr < 0x4000 → W addr
  writeVideo : ∀ {s t}, R s t → ∀ addr value,
    Ppu.writeVideoEvents s.cartridge addr value = Ppu.writeVideoEvents t.cartridge addr value ∧
      R ⟨s.ram, (s.ppu.writeVideo s.cartridge addr value).1,
          (s.ppu.writeVideo s.cartridge addr value).2⟩
        ⟨t.ram, (t.ppu.writeVideo t.cartridge addr value).1,
          (t.ppu.writeVideo t.cartridge addr value).2⟩
  dot : ∀ {s t}, R s t → R { s with ppu := s.ppu.dot } { t with ppu := t.ppu.dot }
  takeNmiRequest : ∀ {s t}, R s t → s.ppu.takeNmiRequest.1 = t.ppu.takeNmiRequest.1 ∧
    R { s with ppu := s.ppu.takeNmiRequest.2 } { t with ppu := t.ppu.takeNmiRequest.2 }
  takeFrameComplete : ∀ {s t}, R s t →
    s.ppu.takeFrameComplete.1 = t.ppu.takeFrameComplete.1 ∧
      R { s with ppu := s.ppu.takeFrameComplete.2 } { t with ppu := t.ppu.takeFrameComplete.2 }

/-- Two consoles that are the same but for related address spaces. -/
structure Console.Related (R : AddressSpace → AddressSpace → Prop) (c d : Console) : Prop where
  cpu : c.cpu = d.cpu
  space : R c.space d.space
  systemClock : c.systemClock = d.systemClock

/-- Two runs that left related consoles and were the same otherwise. -/
structure Run.Related (R : AddressSpace → AddressSpace → Prop) (r q : Run) : Prop where
  console : r.console.Related R q.console
  clocks : r.clocks = q.clocks
  fault : r.fault = q.fault
  events : r.events = q.events

/-- Two operations that left related consoles and answered the same. -/
structure Operated.Related (R : AddressSpace → AddressSpace → Prop) (r q : Operated) : Prop where
  console : r.console.Related R q.console
  answer : r.answer = q.answer

/-- A register is reached directly as by one of its addresses. -/
theorem AddressSpace.exists_register (r : Ppu.Register) : ∃ addr : UInt16,
    (0x2000 ≤ addr ∧ addr < 0x4000) ∧ ∀ s : AddressSpace, s.target addr = .register r := by
  obtain ⟨addr, h₁, h₂, rfl⟩ : ∃ addr : UInt16, 0x2000 ≤ addr ∧ addr < 0x4000 ∧
      Ppu.Register.ofAddress addr = r := by
    cases r with
    | control => exact ⟨0x2000, by decide, by decide, rfl⟩
    | mask => exact ⟨0x2001, by decide, by decide, rfl⟩
    | status => exact ⟨0x2002, by decide, by decide, rfl⟩
    | oamAddress => exact ⟨0x2003, by decide, by decide, rfl⟩
    | oamData => exact ⟨0x2004, by decide, by decide, rfl⟩
    | scroll => exact ⟨0x2005, by decide, by decide, rfl⟩
    | videoAddress => exact ⟨0x2006, by decide, by decide, rfl⟩
    | videoData => exact ⟨0x2007, by decide, by decide, rfl⟩
  exact ⟨addr, ⟨h₁, h₂⟩, fun s => s.target_register h₁ h₂⟩

theorem Run.Related.operated {R : AddressSpace → AddressSpace → Prop} {r q : Run}
    (h : r.Related R q) : r.operated.Related R q.operated where
  console := h.console
  answer := by
    rw [Run.operated, Run.operated, h.clocks, h.fault, h.events]

namespace AddressSpace.Simulation

variable {W : UInt16 → Prop} {R : AddressSpace → AddressSpace → Prop} (hR : Simulation W R)

include hR

section Spaces

variable {s t : AddressSpace} (h : R s t)

include h

theorem readRegister (r : Ppu.Register) :
    (s.ppu.readRegister s.cartridge r).1 = (t.ppu.readRegister t.cartridge r).1 ∧
      R { s with ppu := (s.ppu.readRegister s.cartridge r).2 }
        { t with ppu := (t.ppu.readRegister t.cartridge r).2 } := by
  obtain ⟨addr, -, htarget⟩ := exists_register r
  have hread := hR.read h addr
  unfold AddressSpace.read at hread
  rwa [htarget, htarget] at hread

theorem writeRegister (r : Ppu.Register) (value : UInt8) :
    s.ppu.writeRegisterEvents s.cartridge r value =
        t.ppu.writeRegisterEvents t.cartridge r value ∧
      R ⟨s.ram, (s.ppu.writeRegister s.cartridge r value).1,
          (s.ppu.writeRegister s.cartridge r value).2⟩
        ⟨t.ram, (t.ppu.writeRegister t.cartridge r value).1,
          (t.ppu.writeRegister t.cartridge r value).2⟩ := by
  obtain ⟨addr, haddr, htarget⟩ := exists_register r
  have hwrite := hR.write h (hR.register haddr.1 haddr.2) value
  unfold AddressSpace.write AddressSpace.writeEvents at hwrite
  rwa [htarget, htarget] at hwrite

/-- **Programs do not tell related address spaces apart.** -/
theorem run {α : Type} (x : BusM α) (hw : ∀ a ∈ (x.run s).accesses, a.WritesTo W) :
    (x.run s).value = (x.run t).value ∧ (x.run s).trace = (x.run t).trace ∧
      R (x.run s).bus (x.run t).bus := by
  rw [BusM.forall_accesses_iff fun _ => trivial] at hw
  exact BusM.run_related_while (fun _ _ h addr _ => hR.read h addr)
    (fun _ _ h _ value haddr => hR.write h haddr value) x h hw

theorem writeAll {writes : List (UInt16 × UInt8)} (hw : ∀ w ∈ writes, W w.1) :
    (s.writeAll writes).2 = (t.writeAll writes).2 ∧
      R (s.writeAll writes).1 (t.writeAll writes).1 := by
  unfold AddressSpace.writeAll
  generalize (#[] : Array Event) = told
  induction writes generalizing s t told with
  | nil => exact ⟨rfl, h⟩
  | cons w writes ih =>
    obtain ⟨hhead, htail⟩ := List.forall_mem_cons.1 hw
    obtain ⟨htold, hnext⟩ := hR.write h hhead w.2
    rw [List.foldl_cons, List.foldl_cons]
    dsimp only
    rw [← htold]
    exact ih hnext htail _

end Spaces

/-! ### Clocks and runs -/

section Consoles

variable {c d : Console} (h : c.Related R d)

include h

theorem cycle (hw : ∀ a ∈ c.cycle.accesses, a.WritesTo W) : c.cycle.value = d.cycle.value ∧
    c.cycle.trace = d.cycle.trace ∧ R c.cycle.bus d.cycle.bus := by
  have hdotted : R c.dotted d.dotted := hR.dot h.space
  have hdue : d.cpuIsDue = c.cpuIsDue := by
    rw [Console.cpuIsDue, Console.cpuIsDue, h.systemClock]
  unfold Console.cycle Console.cpuPart at hw ⊢
  rw [hdue, ← h.cpu]
  cases hc : c.cpuIsDue with
  | true =>
    rw [hc] at hw
    exact hR.run hdotted c.cpu.tick hw
  | false => exact ⟨rfl, rfl, hdotted⟩

theorem clock (hw : ∀ a ∈ c.cycle.accesses, a.WritesTo W) : c.clock.result = d.clock.result ∧
    c.clock.events = d.clock.events ∧ c.clock.console.Related R d.clock.console := by
  obtain ⟨hvalue, htrace, hbus⟩ := hR.cycle h hw
  obtain ⟨hline, htaken⟩ := hR.takeNmiRequest hbus
  change c.cycle.bus.ppu.nmiRequest = d.cycle.bus.ppu.nmiRequest at hline
  rw [Console.clock_eq, Console.clock_eq, Outcome.events, Outcome.events, ← hvalue, ← htrace,
    ← hline]
  exact ⟨rfl, rfl, rfl, htaken, congrArg (· + 1) h.systemClock⟩

theorem takeFrameComplete_related : c.takeFrameComplete.1 = d.takeFrameComplete.1 ∧
    c.takeFrameComplete.2.Related R d.takeFrameComplete.2 := by
  obtain ⟨hflag, htaken⟩ := hR.takeFrameComplete h.space
  exact ⟨hflag, h.cpu, htaken, h.systemClock⟩

end Consoles

/-- **A run does not tell related consoles apart**, if its condition does not. -/
theorem extend {stop : Console → Bool} (hstop : ∀ c d : Console, c.Related R d → stop c = stop d)
    {limit : Nat} {r q : Run} (h : r.Related R q)
    (hw : ∀ a ∈ Console.clockedAccesses ((r.extend stop limit).clocks - r.clocks) r.console,
      a.WritesTo W) : (r.extend stop limit).Related R (q.extend stop limit) := by
  induction limit generalizing r q with
  | zero => exact h
  | succ limit ih =>
    unfold Run.extend at hw ⊢
    rw [← h.fault, ← hstop _ _ h.console]
    split
    · exact h
    · next hgo =>
      rw [if_neg hgo] at hw
      -- The first of the clocks that are made from here, and the others.
      have hone : r.clock.clocks = r.clocks + 1 := rfl
      have hle := Run.clocks_le_extend stop limit r.clock
      have hclocks : (r.clock.extend stop limit).clocks - r.clocks =
          (r.clock.extend stop limit).clocks - r.clock.clocks + 1 := by omega
      rw [hclocks] at hw
      obtain ⟨hfirst, hrest⟩ := List.forall_mem_append.1 hw
      obtain ⟨hresult, htold, hconsole⟩ := hR.clock h.console hfirst
      refine ih ?_ hrest
      rw [Run.clock_eq, Run.clock_eq]
      exact ⟨hconsole, congrArg (· + 1) h.clocks, congrArg faultOf hresult,
        by rw [h.events, htold]⟩

section Steps

variable {c d : Console} (h : c.Related R d)

include h

theorem stepInstruction
    (hw : ∀ a ∈ Console.clockedAccesses c.stepInstruction.clocks c, a.WritesTo W) :
    c.stepInstruction.Related R d.stepInstruction := by
  -- The clocks of the step are those up to a start and those up to the end of what was started.
  let started := c.runUntil (fun c => !c.cpu.atBoundary) Console.clocksPerCycle
  have hconsole : started.console = Console.clocked started.clocks c := c.runUntil_clocks _ _
  have hle : started.clocks ≤ c.stepInstruction.clocks := Run.clocks_le_extend ..
  rw [← Nat.add_sub_cancel' hle, Console.clockedAccesses_add, List.forall_mem_append,
    ← hconsole] at hw
  have hfirst : started.Related R
      (d.runUntil (fun c => !c.cpu.atBoundary) Console.clocksPerCycle) :=
    hR.extend (fun c d h => by rw [h.cpu]) ⟨h, rfl, rfl, rfl⟩ hw.1
  unfold Console.stepInstruction
  dsimp only
  rw [← hfirst.console.cpu]
  exact hR.extend (fun c d h => by rw [h.cpu]) hfirst hw.2

theorem stepFrame
    (hw : ∀ a ∈ Console.clockedAccesses c.stepFrame.clocks c.takeFrameComplete.2,
      a.WritesTo W) : c.stepFrame.Related R d.stepFrame := by
  obtain ⟨-, htaken⟩ := hR.takeFrameComplete_related h
  -- The flag of the frame that is over is taken before the run and after it, which costs no clock.
  have hclocks : c.stepFrame.clocks = (c.takeFrameComplete.2.runUntil (·.space.ppu.frameComplete)
      Beam.frameLength).clocks := by
    unfold Console.stepFrame
    dsimp only
    split <;> rfl
  rw [hclocks] at hw
  have hrun : (c.takeFrameComplete.2.runUntil (·.space.ppu.frameComplete)
      Beam.frameLength).Related R (d.takeFrameComplete.2.runUntil (·.space.ppu.frameComplete)
      Beam.frameLength) :=
    hR.extend (fun c d h => (hR.takeFrameComplete h.space).1) ⟨htaken, rfl, rfl, rfl⟩ hw
  unfold Console.stepFrame
  -- Only what relates the two runs is used from here on.
  generalize c.takeFrameComplete.2.runUntil _ _ = r at hrun ⊢
  generalize d.takeFrameComplete.2.runUntil _ _ = q at hrun ⊢
  by_cases hfault : r.fault.isSome
  · have hfault' : q.fault.isSome := hrun.fault ▸ hfault
    rw [if_pos hfault, if_pos hfault']
    exact hrun
  · have hfault' : ¬ q.fault.isSome := hrun.fault ▸ hfault
    rw [if_neg hfault, if_neg hfault']
    exact ⟨(hR.takeFrameComplete_related hrun.console).2, hrun.clocks, hrun.fault, hrun.events⟩

theorem writeAll_related {writes : List (UInt16 × UInt8)} (hw : ∀ w ∈ writes, W w.1) :
    (c.writeAll writes).2 = (d.writeAll writes).2 ∧
      (c.writeAll writes).1.Related R (d.writeAll writes).1 := by
  obtain ⟨htold, hafter⟩ := hR.writeAll h.space hw
  exact ⟨htold, h.cpu, hafter, h.systemClock⟩

/-- **No operation tells related consoles apart**, as long as it makes no write that the simulation
leaves out. -/
theorem operate (o : Operation) (hw : ∀ a ∈ c.accessesOf o, a.WritesTo W) :
    (c.operate o).Related R (d.operate o) := by
  obtain ⟨hcpu, hspace, hclock⟩ := id h
  -- The processor is the same on both sides, so it makes the same accesses, and each of the other
  -- operations has its own clause in the simulation.
  cases o with
  | reset =>
    obtain ⟨hvalue, htrace, hafter⟩ := hR.run hspace c.cpu.reset hw
    unfold Console.operate Console.reset
    dsimp only
    rw [← hcpu]
    refine ⟨⟨hvalue, hafter, rfl⟩, ?_⟩
    simp only [Outcome.events, hvalue, htrace]
  | clock =>
    obtain ⟨hresult, htold, hafter⟩ := hR.clock h hw
    refine ⟨hafter, ?_⟩
    unfold Console.operate
    dsimp only
    rw [hresult, htold]
  | stepInstruction => exact (hR.stepInstruction h hw).operated
  | stepFrame => exact (hR.stepFrame h hw).operated
  | tick =>
    obtain ⟨hvalue, htrace, hafter⟩ := hR.run hspace c.cpu.tick hw
    unfold Console.operate
    dsimp only
    rw [← hcpu]
    refine ⟨⟨congrArg (·.cpu) hvalue, hafter, hclock⟩, ?_⟩
    simp only [Outcome.events, hvalue, htrace]
  | requestNmi => exact ⟨⟨congrArg Cpu.requestNmi hcpu, hspace, hclock⟩, rfl⟩
  | requestIrq => exact ⟨⟨congrArg Cpu.requestIrq hcpu, hspace, hclock⟩, rfl⟩
  | mapCpu f => exact ⟨⟨congrArg f hcpu, hspace, hclock⟩, rfl⟩
  | read addr =>
    obtain ⟨hbyte, hafter⟩ := hR.read hspace addr
    exact ⟨⟨hcpu, hafter, hclock⟩, congrArg (fun byte => ({ byte } : Answer)) hbyte⟩
  -- A write is the shortest list of writes.
  | write addr value =>
    have hone : ∀ w ∈ [(addr, value)], W w.1 := by
      intro w hmem
      rw [List.mem_singleton.1 hmem]
      exact hw _ (List.mem_singleton_self _)
    obtain ⟨htold, hafter⟩ := hR.writeAll_related h hone
    exact ⟨hafter, congrArg (fun told : Array Event => ({ events := told.toList } : Answer)) htold⟩
  -- The bytes of a program are among the writes that the simulation allows.
  | loadProgram program =>
    have hall : ∀ w ∈ Console.programWrites program, W w.1 := fun w hmem =>
      hw (.write w.1 w.2) (List.mem_map_of_mem hmem)
    obtain ⟨htold, hafter⟩ := hR.writeAll_related h hall
    exact ⟨hafter, congrArg (fun told : Array Event => ({ events := told.toList } : Answer)) htold⟩
  | dot => exact ⟨⟨hcpu, hR.dot hspace, hclock⟩, rfl⟩
  | takeNmiRequest =>
    obtain ⟨hline, hafter⟩ := hR.takeNmiRequest hspace
    exact ⟨⟨hcpu, hafter, hclock⟩, congrArg (fun flag => ({ flag } : Answer)) hline⟩
  | takeFrameComplete =>
    obtain ⟨hflag, hafter⟩ := hR.takeFrameComplete_related h
    exact ⟨hafter, congrArg (fun flag => ({ flag } : Answer)) hflag⟩
  | readRegister r =>
    obtain ⟨hbyte, hafter⟩ := hR.readRegister hspace r
    exact ⟨⟨hcpu, hafter, hclock⟩, congrArg (fun byte => ({ byte } : Answer)) hbyte⟩
  | writeRegister r value =>
    obtain ⟨htold, hafter⟩ := hR.writeRegister hspace r value
    exact ⟨⟨hcpu, hafter, hclock⟩, congrArg (fun events => ({ events } : Answer)) htold⟩
  | writeVideo addr value =>
    obtain ⟨htold, hafter⟩ := hR.writeVideo hspace addr value
    exact ⟨⟨hcpu, hafter, hclock⟩, congrArg (fun events => ({ events } : Answer)) htold⟩

theorem operateAll {ops : List Operation} (hw : ∀ a ∈ c.accessesOfAll ops, a.WritesTo W) :
    c.answers ops = d.answers ops ∧ (c.operateAll ops).Related R (d.operateAll ops) := by
  -- By induction on the operations: the consoles stay related, and related consoles answer alike.
  induction ops generalizing c d with
  | nil => exact ⟨rfl, h⟩
  | cons o ops ih =>
    obtain ⟨hfirst, hrest⟩ := List.forall_mem_append.1 hw
    have hone := hR.operate h o hfirst
    obtain ⟨hanswers, hafter⟩ := ih hone.console hrest
    refine ⟨?_, hafter⟩
    rw [Console.answers, Console.answers, hone.answer, hanswers]

end Steps

end AddressSpace.Simulation

end Nes
