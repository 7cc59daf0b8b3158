import Nes.Proofs.Console.Halt
import Nes.Proofs.Ppu.VblankHistory

/-!
# What a console does to its picture unit

Whatever is done to a console, its picture unit goes through a list of actions.  A clock draws a
dot, reads and writes the registers that the processor accesses in its cycle, and takes the request
for an interrupt.  A run does this for every clock that it makes, and an access from outside reaches
a register at most.

So what holds of a picture unit after any actions holds of that of a console after any operations,
and in particular what the status register remembers.

## Main definitions

* `AddressSpace.pictureActions`: what accesses do to the picture unit.
* `Console.clockActions`, `Console.pictureActions`: what clocks and operations do to it.

## Main statements

* `AddressSpace.ppu_run`: the picture unit after a bus program.
* `Run.extend_clocks`: a run makes as many clocks as it counts.
* `Console.ppu_operateAll`: the picture unit after any operations.
* `Console.vblank_remembered`: the meaning of the status register.
-/

namespace Nes

/-! ### Accesses -/

namespace AddressSpace

/-- What reading a byte does to the picture unit. -/
def readActions (s : AddressSpace) (addr : UInt16) : List Ppu.Action :=
  match s.target addr with
  | .register r => [.read s.cartridge r]
  | _ => []

/-- What writing a byte does to it. -/
def writeActions (s : AddressSpace) (addr : UInt16) (value : UInt8) : List Ppu.Action :=
  match s.target addr with
  | .register r => [.write s.cartridge r value]
  | _ => []

/-- What accesses do to it. -/
def pictureActions : AddressSpace → List Activity → List Ppu.Action
  | _, [] => []
  | s, .read addr _ :: t => s.readActions addr ++ pictureActions (s.read addr).2 t
  | s, .write addr value :: t =>
    s.writeActions addr value ++ pictureActions (s.write addr value) t
  | s, .event _ :: t => pictureActions s t

theorem ppu_read (s : AddressSpace) (addr : UInt16) :
    (s.read addr).2.ppu = s.ppu.actAll (s.readActions addr) := by
  unfold read readActions
  cases s.target addr <;> rfl

theorem ppu_write (s : AddressSpace) (addr : UInt16) (value : UInt8) :
    (s.write addr value).ppu = s.ppu.actAll (s.writeActions addr value) := by
  unfold write writeActions
  cases s.target addr <;> rfl

theorem ppu_of_leads {s s' : AddressSpace} {t : List Activity} (h : Bus.Leads s t s') :
    s'.ppu = s.ppu.actAll (s.pictureActions t) := by
  -- Of the accesses only those to registers reach the picture unit.
  induction t generalizing s with
  | nil =>
    rw [← (h : s = s')]
    rfl
  | cons a t ih =>
    cases a with
    | read addr value =>
      rw [ih h.2, pictureActions, Ppu.actAll_append, ← ppu_read]
      rfl
    | write addr value =>
      have hrest : Bus.Leads (s.write addr value) t s' := h
      rw [ih hrest, pictureActions, Ppu.actAll_append, ← ppu_write]
    | event e =>
      have hrest : Bus.Leads s t s' := h
      exact ih hrest

/-- **The picture unit after a bus program.** -/
theorem ppu_run {α : Type} (x : BusM α) (s : AddressSpace) :
    (x.run s).bus.ppu = s.ppu.actAll (s.pictureActions (x.path s)) :=
  ppu_of_leads (BusM.leads_path x s)

theorem ppu_writeAll (s : AddressSpace) (writes : List (UInt16 × UInt8)) :
    (s.writeAll writes).1.ppu =
      s.ppu.actAll (s.pictureActions (writes.map fun w => .write w.1 w.2)) := by
  unfold writeAll
  -- What has been told so far is collected along the way, and makes no difference.
  generalize (#[] : Array Event) = told
  induction writes generalizing s told with
  | nil => rfl
  | cons w writes ih =>
    rw [List.foldl_cons, ih, List.map_cons, pictureActions, Ppu.actAll_append, ← ppu_write]

end AddressSpace

/-! ### Clocks -/

namespace Console

/-- What a clock does to the picture unit. -/
def clockActions (c : Console) : List Ppu.Action :=
  .dot :: ((if c.cpuIsDue then c.dotted.pictureActions (c.cpu.tick.path c.dotted) else []) ++
    [.takeNmiRequest])

/-- What a number of clocks does to it. -/
def clockedActions : Nat → Console → List Ppu.Action
  | 0, _ => []
  | n + 1, c => c.clockActions ++ clockedActions n c.clock.console

theorem ppu_clock (c : Console) : c.clock.console.space.ppu = c.space.ppu.actAll c.clockActions := by
  have hcycle : c.cycle.bus.ppu = c.space.ppu.dot.actAll
      (if c.cpuIsDue then c.dotted.pictureActions (c.cpu.tick.path c.dotted) else []) := by
    unfold cycle cpuPart
    split
    · exact AddressSpace.ppu_run c.cpu.tick c.dotted
    · rfl
  show c.cycle.bus.ppu.takeNmiRequest.2 = _
  rw [hcycle, clockActions, ← List.singleton_append, Ppu.actAll_append, Ppu.actAll_append]
  rfl

theorem ppu_clocked (n : Nat) (c : Console) :
    (clocked n c).space.ppu = c.space.ppu.actAll (clockedActions n c) := by
  induction n generalizing c with
  | zero => rfl
  | succ n ih => rw [clocked, ih, clockedActions, Ppu.actAll_append, ← ppu_clock]

/-- The last clock may be told apart as well as the first. -/
theorem clocked_succ (n : Nat) (c : Console) : clocked (n + 1) c = (clocked n c).clock.console := by
  induction n generalizing c with
  | zero => rfl
  | succ n ih => exact ih c.clock.console

end Console

/-- **A run makes as many clocks as it counts.** -/
theorem Run.extend_clocks {c : Console} {r : Run} (h : r.console = Console.clocked r.clocks c)
    (stop : Console → Bool) (limit : Nat) :
    (r.extend stop limit).console = Console.clocked (r.extend stop limit).clocks c := by
  induction limit generalizing r with
  | zero => exact h
  | succ limit ih =>
    unfold extend
    split
    · exact h
    · apply ih
      rw [clock_eq, Console.clocked_succ, ← h]

/-- A run that is continued has made its clocks before. -/
theorem Run.clocks_le_extend (stop : Console → Bool) (limit : Nat) (r : Run) :
    r.clocks ≤ (r.extend stop limit).clocks := by
  induction limit generalizing r with
  | zero => exact Nat.le_refl r.clocks
  | succ limit ih =>
    unfold extend
    split
    · exact Nat.le_refl r.clocks
    · exact Nat.le_of_succ_le (ih r.clock)

namespace Console

theorem runUntil_clocks (c : Console) (stop : Console → Bool) (limit : Nat) :
    (c.runUntil stop limit).console = clocked (c.runUntil stop limit).clocks c :=
  Run.extend_clocks (r := { console := c }) rfl stop limit

theorem stepInstruction_clocks (c : Console) :
    c.stepInstruction.console = clocked c.stepInstruction.clocks c :=
  Run.extend_clocks (c.runUntil_clocks _ _) _ _

/-- A frame that is completed is asked for. -/
theorem stepFrame_clocks (c : Console) : c.stepFrame.console =
    let last := clocked c.stepFrame.clocks c.takeFrameComplete.2
    if c.stepFrame.fault.isSome then last else last.takeFrameComplete.2 := by
  have hrun := c.takeFrameComplete.2.runUntil_clocks (·.space.ppu.frameComplete) Beam.frameLength
  unfold stepFrame
  dsimp only
  generalize c.takeFrameComplete.2.runUntil (·.space.ppu.frameComplete) Beam.frameLength = r
    at hrun ⊢
  -- The flag is taken once more if no clock has failed.
  by_cases hfault : r.fault.isSome = true
  · rw [if_pos hfault, if_pos hfault]
    exact hrun
  · rw [if_neg hfault, if_neg hfault, ← hrun]

/-! ### Operations -/

/-- What an operation does to the picture unit. -/
def operationActions (c : Console) : Operation → List Ppu.Action
  | .reset => c.space.pictureActions (c.cpu.reset.path c.space)
  | .clock => c.clockActions
  | .stepInstruction => clockedActions c.stepInstruction.clocks c
  | .stepFrame =>
    .takeFrameComplete :: (clockedActions c.stepFrame.clocks c.takeFrameComplete.2 ++
      if c.stepFrame.fault.isSome then [] else [.takeFrameComplete])
  | .tick => c.space.pictureActions (c.cpu.tick.path c.space)
  | .requestNmi => []
  | .requestIrq => []
  | .mapCpu _ => []
  | .read addr => c.space.readActions addr
  | .write addr value => c.space.writeActions addr value
  | .loadProgram program =>
    c.space.pictureActions ((programWrites program).map fun w => .write w.1 w.2)
  | .dot => [.dot]
  | .takeNmiRequest => [.takeNmiRequest]
  | .takeFrameComplete => [.takeFrameComplete]
  | .readRegister r => [.read c.space.cartridge r]
  | .writeRegister r value => [.write c.space.cartridge r value]
  | .writeVideo addr value => [.writeVideo c.space.cartridge addr value]

/-- What a list of operations does to it. -/
def pictureActions : Console → List Operation → List Ppu.Action
  | _, [] => []
  | c, o :: ops => c.operationActions o ++ pictureActions (c.operate o).console ops

/-- **The picture unit after an operation.** -/
theorem ppu_operate (c : Console) (o : Operation) :
    (c.operate o).console.space.ppu = c.space.ppu.actAll (c.operationActions o) := by
  cases o with
  | reset => exact AddressSpace.ppu_run c.cpu.reset c.space
  | clock => exact c.ppu_clock
  | stepInstruction =>
    show c.stepInstruction.console.space.ppu = _
    rw [stepInstruction_clocks, ppu_clocked]
    rfl
  -- The flag is taken before the clocks, and after them unless one failed.
  | stepFrame =>
    show c.stepFrame.console.space.ppu = _
    rw [stepFrame_clocks, operationActions, ← List.singleton_append, Ppu.actAll_append,
      Ppu.actAll_append]
    have hlast := ppu_clocked c.stepFrame.clocks c.takeFrameComplete.2
    dsimp only
    split
    · exact hlast
    · exact congrArg (·.takeFrameComplete.2) hlast
  | tick => exact AddressSpace.ppu_run c.cpu.tick c.space
  | read addr => exact c.space.ppu_read addr
  | write addr value => exact c.space.ppu_write addr value
  | loadProgram program => exact c.space.ppu_writeAll (programWrites program)
  | _ => rfl

/-- **The picture unit after any operations.** -/
theorem ppu_operateAll (c : Console) (ops : List Operation) :
    (c.operateAll ops).space.ppu = c.space.ppu.actAll (c.pictureActions ops) := by
  induction ops generalizing c with
  | nil => rfl
  | cons o ops ih =>
    rw [pictureActions, Ppu.actAll_append, ← ppu_operate]
    exact ih (c.operate o).console

/-! ### The status register -/

/-- **What the status register remembers.**  Of a picture unit after any actions from power-on:

* The register says that the vertical blank has begun exactly if the last of three kinds of action
  was the dot with which it begins, and not the dot with which it ends or a read of the register.
* It holds no other bit.
* It can say so only from the position after the one dot to that of the other, and there it does,
  unless it was read since the vertical blank began.
* The request line is raised by the dot with which the vertical blank begins, if that is enabled,
  and lowered by taking the request.

After any operations, the picture unit of a console is one of these, with the actions that the
operations consist of. -/
theorem vblank_remembered :
    (∀ acts : List Ppu.Action,
      let p := Ppu.powerOn.actAll acts
      let marks := Ppu.powerOn.history acts
      let position := 341 * (p.beam.scanline + 1) + p.beam.cycle
      (p.status.vblank = true ↔ marks.getLast? = some .began) ∧
      (p.status.bits = 0 ∨ p.status.bits = 0x80) ∧
      (p.status.vblank = true → 82524 ≤ position ∨ position ≤ 1) ∧
      (∀ earlier later, marks = earlier ++ .began :: later → .noticed ∉ later →
        82524 ≤ position ∨ position ≤ 1 → p.status.vblank = true) ∧
      ∀ a : Ppu.Action, (p.act a).nmiRequest =
        match a with
        | .dot => p.nmiRequest || (p.beam == ⟨241, 1⟩ && p.control.nmiEnabled)
        | .takeNmiRequest => false
        | _ => p.nmiRequest) ∧
    ∀ (cartridge : Cartridge) (ops : List Operation),
      ((powerOn cartridge).operateAll ops).space.ppu =
        Ppu.powerOn.actAll ((powerOn cartridge).pictureActions ops) := by
  refine ⟨fun acts => ?_, fun cartridge ops => ppu_operateAll (powerOn cartridge) ops⟩
  have h := Ppu.dated_history acts
  -- The bits of the register are those that the last mark asks for.
  have hiff : (Ppu.powerOn.actAll acts).status.vblank = true ↔
      (Ppu.powerOn.history acts).getLast? = some .began := by
    rw [Ppu.Status.vblank, h.status]
    split
    · next hset => exact iff_of_true (by decide) hset
    · next hclear => exact iff_of_false (by decide) hclear
  refine ⟨hiff, h.status_eq, fun hset => h.inVblank (hiff.1 hset), ?_,
    Ppu.nmiRequest_act (Ppu.powerOn.actAll acts)⟩
  intro earlier later hmarks hread hin
  exact hiff.2 (h.getLast?_of_inVblank hin hmarks hread)

/-- In the first frame the vertical blank begins with the dot at position 82523.  A read of the
register is remembered instead. -/
theorem vblank_remembered_until_read : ∃ (acts : List Ppu.Action) (earlier : List Ppu.Mark)
    (cart : Cartridge),
    (Ppu.powerOn.history acts = earlier ++ [.began] ∧
      82524 ≤ (Ppu.powerOn.actAll acts).beam.position) ∧
    (Ppu.powerOn.actAll acts).status.vblank = true ∧
    (Ppu.powerOn.actAll (acts ++ [.read cart .status])).status.vblank = false := by
  obtain ⟨-, cart, -⟩ := Cartridge.exists_load
  -- The number of dots is kept from being computed with.
  obtain ⟨n, hn⟩ : ∃ n : Nat, n = 82523 := ⟨_, rfl⟩
  have hbeam : (Ppu.powerOn.actAll (.replicate n .dot)).beam = ⟨241, 1⟩ := by
    obtain ⟨hin, hposition⟩ := Beam.inFrame_default.advanceBy n
    have hstart : ({} : Beam).position = 0 := rfl
    rw [Ppu.beam_dots]
    refine hin.position_eq_iff.1.1 (hposition.trans ?_)
    omega
  have hhistory : Ppu.powerOn.history (.replicate n .dot ++ [.dot]) =
      Ppu.powerOn.history (.replicate n .dot) ++ [.began] := by
    rw [Ppu.history_append, Ppu.history, Ppu.mark?, if_pos hbeam]
    rfl
  have hposition : (Ppu.powerOn.actAll (.replicate n .dot ++ [.dot])).beam.position = 82524 := by
    rw [Ppu.actAll_append]
    show (Ppu.powerOn.actAll (.replicate n .dot)).beam.advance.position = 82524
    rw [hbeam]
    rfl
  obtain ⟨hall, -⟩ := vblank_remembered
  obtain ⟨-, -, -, hkept, -⟩ := hall (.replicate n .dot ++ [.dot])
  obtain ⟨hiff, -⟩ := hall (.replicate n .dot ++ [.dot] ++ [.read cart .status])
  have hwindow : (82524 : Int) ≤ (Ppu.powerOn.actAll (.replicate n .dot ++ [.dot])).beam.position :=
    Int.le_of_eq hposition.symm
  refine ⟨_, _, cart, ⟨hhistory, hwindow⟩, hkept _ [] hhistory List.not_mem_nil (.inl hwindow), ?_⟩
  rw [Bool.eq_false_iff, ne_eq, hiff, Ppu.history_append]
  show ¬(_ ++ [Ppu.Mark.noticed]).getLast? = some .began
  rw [List.getLast?_concat]
  decide

end Console

end Nes
