import Nes.Proofs.Console.Reachable

/-!
# Operations on a console

Besides the calls of a player there are those of a debugger: the processor can make a cycle outside
of the clock or be changed while it is taken out, the picture unit can draw a dot by itself, and its
registers and its memory can be reached directly.  Here all of this is one type of operations, each
with everything that it answers.

Of a cartridge, operations change single bytes of its memories, and these only by way of the
processor's address space or of the picture unit.  What neither of the two changes is the same after
any number of operations.

## Main definitions

* `Operation`, `Console.operate`: the operations and their answers.
* `Console.operateAll`, `Console.answers`: many of them in a row.
* `Cartridge.pictureRom?`: the picture memory, where it is ROM.

## Main statements

* `Console.Reachable.exists_operateAll`: every reachable console is reached by operations.
* `Cartridge.Fixed.operateAll`: no operation changes what is fixed.
* `Cartridge.fixed_pictureRom?`: the picture ROM is fixed.
-/

namespace Nes

/-- What can be done to a console. -/
inductive Operation
  | reset
  | clock
  | stepInstruction
  | stepFrame
  /-- The processor makes a cycle outside of the clock. -/
  | tick
  | requestNmi
  | requestIrq
  /-- Something is done to the processor while it is taken out. -/
  | mapCpu (f : Cpu → Cpu)
  | read (addr : UInt16)
  | write (addr : UInt16) (value : UInt8)
  | loadProgram (program : Array UInt8)
  /-- The picture unit draws a dot by itself. -/
  | dot
  | takeNmiRequest
  | takeFrameComplete
  | readRegister (r : Ppu.Register)
  | writeRegister (r : Ppu.Register) (value : UInt8)
  | writeVideo (addr : UInt16) (value : UInt8)

/-- What an operation answers.  Where it answers nothing of a kind, the default stands. -/
structure Answer where
  byte : UInt8 := 0
  flag : Bool := false
  clocks : Nat := 0
  fault : Option CpuFault := none
  events : List Event := []
  deriving DecidableEq

/-- What an operation leaves. -/
structure Operated where
  console : Console
  answer : Answer

/-- The fault in a result. -/
def faultOf : Except CpuFault Unit → Option CpuFault
  | .ok () => none
  | .error fault => some fault

theorem Run.clock_eq (r : Run) : r.clock =
    ⟨r.console.clock.console, r.clocks + 1, faultOf r.console.clock.result,
      r.events ++ r.console.clock.events⟩ := rfl

/-- What a run leaves, as an operation. -/
def Run.operated (r : Run) : Operated :=
  ⟨r.console, { clocks := r.clocks, fault := r.fault, events := r.events.toList }⟩

namespace Console

/-- Changes the picture unit. -/
def withPpu (c : Console) (ppu : Ppu) : Console := { c with space := { c.space with ppu := ppu } }

/-- Changes the picture unit and the cartridge. -/
def withPicture (c : Console) (picture : Ppu × Cartridge) : Console :=
  { c with space := { c.space with ppu := picture.1, cartridge := picture.2 } }

/-- One operation. -/
def operate (c : Console) : Operation → Operated
  | .reset => ⟨c.reset.1, { events := c.reset.2 }⟩
  | .clock => ⟨c.clock.console, { fault := faultOf c.clock.result, events := c.clock.events }⟩
  | .stepInstruction => c.stepInstruction.operated
  | .stepFrame => c.stepFrame.operated
  | .tick =>
    let o := c.cpu.tick.run c.space
    ⟨{ c with cpu := o.value.cpu, space := o.bus },
      { fault := faultOf o.value.result, events := o.events }⟩
  | .requestNmi => ⟨c.requestNmi, {}⟩
  | .requestIrq => ⟨c.requestIrq, {}⟩
  | .mapCpu f => ⟨c.mapCpu f, {}⟩
  | .read addr => ⟨(c.read addr).2, { byte := (c.read addr).1 }⟩
  | .write addr value => ⟨(c.write addr value).1, { events := (c.write addr value).2.toList }⟩
  | .loadProgram program =>
    ⟨(c.loadProgram program).1, { events := (c.loadProgram program).2.toList }⟩
  | .dot => ⟨c.withPpu c.space.ppu.dot, {}⟩
  | .takeNmiRequest =>
    ⟨c.withPpu c.space.ppu.takeNmiRequest.2, { flag := c.space.ppu.takeNmiRequest.1 }⟩
  | .takeFrameComplete => ⟨c.takeFrameComplete.2, { flag := c.takeFrameComplete.1 }⟩
  | .readRegister r =>
    let read := c.space.ppu.readRegister c.space.cartridge r
    ⟨c.withPpu read.2, { byte := read.1 }⟩
  | .writeRegister r value =>
    ⟨c.withPicture (c.space.ppu.writeRegister c.space.cartridge r value),
      { events := c.space.ppu.writeRegisterEvents c.space.cartridge r value }⟩
  | .writeVideo addr value =>
    ⟨c.withPicture (c.space.ppu.writeVideo c.space.cartridge addr value),
      { events := Ppu.writeVideoEvents c.space.cartridge addr value }⟩

/-- The console after a list of operations. -/
def operateAll (c : Console) (ops : List Operation) : Console :=
  ops.foldl (fun c o => (c.operate o).console) c

/-- What a list of operations answers. -/
def answers : Console → List Operation → List Answer
  | _, [] => []
  | c, o :: ops => (c.operate o).answer :: answers (c.operate o).console ops

/-- What every operation of a list keeps is kept by the list. -/
theorem operateAll_preserves {P : Console → Prop} {ops : List Operation}
    (h : ∀ o ∈ ops, ∀ c, P c → P (c.operate o).console) {c : Console} (hc : P c) :
    P (c.operateAll ops) := by
  induction ops generalizing c with
  | nil => exact hc
  | cons o ops ih =>
    have hhead := h o (List.mem_cons_self ..) c hc
    exact ih (fun o' hmem => h o' (List.mem_cons_of_mem _ hmem)) hhead

/-- **Every reachable console is reached by operations.**  A processor that makes a cycle on another
bus, is reset there or is replaced has been changed while it was taken out. -/
theorem Reachable.exists_operateAll {c : Console} (h : c.Reachable) : ∃ image cartridge ops,
    Cartridge.load image = .ok cartridge ∧ c = (Console.powerOn cartridge).operateAll ops := by
  -- An operation that comes last is added to the list.
  have hone : ∀ {c : Console} (o : Operation),
      (∃ image cartridge ops, Cartridge.load image = .ok cartridge ∧
        c = (Console.powerOn cartridge).operateAll ops) →
      ∃ image cartridge ops, Cartridge.load image = .ok cartridge ∧
        (c.operate o).console = (Console.powerOn cartridge).operateAll ops := by
    rintro c o ⟨image, cartridge, ops, hload, rfl⟩
    refine ⟨image, cartridge, ops ++ [o], hload, ?_⟩
    rw [operateAll, operateAll, List.foldl_append]
    rfl
  induction h with
  | powerOn hload => exact ⟨_, _, [], hload, rfl⟩
  | reset _ ih => exact hone .reset ih
  | clock _ ih => exact hone .clock ih
  | stepInstruction _ ih => exact hone .stepInstruction ih
  | stepFrame _ ih => exact hone .stepFrame ih
  | read _ addr ih => exact hone (.read addr) ih
  | write _ addr value ih => exact hone (.write addr value) ih
  | loadProgram _ program ih => exact hone (.loadProgram program) ih
  | requestNmi _ ih => exact hone .requestNmi ih
  | requestIrq _ ih => exact hone .requestIrq ih
  | tickOn _ bus ih => exact hone (.mapCpu fun cpu => (cpu.tick.run bus).value.cpu) ih
  | resetOn _ bus ih => exact hone (.mapCpu fun cpu => (cpu.reset.run bus).value) ih
  | @exchange _ d _ _ ih => exact hone (.mapCpu fun _ => d.cpu) ih

end Console

/-! ### What operations leave alone -/

/-- The picture memory behind a mapper is RAM. -/
def Mapper.hasPictureRam : Mapper → Bool
  | nrom _ chrIsRam => chrIsRam

namespace Cartridge

/-- The picture memory of a cartridge on which it is ROM. -/
def pictureRom? (c : Cartridge) : Option (Array UInt8) :=
  if c.mapper.hasPictureRam then none else some c.chr

/-- Where picture memory is stored to, it is RAM. -/
theorem hasPictureRam_of_chrWriteCell? {c : Cartridge} {addr : UInt16} {cell : Nat}
    (h : c.chrWriteCell? addr = some cell) : c.mapper.hasPictureRam = true := by
  unfold chrWriteCell? Mapper.chrWriteOffset? at h
  unfold Mapper.hasPictureRam
  cases hm : c.mapper with
  | nrom banks chrIsRam =>
    rw [hm] at h
    cases chrIsRam with
    | true => rfl
    | false => exact absurd h (Option.some_ne_none cell).symm

/-- **Nothing is stored in the picture ROM.** -/
theorem fixed_pictureRom? : Fixed pictureRom? where
  setPrg := fun _ _ _ => rfl
  writeVideo := by
    intro p cart addr value
    unfold Ppu.writeVideo
    dsimp only
    split
    · next cart' htaken =>
      -- The mapper claims the store, so there is no picture ROM before it or after it.
      obtain ⟨cell, hcell, rfl⟩ := exists_setChr_of_writeChr? htaken
      have hram := hasPictureRam_of_chrWriteCell? hcell
      have hram' : (cart.setChr cell value).mapper.hasPictureRam = true := hram
      rw [pictureRom?, pictureRom?, hram, hram', if_pos rfl, if_pos rfl]
    · rfl

namespace Fixed

variable {δ : Type} {f : Cartridge → δ} (hf : Fixed f)

include hf

theorem extend (stop : Console → Bool) (limit : Nat) (r : Run) :
    f (r.extend stop limit).console.space.cartridge = f r.console.space.cartridge :=
  Run.extend_preserves (P := fun c => f c.space.cartridge = f r.console.space.cartridge)
    (fun c h => (Console.fixed_clock hf c).trans h) rfl

theorem stepFrame (c : Console) : f c.stepFrame.console.space.cartridge = f c.space.cartridge := by
  have hrun := hf.extend (·.space.ppu.frameComplete) Beam.frameLength
    { console := c.takeFrameComplete.2 }
  unfold Console.stepFrame
  dsimp only
  split <;> exact hrun

/-- **No operation changes what is fixed.** -/
theorem operate (c : Console) (o : Operation) :
    f (c.operate o).console.space.cartridge = f c.space.cartridge := by
  cases o with
  | reset => exact hf.run c.cpu.reset c.space
  | clock => exact Console.fixed_clock hf c
  | stepInstruction => exact (hf.extend ..).trans (hf.extend _ _ { console := c })
  | stepFrame => exact hf.stepFrame c
  | tick => exact hf.run c.cpu.tick c.space
  | read addr => exact congrArg f (c.space.cartridge_read addr)
  | write addr value => exact hf.writeAll c.space [(addr, value)]
  | loadProgram program => exact hf.writeAll c.space (Console.programWrites program)
  | writeRegister r value => exact hf.writeRegister c.space.ppu c.space.cartridge r value
  | writeVideo addr value => exact hf.writeVideo c.space.ppu c.space.cartridge addr value
  | requestNmi | requestIrq | mapCpu | dot | takeNmiRequest | takeFrameComplete | readRegister => rfl

theorem operateAll (c : Console) (ops : List Operation) :
    f (c.operateAll ops).space.cartridge = f c.space.cartridge :=
  Console.operateAll_preserves (P := fun d => f d.space.cartridge = f c.space.cartridge)
    (fun o _ d h => (hf.operate d o).trans h) rfl

end Fixed

end Cartridge

end Nes
