import Nes.Proofs.Checked.Image
import Nes.Proofs.Checked.Machine
import Nes.Proofs.Checked.Tile
import Nes.Proofs.Ppu.WriteToggle

/-!
# Requests in fixed widths

A console is made from an image and then serves requests, in any order and with any arguments: it
is clocked, its memory is accessed, and it is asked what would be executed or shown.

No request is trapped.  The only thing that could ever fail is counting, and that only after 2 to
the power of 64 clocks.  What keeps everything else inside its bounds are a few facts that hold of
the console after any requests: few cycles are left of the instruction in flight, the beam is in its
frame, and the address in picture memory has fourteen bits.

## Main definitions

* `Request`, `Reply`, `Console.serve`, `Console.serveAll`: requests and their replies.
* `Checked.serve`, `Checked.serveAll`: the same with every index and every number checked.
* `Console.InBounds`: what holds of a console after any requests.

## Main statements

* `Console.Sound.serve`, `Console.Counted.serve`: what a request keeps.
* `Checked.serve_eq`: no request is trapped as long as its clocks can be counted.
* `Checked.never_trapped`: nor is loading any bytes, or any list of requests.
-/

namespace Nes

/-! ### Requests -/

/-- What can be requested of a console. -/
inductive Request
  | reset
  | clock
  | stepInstruction
  | stepFrame
  | requestNmi
  | requestIrq
  | read (addr : UInt16)
  | write (addr : UInt16) (value : UInt8)
  | readWord (addr : UInt16)
  | loadProgram (program : Array UInt8)
  | peek (addr : UInt16)
  | peekOperand (mode : AddressingMode)
  | readVideo (addr : UInt16)
  | nametable (table : Nat)
  | colour (palette pixel : UInt8)
  | decodeTile (table tile : UInt8)
  | patternTable (table palette : UInt8)

/-- What a console replies to a request. -/
inductive Reply
  /-- It is done. -/
  | done
  /-- A number of clocks was made, the last of which may have failed. -/
  | ran (clocks : Nat) (fault : Option CpuFault)
  | byte (value : UInt8)
  | word (value : UInt16)
  | operand (operand : Operand)
  | nametable (bytes : Vector UInt8 0x400)
  | colour (colour : Ppu.Rgb)
  | tile (tile : Ppu.Tile)
  | picture (pixels : Vector Ppu.Rgb 16384)

/-- The number of clocks that were made for a reply. -/
def Reply.clocks : Reply → Nat
  | .ran clocks _ => clocks
  | _ => 0

/-- The number of clocks that were made for some replies. -/
def Reply.clocksOf (replies : List Reply) : Nat := (replies.map clocks).sum

namespace Console

/-- One request. -/
def serve (c : Console) : Request → Console × Reply
  | .reset => (c.reset.1, .done)
  | .clock => (c.clock.console, .ran 1 (faultOf c.clock.result))
  | .stepInstruction =>
    let r := c.stepInstruction
    (r.console, .ran r.clocks r.fault)
  | .stepFrame =>
    let r := c.stepFrame
    (r.console, .ran r.clocks r.fault)
  | .requestNmi => (c.requestNmi, .done)
  | .requestIrq => (c.requestIrq, .done)
  | .read addr => ((c.read addr).2, .byte (c.read addr).1)
  | .write addr value => ((c.write addr value).1, .done)
  | .readWord addr => ((c.readWord addr).2, .word (c.readWord addr).1)
  | .loadProgram program => ((c.loadProgram program).1, .done)
  | .peek addr => (c, .byte (c.peek addr))
  | .peekOperand mode => (c, .operand (c.cpu.peekOperand mode c.space))
  | .readVideo addr => (c, .byte (c.space.ppu.readVideo c.space.cartridge addr))
  | .nametable table =>
    (c, .nametable (c.space.ppu.memory.nametable ⟨table % 2, Nat.mod_lt _ (by decide)⟩))
  | .colour palette pixel => (c, .colour (c.space.ppu.colour c.space.cartridge palette pixel))
  | .decodeTile table tile => (c, .tile (c.space.ppu.decodeTile c.space.cartridge table tile))
  | .patternTable table palette =>
    (c, .picture (c.space.ppu.patternTable c.space.cartridge table palette))

/-- Requests one after the other, with the replies to them. -/
def serveAll : Console → List Request → Console × List Reply
  | c, [] => (c, [])
  | c, q :: requests =>
    let (c, reply) := c.serve q
    let (c, replies) := c.serveAll requests
    (c, reply :: replies)

end Console

namespace Checked

/-- One request, with every index and every number checked. -/
def serve (c : Console) : Request → Checked (Console × Reply)
  | .reset => do
    let (c, _) ← reset c
    pure (c, .done)
  | .clock => do
    let clocked ← clock c
    pure (clocked.console, .ran 1 (faultOf clocked.result))
  | .stepInstruction => do
    let r ← stepInstruction c
    pure (r.console, .ran r.clocks r.fault)
  | .stepFrame => do
    let r ← stepFrame c
    pure (r.console, .ran r.clocks r.fault)
  | .requestNmi => pure (c.requestNmi, .done)
  | .requestIrq => pure (c.requestIrq, .done)
  | .read addr => do
    let (value, space) ← read c.space addr
    pure ({ c with space := space }, .byte value)
  | .write addr value => do
    let (space, _) ← writeAll c.space [(addr, value)]
    pure ({ c with space := space }, .done)
  | .readWord addr => do
    let o ← run (sure (BusM.readWord addr)) c.space
    pure ({ c with space := o.bus }, .word o.value)
  | .loadProgram program => do
    let (space, _) ← writeAll c.space (Console.programWrites program)
    pure ({ c with space := space }, .done)
  | .peek addr => do
    let value ← peek c.space addr
    pure (c, .byte value)
  | .peekOperand mode => do
    let operand ← peekOperand c.cpu mode c.space
    pure (c, .operand operand)
  | .readVideo addr => do
    let value ← readVideo c.space.ppu c.space.cartridge addr
    pure (c, .byte value)
  | .nametable table => do
    let bytes ← nametable c.space.ppu table
    pure (c, .nametable bytes)
  | .colour palette pixel => do
    let rgb ← colour c.space.ppu c.space.cartridge palette pixel
    pure (c, .colour rgb)
  | .decodeTile table tile => do
    let pixels ← decodeTile c.space.ppu c.space.cartridge table tile
    pure (c, .tile pixels)
  | .patternTable table palette => do
    let pixels ← patternTable c.space.ppu c.space.cartridge table palette
    pure (c, .picture pixels)

/-- Requests one after the other, with the replies to them. -/
def serveAll : Console → List Request → Checked (Console × List Reply)
  | c, [] => pure (c, [])
  | c, q :: requests => do
    let (c, reply) ← serve c q
    let (c, replies) ← serveAll c requests
    pure (c, reply :: replies)

end Checked

/-! ### What a request keeps -/

namespace Console

/-- A sound console is sound after a request. -/
theorem Sound.serve {c : Console} (h : c.Sound) (q : Request) : (c.serve q).1.Sound := by
  -- Requests that only look at the console leave it as it is.
  cases q with
  | reset => exact h.reset
  | clock => exact h.clock
  | stepInstruction => exact h.stepInstruction
  | stepFrame => exact h.stepFrame
  | requestNmi => exact h.withCpu h.cyclesLeft_le
  | requestIrq =>
    apply h.withCpu
    show (Cpu.requestIrq c.cpu).cyclesLeft ≤ 6
    rw [Cpu.requestIrq_eq]
    exact h.cyclesLeft_le
  | read addr => exact h.read addr
  | write addr value => exact h.writeAll [(addr, value)]
  | readWord addr => exact (h.read addr).read (addr + 1)
  | loadProgram program => exact h.writeAll (programWrites program)
  | _ => exact h

/-- The counters gain no more than the number of clocks that a request makes. -/
theorem Counted.serve {n : Nat} {c : Console} (h : c.Counted n) (q : Request) :
    (c.serve q).1.Counted (n + (c.serve q).2.clocks) := by
  cases q with
  | reset => exact h.reset
  | clock => exact h.clock
  | stepInstruction => exact h.stepInstruction
  | stepFrame => exact h.stepFrame
  | requestIrq =>
    refine ⟨h.frameCount, ?_, h.systemClock⟩
    show (Cpu.requestIrq c.cpu).totalCycles ≤ n
    rw [Cpu.requestIrq_eq]
    exact h.totalCycles
  | read addr => exact h.withSpace (c.space.clockwork_read addr)
  | write addr value => exact h.writeAll [(addr, value)]
  | readWord addr => exact h.withSpace (AddressSpace.clockwork_run (BusM.readWord addr) c.space)
  | loadProgram program => exact h.writeAll (programWrites program)
  | _ => exact ⟨h.frameCount, h.totalCycles, h.systemClock⟩

/-- What a request does to the picture unit is a list of actions. -/
theorem ppu_serve (c : Console) (q : Request) :
    ∃ acts, (c.serve q).1.space.ppu = c.space.ppu.actAll acts := by
  cases q with
  | reset => exact ⟨_, c.ppu_operate .reset⟩
  | clock => exact ⟨_, c.ppu_operate .clock⟩
  | stepInstruction => exact ⟨_, c.ppu_operate .stepInstruction⟩
  | stepFrame => exact ⟨_, c.ppu_operate .stepFrame⟩
  | read addr => exact ⟨_, c.ppu_operate (.read addr)⟩
  | write addr value => exact ⟨_, c.ppu_operate (.write addr value)⟩
  | readWord addr => exact ⟨_, c.ppu_operateAll [.read addr, .read (addr + 1)]⟩
  | loadProgram program => exact ⟨_, c.ppu_operate (.loadProgram program)⟩
  | _ => exact ⟨[], rfl⟩

/-- The address in picture memory keeps to fourteen bits. -/
theorem videoAddress_serve {c : Console} (h : c.space.ppu.videoAddress < 0x4000) (q : Request) :
    (c.serve q).1.space.ppu.videoAddress < 0x4000 := by
  obtain ⟨acts, hacts⟩ := c.ppu_serve q
  rw [hacts]
  exact Ppu.videoAddress_actAll h acts

/-- What every request keeps is kept by a list of requests. -/
theorem serveAll_preserves {P : Console → Prop} (h : ∀ c q, P c → P (c.serve q).1) {c : Console}
    (hc : P c) (requests : List Request) : P (c.serveAll requests).1 := by
  induction requests generalizing c with
  | nil => exact hc
  | cons q requests ih => exact ih (h c q hc)

/-- What holds of a console after any requests. -/
structure InBounds (c : Console) : Prop where
  /-- At most six cycles are left of the instruction in flight. -/
  cyclesLeft : c.cpu.cyclesLeft ≤ 6
  /-- A cycle is counted only where one to seven cycles are left. -/
  beforeCount : ∀ space : AddressSpace,
    (c.cpu.tick.run space).value = (c.cpu.beforeCount space).finishTick ∧
      ((c.cpu.beforeCount space).halted = none →
        1 ≤ (c.cpu.beforeCount space).cyclesLeft ∧ (c.cpu.beforeCount space).cyclesLeft ≤ 7)
  /-- The address in picture memory has fourteen bits. -/
  videoAddress : c.space.ppu.videoAddress < 0x4000
  /-- The beam is on a line. -/
  cycle : c.space.ppu.beam.cycle ≤ 340
  /-- The line is in the frame. -/
  scanline : -1 ≤ c.space.ppu.beam.scanline ∧ c.space.ppu.beam.scanline ≤ 260

theorem Sound.inBounds {c : Console} (h : c.Sound) (hvideo : c.space.ppu.videoAddress < 0x4000) :
    c.InBounds where
  cyclesLeft := h.cyclesLeft_le
  beforeCount := fun space =>
    ⟨c.cpu.value_tick space, fun hh => Cpu.cyclesLeft_beforeCount h.cyclesLeft_le hh⟩
  videoAddress := hvideo
  cycle := Nat.le_of_lt_succ h.inFrame.2.2
  scanline := ⟨h.inFrame.1, h.inFrame.2.1⟩

end Console

namespace Checked

/-! ### No request is trapped -/

/-- **A request is not trapped** as long as the clocks that it makes can be counted. -/
theorem serve_eq {n : Nat} {c : Console} (hsound : c.Sound) (hcount : c.Counted n) (q : Request)
    (hn : n + (c.serve q).2.clocks < 2 ^ 64) : serve c q = .ok (c.serve q) := by
  -- Each request asks one checked function, and only those that make clocks need the bound.
  cases q with
  | reset =>
    rw [serve, reset_eq]
    rfl
  | clock =>
    rw [serve, clock_eq hsound.inFrame hcount hn]
    rfl
  | stepInstruction =>
    rw [serve, stepInstruction_eq hsound hcount hn]
    rfl
  | stepFrame =>
    rw [serve, stepFrame_eq hsound hcount hn]
    rfl
  | requestNmi | requestIrq => rfl
  | read addr =>
    rw [serve, read_eq]
    rfl
  | write addr value =>
    rw [serve, writeAll_eq]
    rfl
  | readWord addr =>
    rw [serve, run_sure]
    rfl
  | loadProgram program =>
    rw [serve, writeAll_eq]
    rfl
  | peek addr =>
    rw [serve, peek_eq]
    rfl
  | peekOperand mode =>
    rw [serve, peekOperand_eq]
    rfl
  | readVideo addr =>
    rw [serve, readVideo_eq]
    rfl
  | nametable table =>
    rw [serve, nametable_eq]
    rfl
  | colour palette pixel =>
    rw [serve, colour_eq]
    rfl
  | decodeTile table tile =>
    rw [serve, decodeTile_eq]
    rfl
  | patternTable table palette =>
    rw [serve, patternTable_eq]
    rfl

/-- **Nor is a list of requests.** -/
theorem serveAll_eq {n : Nat} {c : Console} (hsound : c.Sound) (hcount : c.Counted n)
    (requests : List Request) (hn : n + Reply.clocksOf (c.serveAll requests).2 < 2 ^ 64) :
    serveAll c requests = .ok (c.serveAll requests) := by
  -- The counters are bounded by the number of clocks that the requests before have made.
  induction requests generalizing n c with
  | nil => rfl
  | cons q requests ih =>
    have hclocks : Reply.clocksOf (c.serveAll (q :: requests)).2 =
        (c.serve q).2.clocks + Reply.clocksOf ((c.serve q).1.serveAll requests).2 :=
      List.sum_cons
    rw [hclocks] at hn
    rw [serveAll, serve_eq hsound hcount q (by omega), ok_bind]
    dsimp only
    rw [ih (hsound.serve q) (hcount.serve q) (by omega)]
    rfl

/-- **Nothing is trapped.**  No bytes trap the loader, and a cartridge that is loaded makes a
console that serves any requests, as long as the clocks that they make fit a counter of sixty-four
bits.

After any requests, and however many clocks they make, at most six cycles are left of the
instruction in flight, a cycle is only counted where one to seven are left, the address in picture
memory has fourteen bits, and the beam is in its frame.  What an instruction costs, with what the
operation adds to the opcode matrix, is always two to seven cycles. -/
theorem never_trapped :
    (∀ image : Array UInt8, load image = .ok (Cartridge.load image)) ∧
    (∀ image cartridge, Cartridge.load image = .ok cartridge → ∀ requests : List Request,
      let served := (Console.powerOn cartridge).serveAll requests
      served.1.InBounds ∧
        (Reply.clocksOf served.2 < 2 ^ 64 → serveAll (.powerOn cartridge) requests = .ok served)) ∧
    ∀ (cpu : Cpu) (r : Registers) (space : AddressSpace) opcode i,
      Instruction.ofOpcode? opcode = some i →
        2 ≤ ((cpu.execute i r).run space).value.cyclesLeft ∧
          ((cpu.execute i r).run space).value.cyclesLeft ≤ 7 := by
  refine ⟨load_eq, fun image cartridge hload requests => ?_, fun cpu r space opcode i hi =>
    cpu.cyclesLeft_execute hi r space⟩
  -- What is sound when it is switched on stays so, and the counters start from zero.
  have hsound := Console.sound_powerOn hload
  have hcount : (Console.powerOn cartridge).Counted 0 :=
    ⟨Nat.le_refl 0, Nat.le_refl 0, Nat.le_refl 0⟩
  have hlast := Console.serveAll_preserves (P := Console.Sound) (fun _ q h => h.serve q) hsound
    requests
  have hstart : (Console.powerOn cartridge).space.ppu.videoAddress < 0x4000 :=
    show (0 : UInt16) < 0x4000 by decide
  have hvideo := Console.serveAll_preserves (P := fun c => c.space.ppu.videoAddress < 0x4000)
    (fun _ q h => Console.videoAddress_serve h q) hstart requests
  exact ⟨hlast.inBounds hvideo, fun hclocks => serveAll_eq hsound hcount requests (by omega)⟩

/-- A console without a program executes the same instruction again and again.  It answers requests
with arguments from beyond all ranges. -/
theorem never_trapped_without_program : ∃ image cartridge,
    let requests : List Request := [.reset, .clock, .peekOperand .indirectY, .nametable 1000,
      .colour 0xFF 0xFF, .patternTable 0xFF 0xFF, .write 0x2006 0xFF, .write 0x2006 0xFF, .clock]
    let served := (Console.powerOn cartridge).serveAll requests
    (Cartridge.load image = .ok cartridge ∧ Reply.clocksOf served.2 < 2 ^ 64) ∧
      load image = .ok (.ok cartridge) ∧ serveAll (.powerOn cartridge) requests = .ok served ∧
      served.1.space.ppu.videoAddress < 0x4000 := by
  obtain ⟨hload, hserved, -⟩ := never_trapped
  have hsize : Image.WellSized ⟨0, 0, 0, 0, .replicate 8 0, #[], #[], #[]⟩ := ⟨rfl, rfl, rfl⟩
  obtain ⟨image, cartridge, hok⟩ : ∃ image cartridge, Cartridge.load image = .ok cartridge :=
    ⟨_, _, Cartridge.load_toBytes hsize rfl⟩
  refine ⟨image, cartridge, ⟨hok, by show 2 < 2 ^ 64; decide⟩, ?_, ?_, ?_⟩
  · rw [hload, hok]
  · exact (hserved image cartridge hok _).2 (by show 2 < 2 ^ 64; decide)
  · exact (hserved image cartridge hok _).1.videoAddress

end Checked

end Nes
