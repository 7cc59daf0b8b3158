import Nes.Console.AddressSpace
import Nes.Cpu.Basic

/-!
# The console

The console is a processor with its address space and a clock that drives both.  In every clock the
picture unit draws one dot.  In every third clock, beginning with the first, the processor then
advances by one cycle.  Last, an interrupt that the picture unit requests is passed on to the
processor, which takes it where an instruction could start.

A clock in which the processor is found halted fails, but it advances the picture unit and the count
of clocks like any other.

Clocks, cycles and frames are counted without bound.  A machine that counts them in words of
sixty-four bits does the same as long as the words suffice, which is shown apart.

## Main definitions

* `Console`, `Console.powerOn`, `Console.reset`.
* `Console.clock`: one clock, with its result and its events.
* `Console.loadProgram`: placing a program on the cartridge.
-/

namespace Nes

/-- The console. -/
structure Console where
  /-- The processor. -/
  cpu : Cpu
  /-- What the processor can reach. -/
  space : AddressSpace
  /-- The number of clocks since the last reset. -/
  systemClock : Nat
  deriving DecidableEq, Repr

/-- What a clock leaves. -/
structure Clocked where
  /-- The console afterwards. -/
  console : Console
  /-- The fault of the processor, if it is halted. -/
  result : Except CpuFault Unit
  /-- What happened, in order. -/
  events : List Event

namespace Console

/-- The number of clocks in a cycle of the processor. -/
def clocksPerCycle : Nat := 3

/-- A console with a cartridge when power is switched on.  It has to be reset before it is
clocked. -/
def powerOn (cartridge : Cartridge) : Console where
  cpu := {}
  space := ⟨.blank, .powerOn, cartridge⟩
  systemClock := 0

/-- Resets the processor and the count of clocks. -/
def reset (c : Console) : Console × List Event :=
  let o := c.cpu.reset.run c.space
  (⟨o.value, o.bus, 0⟩, o.events ++ [.busReset o.value.registers.pc])

/-- The processor advances in the next clock. -/
def cpuIsDue (c : Console) : Bool := c.systemClock % clocksPerCycle == 0

/-- One cycle of a processor on its address space, if it is due. -/
def cpuPart (due : Bool) (cpu : Cpu) (space : AddressSpace) : Outcome Cpu.Ticked AddressSpace :=
  if due then cpu.tick.run space else ⟨⟨cpu, .ok ()⟩, space, []⟩

/-- One clock. -/
def clock (c : Console) : Clocked :=
  let due := c.cpuIsDue
  let ⟨cpu, space, systemClock⟩ := c
  let o := cpuPart due cpu { space with ppu := space.ppu.dot }
  let events := o.events
  let ⟨⟨cpu, result⟩, space, _⟩ := o
  let ⟨ram, ppu, cartridge⟩ := space
  let (requested, ppu) := ppu.takeNmiRequest
  { console :=
      { cpu := if requested then cpu.requestNmi else cpu
        space := ⟨ram, ppu, cartridge⟩
        systemClock := systemClock + 1 }
    result := result
    events := events }

/-! ### Access from outside -/

/-- Changes the processor. -/
def mapCpu (c : Console) (f : Cpu → Cpu) : Console := { c with cpu := f c.cpu }

/-- Remembers a non-maskable interrupt. -/
def requestNmi (c : Console) : Console := c.mapCpu (·.requestNmi)

/-- Remembers a maskable interrupt, if such interrupts are enabled. -/
def requestIrq (c : Console) : Console := c.mapCpu (·.requestIrq)

/-- Reads a byte as the processor would. -/
def read (c : Console) (addr : UInt16) : UInt8 × Console :=
  let (value, space) := c.space.read addr
  (value, { c with space := space })

/-- Reads a word as the processor would. -/
def readWord (c : Console) (addr : UInt16) : UInt16 × Console :=
  let o := (BusM.readWord addr).run c.space
  (o.value, { c with space := o.bus })

/-- The byte at an address, without side effects. -/
def peek (c : Console) (addr : UInt16) : UInt8 := c.space.peek addr

/-- Writes bytes to addresses as the processor would, and what that tells. -/
def writeAll (c : Console) (writes : List (UInt16 × UInt8)) : Console × Array Event :=
  let (space, events) := c.space.writeAll writes
  ({ c with space := space }, events)

/-- Writes a byte as the processor would, and what that tells. -/
def write (c : Console) (addr : UInt16) (value : UInt8) : Console × Array Event :=
  c.writeAll [(addr, value)]

/-- The address at which a loaded program starts. -/
def programStart : UInt16 := 0x8000

/-- The writes that place a program at its start and make the reset vector point to it. -/
def programWrites (program : Array UInt8) : List (UInt16 × UInt8) :=
  program.toList.zipIdx.map (fun (b, i) => (programStart + UInt16.ofNat i, b)) ++
    [(resetVector, programStart.toUInt8), (resetVector + 1, (programStart >>> 8).toUInt8)]

/-- Places a program where the processor starts after a reset, and what that tells. -/
def loadProgram (c : Console) (program : Array UInt8) : Console × Array Event :=
  c.writeAll (programWrites program)

end Console

end Nes
