import Nes.Cartridge.Header
import Nes.Cpu.Instruction
import Nes.Text.Numeral

/-!
# Events

The machine tells what it does by events.  They do not influence it: every operation that can cause
events returns them beside its result.

## Main definitions

* `Event`: what can be told.
* `Event.level`, `Event.message`, `Event.fields`: how it is told.
-/

namespace Nes

/-- How important an event is. -/
inductive Level
  | error | info | debug | trace
  deriving DecidableEq, Repr

/-- The name of a level. -/
def Level.name : Level → String
  | error => "ERROR"
  | info => "INFO"
  | debug => "DEBUG"
  | trace => "TRACE"

/-- What the machine tells about its work. -/
inductive Event
  /-- A cartridge was loaded from an image. -/
  | cartridgeLoaded (header : Header) (checksum : UInt32)
  /-- The machine was reset and starts at the address in the reset vector. -/
  | busReset (start : UInt16)
  /-- The processor entered the handler of a hardware interrupt. -/
  | interruptTaken (vector pc : UInt16)
  /-- The processor is about to execute the instruction at an address. -/
  | executed (pc : UInt16) (instruction : Instruction)
  /-- The processor met an opcode without a meaning and halted. -/
  | unimplementedOpcode (opcode : UInt8) (pc : UInt16)
  /-- The processor wrote to an address that nothing answers. -/
  | unmappedWrite (addr : UInt16) (value : UInt8)
  /-- A write to a pattern table went to the memory of the picture unit. -/
  | patternWriteKept (addr : UInt16) (value : UInt8)
  deriving DecidableEq, Repr

namespace Event

/-- The value of a field of an event. -/
inductive Field
  | number (n : Nat)
  | flag (b : Bool)
  | text (s : String)
  deriving DecidableEq, Repr

/-- The importance of an event. -/
def level : Event → Level
  | cartridgeLoaded .. | busReset .. => .info
  | interruptTaken .. => .debug
  | executed .. | unmappedWrite .. | patternWriteKept .. => .trace
  | unimplementedOpcode .. => .error

/-- The wording of an event. -/
def message : Event → String
  | cartridgeLoaded .. => "cartridge loaded"
  | busReset .. => "bus reset"
  | interruptTaken .. => "interrupt taken"
  | executed .. => "exec"
  | unimplementedOpcode .. => "unimplemented opcode, CPU halted"
  | unmappedWrite .. => "unmapped CPU write dropped"
  | patternWriteKept .. => "pattern write kept in PPU-local table"

/-- The fields of an event, by name. -/
def fields : Event → List (String × Field)
  | cartridgeLoaded header checksum =>
    [("mapper_id", .number header.mapperId.toNat),
     ("prg_banks", .number header.prgBanks.toNat),
     ("chr_banks", .number header.chrBanks.toNat),
     ("mirroring", .text header.mirroring.name),
     ("chr_is_ram", .flag header.chrIsRam),
     ("checksum", .text (Numeral.hex 8 checksum.toNat))]
  | busReset start => [("reset_vector", .text ("$" ++ Numeral.hexWord start))]
  | interruptTaken vector pc => [("vector", .number vector.toNat), ("pc", .number pc.toNat)]
  | executed pc instruction =>
    [("pc", .number pc.toNat),
     ("opcode", .number instruction.opcode.toNat),
     ("mnemonic", .text instruction.mnemonic.name)]
  | unimplementedOpcode opcode pc => [("opcode", .number opcode.toNat), ("pc", .number pc.toNat)]
  | unmappedWrite addr value => [("addr", .number addr.toNat), ("value", .number value.toNat)]
  | patternWriteKept addr value => [("addr", .number addr.toNat), ("value", .number value.toNat)]

end Event

end Nes
