/-!
# Operands

An instruction names its operand in one of thirteen ways.  Resolving an operand means reading the
bytes that follow the opcode, and any pointer that they name, and computing the address at which the
instruction acts.

Two rules come from the eight-bit adder of the processor.  Addresses in page zero stay in page zero
when an index is added to them, and a pointer whose low byte is `0xFF` takes its second byte from
the beginning of the same page.

Resolution only needs a way to read memory, so it is written for any monad with a reader.  Executing
an instruction and inspecting one therefore use the same definition, the first with reads that may
have side effects and the second with reads that have none.

## Main definitions

* `AddressingMode`, with the number of operand bytes.
* `Operand`: a resolved operand.
* `AddressingMode.resolve`: from operand bytes to operand.
-/

namespace Nes

/-- The ways in which an instruction names its operand. -/
inductive AddressingMode
  /-- There is no operand. -/
  | implied
  /-- The accumulator. -/
  | accumulator
  /-- The byte after the opcode itself. -/
  | immediate
  /-- An address in page zero. -/
  | zeroPage
  /-- An address in page zero plus X. -/
  | zeroPageX
  /-- An address in page zero plus Y. -/
  | zeroPageY
  /-- A full address. -/
  | absolute
  /-- A full address plus X. -/
  | absoluteX
  /-- A full address plus Y. -/
  | absoluteY
  /-- The address stored at a full address. -/
  | indirect
  /-- The address stored in page zero at the operand byte plus X. -/
  | indirectX
  /-- The address stored in page zero at the operand byte, plus Y. -/
  | indirectY
  /-- A signed distance from the following instruction. -/
  | relative
  deriving DecidableEq, Repr, Inhabited

namespace AddressingMode

/-- The number of bytes that follow the opcode. -/
def operandLength : AddressingMode → Nat
  | implied | accumulator => 0
  | immediate | zeroPage | zeroPageX | zeroPageY | indirectX | indirectY | relative => 1
  | absolute | absoluteX | absoluteY | indirect => 2

/-- The name of a mode. -/
def name : AddressingMode → String
  | implied => "Implied"
  | accumulator => "Accumulator"
  | immediate => "Immediate"
  | zeroPage => "ZeroPage"
  | zeroPageX => "ZeroPageX"
  | zeroPageY => "ZeroPageY"
  | absolute => "Absolute"
  | absoluteX => "AbsoluteX"
  | absoluteY => "AbsoluteY"
  | indirect => "Indirect"
  | indirectX => "IndirectX"
  | indirectY => "IndirectY"
  | relative => "Relative"

/-- All modes. -/
def all : List AddressingMode :=
  [implied, accumulator, immediate, zeroPage, zeroPageX, zeroPageY, absolute, absoluteX, absoluteY,
    indirect, indirectX, indirectY, relative]

/-- The mode of a name. -/
def ofName? (name : String) : Option AddressingMode := all.find? (·.name == name)

theorem mem_all (mode : AddressingMode) : mode ∈ all := by cases mode <;> decide

end AddressingMode

/-- The word with the given low and high byte. -/
def wordOf (low high : UInt8) : UInt16 := (high.toUInt16 <<< 8) ||| low.toUInt16

/-- Whether two addresses lie on different pages of 256 bytes. -/
def pagesDiffer (a b : UInt16) : Bool := a &&& 0xFF00 != b &&& 0xFF00

/-- The address after `addr` on the same page, the first of the page after its last. -/
def nextInPage (addr : UInt16) : UInt16 := (addr &&& 0xFF00) ||| ((addr + 1) &&& 0x00FF)

/-- A byte as a signed distance, modulo the address space. -/
def signedOffset (b : UInt8) : UInt16 := b.toInt8.toInt16.toUInt16

/-- A resolved operand. -/
structure Operand where
  /-- The mode that produced it. -/
  mode : AddressingMode
  /-- The address at which the instruction acts; none without an operand in memory. -/
  address : Option UInt16
  /-- Adding an index to a full address moved it to another page. -/
  pageCrossed : Bool
  deriving DecidableEq, Repr, Inhabited

namespace Operand

/-- The cycles that a reading instruction takes longer because of a crossed page. -/
def penalty (op : Operand) : Nat := op.pageCrossed.toNat

/-- An operand without an address. -/
def bare (mode : AddressingMode) : Operand := ⟨mode, none, false⟩

/-- An operand at an address that no page was crossed to reach. -/
def plain (mode : AddressingMode) (addr : UInt16) : Operand := ⟨mode, some addr, false⟩

/-- An operand at a base address plus an index. -/
def indexed (mode : AddressingMode) (base : UInt16) (index : UInt8) : Operand :=
  let addr := base + index.toUInt16
  ⟨mode, some addr, pagesDiffer base addr⟩

end Operand

section Resolve

variable {m : Type → Type} [Monad m]

/-- Reads a word whose bytes are at two given addresses, the low byte first. -/
@[inline] def readWordAt (read : UInt16 → m UInt8) (low high : UInt16) : m UInt16 := do
  let l ← read low
  let h ← read high
  pure (wordOf l h)

/-- Reads a word whose high byte follows its low byte. -/
@[inline] def readWord (read : UInt16 → m UInt8) (addr : UInt16) : m UInt16 :=
  readWordAt read addr (addr + 1)

/-- Reads a word in page zero, of which the byte after the last is the first. -/
@[inline] def readPointer (read : UInt16 → m UInt8) (cell : UInt8) : m UInt16 :=
  readWordAt read cell.toUInt16 (cell + 1).toUInt16

/-- The operand of an instruction in the given mode whose operand bytes start at `start`, in a
processor with the given index registers. -/
@[specialize] def AddressingMode.resolve (read : UInt16 → m UInt8) (mode : AddressingMode)
    (start : UInt16) (x y : UInt8) : m Operand :=
  match mode with
  | .implied | .accumulator => pure (.bare mode)
  | .immediate => pure (.plain mode start)
  | .zeroPage => do
    let cell ← read start
    pure (.plain mode cell.toUInt16)
  | .zeroPageX => do
    let cell ← read start
    pure (.plain mode (cell + x).toUInt16)
  | .zeroPageY => do
    let cell ← read start
    pure (.plain mode (cell + y).toUInt16)
  | .absolute => do
    let addr ← readWord read start
    pure (.plain mode addr)
  | .absoluteX => do
    let base ← readWord read start
    pure (.indexed mode base x)
  | .absoluteY => do
    let base ← readWord read start
    pure (.indexed mode base y)
  | .indirect => do
    let pointer ← readWord read start
    let addr ← readWordAt read pointer (nextInPage pointer)
    pure (.plain mode addr)
  | .indirectX => do
    let cell ← read start
    let addr ← readPointer read (cell + x)
    pure (.plain mode addr)
  | .indirectY => do
    let cell ← read start
    let base ← readPointer read cell
    pure (.indexed mode base y)
  | .relative => do
    let distance ← read start
    pure (.plain mode (start + 1 + signedOffset distance))

end Resolve

end Nes
