import Nes.Bus.Flat
import Nes.Cpu.Basic
import Nes.Proofs.Cpu.OperandPath

/-!
# Effective addresses in integers

The processor computes addresses with an adder of eight bits and one of sixteen, by masks and by
shifts.  A handbook gives them as integers: sums and quotients, and remainders where a sum wraps
around.  Here the handbook is written down mode by mode and compared with the resolver.

The memory of the comparison is read without side effects.  Only then is the address a function of
the bytes that lie in memory, and only then can an inspection find it that reads nothing.

## Main definitions

* `Memory.byte`, `Memory.word`: the contents of memory as numbers.
* `AddressingMode.effective?`, `AddressingMode.crosses`: the address of an operand, and whether
  indexing leaves the page of the base.

## Main statements

* `AddressingMode.run_resolve`: on a memory without side effects, resolving and inspecting agree.
* `AddressingMode.address_resolved`, `AddressingMode.pageCrossed_resolved`: the resolver computes
  the addresses of the handbook.
* `Registers.operand_in_integers`: fetching an operand.
-/

namespace Nes

/-! ### The handbook -/

namespace Memory

variable (m : UInt16 → UInt8)

/-- The byte at an address. -/
def byte (addr : Nat) : Nat := (m (UInt16.ofNat addr)).toNat

/-- The word whose bytes are at two addresses, the low byte first. -/
def word (low high : Nat) : Nat := byte m low + 256 * byte m high

/-- The word at an address.  After the last address comes the first. -/
def wordFrom (addr : Nat) : Nat := word m addr ((addr + 1) % 65536)

/-- The word in page zero at an address.  After the last address of the page comes the first. -/
def pointer (cell : Nat) : Nat := word m cell ((cell + 1) % 256)

/-- The word at an address whose second byte is on the same page. -/
def wordInPage (addr : Nat) : Nat := word m addr (256 * (addr / 256) + (addr + 1) % 256)

end Memory

/-- A byte as a signed number. -/
def signedByte (b : Nat) : Int := if b < 128 then b else b - 256

namespace AddressingMode

open Memory

/-- The address of an operand whose bytes start at `pc`, in a processor with the index registers `x`
and `y`. -/
def effective? (m : UInt16 → UInt8) (pc x y : Nat) : AddressingMode → Option Nat
  | implied | accumulator => none
  | immediate => some pc
  | zeroPage => some (byte m pc)
  | zeroPageX => some ((byte m pc + x) % 256)
  | zeroPageY => some ((byte m pc + y) % 256)
  | absolute => some (wordFrom m pc)
  | absoluteX => some ((wordFrom m pc + x) % 65536)
  | absoluteY => some ((wordFrom m pc + y) % 65536)
  | indirect => some (wordInPage m (wordFrom m pc))
  | indirectX => some (pointer m ((byte m pc + x) % 256))
  | indirectY => some ((pointer m (byte m pc) + y) % 65536)
  | relative => some ((pc + 1 + signedByte (byte m pc)) % 65536).toNat

/-- Adding an index to a base address leads to another page of 256 bytes. -/
def leaves (base index : Nat) : Bool := base / 256 != (base + index) % 65536 / 256

/-- The address of an operand is on another page than the base to which an index is added. -/
def crosses (m : UInt16 → UInt8) (pc x y : Nat) : AddressingMode → Bool
  | absoluteX => leaves (wordFrom m pc) x
  | absoluteY => leaves (wordFrom m pc) y
  | indirectY => leaves (pointer m (byte m pc)) y
  | _ => false

end AddressingMode

/-! ### Words as numbers -/

namespace Memory

variable (m : UInt16 → UInt8)

theorem byte_toNat (addr : UInt16) : byte m addr.toNat = (m addr).toNat := by
  rw [byte, UInt16.ofNat_toNat]

theorem toNat_wordOf_eq (low high : UInt16) :
    (wordOf (m low) (m high)).toNat = word m low.toNat high.toNat := by
  rw [toNat_wordOf, word, byte_toNat, byte_toNat]
  omega

theorem toNat_word (addr : UInt16) :
    (wordOf (m addr) (m (addr + 1))).toNat = wordFrom m addr.toNat := by
  rw [toNat_wordOf_eq, UInt16.toNat_add]
  rfl

theorem toNat_pointer (cell : UInt8) :
    (wordOf (m cell.toUInt16) (m (cell + 1).toUInt16)).toNat = pointer m cell.toNat := by
  rw [toNat_wordOf_eq, UInt8.toNat_toUInt16, UInt8.toNat_toUInt16, UInt8.toNat_add]
  rfl

theorem toNat_wordInPage (addr : UInt16) :
    (wordOf (m addr) (m (nextInPage addr))).toNat = wordInPage m addr.toNat := by
  rw [toNat_wordOf_eq, toNat_nextInPage, Nat.mul_comm (addr.toNat / 256)]
  rfl

end Memory

theorem toInt_toInt8 (b : UInt8) : b.toInt8.toInt = signedByte b.toNat := by
  revert b
  apply forall_byte
  decide +kernel

theorem toNat_add_toUInt16 (base : UInt16) (index : UInt8) :
    (base + index.toUInt16).toNat = (base.toNat + index.toNat) % 65536 := by
  rw [UInt16.toNat_add, UInt8.toNat_toUInt16]

theorem toNat_branchTarget (pc : UInt16) (b : UInt8) :
    (pc + 1 + signedOffset b).toNat = ((pc.toNat + 1 + signedByte b.toNat) % 65536).toNat := by
  have htarget := toNat_add_signedOffset (pc + 1) b
  have hnext : (pc + 1).toNat = (pc.toNat + 1) % 65536 := UInt16.toNat_add pc 1
  rw [toInt_toInt8, hnext] at htarget
  omega

/-! ### Memories without side effects -/

/-- On a memory without side effects, a program that writes nothing leaves everything as it is, and
all its reads give what was there at first. -/
theorem BusM.run_of_pure {α β : Type} [Bus β] {bus : β}
    (hpure : ∀ addr, Bus.read bus addr = (Bus.peek bus addr, bus)) {x : BusM α}
    (hwrite : ∀ addr v, .write addr v ∉ x.path bus) :
    (x.run bus).bus = bus ∧ ∀ addr v, .read addr v ∈ x.path bus → v = Bus.peek bus addr := by
  -- By induction on the program: a read leaves the bus as it was, so the rest runs on the same bus.
  induction x with
  | done a => exact ⟨rfl, fun addr v h => absurd h List.not_mem_nil⟩
  | read addr next ih =>
    simp only [path, run_read, hpure, List.mem_cons, not_or] at hwrite ⊢
    obtain ⟨hbus, hreads⟩ := ih _ fun a v => (hwrite a v).2
    refine ⟨hbus, fun a v h => ?_⟩
    rcases h with h | h
    · cases h
      rfl
    · exact hreads a v h
  | write addr value next ih => exact absurd (List.mem_cons_self ..) (hwrite addr value)
  | note e next ih =>
    simp only [path, run_note, List.mem_cons, not_or] at hwrite ⊢
    obtain ⟨hbus, hreads⟩ := ih fun a v => (hwrite a v).2
    refine ⟨hbus, fun a v h => ?_⟩
    rcases h with h | h
    · cases h
    · exact hreads a v h

/-! ### The resolver -/

namespace AddressingMode

open Memory

/-- The operand that the bytes of a memory lead to. -/
def resolved (mode : AddressingMode) (m : UInt16 → UInt8) (start : UInt16) (x y : UInt8) :
    Operand :=
  Id.run (mode.resolve (fun addr => pure (m addr)) start x y)

theorem mode_resolved (mode : AddressingMode) (m : UInt16 → UInt8) (start : UInt16) (x y : UInt8) :
    (mode.resolved m start x y).mode = mode := by
  cases mode <;> rfl

/-- **The resolver computes the addresses of the handbook.** -/
theorem address_resolved (mode : AddressingMode) (m : UInt16 → UInt8) (start : UInt16)
    (x y : UInt8) : (mode.resolved m start x y).address.map UInt16.toNat =
      mode.effective? m start.toNat x.toNat y.toNat := by
  -- For each mode the sums of words are sums of integers, with their wrapping.
  cases mode with
  | implied => rfl
  | accumulator => rfl
  | immediate => rfl
  | zeroPage =>
    show some (m start).toUInt16.toNat = some _
    rw [UInt8.toNat_toUInt16, byte_toNat]
  | zeroPageX =>
    show some (m start + x).toUInt16.toNat = some _
    rw [UInt8.toNat_toUInt16, UInt8.toNat_add, byte_toNat]
  | zeroPageY =>
    show some (m start + y).toUInt16.toNat = some _
    rw [UInt8.toNat_toUInt16, UInt8.toNat_add, byte_toNat]
  | absolute => exact congrArg some (toNat_word m start)
  | absoluteX =>
    show some (wordOf (m start) (m (start + 1)) + x.toUInt16).toNat = some _
    rw [toNat_add_toUInt16, toNat_word]
  | absoluteY =>
    show some (wordOf (m start) (m (start + 1)) + y.toUInt16).toNat = some _
    rw [toNat_add_toUInt16, toNat_word]
  | indirect =>
    rw [effective?, ← toNat_word, ← toNat_wordInPage]
    rfl
  | indirectX =>
    rw [effective?, byte_toNat, ← UInt8.toNat_add, ← toNat_pointer]
    rfl
  | indirectY =>
    rw [effective?, byte_toNat, ← toNat_pointer, ← toNat_add_toUInt16]
    rfl
  | relative =>
    rw [effective?, byte_toNat, ← toNat_branchTarget]
    rfl

theorem pagesDiffer_add (base : UInt16) (index : UInt8) :
    pagesDiffer base (base + index.toUInt16) = leaves base.toNat index.toNat := by
  rw [pagesDiffer_eq, toNat_add_toUInt16, leaves]

/-- **The resolver notes a crossed page where the handbook has one.** -/
theorem pageCrossed_resolved (mode : AddressingMode) (m : UInt16 → UInt8) (start : UInt16)
    (x y : UInt8) : (mode.resolved m start x y).pageCrossed =
      mode.crosses m start.toNat x.toNat y.toNat := by
  -- Only three modes can leave the page of their base.
  cases mode with
  | absoluteX =>
    rw [crosses, ← toNat_word, ← pagesDiffer_add]
    rfl
  | absoluteY =>
    rw [crosses, ← toNat_word, ← pagesDiffer_add]
    rfl
  | indirectY =>
    rw [crosses, byte_toNat, ← toNat_pointer, ← pagesDiffer_add]
    rfl
  | _ => rfl

/-- The modes that name a cell of page zero lead there, whatever the index. -/
theorem address_lt_of_zeroPage {mode : AddressingMode} (h : mode ∈ [zeroPage, zeroPageX, zeroPageY])
    (m : UInt16 → UInt8) (start : UInt16) (x y : UInt8) :
    ∃ addr, (mode.resolved m start x y).address = some addr ∧ addr.toNat < 256 := by
  have hcell : ∀ cell : UInt8, cell.toUInt16.toNat < 256 := fun cell => by
    rw [UInt8.toNat_toUInt16]
    exact cell.toNat_lt
  cases mode
  case zeroPage | zeroPageX | zeroPageY => exact ⟨_, rfl, hcell _⟩
  all_goals exact absurd h (by decide)

variable {β : Type} [Bus β]

/-- **On a memory without side effects, resolving finds what an inspection finds**, and leaves the
memory as it is. -/
theorem run_resolve {bus : β} (hpure : ∀ addr, Bus.read bus addr = (Bus.peek bus addr, bus))
    (mode : AddressingMode) (start : UInt16) (x y : UInt8) :
    let o := (mode.resolve BusM.readByte start x y).run bus
    o.value = mode.resolved (Bus.peek bus) start x y ∧ o.bus = bus := by
  have hfollows := BusM.follows_path (mode.resolve BusM.readByte start x y) bus
  -- Resolving writes nothing, so all its reads see the same memory.
  have hfinds := finds_of_follows hfollows
  obtain ⟨hbus, hreads⟩ := BusM.run_of_pure hpure hfinds.write_notMem
  exact ⟨hfinds.eq_resolve hreads, hbus⟩

end AddressingMode

/-! ### Operands -/

/-- **Operands in integers.**  An operand is fetched in any mode, with the program counter at its
first byte and any values in the registers, from a memory that is read without side effects:

* its address, if the mode has one, is the integer of the handbook, and it is below 256 in the modes
  of page zero;
* a crossed page is noted exactly where the page of the base differs from that of the address;
* the program counter moves behind the operand, modulo 65536, and no other register and no byte of
  memory changes;
* an inspection of a processor that is at the preceding address finds the same operand. -/
theorem Registers.operand_in_integers {β : Type} [Bus β] {bus : β}
    (hpure : ∀ addr, Bus.read bus addr = (Bus.peek bus addr, bus)) (mode : AddressingMode)
    (r : Registers) :
    let m : UInt16 → UInt8 := Bus.peek bus
    let o := (r.fetchOperand mode).run bus
    let op := o.value.1
    let r' := o.value.2
    op.mode = mode ∧
    op.address.map UInt16.toNat = mode.effective? m r.pc.toNat r.x.toNat r.y.toNat ∧
    (mode ∈ [.zeroPage, .zeroPageX, .zeroPageY] →
      ∃ addr, op.address = some addr ∧ addr.toNat < 256) ∧
    op.pageCrossed = mode.crosses m r.pc.toNat r.x.toNat r.y.toNat ∧
    r'.pc.toNat = (r.pc.toNat + mode.operandLength) % 65536 ∧
    r' = { r with pc := r'.pc } ∧
    o.bus = bus ∧
    ∀ cpu : Cpu, cpu.registers.pc + 1 = r.pc → cpu.registers.x = r.x → cpu.registers.y = r.y →
      cpu.peekOperand mode bus = op := by
  intro m o op r'
  obtain ⟨hvalue, hbus⟩ := mode.run_resolve hpure r.pc r.x r.y
  have hrun : o.value = (mode.resolved m r.pc r.x r.y,
      r.jumpTo (r.pc + UInt16.ofNat mode.operandLength)) ∧ o.bus = bus := by
    show ((r.fetchOperand mode).run bus).value = _ ∧ ((r.fetchOperand mode).run bus).bus = bus
    simp only [fetchOperand, BusM.run_bind, BusM.run_pure, hvalue, hbus, and_true]
    rfl
  have hop : op = mode.resolved m r.pc r.x r.y := congrArg Prod.fst hrun.1
  have hr' : r' = r.jumpTo (r.pc + UInt16.ofNat mode.operandLength) := congrArg Prod.snd hrun.1
  rw [hop, hr']
  refine ⟨mode.mode_resolved m _ _ _, mode.address_resolved m _ _ _,
    fun hzero => AddressingMode.address_lt_of_zeroPage hzero m _ _ _,
    mode.pageCrossed_resolved m _ _ _, ?_, rfl, hrun.2, ?_⟩
  · show (r.pc + UInt16.ofNat mode.operandLength).toNat = _
    rw [UInt16.toNat_add, UInt16.toNat_ofNat', Nat.add_mod_mod]
  · intro cpu hpc hx hy
    rw [Cpu.peekOperand, hpc, hx, hy]
    rfl

/-- The operand byte lies at the last address and the pointer at the end of page zero: the word that
it names starts in the last byte of the page and ends in the first, and indexing it wraps around. -/
theorem Registers.operand_in_integers_at_the_ends :
    let mem := ((FlatMemory.filled 0).set 0xFFFF 0xFF).set 0x00FF 0xF0 |>.set 0x0000 0xFF
    let r : Registers := { y := 0x20, pc := 0xFFFF }
    let o := (r.fetchOperand .indirectY).run mem
    (∀ addr, Bus.read mem addr = (Bus.peek mem addr, mem)) ∧
    o.value.1.address.map UInt16.toNat = some 0x0010 ∧ o.value.1.pageCrossed = true ∧
      o.value.2.pc.toNat = 0 := by
  intro mem r o
  have hpure : ∀ addr, Bus.read mem addr = (Bus.peek mem addr, mem) := fun _ => rfl
  -- Only three bytes of this memory are not zero.
  have hbyte : ∀ addr, Bus.peek mem addr =
      if addr = 0 then 0xFF else if addr = 0x00FF then 0xF0
      else if addr = 0xFFFF then 0xFF else 0 := by
    intro addr
    show FlatMemory.get _ addr = _
    simp only [mem, FlatMemory.get_set, FlatMemory.get_filled]
  obtain ⟨-, haddress, -, hcrossed, hpc, -⟩ := operand_in_integers hpure .indirectY r
  have hm : Bus.peek mem = fun addr => if addr = 0 then 0xFF else if addr = 0x00FF then 0xF0
      else if addr = 0xFFFF then 0xFF else 0 := funext hbyte
  rw [hm] at haddress hcrossed
  exact ⟨hpure, haddress.trans (by decide +kernel), hcrossed.trans (by decide +kernel),
    hpc.trans (by decide)⟩

end Nes
