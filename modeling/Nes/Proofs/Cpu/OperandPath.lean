import Nes.Proofs.Bits
import Nes.Proofs.Bus.Path

/-!
# How operands are found

Each addressing mode reads the operand bytes in order, then the pointer that they name if there is
one, each byte once.  The bytes determine the operand.

Pages are compared by masking the low byte of both addresses.  Since a page has 256 bytes, this
compares the quotients of the addresses by 256.

## Main definitions

* `AddressingMode.Finds`: the reads of each mode, and the operand that they lead to.

## Main statements

* `AddressingMode.finds_of_follows`: resolving an operand makes these reads.
* `AddressingMode.Finds.eq_resolve`: the bytes determine the operand.
* `toNat_add_signedOffset`: the target of a branch in integers.
* `pagesDiffer_eq`: addresses are on different pages if their quotients by 256 differ.
-/

namespace Nes

namespace AddressingMode

/-- A mode reads the operand bytes from the address `start` on, in a processor with the index
registers `x` and `y`, and arrives at an operand. -/
inductive Finds (start : UInt16) (x y : UInt8) : AddressingMode → List Activity → Operand → Prop
  | implied : Finds start x y .implied [] (.bare .implied)
  | accumulator : Finds start x y .accumulator [] (.bare .accumulator)
  | immediate : Finds start x y .immediate [] (.plain .immediate start)
  | zeroPage (cell : UInt8) :
    Finds start x y .zeroPage [.read start cell] (.plain .zeroPage cell.toUInt16)
  | zeroPageX (cell : UInt8) :
    Finds start x y .zeroPageX [.read start cell] (.plain .zeroPageX (cell + x).toUInt16)
  | zeroPageY (cell : UInt8) :
    Finds start x y .zeroPageY [.read start cell] (.plain .zeroPageY (cell + y).toUInt16)
  | absolute (low high : UInt8) :
    Finds start x y .absolute [.read start low, .read (start + 1) high]
      (.plain .absolute (wordOf low high))
  | absoluteX (low high : UInt8) :
    Finds start x y .absoluteX [.read start low, .read (start + 1) high]
      (.indexed .absoluteX (wordOf low high) x)
  | absoluteY (low high : UInt8) :
    Finds start x y .absoluteY [.read start low, .read (start + 1) high]
      (.indexed .absoluteY (wordOf low high) y)
  | indirect (low high targetLow targetHigh : UInt8) :
    Finds start x y .indirect
      [.read start low, .read (start + 1) high,
       .read (wordOf low high) targetLow, .read (nextInPage (wordOf low high)) targetHigh]
      (.plain .indirect (wordOf targetLow targetHigh))
  | indirectX (cell low high : UInt8) :
    Finds start x y .indirectX
      [.read start cell, .read (cell + x).toUInt16 low, .read (cell + x + 1).toUInt16 high]
      (.plain .indirectX (wordOf low high))
  | indirectY (cell low high : UInt8) :
    Finds start x y .indirectY
      [.read start cell, .read cell.toUInt16 low, .read (cell + 1).toUInt16 high]
      (.indexed .indirectY (wordOf low high) y)
  | relative (distance : UInt8) :
    Finds start x y .relative [.read start distance]
      (.plain .relative (start + 1 + signedOffset distance))

/-- **Resolving an operand makes the reads of its mode.** -/
theorem finds_of_follows {mode : AddressingMode} {start : UInt16} {x y : UInt8} {t : List Activity}
    {op : Operand} (h : (mode.resolve BusM.readByte start x y).Follows t op) :
    Finds start x y mode t op := by
  cases mode with
  | implied =>
    obtain ⟨rfl, rfl⟩ := h
    exact .implied
  | accumulator =>
    obtain ⟨rfl, rfl⟩ := h
    exact .accumulator
  | immediate =>
    obtain ⟨rfl, rfl⟩ := h
    exact .immediate
  -- Modes with one byte: the byte is the cell, and an index stays in its page.
  | zeroPage =>
    obtain ⟨cell, _, _, rfl, hc, rfl, rfl⟩ := BusM.follows_bind.1 h
    rw [BusM.follows_readByte.1 hc]
    exact .zeroPage cell
  | zeroPageX =>
    obtain ⟨cell, _, _, rfl, hc, rfl, rfl⟩ := BusM.follows_bind.1 h
    rw [BusM.follows_readByte.1 hc]
    exact .zeroPageX cell
  | zeroPageY =>
    obtain ⟨cell, _, _, rfl, hc, rfl, rfl⟩ := BusM.follows_bind.1 h
    rw [BusM.follows_readByte.1 hc]
    exact .zeroPageY cell
  -- Modes with a word: both bytes are taken from the program.
  | absolute =>
    obtain ⟨_, _, _, rfl, hw, rfl, rfl⟩ := BusM.follows_bind.1 h
    obtain ⟨low, high, rfl, rfl⟩ := BusM.follows_readWordAt.1 hw
    exact .absolute low high
  | absoluteX =>
    obtain ⟨_, _, _, rfl, hw, rfl, rfl⟩ := BusM.follows_bind.1 h
    obtain ⟨low, high, rfl, rfl⟩ := BusM.follows_readWordAt.1 hw
    exact .absoluteX low high
  | absoluteY =>
    obtain ⟨_, _, _, rfl, hw, rfl, rfl⟩ := BusM.follows_bind.1 h
    obtain ⟨low, high, rfl, rfl⟩ := BusM.follows_readWordAt.1 hw
    exact .absoluteY low high
  -- The modes that go through a pointer read it after the bytes of the program.
  | indirect =>
    obtain ⟨_, _, _, rfl, hw, hrest⟩ := BusM.follows_bind.1 h
    obtain ⟨low, high, rfl, rfl⟩ := BusM.follows_readWordAt.1 hw
    obtain ⟨_, _, _, rfl, ht, rfl, rfl⟩ := BusM.follows_bind.1 hrest
    obtain ⟨targetLow, targetHigh, rfl, rfl⟩ := BusM.follows_readWordAt.1 ht
    exact .indirect low high targetLow targetHigh
  | indirectX =>
    obtain ⟨cell, _, _, rfl, hc, hrest⟩ := BusM.follows_bind.1 h
    rw [BusM.follows_readByte.1 hc]
    obtain ⟨_, _, _, rfl, hw, rfl, rfl⟩ := BusM.follows_bind.1 hrest
    obtain ⟨low, high, rfl, rfl⟩ := BusM.follows_readWordAt.1 hw
    exact .indirectX cell low high
  | indirectY =>
    obtain ⟨cell, _, _, rfl, hc, hrest⟩ := BusM.follows_bind.1 h
    rw [BusM.follows_readByte.1 hc]
    obtain ⟨_, _, _, rfl, hw, rfl, rfl⟩ := BusM.follows_bind.1 hrest
    obtain ⟨low, high, rfl, rfl⟩ := BusM.follows_readWordAt.1 hw
    exact .indirectY cell low high
  -- The distance is relative to the byte after it.
  | relative =>
    obtain ⟨distance, _, _, rfl, hc, rfl, rfl⟩ := BusM.follows_bind.1 h
    rw [BusM.follows_readByte.1 hc]
    exact .relative distance

/-- An operand lies in memory unless its mode names none or the accumulator. -/
theorem Finds.address_ne_none {start : UInt16} {x y : UInt8} {mode : AddressingMode}
    {t : List Activity} {op : Operand} (h : Finds start x y mode t op) (hi : mode ≠ .implied)
    (ha : mode ≠ .accumulator) : ∃ addr, op.address = some addr := by
  cases h with
  | implied => exact absurd rfl hi
  | accumulator => exact absurd rfl ha
  | _ => exact ⟨_, rfl⟩

/-- A page is crossed only by adding an index to a full address. -/
theorem Finds.pageCrossed_eq_false {start : UInt16} {x y : UInt8} {mode : AddressingMode}
    {t : List Activity} {op : Operand} (h : Finds start x y mode t op)
    (hm : mode ∉ [AddressingMode.absoluteX, .absoluteY, .indirectY]) : op.pageCrossed = false := by
  cases h with
  | absoluteX => exact absurd (by decide) hm
  | absoluteY => exact absurd (by decide) hm
  | indirectY => exact absurd (by decide) hm
  | _ => rfl

/-- The operand bytes and pointers are all that is read, and nothing is written or told. -/
theorem Finds.isAccess {start : UInt16} {x y : UInt8} {mode : AddressingMode}
    {t : List Activity} {op : Operand} (h : Finds start x y mode t op) :
    t.filter Activity.isAccess = t := by
  cases h <;> rfl

theorem Finds.write_notMem {start : UInt16} {x y : UInt8} {mode : AddressingMode}
    {t : List Activity} {op : Operand} (h : Finds start x y mode t op) (addr : UInt16) (v : UInt8) :
    .write addr v ∉ t := by
  cases h <;> simp

/-- **The operand is the one that resolving finds in the bytes that were read.**  So reading and
inspecting memory lead to the same operand if they give the same bytes. -/
theorem Finds.eq_resolve {start : UInt16} {x y : UInt8} {mode : AddressingMode}
    {t : List Activity} {op : Operand} (h : Finds start x y mode t op) {f : UInt16 → UInt8}
    (hf : ∀ addr v, .read addr v ∈ t → v = f addr) :
    op = Id.run (mode.resolve (fun addr => pure (f addr)) start x y) := by
  cases h with
  | implied => rfl
  | accumulator => rfl
  | immediate => rfl
  | zeroPage cell =>
    rw [hf _ cell (.head _)]
    rfl
  | zeroPageX cell =>
    rw [hf _ cell (.head _)]
    rfl
  | zeroPageY cell =>
    rw [hf _ cell (.head _)]
    rfl
  | absolute low high =>
    rw [hf _ low (.head _), hf _ high (.tail _ (.head _))]
    rfl
  | absoluteX low high =>
    rw [hf _ low (.head _), hf _ high (.tail _ (.head _))]
    rfl
  | absoluteY low high =>
    rw [hf _ low (.head _), hf _ high (.tail _ (.head _))]
    rfl
  | indirect low high targetLow targetHigh =>
    -- The pointer is read last, so it is replaced before the bytes that lead to it.
    rw [hf _ targetLow (.tail _ (.tail _ (.head _))),
      hf _ targetHigh (.tail _ (.tail _ (.tail _ (.head _)))), hf _ low (.head _),
      hf _ high (.tail _ (.head _))]
    rfl
  | indirectX cell low high =>
    rw [hf _ low (.tail _ (.head _)), hf _ high (.tail _ (.tail _ (.head _))),
      hf _ cell (.head _)]
    rfl
  | indirectY cell low high =>
    rw [hf _ low (.tail _ (.head _)), hf _ high (.tail _ (.tail _ (.head _))),
      hf _ cell (.head _)]
    rfl
  | relative distance =>
    rw [hf _ distance (.head _)]
    rfl

end AddressingMode

/-! ### Bytes and distances -/

theorem toNat_signedOffset (d : UInt8) : ((signedOffset d).toNat : Int) = d.toInt8.toInt % 65536 := by
  revert d
  apply forall_byte
  decide +kernel

/-- Adding a signed distance wraps around at both ends of the address space. -/
theorem toNat_add_signedOffset (a : UInt16) (d : UInt8) :
    ((a + signedOffset d).toNat : Int) = (a.toNat + d.toInt8.toInt) % 65536 := by
  have hd := toNat_signedOffset d
  rw [UInt16.toNat_add]
  omega

/-! ### Pages -/

theorem toNat_wordOf (low high : UInt8) :
    (wordOf low high).toNat = high.toNat * 256 + low.toNat := by
  have hhigh : (high.toUInt16 <<< 8).toNat = high.toNat * 256 := by
    revert high
    apply forall_byte
    decide +kernel
  exact toNat_or_page hhigh low.toNat_lt

theorem toNat_nextInPage (a : UInt16) :
    (nextInPage a).toNat = a.toNat / 256 * 256 + (a.toNat + 1) % 256 := by
  have hlow : ((a + 1) &&& 0x00FF).toNat = (a.toNat + 1) % 256 := by
    rw [toNat_and_low _ 8 rfl, UInt16.toNat_add]
    exact Nat.mod_mod_of_dvd _ (by decide)
  rw [nextInPage, toNat_or_page (toNat_and_page a) (by omega), hlow]

/-- **Addresses are on different pages if their quotients by 256 differ.** -/
theorem pagesDiffer_eq (a b : UInt16) : pagesDiffer a b = (a.toNat / 256 != b.toNat / 256) := by
  rw [Bool.eq_iff_iff, pagesDiffer, bne_iff_ne, bne_iff_ne]
  apply not_congr
  rw [← UInt16.toNat_inj, toNat_and_page, toNat_and_page]
  omega

end Nes
