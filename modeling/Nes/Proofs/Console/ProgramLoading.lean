import Mathlib.Data.List.Induction
import Nes.Proofs.Bits
import Nes.Proofs.Console.Restart
import Nes.Proofs.Stores

/-!
# Loading programs

A program is placed on the cartridge through the address space of the processor.  Its bytes are
written one after the other from `0x8000` on, and then the reset vector is made to point there.

The cells of program memory are those of the upper half of the address space, or of a quarter of it
if there is one bank only, and the vector lies in the last cells but two.  A program that ends before
these is found byte for byte where it was placed.  A longer one overwrites itself.  But the vector is
written last, so the processor starts at the beginning of any program.

Addresses are words.  A program that does not fit into the upper half of the address space goes on at
its beginning, where the work RAM is and then the registers of the picture unit.

## Main definitions

* `Header.vectorCell`: the cell of program memory in which the reset vector begins.
* `Console.byteWrites`: the writes that place the bytes of a program.
* `Console.withPrg`: the console with another program memory.

## Main statements

* `AddressSpace.exists_writeAll_eq`: writes to the upper half reach program memory at most.
* `AddressSpace.getElem?_prg_placed`, `Console.getElem?_prg_loadProgram`: program memory with a
  program that ends before the vector.
* `Console.program_started_and_found`: the processor starts at the beginning of a program, and the
  program is found where it was placed.
* `Console.loadProgram_frame`: which programs leave everything but program memory alone.
-/

namespace Nes

/-! ### The cell of the vector -/

namespace Header

/-- The cell of program memory in which the reset vector begins. -/
def vectorCell (h : Header) : Nat := (resetVector &&& h.prgMask).toNat

theorem vectorCell_eq (h : Header) :
    h.vectorCell = if h.prgBanks = 1 then 0x3FFC else 0x7FFC := by
  unfold vectorCell prgMask
  split <;> rfl

/-- The vector ends two cells before the cells are used up. -/
theorem toNat_and_prgMask (h : Header) (addr : UInt16) :
    (addr &&& h.prgMask).toNat = addr.toNat % (h.vectorCell + 4) := by
  rw [vectorCell_eq, prgMask]
  split
  · exact toNat_and_low addr 14 rfl
  · exact toNat_and_low addr 15 rfl

/-- The second byte of the vector lies in the next cell. -/
theorem toNat_and_prgMask_succ (h : Header) :
    ((resetVector + 1) &&& h.prgMask).toNat = h.vectorCell + 1 := by
  unfold vectorCell prgMask
  split <;> rfl

end Header

/-! ### Writes to the upper half of the address space -/

namespace AddressSpace

theorem fst_writeAll (s : AddressSpace) (writes : List (UInt16 × UInt8)) :
    (s.writeAll writes).1 = writes.foldl (fun s w => s.write w.1 w.2) s := by
  unfold writeAll
  generalize (#[] : Array Event) = told
  induction writes generalizing s told with
  | nil => rfl
  | cons w writes ih => exact ih _ _

theorem fst_writeAll_append (s : AddressSpace) (writes writes' : List (UInt16 × UInt8)) :
    (s.writeAll (writes ++ writes')).1 = ((s.writeAll writes).1.writeAll writes').1 := by
  rw [fst_writeAll, fst_writeAll, fst_writeAll, List.foldl_append]

/-- **Writes to the upper half of the address space reach program memory at most.** -/
theorem exists_writeAll_eq (s : AddressSpace) {writes : List (UInt16 × UInt8)}
    (h : ∀ w ∈ writes, 0x8000 ≤ w.1) : ∃ prg, (s.writeAll writes).1 = s.withPrg prg := by
  rw [fst_writeAll]
  induction writes generalizing s with
  | nil => exact ⟨s.cartridge.prg, rfl⟩
  | cons w writes ih =>
    obtain ⟨hw, hrest⟩ := List.forall_mem_cons.1 h
    obtain ⟨prg, hone⟩ := s.exists_write_eq hw w.2
    obtain ⟨prg', hall⟩ := ih (s.write w.1 w.2) hrest
    refine ⟨prg', ?_⟩
    rw [List.foldl_cons, hall, hone]
    rfl

/-- Reading the upper half of the address space shows what is there and changes nothing. -/
theorem read_of_ge (s : AddressSpace) {addr : UInt16} (h : 0x8000 ≤ addr) :
    s.read addr = (s.peek addr, s) := by
  unfold read peek
  cases ht : s.target addr with
  | register r =>
    exact absurd ht (target_ne_register (.inr (UInt16.le_trans (by decide) h)) r)
  | prg cell => rfl
  | ram => rfl
  | unmapped => rfl

/-- After a reset the processor starts where the reset vector points to. -/
theorem startAddress_eq (s : AddressSpace) :
    Console.startAddress s = wordOf (s.peek resetVector) (s.peek (resetVector + 1)) := by
  have hlow := s.read_of_ge (show 0x8000 ≤ resetVector by decide)
  have hhigh := s.read_of_ge (show 0x8000 ≤ resetVector + 1 by decide)
  rw [Console.startAddress, BusM.run_readWord]
  show wordOf (s.read resetVector).1 ((s.read resetVector).2.read (resetVector + 1)).1 = _
  rw [hlow, hhigh]

end AddressSpace

namespace Console

/-- The writes that place the bytes of a program. -/
def byteWrites (program : List UInt8) : List (UInt16 × UInt8) :=
  program.zipIdx.map fun (b, i) => (programStart + UInt16.ofNat i, b)

theorem programWrites_eq (program : Array UInt8) : programWrites program =
    byteWrites program.toList ++ [(resetVector, 0x00), (resetVector + 1, 0x80)] := rfl

theorem byteWrites_concat (program : List UInt8) (b : UInt8) :
    byteWrites (program ++ [b]) =
      byteWrites program ++ [(programStart + UInt16.ofNat program.length, b)] :=
  placed_concat (programStart + UInt16.ofNat ·) program b

theorem mem_programWrites {program : Array UInt8} {w : UInt16 × UInt8} :
    w ∈ programWrites program ↔
      (∃ i, program[i]? = some w.2 ∧ programStart + UInt16.ofNat i = w.1) ∨
        w = (resetVector, 0x00) ∨ w = (resetVector + 1, 0x80) := by
  have hbytes : w ∈ byteWrites program.toList ↔
      ∃ i, program[i]? = some w.2 ∧ programStart + UInt16.ofNat i = w.1 := by
    show w ∈ placed (programStart + UInt16.ofNat ·) program.toList ↔ _
    rw [mem_placed]
    constructor
    · rintro ⟨i, hi, rfl⟩
      exact ⟨i, Array.getElem?_eq_getElem hi, rfl⟩
    · rintro ⟨i, hget, haddr⟩
      obtain ⟨hi, hvalue⟩ := Array.getElem?_eq_some_iff.1 hget
      exact ⟨i, hi, Prod.ext haddr.symm hvalue.symm⟩
  rw [programWrites_eq, List.mem_append, hbytes, List.mem_cons, List.mem_singleton]

/-- The addresses of the first 32 KiB of a program lie in the upper half of the address space. -/
theorem toNat_programStart_add {i : Nat} (h : i < 0x8000) :
    (programStart + UInt16.ofNat i).toNat = 0x8000 + i := by
  rw [UInt16.toNat_add, UInt16.toNat_ofNat']
  show (0x8000 + i % 2 ^ 16) % 2 ^ 16 = 0x8000 + i
  omega

theorem le_programStart_add {i : Nat} (h : i < 0x8000) :
    0x8000 ≤ programStart + UInt16.ofNat i := by
  rw [UInt16.le_iff_toNat_le, toNat_programStart_add h]
  exact Nat.le_add_right _ _

end Console

/-! ### Program memory with a program -/

namespace Header

variable (h : Header)

theorem lt_of_lt_vectorCell {i : Nat} (hi : i < h.vectorCell) : i < 0x8000 := by
  rw [vectorCell_eq] at hi
  split at hi <;> omega

/-- A byte before the vector is placed in the cell with its number. -/
theorem cell_of_lt {i : Nat} (hi : i < h.vectorCell) :
    ((Console.programStart + UInt16.ofNat i) &&& h.prgMask).toNat = i := by
  rw [toNat_and_prgMask, Console.toNat_programStart_add (h.lt_of_lt_vectorCell hi)]
  rw [vectorCell_eq] at hi ⊢
  split
  · next hone =>
    rw [if_pos hone] at hi
    omega
  · next hone =>
    rw [if_neg hone] at hi
    omega

end Header

namespace AddressSpace

section Wired

variable {s : AddressSpace} {header : Header} (hs : s.cartridge.wiring = header.wiring)

include hs

theorem wiring_writeAll (writes : List (UInt16 × UInt8)) :
    (s.writeAll writes).1.cartridge.wiring = header.wiring :=
  (writeAll_preserves (·.cartridge.wiring) wiring_write s writes).trans hs

variable (hbanks : header.prgBanks ≠ 0)

include hbanks

theorem vectorCell_lt : header.vectorCell + 1 < s.cartridge.prg.size := by
  have hlt := and_prgMask_lt hs (resetVector + 1) hbanks
  rwa [header.toNat_and_prgMask_succ] at hlt

/-- What is read in the upper half of the address space lies in program memory. -/
theorem peek_of_getElem? {addr : UInt16} (haddr : 0x8000 ≤ addr) {value : UInt8}
    (hvalue : s.cartridge.prg[(addr &&& header.prgMask).toNat]? = some value) :
    s.peek addr = value := by
  rw [peek_of_readPrg? (readPrg?_of_ge hs hbanks haddr), Array.getD_eq_getD_getElem?, hvalue,
    Option.getD_some]

/-- **Program memory with the bytes of a program that ends before the vector.** -/
theorem getElem?_prg_placed {program : List UInt8} (hfits : program.length ≤ header.vectorCell)
    (cell : Nat) : (s.writeAll (Console.byteWrites program)).1.cartridge.prg[cell]? =
      if cell < program.length then program[cell]? else s.cartridge.prg[cell]? := by
  have hsize := vectorCell_lt hs hbanks
  -- The last byte goes to a cell that none of the others went to.
  induction program using List.reverseRecOn with
  | nil => rfl
  | append_singleton program b ih =>
    rw [List.length_append, List.length_singleton] at hfits ⊢
    have hwired := wiring_writeAll hs (Console.byteWrites program)
    have hupper := Console.le_programStart_add (header.lt_of_lt_vectorCell hfits)
    have hstored := prg_write hwired hbanks hupper b
    have hin : program.length < (s.writeAll (Console.byteWrites program)).1.cartridge.prg.size := by
      rw [prg_size hwired, ← prg_size hs]
      omega
    rw [Console.byteWrites_concat, fst_writeAll_append]
    show ((s.writeAll (Console.byteWrites program)).1.write _ b).cartridge.prg[cell]? = _
    rw [hstored, header.cell_of_lt hfits]
    -- A cell of the bytes before, the cell of the last byte, or one behind it
    obtain hlt | rfl | hgt := Nat.lt_trichotomy cell program.length
    · rw [Array.getElem?_setIfInBounds_ne (Nat.ne_of_gt hlt), ih (Nat.le_of_succ_le hfits), if_pos hlt,
        if_pos (Nat.lt_succ_of_lt hlt), List.getElem?_append_left hlt]
    · rw [Array.getElem?_setIfInBounds_self_of_lt hin, if_pos (Nat.lt_succ_self _),
        List.getElem?_concat_length]
    · rw [Array.getElem?_setIfInBounds_ne (Nat.ne_of_lt hgt), ih (Nat.le_of_succ_le hfits),
        if_neg (Nat.lt_asymm hgt), if_neg (Nat.not_lt.2 hgt)]

/-- The vector is written after the program, whatever that wrote. -/
theorem getElem?_prg_programWrites (program : Array UInt8) (cell : Nat) :
    (s.writeAll (Console.programWrites program)).1.cartridge.prg[cell]? =
      if cell = header.vectorCell then some 0x00
      else if cell = header.vectorCell + 1 then some 0x80
      else (s.writeAll (Console.byteWrites program.toList)).1.cartridge.prg[cell]? := by
  rw [Console.programWrites_eq, fst_writeAll_append]
  generalize hplaced : (s.writeAll (Console.byteWrites program.toList)).1 = placed
  have hwired : placed.cartridge.wiring = header.wiring := hplaced ▸ wiring_writeAll hs _
  have hsize := vectorCell_lt hwired hbanks
  have hlow := prg_write hwired hbanks (show 0x8000 ≤ resetVector by decide) 0x00
  have hhigh := prg_write ((placed.wiring_write resetVector 0x00).trans hwired) hbanks
    (show 0x8000 ≤ resetVector + 1 by decide) 0x80
  rw [header.toNat_and_prgMask_succ] at hhigh
  show ((placed.write resetVector 0x00).write (resetVector + 1) 0x80).cartridge.prg[cell]? = _
  rw [hhigh, hlow]
  show ((placed.cartridge.prg.setIfInBounds header.vectorCell 0x00).setIfInBounds
    (header.vectorCell + 1) 0x80)[cell]? = _
  -- The two bytes of the vector are written last, so nothing writes over them.
  by_cases hfirst : cell = header.vectorCell
  · rw [if_pos hfirst, hfirst, Array.getElem?_setIfInBounds_ne (Nat.succ_ne_self _),
      Array.getElem?_setIfInBounds_self_of_lt (Nat.lt_of_succ_lt hsize)]
  rw [if_neg hfirst]
  by_cases hsecond : cell = header.vectorCell + 1
  · rw [if_pos hsecond, hsecond, Array.getElem?_setIfInBounds_self_of_lt]
    rwa [Array.size_setIfInBounds]
  · rw [if_neg hsecond, Array.getElem?_setIfInBounds_ne (Ne.symm hsecond),
      Array.getElem?_setIfInBounds_ne (Ne.symm hfirst)]

end Wired

/-- A byte of the work RAM to which nothing but one value is written has that value in the end. -/
theorem ram_get_writeAll {a : UInt16} {value : UInt8} (s : AddressSpace)
    {writes : List (UInt16 × UInt8)} (hall : ∀ w ∈ writes, ramAlias a w.1 → w.2 = value)
    (h : ∃ w ∈ writes, ramAlias a w.1) : (s.writeAll writes).1.ram.get a = value := by
  rw [fst_writeAll]
  -- The value is invariant from the first write to a mirror on.
  refine foldl_eq_of_stores (P := fun _ => True) (f := fun s : AddressSpace => s.ram.get a)
    (m := fun w => ramAlias a w.1) (fun _ _ _ => trivial) ?_ ?_ trivial (.inr h)
  · intro w hmem halias s _
    rw [ram_get_write, if_pos halias, hall w hmem halias]
  · intro w _ halias s _
    rw [ram_get_write, if_neg halias]

end AddressSpace

/-! ### Loading -/

namespace Console

/-- The console with another program memory. -/
def withPrg (c : Console) (prg : Array UInt8) : Console := { c with space := c.space.withPrg prg }

theorem loadProgram_eq (c : Console) (program : Array UInt8) : (c.loadProgram program).1 =
    { c with space := (c.space.writeAll (programWrites program)).1 } := rfl

section Wired

variable {c : Console} {header : Header} (hw : c.space.cartridge.wiring = header.wiring)
  (hbanks : header.prgBanks ≠ 0)

include hw hbanks

/-- The reset vector points to the start of the program, of whatever length that is. -/
theorem peek_vector_loadProgram (program : Array UInt8) :
    (c.loadProgram program).1.peek resetVector = 0x00 ∧
      (c.loadProgram program).1.peek (resetVector + 1) = 0x80 := by
  have hwired := AddressSpace.wiring_writeAll hw (programWrites program)
  have hcell := AddressSpace.getElem?_prg_programWrites hw hbanks program
  constructor
  · refine AddressSpace.peek_of_getElem? hwired hbanks (by decide) ?_
    exact (hcell header.vectorCell).trans (if_pos rfl)
  · refine AddressSpace.peek_of_getElem? hwired hbanks (by decide) ?_
    rw [header.toNat_and_prgMask_succ, hcell, if_neg (Nat.succ_ne_self _), if_pos rfl]

/-- **The processor starts at the beginning of the program.** -/
theorem pc_reset_loadProgram (program : Array UInt8) :
    (c.loadProgram program).1.reset.1.cpu.registers.pc = programStart := by
  obtain ⟨hlow, hhigh⟩ := peek_vector_loadProgram hw hbanks program
  rw [reset_eq]
  show startAddress (c.loadProgram program).1.space = programStart
  rw [AddressSpace.startAddress_eq]
  show wordOf ((c.loadProgram program).1.peek resetVector)
    ((c.loadProgram program).1.peek (resetVector + 1)) = programStart
  rw [hlow, hhigh]
  rfl

/-- **Program memory after loading** a program that ends before the vector. -/
theorem getElem?_prg_loadProgram {program : Array UInt8}
    (hfits : program.size ≤ header.vectorCell) (cell : Nat) :
    (c.loadProgram program).1.space.cartridge.prg[cell]? =
      if cell = header.vectorCell then some 0x00
      else if cell = header.vectorCell + 1 then some 0x80
      else if cell < program.size then program[cell]?
      else c.space.cartridge.prg[cell]? := by
  have hlength : program.toList.length ≤ header.vectorCell := hfits
  have hplaced := AddressSpace.getElem?_prg_placed hw hbanks hlength cell
  rw [Array.getElem?_toList, Array.length_toList] at hplaced
  rw [← hplaced]
  exact AddressSpace.getElem?_prg_programWrites hw hbanks program cell

/-- A program that ends before the vector is found where it was placed. -/
theorem peek_loadProgram {program : Array UInt8} (hfits : program.size ≤ header.vectorCell)
    {i : Nat} (hi : i < program.size) :
    (c.loadProgram program).1.peek (programStart + UInt16.ofNat i) = program[i] := by
  have hlt : i < header.vectorCell := Nat.lt_of_lt_of_le hi hfits
  have hupper := le_programStart_add (header.lt_of_lt_vectorCell hlt)
  refine AddressSpace.peek_of_getElem? (AddressSpace.wiring_writeAll hw (programWrites program))
    hbanks hupper ?_
  rw [header.cell_of_lt hlt]
  refine (getElem?_prg_loadProgram hw hbanks hfits i).trans ?_
  rw [if_neg (Nat.ne_of_lt hlt), if_neg (Nat.ne_of_lt (Nat.lt_succ_of_lt hlt)), if_pos hi,
    Array.getElem?_eq_getElem hi]

end Wired

/-- **A program is loaded and started.**  Let a console have a cartridge with program memory, in
whatever state both are.

* When a program of any length has been loaded and the console reset, the processor is at `0x8000`,
  and the reset has changed nothing of what the processor can reach.
* If the program ends before the reset vector in program memory, all its bytes are found from
  `0x8000` on, and the vector is found at `0xFFFC`.  Every byte of program memory in which neither
  the program nor the vector lies is what it was. -/
theorem program_started_and_found {image : Array UInt8} {cartridge : Cartridge}
    (hload : Cartridge.load image = .ok cartridge) {c : Console}
    (hc : c.space.cartridge.wiring = cartridge.wiring) (hbanks : cartridge.header.prgBanks ≠ 0)
    (program : Array UInt8) :
    let loaded := (c.loadProgram program).1
    let vector := if cartridge.header.prgBanks = 1 then 0x3FFC else 0x7FFC
    (loaded.reset.1.cpu.registers.pc = 0x8000 ∧ loaded.reset.1.space = loaded.space) ∧
    (program.size ≤ vector →
      (∀ i (hi : i < program.size), loaded.peek (0x8000 + UInt16.ofNat i) = program[i]) ∧
      loaded.peek 0xFFFC = 0x00 ∧ loaded.peek 0xFFFD = 0x80 ∧
      loaded.space.cartridge.prg.size = c.space.cartridge.prg.size ∧
      ∀ cell, program.size ≤ cell → cell ≠ vector → cell ≠ vector + 1 →
        loaded.space.cartridge.prg[cell]? = c.space.cartridge.prg[cell]?) := by
  have hw : c.space.cartridge.wiring = cartridge.header.wiring :=
    hc.trans (Cartridge.wiring_of_load hload)
  intro loaded vector
  have hvector : vector = cartridge.header.vectorCell := (Header.vectorCell_eq _).symm
  -- That the processor starts there holds for any length, and that all bytes are found needs the
  -- bound.
  refine ⟨⟨pc_reset_loadProgram hw hbanks program, ?_⟩, fun hfits => ?_⟩
  · rw [reset_eq]
    rfl
  · rw [hvector] at hfits ⊢
    obtain ⟨hlow, hhigh⟩ := peek_vector_loadProgram hw hbanks program
    refine ⟨fun i hi => peek_loadProgram hw hbanks hfits hi, hlow, hhigh, ?_, ?_⟩
    · have hwired := AddressSpace.wiring_writeAll hw (programWrites program)
      exact (AddressSpace.prg_size hwired).trans (AddressSpace.prg_size hw).symm
    · intro cell hcell hne hne'
      refine (getElem?_prg_loadProgram hw hbanks hfits cell).trans ?_
      rw [if_neg hne, if_neg hne', if_neg (Nat.not_lt.2 hcell)]

/-- With one bank the vector lies at `0xBFFC` too, and the longest program that fits ends there. -/
theorem program_started_and_found_in_one_bank : ∃ image cartridge, ∃ c : Console,
    (Cartridge.load image = .ok cartridge ∧ c.space.cartridge.wiring = cartridge.wiring ∧
      cartridge.header.prgBanks = 1) ∧
    let loaded := (c.loadProgram (.replicate 0x3FFC 0xEA)).1
    loaded.reset.1.cpu.registers.pc = 0x8000 ∧ loaded.peek 0xBFFB = 0xEA ∧
      loaded.peek 0xFFFD = 0x80 ∧ loaded.space.cartridge.prg[0x3FFF]? = some 7 := by
  obtain ⟨cartridge, hload, hheader, hprg, -⟩ := Cartridge.load_filled 1 7
  have hbanks : cartridge.header.prgBanks = 1 := congrArg Header.prgBanks hheader
  refine ⟨_, cartridge, powerOn cartridge, ⟨hload, rfl, hbanks⟩, ?_⟩
  -- The size is looked up, so the program is never written out.
  have hsize : (Array.replicate 0x3FFC (0xEA : UInt8)).size = 0x3FFC := Array.size_replicate
  obtain ⟨⟨hpc, -⟩, hfound⟩ := program_started_and_found hload (c := powerOn cartridge) rfl
    (by rw [hbanks]; decide) (.replicate 0x3FFC 0xEA)
  rw [hbanks, if_pos rfl] at hfound
  obtain ⟨hbyte, -, hhigh, -, hkept⟩ := hfound (Nat.le_of_eq hsize)
  refine ⟨hpc, ?_, hhigh, ?_⟩
  · have hlast := hbyte 0x3FFB (by rw [hsize]; decide)
    rw [Array.getElem_replicate] at hlast
    exact hlast
  · refine (hkept 0x3FFF (by rw [hsize]; decide) (by decide) (by decide)).trans ?_
    show cartridge.prg[0x3FFF]? = some 7
    rw [hprg, Array.getElem?_replicate, if_pos (by decide)]

/-! ### What loading leaves alone -/

/-- A program that fits into the upper half of the address space is written there. -/
theorem le_of_mem_programWrites {program : Array UInt8} (hfits : program.size ≤ 0x8000) :
    ∀ w ∈ programWrites program, 0x8000 ≤ w.1 := by
  intro w hmem
  obtain ⟨i, hget, haddr⟩ | rfl | rfl := mem_programWrites.1 hmem
  · obtain ⟨hi, -⟩ := Array.getElem?_eq_some_iff.1 hget
    rw [← haddr]
    exact le_programStart_add (Nat.lt_of_lt_of_le hi hfits)
  · show 0x8000 ≤ resetVector
    decide
  · show 0x8000 ≤ resetVector + 1
    decide

/-- A longer program of one value puts that value into the first byte of the work RAM. -/
theorem ram_get_loadProgram_replicate (c : Console) {n : Nat} (hn : 0x8000 < n) (value : UInt8) :
    (c.loadProgram (.replicate n value)).1.space.ram.get 0x0000 = value := by
  refine AddressSpace.ram_get_writeAll c.space (fun w hmem halias => ?_) ?_
  · obtain ⟨i, hget, -⟩ | rfl | rfl := mem_programWrites.1 hmem
    · rw [Array.getElem?_replicate] at hget
      split at hget
      · exact (Option.some.inj hget).symm
      · cases hget
    · -- The vector is not in the work RAM.
      exact absurd halias (by decide)
    · exact absurd halias (by decide)
  · have hzero : ramAlias 0x0000 0x0000 = true := by decide
    refine ⟨(0x0000, value), mem_programWrites.2 (.inl ⟨0x8000, ?_, rfl⟩), hzero⟩
    rw [Array.getElem?_replicate, if_pos hn]

/-- **What loading a program leaves alone.**  A program that fits into the upper half of the address
space changes nothing but program memory, whatever the console and its cartridge are: the processor,
the work RAM, the picture unit with all its registers and memories, and the picture memory of the
cartridge are what they were.  This is the limit: of every greater length there is a program that
changes the work RAM. -/
theorem loadProgram_frame (c : Console) :
    (∀ program : Array UInt8, program.size ≤ 0x8000 →
      ∃ prg, (c.loadProgram program).1 = c.withPrg prg) ∧
    (∀ n > 0x8000, ∃ program : Array UInt8, program.size = n ∧
      (c.loadProgram program).1.space.ram ≠ c.space.ram) := by
  refine ⟨fun program hfits => ?_, fun n hn => ?_⟩
  · obtain ⟨prg, hspace⟩ := c.space.exists_writeAll_eq (le_of_mem_programWrites hfits)
    refine ⟨prg, ?_⟩
    rw [loadProgram_eq, hspace]
    rfl
  · obtain ⟨value, hvalue⟩ : ∃ value : UInt8, value ≠ c.space.ram.get 0x0000 := by
      by_cases hzero : c.space.ram.get 0x0000 = 0
      · exact ⟨1, by rw [hzero]; decide⟩
      · exact ⟨0, Ne.symm hzero⟩
    refine ⟨.replicate n value, Array.size_replicate, fun hram => hvalue ?_⟩
    rw [← c.ram_get_loadProgram_replicate hn value, hram]

/-- The longest program that fits leaves the work RAM as it was when power was switched on. -/
theorem loadProgram_frame_of_full_program : ∃ c : Console,
    (Array.replicate 0x8000 (0xEA : UInt8)).size ≤ 0x8000 ∧ c.space.ram = .blank ∧
      (c.loadProgram (.replicate 0x8000 0xEA)).1.space.ram = .blank := by
  obtain ⟨-, cartridge, -⟩ := Cartridge.exists_load
  obtain ⟨hkept, -⟩ := loadProgram_frame (powerOn cartridge)
  have hfits : (Array.replicate 0x8000 (0xEA : UInt8)).size ≤ 0x8000 :=
    Nat.le_of_eq Array.size_replicate
  obtain ⟨prg, hloaded⟩ := hkept (.replicate 0x8000 0xEA) hfits
  refine ⟨powerOn cartridge, hfits, rfl, ?_⟩
  rw [hloaded]
  rfl

/-- One byte more, and it lies in the work RAM. -/
theorem ram_after_loading_one_byte_more : ∃ image cartridge, ∃ c : Console,
    Cartridge.load image = .ok cartridge ∧ cartridge.header.prgBanks = 1 ∧
      c = powerOn cartridge ∧ c.space.ram.get 0x0000 = 0x00 ∧
      (c.loadProgram (.replicate 0x8001 0xEA)).1.space.ram.get 0x0000 = 0xEA := by
  obtain ⟨cartridge, hload, hheader, -⟩ := Cartridge.load_filled 1 0
  have hbanks : cartridge.header.prgBanks = 1 := congrArg Header.prgBanks hheader
  exact ⟨_, cartridge, powerOn cartridge, hload, hbanks, rfl, WorkRam.get_blank 0x0000,
    ram_get_loadProgram_replicate _ (by decide) 0xEA⟩

end Console

end Nes
