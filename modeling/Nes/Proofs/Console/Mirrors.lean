import Nes.Console.Basic
import Nes.Proofs.Console.Access

/-!
# The address space as a mirrored memory

The work RAM and the program memory appear in the address space more than once.  A byte that is
written through one address is read through every other address of the same cell, until one of them
is written again.  The registers of the picture unit appear more than once as well, and all
appearances of a register do the same.  What lies between is empty.

Reading and writing find their target in the same way.  So what is to be shown of a sequence of
accesses comes down to one access: it changes the byte behind an address if it is a write to another
address of the same cell, and otherwise it does not.

## Main definitions

* `Access`, `Console.accesses`: reads and writes from outside.
* `lastWritten?`: the byte that was written last to one of a set of addresses.
* `Header.prgMask`, `ramAlias`, `Header.prgAlias`: which addresses lead to the same cell.

## Main statements

* `AddressSpace.target_of_ge`: what answers the upper half of the address space.
* `eq_lastWritten`: from one access to many.
* `Console.address_space_mirrored`: the address space is a mirrored memory.
-/

namespace Nes

/-- A read or a write from outside. -/
inductive Access
  | read (addr : UInt16)
  | write (addr : UInt16) (value : UInt8)
  deriving DecidableEq

/-- The byte that was written last to one of a set of addresses. -/
def lastWritten? (mirror : UInt16 → Bool) : List Access → Option UInt8
  | [] => none
  | .read _ :: l => lastWritten? mirror l
  | .write addr value :: l =>
    (lastWritten? mirror l).or (if mirror addr then some value else none)

/-- **From one access to many.**  A byte that no read changes, and a write only if it is made to a
mirror, is the byte that was written last to a mirror. -/
theorem eq_lastWritten {σ : Type} {P : σ → Prop} {g : σ → Access → σ} {f : σ → UInt8}
    {m : UInt16 → Bool} (hkeep : ∀ s a, P s → P (g s a))
    (hread : ∀ s addr, f (g s (.read addr)) = f s)
    (hwrite : ∀ s, P s → ∀ addr value,
      f (g s (.write addr value)) = if m addr then value else f s)
    {s : σ} (hs : P s) (l : List Access) :
    f (l.foldl g s) = (lastWritten? m l).getD (f s) := by
  induction l generalizing s with
  | nil => rfl
  | cons a l ih =>
    have htail := ih (hkeep s a hs)
    cases a with
    | read addr =>
      rw [hread] at htail
      exact htail
    | write addr value =>
      rw [hwrite s hs] at htail
      rw [List.foldl_cons, htail, lastWritten?]
      -- A later write counts before this one.
      cases lastWritten? m l with
      | some last => rfl
      | none =>
        cases m addr with
        | true => rfl
        | false => rfl

/-- The address bits that reach program memory. -/
def Header.prgMask (h : Header) : UInt16 := if h.prgBanks = 1 then 0x3FFF else 0x7FFF

/-- The mapper asks whether there is more than one bank, which is the same where there is any. -/
theorem Header.prgMask_nrom {h : Header} (hbanks : h.prgBanks ≠ 0) :
    (Mapper.nrom h.prgBanks h.chrIsRam).prgMask = h.prgMask := by
  have hone : 1 < h.prgBanks ↔ ¬ h.prgBanks = 1 := by
    rw [ne_eq, ← UInt8.toNat_inj] at hbanks
    rw [UInt8.lt_iff_toNat_lt, ← UInt8.toNat_inj]
    change ¬ h.prgBanks.toNat = 0 at hbanks
    show 1 < h.prgBanks.toNat ↔ ¬ h.prgBanks.toNat = 1
    omega
  simp only [Mapper.prgMask, prgMask, hone, ite_not]

/-- The address `b` leads to the work RAM, and to the cell of `a`. -/
def ramAlias (a b : UInt16) : Bool := b < 0x2000 && a.toNat % 0x800 == b.toNat % 0x800

/-- The address `b` leads to program memory, and to the cell of `a`. -/
def Header.prgAlias (h : Header) (a b : UInt16) : Bool :=
  0x8000 ≤ b && a &&& h.prgMask == b &&& h.prgMask

namespace AddressSpace

/-! ### Targets -/

theorem target_ram (s : AddressSpace) {addr : UInt16} (h : addr < 0x2000) :
    s.target addr = .ram := by
  have hlow : addr < 0x8000 := UInt16.lt_trans h (by decide)
  rw [s.target_of_lt hlow, innerTarget, if_pos h]

theorem target_register (s : AddressSpace) {addr : UInt16} (h₁ : 0x2000 ≤ addr)
    (h₂ : addr < 0x4000) : s.target addr = .register (.ofAddress addr) := by
  have hlow : addr < 0x8000 := UInt16.lt_trans h₂ (by decide)
  rw [s.target_of_lt hlow, innerTarget, if_neg (UInt16.not_lt.2 h₁), if_pos h₂]

theorem innerTarget_unmapped {addr : UInt16} (h : 0x4000 ≤ addr) :
    innerTarget addr = .unmapped := by
  have hram : ¬ addr < 0x2000 := UInt16.not_lt.2 (UInt16.le_trans (by decide) h)
  rw [innerTarget, if_neg hram, if_neg (UInt16.not_lt.2 h)]

theorem target_unmapped (s : AddressSpace) {addr : UInt16} (h₁ : 0x4000 ≤ addr)
    (h₂ : addr < 0x8000) : s.target addr = .unmapped := by
  rw [s.target_of_lt h₂, innerTarget_unmapped h₁]

section Wired

variable {s : AddressSpace} {header : Header} (hs : s.cartridge.wiring = header.wiring)

include hs

theorem prg_size : s.cartridge.prg.size = header.prgBanks.toNat * 0x4000 :=
  congrArg (·.2.2.1) hs

/-- The offset lies in program memory if there is any. -/
theorem and_prgMask_lt (addr : UInt16) (h : header.prgBanks ≠ 0) :
    (addr &&& header.prgMask).toNat < s.cartridge.prg.size := by
  have hpos : header.prgBanks.toNat ≠ 0 := fun h₀ => h (UInt8.toNat_inj.1 h₀)
  rw [prg_size hs, UInt16.toNat_and, Header.prgMask]
  split
  · next hone =>
    rw [hone]
    exact Nat.lt_of_le_of_lt Nat.and_le_right (by decide)
  · next hone =>
    have htwo : header.prgBanks.toNat ≠ 1 := fun h₁ => hone (UInt8.toNat_inj.1 h₁)
    have hle : addr.toNat &&& (0x7FFF : UInt16).toNat ≤ 0x7FFF := Nat.and_le_right
    omega

/-- **What the cartridge claims in the upper half of the address space.** -/
theorem prgCell?_of_ge {addr : UInt16} (h : 0x8000 ≤ addr) : s.cartridge.prgCell? addr =
    if header.prgBanks = 0 then none else some (addr &&& header.prgMask).toNat := by
  have hmapper : s.cartridge.mapper = .nrom header.prgBanks header.chrIsRam :=
    congrArg (·.2.1) hs
  rw [Cartridge.prgCell?, Mapper.prgOffset?, if_pos h, hmapper, Option.filter_some]
  by_cases hzero : header.prgBanks = 0
  · have hsize := prg_size hs
    rw [hzero] at hsize
    rw [hsize, if_pos hzero, if_neg (by simp)]
  · have hlt := and_prgMask_lt hs addr hzero
    rw [Header.prgMask_nrom hzero, if_neg hzero, if_pos (by simpa using hlt)]

/-- It reads a byte of program memory there, if it has any. -/
theorem readPrg?_of_ge (hbanks : header.prgBanks ≠ 0) {addr : UInt16} (h : 0x8000 ≤ addr) :
    s.cartridge.readPrg? addr =
      some (s.cartridge.prg.getD (addr &&& header.prgMask).toNat 0) := by
  rw [Cartridge.readPrg?, prgCell?_of_ge hs h, if_neg hbanks]
  rfl

/-- It takes a byte there. -/
theorem writePrg?_of_ge (hbanks : header.prgBanks ≠ 0) {addr : UInt16} (h : 0x8000 ≤ addr)
    (value : UInt8) : s.cartridge.writePrg? addr value =
      some (s.cartridge.setPrg (addr &&& header.prgMask).toNat value) := by
  rw [Cartridge.writePrg?, prgCell?_of_ge hs h, if_neg hbanks]
  rfl

/-- **What answers the upper half of the address space.** -/
theorem target_of_ge {addr : UInt16} (h : 0x8000 ≤ addr) : s.target addr =
    if header.prgBanks = 0 then .unmapped else .prg (addr &&& header.prgMask).toNat := by
  rw [target, prgCell?_of_ge hs h]
  by_cases hzero : header.prgBanks = 0
  · rw [if_pos hzero, if_pos hzero]
    exact innerTarget_unmapped (UInt16.le_trans (by decide) h)
  · rw [if_neg hzero, if_neg hzero]

end Wired

/-! ### Frames -/

/-- The same devices, with another program memory. -/
def withPrg (s : AddressSpace) (prg : Array UInt8) : AddressSpace :=
  { s with cartridge := { s.cartridge with prg := prg } }

/-- Reading changes no memory of the processor or of the cartridge. -/
theorem ram_read (s : AddressSpace) (addr : UInt16) : (s.read addr).2.ram = s.ram := by
  unfold read
  cases s.target addr <;> rfl

/-- An access to a register of the picture unit reaches neither the work RAM nor program memory. -/
theorem write_of_register {s : AddressSpace} {addr : UInt16} {r : Ppu.Register}
    (h : s.target addr = .register r) (value : UInt8) :
    (s.write addr value).ram = s.ram ∧ (s.write addr value).cartridge.prg = s.cartridge.prg := by
  rw [write, h]
  exact ⟨rfl, Ppu.prg_writeRegister s.ppu s.cartridge r value⟩

/-- Two addresses of a register are read alike. -/
theorem read_congr {s : AddressSpace} {a b : UInt16} {r : Ppu.Register}
    (ha : s.target a = .register r) (hb : s.target b = .register r) : s.read a = s.read b := by
  rw [read, read, ha, hb]

/-- Two addresses of a register are written alike. -/
theorem write_congr {s : AddressSpace} {a b : UInt16} {r : Ppu.Register}
    (ha : s.target a = .register r) (hb : s.target b = .register r) (value : UInt8) :
    s.write a value = s.write b value ∧ s.writeEvents a value = s.writeEvents b value := by
  rw [write, write, writeEvents, writeEvents, ha, hb]
  exact ⟨rfl, rfl⟩

/-- Any other read changes nothing. -/
theorem read_of_not_register {s : AddressSpace} {addr : UInt16}
    (h : ∀ r, s.target addr ≠ .register r) : (s.read addr).2 = s := by
  unfold read
  cases ht : s.target addr with
  | register r => exact absurd ht (h r)
  | prg cell => rfl
  | ram => rfl
  | unmapped => rfl

/-- Any other write reaches neither the picture unit nor its memory on the cartridge. -/
theorem write_of_not_register {s : AddressSpace} {addr : UInt16}
    (h : ∀ r, s.target addr ≠ .register r) (value : UInt8) :
    (s.write addr value).ppu = s.ppu ∧ (s.write addr value).cartridge.chr = s.cartridge.chr := by
  unfold write
  cases ht : s.target addr with
  | register r => exact absurd ht (h r)
  | prg cell => exact ⟨rfl, rfl⟩
  | ram => exact ⟨rfl, rfl⟩
  | unmapped => exact ⟨rfl, rfl⟩

/-- A write to the upper half of the address space reaches program memory at most. -/
theorem exists_write_eq (s : AddressSpace) {addr : UInt16} (h : 0x8000 ≤ addr) (value : UInt8) :
    ∃ prg, s.write addr value = s.withPrg prg := by
  unfold write target
  cases s.cartridge.prgCell? addr with
  | some cell => exact ⟨_, rfl⟩
  | none =>
    dsimp only
    rw [innerTarget_unmapped (UInt16.le_trans (by decide) h)]
    exact ⟨s.cartridge.prg, rfl⟩

/-- Only addresses between the work RAM and the empty part lead to a register. -/
theorem target_ne_register {s : AddressSpace} {addr : UInt16} (h : addr < 0x2000 ∨ 0x4000 ≤ addr)
    (r : Ppu.Register) : s.target addr ≠ .register r := by
  have hinner : innerTarget addr ≠ .register r := by
    obtain h | h := h
    · rw [innerTarget, if_pos h]
      exact Target.noConfusion
    · rw [innerTarget_unmapped h]
      exact Target.noConfusion
  unfold target
  split
  · exact Target.noConfusion
  · exact hinner

/-! ### One access -/

/-- The four parts of the address space. -/
theorem parts (addr : UInt16) : addr < 0x2000 ∨ (0x2000 ≤ addr ∧ addr < 0x4000) ∨
    (0x4000 ≤ addr ∧ addr < 0x8000) ∨ 0x8000 ≤ addr := by
  simp only [UInt16.lt_iff_toNat_lt, UInt16.le_iff_toNat_le]
  show addr.toNat < 0x2000 ∨ (0x2000 ≤ addr.toNat ∧ addr.toNat < 0x4000) ∨
    (0x4000 ≤ addr.toNat ∧ addr.toNat < 0x8000) ∨ 0x8000 ≤ addr.toNat
  omega

theorem read_ram (s : AddressSpace) {addr : UInt16} (h : addr < 0x2000) :
    (s.read addr).1 = s.ram.get addr := by
  rw [read, s.target_ram h]

/-- A write changes the byte behind an address of the work RAM if it is made to one of its
aliases. -/
theorem ram_get_write (s : AddressSpace) (a b : UInt16) (value : UInt8) :
    (s.write b value).ram.get a = if ramAlias a b then value else s.ram.get a := by
  have hkeep (hb : ¬ b < 0x2000) (h : (s.write b value).ram = s.ram) :
      (s.write b value).ram.get a = if ramAlias a b then value else s.ram.get a := by
    rw [h, ramAlias, decide_eq_false hb, Bool.false_and]
    rfl
  -- Only the first of the four parts leads to the work RAM.
  obtain hb | ⟨h₁, h₂⟩ | ⟨h₁, h₂⟩ | hb := parts b
  · have hwrite : (s.write b value).ram = s.ram.set b value := by rw [write, s.target_ram hb]
    rw [hwrite, WorkRam.get_set, ramAlias, decide_eq_true hb, Bool.true_and]
    simp only [WorkRam.cell, Fin.mk.injEq, beq_iff_eq]
  · exact hkeep (UInt16.not_lt.2 h₁) (write_of_register (s.target_register h₁ h₂) value).1
  · refine hkeep (UInt16.not_lt.2 (UInt16.le_trans (by decide) h₁)) ?_
    rw [write, s.target_unmapped h₁ h₂]
  · obtain ⟨prg, hwrite⟩ := s.exists_write_eq hb value
    refine hkeep (UInt16.not_lt.2 (UInt16.le_trans (by decide) hb)) ?_
    rw [hwrite]
    rfl

section Wired

variable {s : AddressSpace} {header : Header} (hs : s.cartridge.wiring = header.wiring)

include hs

theorem read_prg (hbanks : header.prgBanks ≠ 0) {addr : UInt16} (h : 0x8000 ≤ addr) :
    (s.read addr).1 = s.cartridge.prg.getD (addr &&& header.prgMask).toNat 0 := by
  rw [read_of_readPrg? (readPrg?_of_ge hs hbanks h)]

/-- Where nothing answers, zero is read. -/
theorem read_empty {addr : UInt16} (h₁ : 0x4000 ≤ addr)
    (h₂ : addr < 0x8000 ∨ header.prgBanks = 0) : (s.read addr).1 = 0 := by
  have htarget : s.target addr = .unmapped := by
    by_cases hlow : addr < 0x8000
    · exact s.target_unmapped h₁ hlow
    · rw [target_of_ge hs (UInt16.not_lt.1 hlow), if_pos (h₂.resolve_left hlow)]
  rw [read, htarget]

/-- A write to the upper half stores the byte in program memory. -/
theorem prg_write (hbanks : header.prgBanks ≠ 0) {addr : UInt16} (h : 0x8000 ≤ addr)
    (value : UInt8) : (s.write addr value).cartridge.prg =
      s.cartridge.prg.setIfInBounds (addr &&& header.prgMask).toNat value := by
  rw [write_of_writePrg? (writePrg?_of_ge hs hbanks h value)]
  rfl

/-- A write changes a byte of program memory if it is made to one of its aliases. -/
theorem prg_getD_write (hbanks : header.prgBanks ≠ 0) (a b : UInt16) (value : UInt8) :
    (s.write b value).cartridge.prg.getD (a &&& header.prgMask).toNat 0 =
      if header.prgAlias a b then value
      else s.cartridge.prg.getD (a &&& header.prgMask).toNat 0 := by
  have hkeep (hb : ¬ 0x8000 ≤ b) (h : (s.write b value).cartridge.prg = s.cartridge.prg) :
      (s.write b value).cartridge.prg.getD (a &&& header.prgMask).toNat 0 =
        if header.prgAlias a b then value
        else s.cartridge.prg.getD (a &&& header.prgMask).toNat 0 := by
    rw [h, Header.prgAlias, decide_eq_false hb, Bool.false_and]
    rfl
  -- Only the last of the four parts leads to program memory.
  obtain hb | ⟨h₁, h₂⟩ | ⟨h₁, h₂⟩ | hb := parts b
  · refine hkeep (UInt16.not_le.2 (UInt16.lt_trans hb (by decide))) ?_
    rw [write, s.target_ram hb]
  · exact hkeep (UInt16.not_le.2 (UInt16.lt_trans h₂ (by decide)))
      (write_of_register (s.target_register h₁ h₂) value).2
  · refine hkeep (UInt16.not_le.2 h₂) ?_
    rw [write, s.target_unmapped h₁ h₂]
  · have hlt := and_prgMask_lt hs a hbanks
    have hwrite := prg_write hs hbanks hb value
    have hcell : header.prgAlias a b = true ↔
        (b &&& header.prgMask).toNat = (a &&& header.prgMask).toNat := by
      rw [UInt16.toNat_inj, Header.prgAlias, decide_eq_true hb, Bool.true_and, beq_iff_eq]
      exact eq_comm
    simp only [hwrite, hcell, Array.getD_eq_getD_getElem?]
    by_cases hsame : (b &&& header.prgMask).toNat = (a &&& header.prgMask).toNat
    · rw [hsame, Array.getElem?_setIfInBounds_self_of_lt hlt, if_pos rfl]
      rfl
    · rw [Array.getElem?_setIfInBounds_ne hsame, if_neg hsame]

end Wired

/-! ### Many accesses -/

/-- The address space after an access. -/
def access (s : AddressSpace) : Access → AddressSpace
  | .read addr => (s.read addr).2
  | .write addr value => s.write addr value

/-- The address space after a list of accesses. -/
def accesses (s : AddressSpace) (l : List Access) : AddressSpace := l.foldl access s

theorem wiring_access (s : AddressSpace) (a : Access) :
    (s.access a).cartridge.wiring = s.cartridge.wiring := by
  cases a with
  | read addr => exact congrArg Cartridge.wiring (s.cartridge_read addr)
  | write addr value => exact s.wiring_write addr value

theorem wiring_accesses (s : AddressSpace) (l : List Access) :
    (s.accesses l).cartridge.wiring = s.cartridge.wiring := by
  induction l generalizing s with
  | nil => rfl
  | cons a l ih => exact (ih (s.access a)).trans (s.wiring_access a)

/-- The same for a byte of the address space, while the wiring stays what it is. -/
theorem eq_lastWritten {header : Header} {f : AddressSpace → UInt8} {mirror : UInt16 → Bool}
    (hread : ∀ s addr, f (read s addr).2 = f s)
    (hwrite : ∀ s, s.cartridge.wiring = header.wiring → ∀ addr value,
      f (write s addr value) = if mirror addr then value else f s)
    {s : AddressSpace} (hs : s.cartridge.wiring = header.wiring) (l : List Access) :
    f (s.accesses l) = (lastWritten? mirror l).getD (f s) :=
  Nes.eq_lastWritten (P := fun s => s.cartridge.wiring = header.wiring) (g := access)
    (fun s a h => (s.wiring_access a).trans h) hread hwrite hs l

section Wired

variable {s : AddressSpace} {header : Header} (hs : s.cartridge.wiring = header.wiring)

include hs

/-- The work RAM reads the byte that was written last to a mirror. -/
theorem read_accesses_ram (l : List Access) {a : UInt16} (ha : a < 0x2000) :
    ((s.accesses l).read a).1 = (lastWritten? (ramAlias a) l).getD (s.ram.get a) := by
  rw [read_ram _ ha]
  refine eq_lastWritten (f := fun s => s.ram.get a) ?_ ?_ hs l
  · intro s addr
    rw [ram_read]
  · intro s _ addr value
    exact s.ram_get_write a addr value

/-- Program memory reads the byte that was written last to a mirror. -/
theorem read_accesses_prg (hbanks : header.prgBanks ≠ 0) (l : List Access) {a : UInt16}
    (ha : 0x8000 ≤ a) : ∃ initial,
      s.cartridge.prg[(a &&& header.prgMask).toNat]? = some initial ∧
      ((s.accesses l).read a).1 = (lastWritten? (header.prgAlias a) l).getD initial := by
  have hget := Array.getElem?_eq_getElem (and_prgMask_lt hs a hbanks)
  have hafter : (s.accesses l).cartridge.wiring = header.wiring := (s.wiring_accesses l).trans hs
  have hlast := eq_lastWritten
    (f := fun s => s.cartridge.prg.getD (a &&& header.prgMask).toNat 0)
    (fun s addr => by rw [cartridge_read])
    (fun s hs addr value => prg_getD_write hs hbanks a addr value) hs l
  refine ⟨_, hget, ?_⟩
  -- The initial byte is there, since the offset lies in program memory.
  rw [s.cartridge.prg.getD_eq_getD_getElem?, hget, Option.getD_some] at hlast
  rw [read_prg hafter hbanks ha, hlast]

/-- What is empty stays empty. -/
theorem read_accesses_empty (l : List Access) {a : UInt16} (h₁ : 0x4000 ≤ a)
    (h₂ : a < 0x8000 ∨ header.prgBanks = 0) : ((s.accesses l).read a).1 = 0 :=
  read_empty ((s.wiring_accesses l).trans hs) h₁ h₂

end Wired

end AddressSpace

namespace Console

/-- The console after a list of accesses. -/
def accesses (c : Console) (l : List Access) : Console :=
  l.foldl (fun c a => match a with
    | .read addr => (c.read addr).2
    | .write addr value => (c.write addr value).1) c

theorem space_accesses (c : Console) (l : List Access) :
    (c.accesses l).space = c.space.accesses l := by
  induction l generalizing c with
  | nil => rfl
  | cons a l ih =>
    cases a with
    | read addr => exact ih (c.read addr).2
    | write addr value => exact ih (c.write addr value).1

/-- **The address space is a mirrored memory.**  For a console with a loaded cartridge, whatever its
memories hold, and for every sequence of reads and writes:

* an address below `0x2000` reads the byte that was written last to an address which agrees with it
  modulo 2048, and otherwise the byte that was there;
* if there is program memory, an address from `0x8000` on reads the byte that was written last to an
  address which agrees with it in the bits that reach program memory, and otherwise the byte that
  was there;
* what lies between, and the upper half if there is no program memory, reads as zero;
* accesses to the registers of the picture unit change neither the work RAM nor program memory;
* all other accesses change neither the picture unit nor its memory on the cartridge;
* addresses of registers that agree modulo eight do the same. -/
theorem address_space_mirrored {image : Array UInt8} {cartridge : Cartridge}
    (hload : Cartridge.load image = .ok cartridge) {c : Console}
    (hc : c.space.cartridge.wiring = cartridge.wiring) (l : List Access) :
    let banks := cartridge.header.prgBanks
    let mask : UInt16 := if banks = 1 then 0x3FFF else 0x7FFF
    (∀ a < 0x2000, ((c.accesses l).read a).1 =
      (lastWritten? (fun b => b < 0x2000 && a.toNat % 0x800 == b.toNat % 0x800) l).getD
        (c.space.ram.get a)) ∧
    (banks ≠ 0 → ∀ a ≥ 0x8000, ∃ initial,
      c.space.cartridge.prg[(a &&& mask).toNat]? = some initial ∧
      ((c.accesses l).read a).1 =
        (lastWritten? (fun b => 0x8000 ≤ b && a &&& mask == b &&& mask) l).getD initial) ∧
    (∀ a ≥ 0x4000, a < 0x8000 ∨ banks = 0 → ((c.accesses l).read a).1 = 0) ∧
    (∀ a ≥ 0x2000, a < 0x4000 →
      ((c.read a).2.space.ram = c.space.ram ∧
        (c.read a).2.space.cartridge.prg = c.space.cartridge.prg) ∧
      ∀ value, (c.write a value).1.space.ram = c.space.ram ∧
        (c.write a value).1.space.cartridge.prg = c.space.cartridge.prg) ∧
    (∀ a, a < 0x2000 ∨ 0x4000 ≤ a →
      ((c.read a).2.space.ppu = c.space.ppu ∧
        (c.read a).2.space.cartridge.chr = c.space.cartridge.chr) ∧
      ∀ value, (c.write a value).1.space.ppu = c.space.ppu ∧
        (c.write a value).1.space.cartridge.chr = c.space.cartridge.chr) ∧
    (∀ a ≥ 0x2000, a < 0x4000 → ∀ b ≥ 0x2000, b < 0x2008 → a.toNat % 8 = b.toNat % 8 →
      c.read a = c.read b ∧ ∀ value, c.write a value = c.write b value) := by
  have hwiring : c.space.cartridge.wiring = cartridge.header.wiring :=
    hc.trans (Cartridge.wiring_of_load hload)
  -- What is read depends on the address space alone, so the sequence can be followed there.
  have hread : ∀ a, ((c.accesses l).read a).1 = ((c.space.accesses l).read a).1 := by
    intro a
    rw [← space_accesses]
    rfl
  refine ⟨?_, ?_, ?_, ?_, ?_, ?_⟩
  · intro a ha
    rw [hread]
    exact AddressSpace.read_accesses_ram hwiring l ha
  · intro hbanks a ha
    rw [hread]
    exact AddressSpace.read_accesses_prg hwiring hbanks l ha
  · intro a h₁ h₂
    rw [hread]
    exact AddressSpace.read_accesses_empty hwiring l h₁ h₂
  · -- The registers do not reach the memories.
    intro a h₁ h₂
    have htarget := c.space.target_register h₁ h₂
    refine ⟨⟨c.space.ram_read a, congrArg (·.prg) (c.space.cartridge_read a)⟩, fun value => ?_⟩
    exact AddressSpace.write_of_register htarget value
  · -- Other addresses do not reach the picture unit.
    intro a ha
    have htarget := AddressSpace.target_ne_register (s := c.space) ha
    have hread := AddressSpace.read_of_not_register htarget
    refine ⟨⟨congrArg (·.ppu) hread, congrArg (·.cartridge.chr) hread⟩, fun value => ?_⟩
    exact AddressSpace.write_of_not_register htarget value
  · -- Both addresses select the same register, and nothing else of them is used.
    intro a h₁ h₂ b h₃ h₄ hab
    have ha := c.space.target_register h₁ h₂
    have hb := c.space.target_register h₃ (UInt16.lt_trans h₄ (by decide))
    rw [Ppu.Register.ofAddress_congr hab] at ha
    constructor
    · rw [Console.read, Console.read, AddressSpace.read_congr ha hb]
    · intro value
      obtain ⟨hwrite, hevents⟩ := AddressSpace.write_congr ha hb value
      simp only [Console.write, writeAll, AddressSpace.writeAll, List.foldl_cons, List.foldl_nil,
        hwrite, hevents]

/-- On a cartridge with one bank, bytes that are written through one address are read through
another. -/
theorem address_space_mirrored_one_bank : ∃ image cartridge, ∃ c : Console,
    (Cartridge.load image = .ok cartridge ∧ c.space.cartridge.wiring = cartridge.wiring) ∧
      ((c.accesses [.write 0x0005 7, .write 0xC003 9]).read 0x1805).1 = 7 ∧
      ((c.accesses [.write 0x0005 7, .write 0xC003 9]).read 0x8003).1 = 9 := by
  obtain ⟨image, cartridge, hload, hbanks⟩ : ∃ image cartridge,
      Cartridge.load image = .ok cartridge ∧ cartridge.header.prgBanks = 1 := by
    have hsize : Image.WellSized ⟨1, 0, 0, 0, .replicate 8 0, #[], .replicate 0x4000 0, #[]⟩ :=
      ⟨rfl, Array.size_replicate, rfl⟩
    exact ⟨_, _, Cartridge.load_toBytes hsize rfl, rfl⟩
  refine ⟨image, cartridge, powerOn cartridge, ⟨hload, rfl⟩, ?_⟩
  obtain ⟨hram, hprg, -⟩ := address_space_mirrored hload (c := powerOn cartridge) rfl
    [.write 0x0005 7, .write 0xC003 9]
  rw [hbanks] at hprg
  obtain ⟨initial, -, hread⟩ := hprg (by decide) 0x8003 (by decide)
  exact ⟨hram 0x1805 (by decide), hread⟩

end Console

end Nes
