import Mathlib.Tactic.Set
import Nes.Proofs.Bus.Ram
import Nes.Proofs.Console.EntryAndReturn

/-!
# Stack discipline

What is pushed can be pulled again: a byte or a word, the accumulator, the status, or the address to
return to from a call.  In a session pushes and pulls are well bracketed.  Between a push and its
pull there may be another session, and between all of them the registers may change at will, except
for the stack pointer.

The stack pointer has eight bits, so page one is a ring of 256 cells and no place on it is special.
A session that is nowhere deeper than the ring can be long overwrites only cells in front of its
start, counted against the direction in which the stack grows; so a push of 256 bytes in all is the
most that can be pulled again.

## Main definitions

* `Stack.Item`: what is pushed, with `Stack.Item.push` and `Stack.Item.pull`.
* `Stack.Session`, `Stack.Session.depth`, `Stack.Session.run`: well-bracketed pushes and pulls.
* `Stack.Exchange.Returned`: a pull returned what its push had stored.

## Main statements

* `AddressSpace.ramAt`: the work RAM of the console is memory.
* `Stack.Item.run_push`, `Stack.Item.run_pull`: one push, and one pull.
* `Stack.Item.tick_push`, `Stack.Item.tick_pull`: the instructions that push and pull an item.
* `Stack.Session.run_restores`: a session of pushes and pulls on a ring.
* `Stack.session_discipline`: every pull returns what its push stored.
-/

namespace Nes

/-- **The work RAM of the console is memory** at its lowest addresses, where no two lead to the same
cell. -/
theorem AddressSpace.ramAt : Bus.RamAt AddressSpace fun addr => addr < 0x0800 := by
  have hlow : ∀ {addr : UInt16}, addr < 0x0800 → addr < 0x2000 :=
    fun h => UInt16.lt_trans h (by decide)
  have hpeek : ∀ (s : AddressSpace) {addr : UInt16}, addr < 0x0800 →
      s.peek addr = s.ram.get addr := fun s addr h => by rw [← s.fst_read, s.read_ram (hlow h)]
  -- The mirrors begin only behind these addresses.
  have hcell : ∀ {addr other : UInt16}, addr < 0x0800 → other < 0x0800 →
      (WorkRam.cell other = WorkRam.cell addr ↔ other = addr) := by
    intro addr other haddr hother
    have hlt : addr.toNat < 0x800 := UInt16.lt_iff_toNat_lt.1 haddr
    have hlt' : other.toNat < 0x800 := UInt16.lt_iff_toNat_lt.1 hother
    rw [Fin.ext_iff, ← UInt16.toNat_inj]
    show other.toNat % 0x800 = addr.toNat % 0x800 ↔ _
    rw [Nat.mod_eq_of_lt hlt, Nat.mod_eq_of_lt hlt']
  refine ⟨fun s addr h => ?_, fun s addr other value haddr hother => ?_, fun s addr other h => ?_⟩
  · have hstays := read_of_not_register (target_ne_register (s := s) (.inl (hlow h)))
    exact Prod.ext (s.fst_read addr) hstays
  · show (s.write addr value).peek other = if other = addr then value else s.peek other
    have hwrite : (s.write addr value).ram = s.ram.set addr value := by
      rw [write, s.target_ram (hlow haddr)]
    rw [hpeek _ hother, hpeek _ hother, hwrite, WorkRam.get_set]
    exact if_congr (hcell haddr hother) rfl rfl
  · show (s.read addr).2.peek other = s.peek other
    rw [hpeek _ h, hpeek _ h, s.ram_read addr]

namespace Stack

/-! ### Items -/

/-- What is pushed on the stack, and pulled again in the same way. -/
inductive Item
  /-- A byte. -/
  | byte (v : UInt8)
  /-- A word. -/
  | word (v : UInt16)
  /-- The accumulator, by instructions. -/
  | accumulator
  /-- The status, by instructions. -/
  | status
  /-- The address to return to: pushed by the call at the address `site` of a routine at the address
  `target`, and pulled by the return. -/
  | call (site target : UInt16)

namespace Item

/-- The number of bytes. -/
def size : Item → Nat
  | byte _ | accumulator | status => 1
  | word _ | call _ _ => 2

/-- Pushes an item.  When an instruction is carried out, the program counter is at the following
instruction. -/
def push (item : Item) (r : Registers) : BusM Registers :=
  match item with
  | byte v => r.push v
  | word v => r.pushWord v
  | accumulator => do
    let (r, _) ← Mnemonic.pha.effect.perform (.bare .implied) r
    pure r
  | status => do
    let (r, _) ← Mnemonic.php.effect.perform (.bare .implied) r
    pure r
  | call site target => do
    let (r, _) ← Mnemonic.jsr.effect.perform (.plain .absolute target) (r.jumpTo (site + 3))
    pure r

/-- Pulls an item.  A byte or a word is returned, and all else goes into registers. -/
def pull (item : Item) (r : Registers) : BusM (Option UInt16 × Registers) :=
  match item with
  | byte _ => do
    let (v, r) ← r.pull
    pure (some v.toUInt16, r)
  | word _ => do
    let (v, r) ← r.pullWord
    pure (some v, r)
  | accumulator => do
    let (r, _) ← Mnemonic.pla.effect.perform (.bare .implied) r
    pure (none, r)
  | status => do
    let (r, _) ← Mnemonic.plp.effect.perform (.bare .implied) r
    pure (none, r)
  | call _ _ => do
    let (r, _) ← Mnemonic.rts.effect.perform (.bare .implied) r
    pure (none, r)

end Item

/-- A push and its pull. -/
structure Exchange where
  /-- What is pushed and pulled. -/
  item : Item
  /-- The registers before the push. -/
  before : Registers
  /-- The registers after the pull. -/
  after : Registers
  /-- The byte or word that the pull returned. -/
  value : Option UInt16

/-- The pull returned what the push had stored.  The break flag is not part of the status, and a
call returns to the instruction behind it, which is three bytes long. -/
def Exchange.Returned (e : Exchange) : Prop :=
  match e.item with
  | .byte v => e.value = some v.toUInt16
  | .word v => e.value = some v
  | .accumulator => e.after.a = e.before.a
  | .status => e.after.status = (e.before.status &&& ~~~Flag.breakCommand) ||| Flag.unused
  | .call site _ => e.after.pc = site + 3

/-! ### Sessions -/

/-- A well-bracketed sequence of pushes and pulls. -/
inductive Session
  /-- Nothing more. -/
  | done
  /-- The registers change, but for the stack pointer, and the session goes on. -/
  | change (f : Registers → Registers) (hf : ∀ r, (f r).sp = r.sp) (rest : Session)
  /-- An item is pushed, and pulled after a session; and the session goes on. -/
  | bracket (item : Item) (body rest : Session)

namespace Session

/-- The most bytes that lie on the stack above the start. -/
def depth : Session → Nat
  | done => 0
  | change _ _ rest => rest.depth
  | bracket item body rest => max (item.size + body.depth) rest.depth

/-- Carries out a session: the registers afterwards, and the exchanges in the order of the pulls. -/
def run : Session → Registers → BusM (Registers × List Exchange)
  | done, r => pure (r, [])
  | change f _ rest, r => rest.run (f r)
  | bracket item body rest, r => do
    let pushed ← item.push r
    let (before, inner) ← body.run pushed
    let (value, after) ← item.pull before
    let (last, outer) ← rest.run after
    pure (last, inner ++ ⟨item, r, after, value⟩ :: outer)

end Session

/-! ### One push and one pull -/

namespace Item

/-- What a push stores, and where. -/
def stored (item : Item) (r : Registers) : List (UInt16 × UInt8) :=
  match item with
  | byte v => [(stackCell r.sp, v)]
  | word v => [(stackCell r.sp, (v >>> 8).toUInt8), (stackCell (r.sp - 1), v.toUInt8)]
  | accumulator => [(stackCell r.sp, r.a)]
  | status => [(stackCell r.sp, pushedStatus r.status true)]
  | call site _ =>
    [(stackCell r.sp, ((site + 2) >>> 8).toUInt8), (stackCell (r.sp - 1), (site + 2).toUInt8)]

variable {β : Type} [Bus β] (item : Item) (r : Registers) (bus : β)

/-- **A push** stores the bytes of the item and moves the stack pointer by their number. -/
theorem run_push : ((item.push r).run bus).bus = Bus.store bus (item.stored r) ∧
    ((item.push r).run bus).value.sp = r.sp - UInt8.ofNat item.size := by
  have htwo : ∀ sp : UInt8, sp - 1 - 1 = sp - 2 := fun sp => by grind
  -- The two bytes of a word are stored one below the other.
  cases item with
  | byte v => exact ⟨rfl, rfl⟩
  | word v => exact ⟨rfl, htwo r.sp⟩
  | accumulator => exact ⟨rfl, rfl⟩
  | status =>
    rw [stored, ← Registers.statusToPush_eq]
    exact ⟨rfl, rfl⟩
  | call site target =>
    have hpc : site + 3 - 1 = site + 2 := by grind
    rw [stored, ← hpc]
    exact ⟨rfl, htwo r.sp⟩

end Item

section Pull

variable {β : Type} [Bus β] (hram : Bus.StackIsRam β) (r : Registers) (bus : β)

include hram

theorem pull_of_ram :
    (r.pull.run bus).value = (Bus.peek bus (stackCell (r.sp + 1)), { r with sp := r.sp + 1 }) ∧
      (r.pull.run bus).bus = bus := by
  have hread := hram.read_stack bus (r.sp + 1)
  simp only [Registers.pull, Registers.stackAddress_eq, BusM.run_bind, BusM.run_readByte, hread,
    BusM.run_pure, and_self]

theorem pullWord_of_ram :
    (r.pullWord.run bus).value =
        (wordOf (Bus.peek bus (stackCell (r.sp + 1))) (Bus.peek bus (stackCell (r.sp + 2))),
          { r with sp := r.sp + 2 }) ∧
      (r.pullWord.run bus).bus = bus := by
  have htwo : r.sp + 1 + 1 = r.sp + 2 := by grind
  obtain ⟨hlow, hbus⟩ := pull_of_ram hram r bus
  obtain ⟨hhigh, hbus'⟩ := pull_of_ram hram { r with sp := r.sp + 1 } bus
  rw [htwo] at hhigh
  simp only [Registers.pullWord, BusM.run_bind, hlow, hbus, hhigh, hbus', BusM.run_pure, and_self]

end Pull

/-- The pushed status without the break flag. -/
theorem restored_pushedStatus : ∀ status : UInt8,
    (pushedStatus status true &&& ~~~Flag.breakCommand) ||| Flag.unused =
      (status &&& ~~~Flag.breakCommand) ||| Flag.unused := by
  apply forall_byte
  decide +kernel

namespace Item

variable {β : Type} [Bus β]

/-- **A pull** on the bytes that a push has stored returns them, changes nothing on the bus, and
leaves the stack pointer that was before the push. -/
theorem run_pull (hram : Bus.StackIsRam β) {item : Item} {before r : Registers} {bus : β}
    (hsp : r.sp = before.sp - UInt8.ofNat item.size) (hholds : Bus.Holds bus (item.stored before)) :
    let o := (item.pull r).run bus
    o.bus = bus ∧ o.value.2.sp = before.sp ∧
      Exchange.Returned ⟨item, before, o.value.2, o.value.1⟩ := by
  obtain ⟨hvalue, hbus⟩ := pull_of_ram hram r bus
  obtain ⟨hword, hbus'⟩ := pullWord_of_ram hram r bus
  -- The stack pointer moves back over the item, and finds its bytes from the last to the first.
  cases item with
  | byte v =>
    have hfirst : r.sp + 1 = before.sp := by rw [hsp, size]; grind
    have hv : Bus.peek bus (stackCell before.sp) = v := hholds _ (.head _)
    simp only [pull, BusM.run_bind, hvalue, hbus, BusM.run_pure, hfirst, hv, Exchange.Returned,
      and_self]
  | word v =>
    have hfirst : r.sp + 1 = before.sp - 1 := by rw [hsp, size]; grind
    have hsecond : r.sp + 2 = before.sp := by rw [hsp, size]; grind
    have hhigh : Bus.peek bus (stackCell before.sp) = (v >>> 8).toUInt8 := hholds _ (.head _)
    have hlow : Bus.peek bus (stackCell (before.sp - 1)) = v.toUInt8 := hholds _ (.tail _ (.head _))
    simp only [pull, BusM.run_bind, hword, hbus', BusM.run_pure, hfirst, hsecond, hhigh, hlow,
      wordOf_toUInt8, Exchange.Returned, and_self]
  | accumulator =>
    have hfirst : r.sp + 1 = before.sp := by rw [hsp, size]; grind
    have hv : Bus.peek bus (stackCell before.sp) = before.a := hholds _ (.head _)
    simp only [pull, Mnemonic.effect, Effect.perform, BusM.run_bind, hvalue, hbus, BusM.run_pure,
      hfirst, hv]
    exact ⟨trivial, rfl, rfl⟩
  -- The break flag is not kept, as it is not on the way out of an interrupt.
  | status =>
    have hfirst : r.sp + 1 = before.sp := by rw [hsp, size]; grind
    have hv : Bus.peek bus (stackCell before.sp) = pushedStatus before.status true :=
      hholds _ (.head _)
    simp only [pull, Mnemonic.effect, Effect.perform, BusM.run_bind, hvalue, hbus, BusM.run_pure,
      hfirst, hv]
    exact ⟨trivial, rfl, restored_pushedStatus before.status⟩
  -- A return goes on behind the address that was pushed.
  | call site target =>
    have hfirst : r.sp + 1 = before.sp - 1 := by rw [hsp, size]; grind
    have hsecond : r.sp + 2 = before.sp := by rw [hsp, size]; grind
    have hhigh : Bus.peek bus (stackCell before.sp) = ((site + 2) >>> 8).toUInt8 :=
      hholds _ (.head _)
    have hlow : Bus.peek bus (stackCell (before.sp - 1)) = (site + 2).toUInt8 :=
      hholds _ (.tail _ (.head _))
    have hpc : site + 2 + 1 = site + 3 := by grind
    simp only [pull, Mnemonic.effect, Effect.perform, BusM.run_bind, hword, hbus', BusM.run_pure,
      hfirst, hsecond, hhigh, hlow, wordOf_toUInt8, hpc]
    exact ⟨trivial, rfl, rfl⟩

/-! ### Instructions -/

/-- The instructions that push and pull an item, if they are instructions. -/
def instructions? : Item → Option (Mnemonic × Mnemonic)
  | byte _ | word _ => none
  | accumulator => some (.pha, .pla)
  | status => some (.php, .plp)
  | call _ _ => some (.jsr, .rts)

section Tick

-- The opcode matrix is looked up in, and never evaluated.
attribute [local irreducible] OpcodeMatrix.entries

variable {cpu : Cpu} {bus : β} {i : Instruction} (hs : cpu.Starts)
  (hn : cpu.nextInterrupt? = none)
  (hi : Instruction.ofOpcode? (Bus.read bus cpu.registers.pc).1 = some i)

include hs hn hi

/-- A cycle that executes the instruction pushes the item; a call pushes it for its own address, and
for its operand as the target. -/
theorem tick_push {item : Item} {puller : Mnemonic}
    (hitem : item.instructions? = some (i.mnemonic, puller)) :
    let found := (i.mode.resolve BusM.readByte (cpu.registers.pc + 1) cpu.registers.x
      cpu.registers.y).run (Bus.read bus cpu.registers.pc).2
    let next := cpu.ready.jumpTo (cpu.registers.pc + UInt16.ofNat i.length)
    (∀ site target, item = .call site target →
      site = cpu.registers.pc ∧ found.value.address = some target) →
    (cpu.tick.run bus).value.cpu.registers = ((item.push next).run found.bus).value ∧
      (cpu.tick.run bus).bus = ((item.push next).run found.bus).bus := by
  intro found next hcall
  -- Only the call uses its operand, and it has only one mode.
  have hmode := OpcodeMatrix.jsr_mode i (OpcodeMatrix.mem_documented hi)
  rw [Cpu.run_tick_of_documented hs.1 hs.2 hn hi, i.add_length]
  obtain ⟨opcode, m, mode, cycles⟩ := i
  cases item with
  | byte v | word v => exact absurd hitem nofun
  | accumulator | status =>
    cases hitem
    exact ⟨rfl, rfl⟩
  | call site target =>
    cases hitem
    obtain ⟨rfl, htarget⟩ := hcall site target rfl
    obtain rfl : mode = .absolute := hmode rfl
    have hperform : ∀ r : Registers, Mnemonic.jsr.effect.perform found.value r =
        Mnemonic.jsr.effect.perform (.plain .absolute target) r := fun r => by
      simp only [Mnemonic.effect, Effect.perform, Operand.jump, htarget, Operand.plain]
    dsimp only
    rw [hperform]
    exact ⟨rfl, rfl⟩

/-- A cycle that executes the instruction pulls the item. -/
theorem tick_pull {item : Item} {pusher : Mnemonic}
    (hitem : item.instructions? = some (pusher, i.mnemonic)) :
    let found := (i.mode.resolve BusM.readByte (cpu.registers.pc + 1) cpu.registers.x
      cpu.registers.y).run (Bus.read bus cpu.registers.pc).2
    let next := cpu.ready.jumpTo (cpu.registers.pc + UInt16.ofNat i.length)
    (cpu.tick.run bus).value.cpu.registers = ((item.pull next).run found.bus).value.2 ∧
      (cpu.tick.run bus).bus = ((item.pull next).run found.bus).bus := by
  rw [Cpu.run_tick_of_documented hs.1 hs.2 hn hi, i.add_length]
  obtain ⟨opcode, m, mode, cycles⟩ := i
  cases item with
  | byte v | word v => exact absurd hitem nofun
  | accumulator | status | call site target =>
    cases hitem
    exact ⟨rfl, rfl⟩

end Tick

/-! ### Where a push stores -/

/-- The cells of an item, counted from the first one in the direction in which the stack grows. -/
theorem exists_of_mem_stored {item : Item} {r : Registers} {p : UInt16 × UInt8}
    (hp : p ∈ item.stored r) : ∃ i < item.size, p.1 = stackCell (r.sp - UInt8.ofNat i) := by
  have hzero : r.sp - UInt8.ofNat 0 = r.sp := UInt8.sub_zero _
  cases item with
  | byte v | accumulator | status =>
    rw [stored, List.mem_singleton] at hp
    exact ⟨0, Nat.one_pos, by rw [hp, hzero]⟩
  | word v | call site target =>
    simp only [stored, List.mem_cons, List.not_mem_nil, or_false] at hp
    rcases hp with rfl | rfl
    · exact ⟨0, Nat.two_pos, by rw [hzero]⟩
    · exact ⟨1, Nat.one_lt_two, rfl⟩

variable (hram : Bus.StackIsRam β) (item : Item) (r : Registers) (bus : β)

include hram

/-- The bytes that were stored lie there. -/
theorem holds_stored : Bus.Holds (Bus.store bus (item.stored r)) (item.stored r) := by
  obtain ⟨hne, -⟩ := stack_cells_ne r.sp
  cases item with
  | byte v | accumulator | status =>
    intro p hp
    rw [stored, List.mem_singleton] at hp
    rw [hp]
    exact (hram.peek_write bus r.sp r.sp _).trans (if_pos rfl)
  | word v | call site target =>
    intro p hp
    simp only [stored, List.mem_cons, List.not_mem_nil, or_false] at hp
    simp only [stored, Bus.store, List.foldl_cons, List.foldl_nil]
    rcases hp with rfl | rfl
    · -- The second byte is stored in another cell, so the first is still there.
      rw [hram.peek_write, if_neg hne.symm, hram.peek_write, if_pos rfl]
    · rw [hram.peek_write, if_pos rfl]

/-- All other bytes of page one are as they were. -/
theorem peek_store_stored {other : UInt8} (h : item.size ≤ (r.sp - other).toNat) :
    Bus.peek (Bus.store bus (item.stored r)) (stackCell other) =
      Bus.peek bus (stackCell other) := by
  -- A cell as far away as the item is long is none of the item.
  have hfirst : (r.sp - r.sp).toNat = 0 := by rw [UInt8.sub_self]; rfl
  have hsecond : (r.sp - (r.sp - 1)).toNat = 1 := by
    have hone : r.sp - (r.sp - 1) = 1 := by grind
    rw [hone]
    rfl
  cases item with
  | byte v | accumulator | status =>
    have hne : other ≠ r.sp := by
      rintro rfl
      rw [hfirst] at h
      exact Nat.not_succ_le_zero _ h
    exact (hram.peek_write bus r.sp other _).trans (if_neg hne)
  | word v | call site target =>
    have hne : other ≠ r.sp := by
      rintro rfl
      rw [hfirst] at h
      exact Nat.not_succ_le_zero _ h
    have hne' : other ≠ r.sp - 1 := by
      rintro rfl
      rw [hsecond] at h
      exact Nat.not_succ_le_self 1 h
    simp only [stored, Bus.store, List.foldl_cons, List.foldl_nil]
    rw [hram.peek_write, if_neg hne', hram.peek_write, if_neg hne]

end Item

/-! ### Sessions on the ring -/

/-- Distances from a stack pointer that was moved, around the ring. -/
theorem toNat_moved_sub (sp other : UInt8) {k : Nat} (hk : k < 256) :
    (sp - UInt8.ofNat k - other).toNat = ((sp - other).toNat + (256 - k)) % 256 := by
  have hsp := sp.toNat_lt
  have hother := other.toNat_lt
  have hofNat : (UInt8.ofNat k).toNat = k := UInt8.toNat_ofNat_of_lt' hk
  rw [UInt8.toNat_sub, UInt8.toNat_sub, UInt8.toNat_sub, hofNat]
  omega

theorem toNat_sub_moved (sp : UInt8) {i : Nat} (hi : i < 256) :
    (sp - (sp - UInt8.ofNat i)).toNat = i := by
  have hofNat : (UInt8.ofNat i).toNat = i := UInt8.toNat_ofNat_of_lt' hi
  have hcancel : sp - (sp - UInt8.ofNat i) = UInt8.ofNat i := by grind
  rw [hcancel, hofNat]

theorem Item.size_le (item : Item) : item.size ≤ 2 := by
  cases item <;> simp [size]

namespace Session

variable {β : Type} [Bus β] (hram : Bus.StackIsRam β)

include hram

/-- **A session of pushes and pulls**: the stack pointer is where it was, every pull returned what
its push had stored, and of page one only the cells have changed that are at most as far from the
start as the session is deep. -/
theorem run_restores {s : Session} (hs : s.depth ≤ 256) (r : Registers) (bus : β) :
    let o := (s.run r).run bus
    o.value.1.sp = r.sp ∧ (∀ e ∈ o.value.2, e.Returned) ∧
      ∀ other, s.depth ≤ (r.sp - other).toNat →
        Bus.peek o.bus (stackCell other) = Bus.peek bus (stackCell other) := by
  induction s generalizing r bus with
  | done => exact ⟨rfl, fun e he => absurd he List.not_mem_nil, fun _ _ => rfl⟩
  | change f hf rest ih =>
    have hrest := ih hs (f r) bus
    rw [hf] at hrest
    exact hrest
  | bracket item body rest ihbody ihrest =>
    have hdepth : item.size + body.depth ≤ 256 := (Nat.max_le.1 hs).1
    have hsize := item.size_le
    obtain ⟨hpushbus, hpushsp⟩ := item.run_push r bus
    simp only [run, BusM.run_bind, BusM.run_pure]
    set pushed := (item.push r).run bus
    obtain ⟨hbodysp, hbody, hbodykept⟩ := ihbody (by omega) pushed.value pushed.bus
    set inner := (body.run pushed.value).run pushed.bus
    -- The body does not reach around the ring to the item.
    have hholds : Bus.Holds inner.bus (item.stored r) := by
      intro p hp
      obtain ⟨i, hi, hcell⟩ := Item.exists_of_mem_stored hp
      have hfar : body.depth ≤ (pushed.value.sp - (r.sp - UInt8.ofNat i)).toNat := by
        rw [hpushsp, toNat_moved_sub _ _ (by omega), toNat_sub_moved _ (by omega)]
        omega
      rw [hcell, hbodykept _ hfar, ← hcell, hpushbus]
      exact Item.holds_stored hram item r bus p hp
    obtain ⟨hpullbus, hpullsp, hreturned⟩ :=
      Item.run_pull hram (hbodysp.trans hpushsp) hholds
    set pulled := (item.pull inner.value.1).run inner.bus
    obtain ⟨hrestsp, hrest, hrestkept⟩ :=
      ihrest (Nat.max_le.1 hs).2 pulled.value.2 pulled.bus
    refine ⟨hrestsp.trans hpullsp, ?_, ?_⟩
    · intro e he
      rcases List.mem_append.1 he with he | he
      · exact hbody e he
      · rcases List.mem_cons.1 he with rfl | he
        · exact hreturned
        · exact hrest e he
    · intro other hother
      obtain ⟨hbracket, hafter⟩ := Nat.max_le.1 hother
      have hfar : body.depth ≤ (pushed.value.sp - other).toNat := by
        have hlt := (r.sp - other).toNat_lt
        rw [hpushsp, toNat_moved_sub _ _ (by omega)]
        omega
      rw [hrestkept other (by rwa [hpullsp]), hpullbus, hbodykept other hfar, hpushbus,
        Item.peek_store_stored hram item r bus (by omega)]

end Session

/-! ### No byte outside page one -/

/-- The address lies in page one. -/
def InPage (addr : UInt16) : Prop := 0x0100 ≤ addr ∧ addr ≤ 0x01FF

/-- The cells of the stack are page one. -/
theorem inPage_iff {addr : UInt16} : InPage addr ↔ ∃ sp, addr = stackCell sp := by
  have hlow : (0x0100 : UInt16).toNat = 256 := rfl
  have hhigh : (0x01FF : UInt16).toNat = 511 := rfl
  rw [InPage, UInt16.le_iff_toNat_le, UInt16.le_iff_toNat_le, hlow, hhigh]
  constructor
  · rintro ⟨hle, hge⟩
    refine ⟨addr.toUInt8, ?_⟩
    rw [← UInt16.toNat_inj, toNat_stackCell, UInt16.toNat_toUInt8]
    omega
  · rintro ⟨sp, rfl⟩
    have hsp := sp.toNat_lt
    rw [toNat_stackCell]
    omega

/-- An activity reads or writes nothing outside page one. -/
def OnStack : Activity → Prop
  | .read addr _ | .write addr _ => InPage addr
  | .event _ => True

section Accesses

variable {β : Type} [Bus β] (r : Registers) (bus : β)

theorem Item.onStack_push (item : Item) : ∀ a ∈ (item.push r).path bus, OnStack a := by
  have hpath : (item.push r).path bus = (item.stored r).map fun p => .write p.1 p.2 := by
    cases item with
    | byte v | word v | accumulator => rfl
    | status =>
      rw [stored, ← Registers.statusToPush_eq]
      rfl
    | call site target =>
      have hpc : site + 3 - 1 = site + 2 := by grind
      rw [stored, ← hpc]
      rfl
  intro a ha
  rw [hpath] at ha
  obtain ⟨p, hp, rfl⟩ := List.mem_map.1 ha
  obtain ⟨i, -, hcell⟩ := exists_of_mem_stored hp
  show InPage p.1
  rw [hcell]
  exact inPage_iff.2 ⟨_, rfl⟩

theorem Item.onStack_pull (item : Item) : ∀ a ∈ (item.pull r).path bus, OnStack a := by
  obtain ⟨cells, hpath⟩ : ∃ cells : List (UInt8 × UInt8),
      (item.pull r).path bus = cells.map fun p => .read (stackCell p.1) p.2 := by
    cases item with
    | byte v | accumulator | status => exact ⟨[(r.sp + 1, _)], rfl⟩
    | word v | call site target => exact ⟨[(r.sp + 1, _), (r.sp + 1 + 1, _)], rfl⟩
  intro a ha
  rw [hpath] at ha
  obtain ⟨p, -, rfl⟩ := List.mem_map.1 ha
  exact inPage_iff.2 ⟨p.1, rfl⟩

/-- **A session touches page one only.** -/
theorem Session.onStack_run (s : Session) : ∀ a ∈ (s.run r).path bus, OnStack a := by
  induction s generalizing r bus with
  | done => exact fun a ha => absurd ha List.not_mem_nil
  | change f hf rest ih => exact ih (f r) bus
  | bracket item body rest ihbody ihrest =>
    intro a ha
    simp only [run, BusM.path_bind, List.mem_append] at ha
    rcases ha with ha | ha | ha | ha | ha
    · exact item.onStack_push r bus a ha
    · exact ihbody _ _ a ha
    · exact item.onStack_pull _ _ a ha
    · exact ihrest _ _ a ha
    · exact absurd ha List.not_mem_nil

end Accesses

/-! ### The discipline -/

/-- The items of a session, in the order in which they are pulled. -/
def Session.items : Session → List Item
  | done => []
  | change _ _ rest => rest.items
  | bracket item body rest => body.items ++ item :: rest.items

theorem Session.items_run {β : Type} [Bus β] (s : Session) (r : Registers) (bus : β) :
    ((s.run r).run bus).value.2.map Exchange.item = s.items := by
  induction s generalizing r bus with
  | done => rfl
  | change f hf rest ih => exact ih (f r) bus
  | bracket item body rest ihbody ihrest =>
    simp only [run, BusM.run_bind, BusM.run_pure, List.map_append, List.map_cons, ihbody, ihrest,
      items]

/-- **Stack discipline.**  On any bus of which page one is memory, and wherever the stack pointer
is, a session of well-bracketed pushes and pulls that is nowhere deeper than 256 bytes

* leaves the stack pointer where it was;
* pulls every item that it has pushed, and every pull returns what its push stored: a byte, a word,
  the accumulator, the status without the break flag, and the address behind the call;
* reads and writes page one only, so that in memory no byte outside it changes. -/
theorem session_discipline {β : Type} [Bus β] (hram : Bus.StackIsRam β) {s : Session}
    (hs : s.depth ≤ 256) (r : Registers) (bus : β) :
    let o := (s.run r).run bus
    o.value.1.sp = r.sp ∧
    o.value.2.map Exchange.item = s.items ∧
    (∀ e ∈ o.value.2, e.Returned) ∧
    (∀ a ∈ o.accesses, OnStack a) ∧
    ∀ {P : UInt16 → Prop}, Bus.RamAt β P → (∀ sp, P (stackCell sp)) → ∀ {addr}, P addr →
      ¬InPage addr → Bus.peek o.bus addr = Bus.peek bus addr := by
  intro o
  obtain ⟨hsp, hreturned, -⟩ := s.run_restores hram hs r bus
  have honstack := s.onStack_run r bus
  refine ⟨hsp, s.items_run r bus, hreturned,
    (BusM.forall_accesses_iff fun _ => trivial).2 honstack, ?_⟩
  intro P hmem hstack addr haddr hout
  refine hmem.peek_run haddr fun other v hwrite => ?_
  have hpage : InPage other := honstack _ hwrite
  obtain ⟨sp, rfl⟩ := inPage_iff.1 hpage
  refine ⟨hstack sp, ?_⟩
  rintro rfl
  exact hout hpage

/-- A session as deep as the ring: a call from the end of memory, the status, and words. -/
def deepest : Session :=
  .bracket (.call 0xFFFD 0x1234)
    (.bracket .status (.bracket .accumulator
      ((List.range 126).foldr (fun n body => .bracket (.word (UInt16.ofNat n)) body .done) .done)
      .done) .done) .done

/-- The deepest session with the stack pointer at the lowest cell; the call returns to the address
zero. -/
theorem session_discipline_of_deepest :
    let r : Registers := { sp := 0 }
    let o := (deepest.run r).run (FlatMemory.filled 0)
    (Bus.StackIsRam FlatMemory ∧ deepest.depth = 256) ∧
    o.value.1.sp = 0 ∧ ∃ e ∈ o.value.2, e.item = .call 0xFFFD 0x1234 ∧ e.after.pc = 0 := by
  have hdepth : deepest.depth = 256 := by decide +kernel
  obtain ⟨hsp, hitems, hreturned, -⟩ := session_discipline FlatMemory.stackIsRam
    (Nat.le_of_eq hdepth) { sp := 0 } (FlatMemory.filled 0)
  have hmem : Item.call 0xFFFD 0x1234 ∈ deepest.items := List.mem_append_right _ (.head _)
  rw [← hitems] at hmem
  obtain ⟨e, he, hitem⟩ := List.mem_map.1 hmem
  have hpc := hreturned e he
  rw [Exchange.Returned, hitem] at hpc
  exact ⟨⟨FlatMemory.stackIsRam, hdepth⟩, hsp, e, he, hitem, hpc⟩

end Stack

end Nes
