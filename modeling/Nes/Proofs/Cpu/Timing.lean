import Nes.Bus.Flat
import Nes.Proofs.Cpu.EffectPath
import Nes.Proofs.Cpu.OperandPath
import Nes.Proofs.Cpu.Tick
import Nes.Proofs.Cpu.Timetable

/-!
# How long instructions take

An instruction starts in the cycle in which it is executed and ends when the processor could start
the next one.  The number of cycles in between is put together from three sources: the opcode
matrix, the resolver of operands, which notes crossed pages, and the operation, which decides
whether that matters and adds what a branch costs.

Here the time is stated as a handbook has it, from the timetable and from the bytes that the
instruction itself reads, and it is shown that every instruction and every interrupt entry takes
that time, wherever its bytes lie and on every bus.

## Main definitions

* `Cpu.Takes cpu bus n`: what the processor starts now is complete after `n` cycles.
* `AddressingMode.leavesPage`, `branchTime`: when there is extra time.
* `Cpu.expectedTime?`: the time of what the processor starts now.

## Main statements

* `Cpu.takes_of_tick`: what the first cycle notes decides the time.
* `Cpu.cyclesLeft_tick_le`: no cycle leaves more than six.
* `Cpu.takes_expectedTime`: everything takes its time.
-/

namespace Nes

/-! ### The time in cycles -/

namespace Cpu

variable {β : Type} [Bus β]

/-- What the processor starts now is complete after `n` cycles and not before, and each of these
cycles succeeds. -/
structure Takes (cpu : Cpu) (bus : β) (n : Nat) : Prop where
  /-- It takes time. -/
  pos : 0 < n
  /-- The cycles succeed. -/
  succeeds : ∀ m < n, ((ticks m cpu >>= tick).run bus).value.result = .ok ()
  /-- In between, nothing else could be started. -/
  busy : ∀ m, 0 < m → m < n → ((ticks m cpu).run bus).value.atBoundary = false
  /-- At the end, something else could be started. -/
  finished : ((ticks n cpu).run bus).value.atBoundary = true

/-- After its first cycle, what the processor has started only counts down. -/
theorem value_ticks_succ {cpu cpu' : Cpu} {bus : β}
    (ho : (cpu.tick.run bus).value = ⟨cpu', .ok ()⟩) (hh : cpu'.halted = none) {k : Nat}
    (hk : k ≤ cpu'.cyclesLeft) : ((ticks (k + 1) cpu).run bus).value =
      { cpu' with cyclesLeft := cpu'.cyclesLeft - k, totalCycles := cpu'.totalCycles + k } := by
  rw [ticks, BusM.run_bind]
  dsimp only
  rw [ho, run_ticks_of_busy hh hk]

/-- What the first cycle notes decides the time. -/
theorem takes_of_tick {cpu cpu' : Cpu} {bus : β} {n : Nat}
    (ho : (cpu.tick.run bus).value = ⟨cpu', .ok ()⟩) (hh : cpu'.halted = none)
    (hn : cpu'.cyclesLeft + 1 = n) : cpu.Takes bus n := by
  subst hn
  -- The first cycle starts something, and all that follow count down.
  refine ⟨Nat.succ_pos _, ?_, ?_, ?_⟩
  · intro m hm
    cases m with
    | zero =>
      show (cpu.tick.run bus).value.result = .ok ()
      rw [ho]
    | succ m =>
      have hbusy : cpu'.cyclesLeft - m ≠ 0 := by omega
      rw [BusM.run_bind]
      dsimp only
      rw [value_ticks_succ ho hh (by omega), tick_of_busy (by exact hh) (by exact hbusy)]
      rfl
  · intro m hpos hm
    cases m with
    | zero => exact absurd hpos (Nat.lt_irrefl 0)
    | succ m =>
      rw [value_ticks_succ ho hh (by omega), atBoundary, beq_eq_false_iff_ne]
      show cpu'.cyclesLeft - m ≠ 0
      omega
  · rw [value_ticks_succ ho hh (Nat.le_refl _), atBoundary, beq_iff_eq]
    exact Nat.sub_self _

end Cpu

/-! ### Branches -/

/-- The flags allow a branch. -/
def Mnemonic.branchTaken (m : Mnemonic) (r : Registers) : Bool :=
  match m with
  | bcc => !r.isSet Flag.carry
  | bcs => r.isSet Flag.carry
  | bne => !r.isSet Flag.zero
  | beq => r.isSet Flag.zero
  | bpl => !r.isSet Flag.negative
  | bmi => r.isSet Flag.negative
  | bvc => !r.isSet Flag.overflow
  | bvs => r.isSet Flag.overflow
  | _ => false

theorem Mnemonic.branchTaken_eq_false {m : Mnemonic} (h : m ∉ branches) (r : Registers) :
    m.branchTaken r = false := by
  cases m
  case bcc | bcs | bne | beq | bpl | bmi | bvc | bvs => exact absurd (by decide) h
  all_goals rfl

theorem Mnemonic.mem_branches_of_taken {m : Mnemonic} {r : Registers}
    (h : m.branchTaken r = true) : m ∈ branches := by
  apply Decidable.byContradiction
  intro hb
  rw [branchTaken_eq_false hb] at h
  exact Bool.false_ne_true h

/-- What a branch that is taken costs: one cycle if the target is on the page of the following
instruction, and two if it is not.  The branch is at the address `pc`. -/
def branchTime (pc : UInt16) (distance : UInt8) : Nat :=
  let next : Int := pc.toNat + 2
  if (next + distance.toInt8.toInt) % 65536 / 256 = next % 65536 / 256 then 1 else 2

theorem branchTime_eq (pc : UInt16) (distance : UInt8) :
    branchTime pc distance =
      if pagesDiffer (pc + 1 + 1 + signedOffset distance) (pc + 1 + 1) then 2 else 1 := by
  have htarget := toNat_add_signedOffset (pc + 1 + 1) distance
  have hnext : (pc + 1 + 1).toNat = (pc.toNat + 2) % 65536 := by
    have hpc : pc + 1 + 1 = pc + 2 := by grind
    rw [hpc, UInt16.toNat_add]
    rfl
  rw [hnext] at htarget
  have hiff : (pagesDiffer (pc + 1 + 1 + signedOffset distance) (pc + 1 + 1) = true) ↔
      ¬((pc.toNat + 2 : Int) + distance.toInt8.toInt) % 65536 / 256 =
        (pc.toNat + 2 : Int) % 65536 / 256 := by
    rw [pagesDiffer_eq, bne_iff_ne, hnext]
    omega
  unfold branchTime
  by_cases h : ((pc.toNat + 2 : Int) + distance.toInt8.toInt) % 65536 / 256 =
      (pc.toNat + 2 : Int) % 65536 / 256
  · rw [if_pos h, if_neg (fun hp => hiff.1 hp h)]
  · rw [if_neg h, if_pos (hiff.2 h)]

theorem Operand.branch_snd {op : Operand} {target : UInt16} (h : op.address = some target)
    (r : Registers) (mask : UInt8) (value : Bool) : (op.branch r mask value).2 =
      if r.isSet mask == value then (if pagesDiffer target r.pc then 2 else 1) else 0 := by
  unfold branch
  rw [h]
  cases r.isSet mask <;> cases value <;> rfl

/-- What an operation adds to the cost of the instruction, in terms of its kind. -/
theorem Mnemonic.extra_eq {m : Mnemonic} {op : Operand} {r r' : Registers} {t : List Activity}
    {extra : Nat} (target : UInt16) (h : Effect.Performs op r m.effect t r' extra)
    (ht : m ∈ branches → op.address = some target) : extra =
      if m ∈ readers then (if m ∈ probers then 0 else op.penalty)
      else if m.branchTaken r then (if pagesDiffer target r.pc then 2 else 1)
      else 0 := by
  cases m
  case bcc | bcs | bne | beq | bpl | bmi | bvc | bvs =>
    cases h
    rw [Operand.branch_snd (ht (by decide)), branchTaken]
    generalize r.isSet _ = set
    cases set <;> rfl
  all_goals
    cases h
    rfl

/-! ### Crossed pages -/

section ExtraTime

variable {β : Type} [Bus β]

/-- The word whose bytes are at two addresses, as two reads in a row give it. -/
def Bus.wordAt (bus : β) (low high : UInt16) : UInt16 :=
  wordOf (Bus.read bus low).1 (Bus.read (Bus.read bus low).2 high).1

/-- Adding an index to a base address leads to another page. -/
def indexLeavesPage (base : UInt16) (index : UInt8) : Bool :=
  base.toNat / 256 != (base.toNat + index.toNat) % 65536 / 256

/-- The operand of an instruction at the program counter lies on another page than the address to
which its mode adds an index.  The opcode has been read, and the bus has yet to give the operand
bytes. -/
def AddressingMode.leavesPage (mode : AddressingMode) (r : Registers) (bus : β) : Bool :=
  match mode with
  | absoluteX => indexLeavesPage (Bus.wordAt bus (r.pc + 1) (r.pc + 2)) r.x
  | absoluteY => indexLeavesPage (Bus.wordAt bus (r.pc + 1) (r.pc + 2)) r.y
  | indirectY =>
    let cell := Bus.read bus (r.pc + 1)
    indexLeavesPage (Bus.wordAt cell.2 cell.1.toUInt16 (cell.1 + 1).toUInt16) r.y
  | _ => false

theorem AddressingMode.leavesPage_eq_false {mode : AddressingMode}
    (hm : mode ∉ [absoluteX, absoluteY, indirectY]) (r : Registers) (bus : β) :
    mode.leavesPage r bus = false := by
  cases mode
  case absoluteX | absoluteY | indirectY => exact absurd (by decide) hm
  all_goals rfl

theorem Operand.pageCrossed_indexed (mode : AddressingMode) (base : UInt16) (index : UInt8) :
    (indexed mode base index).pageCrossed = indexLeavesPage base index := by
  show pagesDiffer base (base + index.toUInt16) = indexLeavesPage base index
  rw [pagesDiffer_eq, UInt16.toNat_add, UInt8.toNat_toUInt16, indexLeavesPage]

/-- The resolver notes a crossed page exactly if there is one. -/
theorem AddressingMode.Finds.pageCrossed_eq {r : Registers} {mode : AddressingMode}
    {t : List Activity} {op : Operand} {bus bus' : β} (h : Finds (r.pc + 1) r.x r.y mode t op)
    (hl : Bus.Leads bus t bus') : op.pageCrossed = mode.leavesPage r bus := by
  have hnext : r.pc + 1 + 1 = r.pc + 2 := by grind
  cases h with
  | absoluteX low high =>
    obtain ⟨rfl, rfl, -⟩ := hl
    rw [Operand.pageCrossed_indexed, leavesPage, Bus.wordAt, hnext]
  | absoluteY low high =>
    obtain ⟨rfl, rfl, -⟩ := hl
    rw [Operand.pageCrossed_indexed, leavesPage, Bus.wordAt, hnext]
  | indirectY cell low high =>
    obtain ⟨rfl, rfl, rfl, -⟩ := hl
    rw [Operand.pageCrossed_indexed, leavesPage, Bus.wordAt]
  | _ => rfl

/-! ### The time of everything -/

/-- What an instruction at the program counter takes beyond the time in the timetable. -/
def Instruction.extraTime (i : Instruction) (r : Registers) (bus : β) : Nat :=
  if i.mnemonic ∈ Mnemonic.readers then (i.mode.leavesPage r bus).toNat
  else if i.mnemonic.branchTaken r then branchTime r.pc (Bus.read bus (r.pc + 1)).1
  else 0

namespace Cpu

/-- The time of what the processor starts now: seven cycles for entering an interrupt handler, and
otherwise the time of the instruction at the program counter, if it is in the timetable. -/
def expectedTime? (cpu : Cpu) (bus : β) : Option Nat :=
  if cpu.nextInterrupt?.isSome then some 7
  else
    let opcode := Bus.read bus cpu.registers.pc
    (Instruction.ofOpcode? opcode.1).bind fun i =>
      (i.mnemonic.baseTime? i.mode).map (· + i.extraTime cpu.registers opcode.2)

theorem branchTaken_ready (cpu : Cpu) (m : Mnemonic) (r : Registers)
    (hr : r.status = cpu.ready.status) : m.branchTaken r = m.branchTaken cpu.registers := by
  -- The four flags are not the one that is set at the start of a cycle.
  have hset : ∀ mask, Flag.unused &&& mask = 0 → r.isSet mask = cpu.registers.isSet mask := by
    intro mask hmask
    rw [← isSet_ready cpu hmask, Registers.isSet, Registers.isSet, hr]
  unfold Mnemonic.branchTaken
  rw [hset Flag.carry (by decide), hset Flag.zero (by decide), hset Flag.negative (by decide),
    hset Flag.overflow (by decide)]

/-- The resolver and the operation together find the extra time. -/
theorem extra_eq_extraTime {cpu : Cpu} {i : Instruction} {found acts : List Activity}
    {op : Operand} {r' : Registers} {extra : Nat} {bus bus' : β}
    (hi : i ∈ OpcodeMatrix.documented)
    (hop : i.mode.Finds (cpu.registers.pc + 1) cpu.registers.x cpu.registers.y found op)
    (hl : Bus.Leads bus found bus')
    (hact : i.mnemonic.effect.Performs op
      (cpu.ready.jumpTo (cpu.registers.pc + 1 + UInt16.ofNat i.mode.operandLength)) acts r' extra) :
    extra = i.extraTime cpu.registers bus := by
  have htaken := cpu.branchTaken_ready i.mnemonic (cpu.ready.jumpTo
    (cpu.registers.pc + 1 + UInt16.ofNat i.mode.operandLength)) rfl
  have hcrossed := hop.pageCrossed_eq (r := cpu.registers) hl
  by_cases hb : i.mnemonic ∈ Mnemonic.branches
  · -- A branch has a distance for its operand, and that is the only byte it reads.
    have hmode := OpcodeMatrix.branches_mode i hi hb
    have hread : i.mnemonic ∉ Mnemonic.readers := Mnemonic.not_mem_readers_of_branch hb
    rw [hmode] at hop hact htaken
    cases hop with
    | relative distance =>
      obtain ⟨rfl, -⟩ := hl
      rw [Mnemonic.extra_eq _ hact fun _ => rfl, if_neg hread, htaken, Instruction.extraTime,
        if_neg hread, branchTime_eq]
      rfl
  · -- Of the others, only those that read their operand can add something.
    rw [Mnemonic.extra_eq 0 hact fun h => absurd h hb, htaken,
      Mnemonic.branchTaken_eq_false hb, Instruction.extraTime, Mnemonic.branchTaken_eq_false hb]
    by_cases hread : i.mnemonic ∈ Mnemonic.readers
    · rw [if_pos hread, if_pos hread, ← hcrossed]
      by_cases hp : i.mnemonic ∈ Mnemonic.probers
      · rw [if_pos hp, hop.pageCrossed_eq_false (OpcodeMatrix.probers_mode i hi hp)]
        rfl
      · rw [if_neg hp]
        rfl
    · rw [if_neg hread, if_neg hread]
      rfl

/-- **Every instruction and every interrupt entry takes its time.** -/
theorem takes_expectedTime {cpu : Cpu} {bus : β} (hh : cpu.halted = none)
    (hc : cpu.cyclesLeft = 0)
    (hd : cpu.nextInterrupt?.isSome ∨
      (Instruction.ofOpcode? (Bus.read bus cpu.registers.pc).1).isSome) :
    ∃ n, cpu.expectedTime? bus = some n ∧ cpu.Takes bus n := by
  have htick := cpu.tickPath_run bus
  have hleads := BusM.leads_path cpu.tick bus
  generalize ho : (cpu.tick.run bus).value = o at htick
  generalize cpu.tick.path bus = t at htick hleads
  cases htick with
  | halted hh' => exact absurd (hh.symm.trans hh') (by simp)
  | countDown _ hc' => exact absurd hc hc'
  | nmi _ _ hn low high =>
    exact ⟨7, by rw [expectedTime?, hn]; rfl, takes_of_tick ho hh rfl⟩
  | irq _ _ hn low high =>
    exact ⟨7, by rw [expectedTime?, hn]; rfl, takes_of_tick ho hh rfl⟩
  | @executed _ _ hn opcode i hi found acts op r extra hop hact =>
    -- The opcode and what the resolver reads are the bytes that the bus gives.
    obtain ⟨hopcode, bus', hfound, -⟩ := hleads.imp_right Bus.leads_append.1
    have hmem := OpcodeMatrix.mem_documented hi
    have hextra := extra_eq_extraTime hmem (AddressingMode.finds_of_follows hop) hfound
      (Effect.performs_of_follows hact)
    have hmin := (OpcodeMatrix.cycles_bounds i hmem).1
    refine ⟨i.cycles + extra, ?_, takes_of_tick ho hh ?_⟩
    · rw [expectedTime?, hn, if_neg (by simp)]
      dsimp only
      rw [hopcode, hi, Option.bind_some, OpcodeMatrix.baseTime?_eq i hmem, hextra]
      rfl
    · show i.cycles + extra - 1 + 1 = i.cycles + extra
      omega
  -- An undocumented opcode starts nothing, which is excluded.
  | undocumented _ _ hn hi =>
    obtain ⟨hopcode, -⟩ := hleads
    rw [hn, hopcode, hi] at hd
    simp at hd

/-- A load at the last address, whose operand bytes lie at the beginning of the address space. -/
theorem takes_five_across_pages :
    let cpu : Cpu := { registers := { x := 0x50, pc := 0xFFFF } }
    let bus := FlatMemory.filled 0xBD
    cpu.halted = none ∧ cpu.cyclesLeft = 0 ∧
      (cpu.nextInterrupt?.isSome ∨
        (Instruction.ofOpcode? (Bus.read bus cpu.registers.pc).1).isSome) ∧
      cpu.expectedTime? bus = some 5 ∧ cpu.Takes bus 5 := by
  intro cpu bus
  have hread : ∀ addr, Bus.read bus addr = (0xBD, bus) := by
    intro addr
    exact Prod.ext (FlatMemory.get_filled 0xBD addr) rfl
  have hd : cpu.nextInterrupt?.isSome ∨
      (Instruction.ofOpcode? (Bus.read bus cpu.registers.pc).1).isSome := by
    rw [hread]
    exact .inr (by decide +kernel)
  -- All bytes are the same, so the pages of base and address can be computed.
  have htime : cpu.expectedTime? bus = some 5 := by
    have hi : Instruction.ofOpcode? 0xBD = some ⟨0xBD, .lda, .absoluteX, 4⟩ := by decide +kernel
    have hextra : Instruction.extraTime ⟨0xBD, .lda, .absoluteX, 4⟩ cpu.registers bus = 1 := by
      rw [Instruction.extraTime, if_pos (by decide), AddressingMode.leavesPage, Bus.wordAt]
      simp only [hread]
      decide +kernel
    rw [expectedTime?, if_neg (by decide)]
    simp only [hread]
    rw [hi, Option.bind_some, hextra]
    rfl
  have hh : cpu.halted = none := rfl
  have hc : cpu.cyclesLeft = 0 := rfl
  obtain ⟨n, hn, htakes⟩ := takes_expectedTime hh hc hd
  rw [htime] at hn
  cases hn
  exact ⟨hh, hc, hd, htime, htakes⟩

/-- The extra time fits: an instruction takes two to seven cycles. -/
theorem cycles_add_extraTime_le {i : Instruction} (hi : i ∈ OpcodeMatrix.documented)
    (r : Registers) (bus : β) : i.cycles + i.extraTime r bus ≤ 7 := by
  obtain ⟨-, hmax, hreader, hbranch⟩ := OpcodeMatrix.cycles_bounds i hi
  unfold Instruction.extraTime
  split
  · next hread =>
    by_cases hm : i.mode ∈ [AddressingMode.absoluteX, .absoluteY, .indirectY]
    · have hcycles := hreader hread hm
      have hone := Bool.toNat_le (i.mode.leavesPage r bus)
      omega
    · rw [AddressingMode.leavesPage_eq_false hm]
      exact hmax
  · split
    · next htaken =>
      have hcycles := hbranch (Mnemonic.mem_branches_of_taken htaken)
      have htwo : branchTime r.pc (Bus.read bus (r.pc + 1)).1 ≤ 2 := by
        unfold branchTime
        dsimp only
        split <;> omega
      omega
    · exact hmax

/-- **No cycle leaves more than six cycles of the instruction in flight.** -/
theorem cyclesLeft_tick_le {cpu : Cpu} (hc : cpu.cyclesLeft ≤ 6) (bus : β) :
    (cpu.tick.run bus).value.cpu.cyclesLeft ≤ 6 := by
  have htick := cpu.tickPath_run bus
  have hleads := BusM.leads_path cpu.tick bus
  generalize (cpu.tick.run bus).value = o at htick
  generalize cpu.tick.path bus = t at htick hleads
  cases htick with
  | halted => exact hc
  | countDown => exact Nat.le_trans (Nat.sub_le _ _) hc
  | nmi => exact Nat.le_refl 6
  | irq => exact Nat.le_refl 6
  | @executed _ _ hn opcode i hi found acts op r extra hop hact =>
    obtain ⟨-, bus', hfound, -⟩ := hleads.imp_right Bus.leads_append.1
    have hmem := OpcodeMatrix.mem_documented hi
    have hextra := extra_eq_extraTime hmem (AddressingMode.finds_of_follows hop) hfound
      (Effect.performs_of_follows hact)
    have hle := cycles_add_extraTime_le hmem cpu.registers (Bus.read bus cpu.registers.pc).2
    rw [← hextra] at hle
    show i.cycles + extra - 1 ≤ 6
    omega
  | undocumented => exact hc

end Cpu

end ExtraTime

end Nes
