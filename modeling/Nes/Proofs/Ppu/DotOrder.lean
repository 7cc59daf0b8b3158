import Nes.Proofs.Ppu.Session
import Nes.Proofs.Ppu.VblankHistory

/-!
# The order of dots and accesses

A dot moves the beam and may count a frame.  Two dots of a frame do more: where the vertical blank
begins and where it ends, the status register changes, and where it begins an interrupt is requested
if that is enabled.  An access to a register touches nothing of this, except that reading the status
register looks at it and changes it, and that the control register says whether the interrupt is
enabled.

So dots and accesses change places freely away from the two dots.  Across the dot with which the
vertical blank ends they do so if nobody looks at the status register, and across the one with which
it begins if besides nobody enables or disables the interrupt.  One exchange of neighbours is shown
first; from it, every order of dots and accesses is led to the one in which all accesses come first.

## Main definitions

* `Picture.SameEffect`: two lists of steps that leave the same and give the same bytes.
* `Picture.Apart`: dots and accesses that take no notice of each other.
* `Picture.Orders`: the orders in which dots and accesses may come.

## Main statements

* `Picture.SameEffect.swap`: a dot and an access change places.
* `Picture.sameEffect_sorted`: the accesses may as well come first.
* `Picture.order_of_dots_irrelevant`: all orders have the same effect, in three cases.
-/

namespace Nes

/-! ### A dot before an access -/

namespace Ppu

variable {p : Ppu} (cart : Cartridge)

/-- A dot that is none of the two of the vertical blank only moves on. -/
theorem dot_of_quiet (henter : p.beam ≠ ⟨241, 1⟩) (hleave : p.beam ≠ ⟨-1, 1⟩) : p.dot =
    { p with
      frameComplete := p.frameComplete || p.beam.endsFrame
      frameCount := p.frameCount + p.beam.endsFrame.toNat
      beam := p.beam.advance } := by
  have henters : p.beam.entersVblank = false :=
    Bool.eq_false_iff.2 (mt Beam.entersVblank_iff.1 henter)
  have hleaves : p.beam.leavesVblank = false :=
    Bool.eq_false_iff.2 (mt Beam.leavesVblank_iff.1 hleave)
  rw [dot, statusAfterDot, raisesNmi, henters, hleaves, Bool.false_and, Bool.or_false]
  rfl

/-- A read of a register may as well come before a dot, unless it is the status register and the dot
changes that. -/
theorem readRegister_dot {r : Register}
    (hr : r = .status → p.beam ≠ ⟨241, 1⟩ ∧ p.beam ≠ ⟨-1, 1⟩) :
    p.dot.readRegister cart r = ((p.readRegister cart r).1, (p.readRegister cart r).2.dot) := by
  cases r with
  | status =>
    obtain ⟨henter, hleave⟩ := hr rfl
    have hafter := dot_of_quiet (p := (p.readRegister cart .status).2) henter hleave
    rw [hafter, dot_of_quiet henter hleave]
    rfl
  | _ => rfl

theorem peekRegister_dot {r : Register}
    (hr : r = .status → p.beam ≠ ⟨241, 1⟩ ∧ p.beam ≠ ⟨-1, 1⟩) :
    p.dot.peekRegister cart r = p.peekRegister cart r := by
  cases r with
  | status =>
    obtain ⟨henter, hleave⟩ := hr rfl
    rw [dot_of_quiet henter hleave]
    rfl
  | _ => rfl

theorem writeVideo_dot (addr : UInt16) (value : UInt8) :
    p.dot.writeVideo cart addr value =
      ((p.writeVideo cart addr value).1.dot, (p.writeVideo cart addr value).2) := by
  obtain ⟨store, cart', h⟩ := exists_writeVideo_eq cart addr value
  rw [h, h]
  rfl

/-- A write to a register may as well come before a dot, if it does not change whether the dot
requests an interrupt. -/
theorem writeRegister_dot {r : Register} (value : UInt8)
    (hr : r = .control → p.beam = ⟨241, 1⟩ → Control.nmiEnabled ⟨value⟩ = p.control.nmiEnabled) :
    p.dot.writeRegister cart r value =
      ((p.writeRegister cart r value).1.dot, (p.writeRegister cart r value).2) := by
  cases r with
  | control =>
    -- Either the dot does not begin the vertical blank, or the switch is left as it is.
    have hraises : raisesNmi { p with control := ⟨value⟩ } = p.raisesNmi := by
      unfold raisesNmi
      cases henters : p.beam.entersVblank with
      | false => rfl
      | true => rw [hr rfl (Beam.entersVblank_iff.1 henters)]
    show (({ p.dot with control := ⟨value⟩ }, cart) : Ppu × Cartridge) =
      (dot { p with control := ⟨value⟩ }, cart)
    unfold dot
    rw [hraises]
    rfl
  | scroll =>
    show ((p.dot.writeScroll value, cart) : Ppu × Cartridge) = ((p.writeScroll value).dot, cart)
    rw [writeScroll_eq, writeScroll_eq]
    rfl
  | videoAddress =>
    show ((p.dot.writeAddress value, cart) : Ppu × Cartridge) = ((p.writeAddress value).dot, cart)
    rw [writeAddress_eq, writeAddress_eq]
    rfl
  | videoData =>
    have haddress : p.dot.videoAddress = p.videoAddress := rfl
    rw [writeRegister_videoData, haddress, writeVideo_dot, writeRegister_videoData]
    rfl
  | _ => rfl

/-- Writes set the control register through itself only. -/
theorem control_writeRegister {r : Register} (hr : r ≠ .control) (value : UInt8) :
    (p.writeRegister cart r value).1.control = p.control := by
  cases r with
  | control => exact absurd rfl hr
  | scroll =>
    show (p.writeScroll value).control = p.control
    rw [writeScroll_eq]
  | videoAddress =>
    show (p.writeAddress value).control = p.control
    rw [writeAddress_eq]
  | videoData =>
    obtain ⟨store, cart', h⟩ := exists_writeVideo_eq cart p.videoAddress value
    show (p.writeVideo cart p.videoAddress value).1.control = p.control
    rw [h]
  | _ => rfl

end Ppu

/-! ### Exchanging neighbours -/

namespace Picture

/-- The two lists of steps leave the same and give the same bytes. -/
def SameEffect (s : Picture) (l l' : List Step) : Prop :=
  s.stepAll l = s.stepAll l' ∧ s.answers l = s.answers l'

/-- The next `k` dots and the accesses of a list take no notice of each other: while one of them is
a dot of the vertical blank nobody looks at the status register, and while it is the one that may
request an interrupt nobody changes whether it does. -/
structure Apart (s : Picture) (k : Nat) (accesses : List Step) : Prop where
  status : ∀ i < k, s.ppu.beam.advanceBy i = ⟨241, 1⟩ ∨ s.ppu.beam.advanceBy i = ⟨-1, 1⟩ →
    .read .status ∉ accesses ∧ .peek .status ∉ accesses
  control : ∀ i < k, s.ppu.beam.advanceBy i = ⟨241, 1⟩ → ∀ value,
    .write .control value ∈ accesses → Ppu.Control.nmiEnabled ⟨value⟩ = s.ppu.control.nmiEnabled

variable {s : Picture} {k : Nat} {a : Step} {l l' accesses : List Step}

theorem SameEffect.refl (s : Picture) (l : List Step) : s.SameEffect l l := ⟨rfl, rfl⟩

theorem SameEffect.symm (h : s.SameEffect l l') : s.SameEffect l' l := ⟨h.1.symm, h.2.symm⟩

theorem SameEffect.trans {l'' : List Step} (h : s.SameEffect l l') (h' : s.SameEffect l' l'') :
    s.SameEffect l l'' :=
  ⟨h.1.trans h'.1, h.2.trans h'.2⟩

theorem SameEffect.cons (h : (s.step a).SameEffect l l') : s.SameEffect (a :: l) (a :: l') :=
  ⟨h.1, congrArg ((s.answer? a).toList ++ ·) h.2⟩

/-- An access leaves the beam alone. -/
theorem beam_step (s : Picture) (ha : a ≠ .dot) : (s.step a).ppu.beam = s.ppu.beam := by
  cases a with
  | dot => exact absurd rfl ha
  | read r => exact congrArg (·.1) (s.ppu.clockwork_readRegister s.cartridge r)
  | peek => rfl
  | write r value => exact congrArg (·.1) (s.ppu.clockwork_writeRegister s.cartridge r value)

/-- What a dot and an access leave, and what the access gives, does not depend on their order. -/
theorem step_dot_step (h : s.Apart 1 [a]) (ha : a ≠ .dot) :
    (s.step .dot).step a = (s.step a).step .dot ∧ (s.step .dot).answer? a = s.answer? a := by
  -- Whoever looks at the status register does so away from the two dots.
  have hquiet (hlooks : .read .status ∈ [a] ∨ .peek .status ∈ [a]) :
      s.ppu.beam ≠ ⟨241, 1⟩ ∧ s.ppu.beam ≠ ⟨-1, 1⟩ := by
    rw [ne_eq, ne_eq, ← not_or]
    intro hedge
    obtain ⟨hread, hpeek⟩ := h.status 0 Nat.one_pos hedge
    exact hlooks.elim hread hpeek
  cases a with
  | dot => exact absurd rfl ha
  | read r =>
    have hread := Ppu.readRegister_dot s.cartridge (r := r) fun hr =>
      hquiet (.inl (by rw [hr]; exact List.mem_singleton_self _))
    constructor
    · show Picture.mk (s.ppu.dot.readRegister s.cartridge r).2 s.cartridge = _
      rw [hread]
      rfl
    · show some (s.ppu.dot.readRegister s.cartridge r).1 = _
      rw [hread]
      rfl
  | peek r =>
    have hpeek := Ppu.peekRegister_dot s.cartridge (r := r) fun hr =>
      hquiet (.inr (by rw [hr]; exact List.mem_singleton_self _))
    exact ⟨rfl, congrArg some hpeek⟩
  | write r value =>
    have hwrite := Ppu.writeRegister_dot s.cartridge (r := r) value fun hr hbeam =>
      h.control 0 Nat.one_pos hbeam value (by rw [hr]; exact List.mem_singleton_self _)
    refine ⟨?_, rfl⟩
    show Picture.mk (s.ppu.dot.writeRegister s.cartridge r value).1
      (s.ppu.dot.writeRegister s.cartridge r value).2 = _
    rw [hwrite]
    rfl

/-- An access leaves it alone whether an interrupt is requested, unless it is a write that changes
that. -/
theorem nmiEnabled_step (ha : a ≠ .dot)
    (hvalue : ∀ value, a = .write .control value →
      Ppu.Control.nmiEnabled ⟨value⟩ = s.ppu.control.nmiEnabled) :
    (s.step a).ppu.control.nmiEnabled = s.ppu.control.nmiEnabled := by
  cases a with
  | dot => exact absurd rfl ha
  | read r => cases r <;> rfl
  | peek => rfl
  | write r value =>
    by_cases hr : r = .control
    · rw [hr]
      exact hvalue value (by rw [hr])
    · exact congrArg _ (Ppu.control_writeRegister s.cartridge hr value)

/-- **A dot and an access change places.** -/
theorem SameEffect.swap (h : s.Apart 1 [a]) (ha : a ≠ .dot) (l : List Step) :
    s.SameEffect (.dot :: a :: l) (a :: .dot :: l) := by
  obtain ⟨hstep, hanswer⟩ := step_dot_step h ha
  constructor
  · exact congrArg (·.stepAll l) hstep
  · show [] ++ (((s.step .dot).answer? a).toList ++ ((s.step .dot).step a).answers l) =
      (s.answer? a).toList ++ ([] ++ ((s.step a).step .dot).answers l)
    rw [hanswer, hstep, List.nil_append, List.nil_append]

/-! ### Sorting steps -/

/-- What is apart stays so with fewer dots and accesses. -/
theorem Apart.mono {k' : Nat} {accesses' : List Step} (h : s.Apart k accesses) (hk : k' ≤ k)
    (hsub : ∀ b ∈ accesses', b ∈ accesses) : s.Apart k' accesses' where
  status := fun i hi hedge =>
    let ⟨hread, hpeek⟩ := h.status i (Nat.lt_of_lt_of_le hi hk) hedge
    ⟨mt (hsub _) hread, mt (hsub _) hpeek⟩
  control := fun i hi hedge value hmem =>
    h.control i (Nat.lt_of_lt_of_le hi hk) hedge value (hsub _ hmem)

/-- It stays so after a dot. -/
theorem Apart.dot (h : s.Apart (k + 1) accesses) : (s.step .dot).Apart k accesses where
  status := fun i hi => h.status (i + 1) (Nat.succ_lt_succ hi)
  control := fun i hi => h.control (i + 1) (Nat.succ_lt_succ hi)

/-- It stays so after an access. -/
theorem Apart.access (h : s.Apart k (a :: accesses)) (ha : a ≠ .dot) :
    (s.step a).Apart k accesses where
  status := by
    rw [beam_step s ha]
    exact (h.mono (Nat.le_refl k) fun b => List.mem_cons_of_mem a).status
  control := by
    rw [beam_step s ha]
    intro i hi hedge value hmem
    have hvalue := h.control i hi hedge
    rw [hvalue value (List.mem_cons_of_mem a hmem), nmiEnabled_step ha]
    exact fun v hv => hvalue v (by rw [hv]; exact List.mem_cons_self ..)

/-- A dot moves past accesses. -/
theorem SameEffect.past (h : s.Apart 1 accesses) (hdot : .dot ∉ accesses) (l : List Step) :
    s.SameEffect (.dot :: (accesses ++ l)) (accesses ++ .dot :: l) := by
  -- The dot is moved past the accesses one by one.
  induction accesses generalizing s with
  | nil => exact .refl s _
  | cons a accesses ih =>
    rw [List.mem_cons, not_or] at hdot
    have ha : a ≠ .dot := Ne.symm hdot.1
    have hone : s.Apart 1 [a] := h.mono (Nat.le_refl 1) fun b hb => by
      rw [List.mem_singleton.1 hb]
      exact List.mem_cons_self ..
    exact (SameEffect.swap hone ha _).trans (ih (h.access ha) hdot.2).cons

/-- **The accesses may as well come first.** -/
theorem sameEffect_sorted {order : List Step}
    (h : s.Apart (order.count .dot) (order.filter (· != .dot))) :
    s.SameEffect order
      (order.filter (· != .dot) ++ List.replicate (order.count .dot) .dot) := by
  induction order generalizing s with
  | nil => exact .refl s []
  | cons a order ih =>
    -- A dot moves past all the accesses behind it, and an access stays where it is.
    by_cases ha : a = .dot
    · rw [ha] at h ⊢
      rw [List.count_cons_self, List.filter_cons_of_neg (by decide)] at h ⊢
      have hone := h.mono (Nat.le_add_left 1 _) fun b hb => hb
      rw [List.replicate_succ]
      exact (ih h.dot).cons.trans (SameEffect.past hone (by simp) _)
    · have hfilter : (a :: order).filter (· != .dot) = a :: order.filter (· != .dot) :=
        List.filter_cons_of_pos (bne_iff_ne.2 ha)
      rw [List.count_cons_of_ne ha, hfilter] at h ⊢
      exact (ih (h.access ha)).cons

/-- An order in which `k` dots and the accesses of a list may come: the accesses keep theirs. -/
def Orders (k : Nat) (accesses order : List Step) : Prop :=
  order.count .dot = k ∧ order.filter (· != .dot) = accesses

/-- Any two orders have the same effect. -/
theorem Apart.sameEffect (h : s.Apart k accesses) {order order' : List Step}
    (ho : Orders k accesses order) (ho' : Orders k accesses order') :
    s.SameEffect order order' := by
  obtain ⟨hcount, haccesses⟩ := ho
  obtain ⟨hcount', haccesses'⟩ := ho'
  -- Both orders have the effect of the sorted one.
  have hsort : s.SameEffect order (accesses ++ List.replicate k .dot) := by
    rw [← hcount, ← haccesses] at h ⊢
    exact sameEffect_sorted h
  have hsort' : s.SameEffect order' (accesses ++ List.replicate k .dot) := by
    rw [← hcount', ← haccesses'] at h ⊢
    exact sameEffect_sorted h
  exact hsort.trans hsort'.symm

/-- **Dots and accesses commute away from the two dots of the vertical blank.**  Let `k` dots and a
list of accesses to registers come in one order or another, all dots first, all accesses first, or
mixed in any way.

* If none of the dots is one with which the vertical blank begins or ends, all orders leave the same
  picture unit and the same cartridge and give the same bytes.
* If none is the one with which it begins, they still do if nobody reads or peeks at the status
  register.
* Whatever the dots are, they still do if besides no write to the control register changes whether
  an interrupt is requested. -/
theorem order_of_dots_irrelevant (s : Picture) (k : Nat) (accesses : List Step) :
    let beam := s.ppu.beam.advanceBy
    let unseen := .read .status ∉ accesses ∧ .peek .status ∉ accesses
    let alike := ∀ order order', Orders k accesses order → Orders k accesses order' →
      s.stepAll order = s.stepAll order' ∧ s.answers order = s.answers order'
    ((∀ i < k, beam i ≠ ⟨241, 1⟩ ∧ beam i ≠ ⟨-1, 1⟩) → alike) ∧
    ((∀ i < k, beam i ≠ ⟨241, 1⟩) → unseen → alike) ∧
    (unseen → (∀ value, .write .control value ∈ accesses →
      value &&& 0x80 = s.ppu.control.bits &&& 0x80) → alike) := by
  intro beam unseen alike
  refine ⟨fun hquiet order order' => ?_, fun hquiet hunseen order order' => ?_,
    fun hunseen hcontrol order order' => ?_⟩
  · -- None of the two dots comes.
    have h : s.Apart k accesses :=
      ⟨fun i hi hedge => absurd hedge (not_or.2 (hquiet i hi)),
        fun i hi hedge => absurd hedge (hquiet i hi).1⟩
    exact h.sameEffect
  · -- The first of them does not come, and nobody looks at the status.
    have h : s.Apart k accesses :=
      ⟨fun _ _ _ => hunseen, fun i hi hedge => absurd hedge (hquiet i hi)⟩
    exact h.sameEffect
  · -- The switch keeps its value, so it may be written at any time.
    have h : s.Apart k accesses := by
      refine ⟨fun _ _ _ => hunseen, fun _ _ _ value hmem => ?_⟩
      rw [Ppu.Control.nmiEnabled, Ppu.Control.nmiEnabled, hcontrol value hmem]
    exact h.sameEffect

/-- The vertical blank begins with the second of two dots, between which the address and the data
register are used and the stride is changed. -/
theorem order_of_dots_irrelevant_around_vblank : ∃ s : Picture,
    let accesses : List Step :=
      [.write .videoAddress 0x3F, .write .control 0x04, .read .videoData, .peek .videoData]
    let order : List Step :=
      [.write .videoAddress 0x3F, .dot, .write .control 0x04, .read .videoData, .dot,
        .peek .videoData]
    s.ppu.beam.advanceBy 1 = ⟨241, 1⟩ ∧
      (.read .status ∉ accesses ∧ .peek .status ∉ accesses) ∧
      (∀ value, .write .control value ∈ accesses →
        value &&& 0x80 = s.ppu.control.bits &&& 0x80) ∧
      s.stepAll order = s.stepAll (.dot :: .dot :: accesses) ∧
      s.answers order = s.answers (.dot :: .dot :: accesses) := by
  obtain ⟨-, cartridge, -⟩ := Cartridge.exists_load
  let s : Picture := ⟨{ Ppu.powerOn with beam := ⟨241, 0⟩ }, cartridge⟩
  refine ⟨s, ?_⟩
  intro accesses order
  have hunseen : .read .status ∉ accesses ∧ .peek .status ∉ accesses := by decide
  -- The only write to the control register leaves its highest bit clear.
  have hcontrol : ∀ value, .write .control value ∈ accesses →
      value &&& 0x80 = s.ppu.control.bits &&& 0x80 := by
    intro value hmem
    have hvalue : value = 0x04 := by simpa [accesses] using hmem
    rw [hvalue]
    show (0x04 : UInt8) &&& 0x80 = 0x00 &&& 0x80
    decide
  obtain ⟨-, -, halike⟩ := s.order_of_dots_irrelevant 2 accesses
  have hsame := halike hunseen hcontrol order (.dot :: .dot :: accesses)
    (by constructor <;> rfl) (by constructor <;> rfl)
  exact ⟨rfl, hunseen, hcontrol, hsame⟩

end Picture

end Nes
