import Nes.Proofs.Console.Granularity

/-!
# How long runs are

A run tests its condition before each clock and gives up at the first clock that fails.  So it is
known in full from two things about the clocks that lie ahead: when the condition holds for the
first time, and when a clock fails for the first time.

## Main definitions

* `Console.clockedEvents`: what a number of clocks tells.

## Main statements

* `Run.extend_of_completes`: a run up to its condition.
* `Run.extend_of_fails`: a run up to a fault.
-/

namespace Nes

namespace Console

/-- What a number of clocks tells, failing ones included. -/
def clockedEvents : Nat → Console → List Event
  | 0, _ => []
  | n + 1, c => c.clock.events ++ clockedEvents n c.clock.console

theorem clockedEvents_add (m n : Nat) (c : Console) :
    clockedEvents (m + n) c = clockedEvents m c ++ clockedEvents n (clocked m c) := by
  induction m generalizing c with
  | zero => rw [Nat.zero_add]; rfl
  | succ m ih =>
    rw [Nat.succ_add, clockedEvents, clockedEvents, ih, List.append_assoc]
    rfl

theorem clockedEvents_one (c : Console) : clockedEvents 1 c = c.clock.events := List.append_nil _

theorem Completes.head {n : Nat} {c : Console} (h : c.Completes (n + 1)) :
    c.clock.result = .ok () :=
  h 0 (Nat.succ_pos n)

theorem Completes.tail {n : Nat} {c : Console} (h : c.Completes (n + 1)) :
    c.clock.console.Completes n :=
  fun k hk => h (k + 1) (Nat.succ_lt_succ hk)

theorem Completes.cons {n : Nat} {c : Console} (h : c.clock.result = .ok ())
    (hn : c.clock.console.Completes n) : c.Completes (n + 1) := by
  intro k hk
  cases k with
  | zero => exact h
  | succ k => exact hn k (Nat.lt_of_succ_lt_succ hk)

theorem Completes.mono {m n : Nat} {c : Console} (h : c.Completes n) (hm : m ≤ n) :
    c.Completes m :=
  fun k hk => h k (Nat.lt_of_lt_of_le hk hm)

theorem FailsAt.tail {n : Nat} {fault : CpuFault} {c : Console} (h : c.FailsAt (n + 1) fault) :
    c.clock.console.FailsAt n fault :=
  ⟨h.succeeds.tail, h.fails⟩

/-- A number of clocks succeeds, or one of them is the first that fails. -/
theorem completes_or_failsAt (n : Nat) (c : Console) :
    c.Completes n ∨ ∃ first < n, ∃ fault, c.FailsAt first fault := by
  induction n with
  | zero => exact .inl (Completes.zero c)
  | succ n ih =>
    obtain hall | ⟨first, hfirst, hfails⟩ := ih
    · cases hlast : (clocked n c).clock.result with
      | ok => exact .inl (hall.succ hlast)
      | error fault => exact .inr ⟨n, Nat.lt_succ_self n, fault, hall, hlast⟩
    · exact .inr ⟨first, Nat.lt_succ_of_lt hfirst, hfails⟩

/-- Clocks lead from reachable consoles to reachable consoles. -/
theorem Reachable.clocked {c : Console} (h : c.Reachable) (n : Nat) :
    (Console.clocked n c).Reachable := by
  induction n generalizing c with
  | zero => exact h
  | succ n ih => exact ih h.clock

end Console

namespace Run

open Console

variable {stop : Console → Bool} {r : Run}

theorem appendList_assoc (told : Array Event) (l l' : List Event) :
    told ++ l ++ l' = told ++ (l ++ l') := by
  apply Array.toList_inj.1
  rw [Array.toList_appendList, Array.toList_appendList, Array.toList_appendList, List.append_assoc]

/-- A run that goes on makes a clock first. -/
theorem extend_succ (hr : r.fault = none) (hgo : stop r.console = false) (limit : Nat) :
    r.extend stop (limit + 1) = r.clock.extend stop limit := by
  rw [extend, hr, hgo, Option.isSome_none, Bool.or_false, if_neg Bool.false_ne_true]

/-- The run with one more clock that succeeds. -/
theorem clock_of_ok (h : r.console.clock.result = .ok ()) : r.clock =
    ⟨r.console.clock.console, r.clocks + 1, none, r.events ++ r.console.clock.events⟩ := by
  rw [clock_eq, h]
  rfl

/-- A run whose condition holds makes no clock. -/
theorem extend_of_stop (h : stop r.console = true) (limit : Nat) : r.extend stop limit = r := by
  cases limit with
  | zero => rfl
  | succ limit => rw [extend, h, Bool.or_true, if_pos rfl]

/-- **A run up to its condition.**  If none of `n` clocks fails and the condition holds after them
but not before, the run consists of these clocks. -/
theorem extend_of_completes {n limit : Nat} (hr : r.fault = none) (hn : r.console.Completes n)
    (hgo : ∀ k < n, stop (clocked k r.console) = false)
    (hstop : stop (clocked n r.console) = true) (hlimit : n ≤ limit) :
    r.extend stop limit = ⟨clocked n r.console, r.clocks + n, none,
      r.events ++ clockedEvents n r.console⟩ := by
  induction n generalizing r limit with
  | zero =>
    rw [extend_of_stop hstop, clockedEvents, Array.appendList_nil, ← hr]
    rfl
  | succ n ih =>
    obtain ⟨limit, rfl⟩ : ∃ l, limit = l + 1 := ⟨limit - 1, by omega⟩
    have hclock := clock_of_ok hn.head
    have hrest := ih (r := r.clock) (by rw [hclock]) hn.tail
      (fun k hk => hgo (k + 1) (Nat.succ_lt_succ hk)) hstop (Nat.le_of_succ_le_succ hlimit)
    rw [extend_succ hr (hgo 0 (Nat.succ_pos n)), hrest, hclock, clockedEvents]
    dsimp only
    rw [Nat.add_right_comm, Nat.add_assoc, appendList_assoc]
    rfl

/-- **A run up to a fault.**  If the condition does not hold up to the first clock that fails, the
run ends with this clock. -/
theorem extend_of_fails {n limit : Nat} {fault : CpuFault} (hr : r.fault = none)
    (hn : r.console.FailsAt n fault) (hgo : ∀ k ≤ n, stop (clocked k r.console) = false)
    (hlimit : n < limit) :
    r.extend stop limit = ⟨clocked (n + 1) r.console, r.clocks + (n + 1), some fault,
      r.events ++ clockedEvents (n + 1) r.console⟩ := by
  induction n generalizing r limit with
  | zero =>
    obtain ⟨limit, rfl⟩ : ∃ l, limit = l + 1 := ⟨limit - 1, by omega⟩
    have hfault : r.console.clock.result = .error fault := hn.fails
    rw [extend_succ hr (hgo 0 (Nat.le_refl 0)), clock_eq, hfault, extend_of_fault rfl,
      clockedEvents_one]
    rfl
  | succ n ih =>
    obtain ⟨limit, rfl⟩ : ∃ l, limit = l + 1 := ⟨limit - 1, by omega⟩
    have hclock := clock_of_ok hn.succeeds.head
    have hrest := ih (r := r.clock) (by rw [hclock]) hn.tail
      (fun k hk => hgo (k + 1) (Nat.succ_le_succ hk)) (Nat.lt_of_succ_lt_succ hlimit)
    rw [extend_succ hr (hgo 0 (Nat.zero_le _)), hrest, hclock, clockedEvents]
    dsimp only
    rw [Nat.add_right_comm, Nat.add_assoc, appendList_assoc]
    rfl

end Run

namespace Console

variable {c : Console} {stop : Console → Bool} {n limit : Nat}

theorem empty_appendList (l : List Event) : (#[] : Array Event) ++ l = l.toArray := by
  apply Array.toList_inj.1
  rw [Array.toList_appendList, List.nil_append]

theorem runUntil_of_completes (hn : c.Completes n) (hgo : ∀ k < n, stop (clocked k c) = false)
    (hstop : stop (clocked n c) = true) (hlimit : n ≤ limit) :
    c.runUntil stop limit = ⟨clocked n c, n, none, (clockedEvents n c).toArray⟩ := by
  rw [runUntil, Run.extend_of_completes rfl hn hgo hstop hlimit, Nat.zero_add, empty_appendList]

theorem runUntil_of_fails {fault : CpuFault} (hn : c.FailsAt n fault)
    (hgo : ∀ k ≤ n, stop (clocked k c) = false) (hlimit : n < limit) :
    c.runUntil stop limit =
      ⟨clocked (n + 1) c, n + 1, some fault, (clockedEvents (n + 1) c).toArray⟩ := by
  rw [runUntil, Run.extend_of_fails rfl hn hgo hlimit, Nat.zero_add, empty_appendList]

end Console

end Nes
