import Mathlib.Data.List.Induction

/-!
# Stores one after the other

Buffers of pixels, the work RAM, sprite memory and picture memory are stored to place by place.  A
place holds a value after many stores if none of them puts another value there, and if one of them
puts this value there or it was there before.  Of the values of a stream that go to one place, the
last one stays.

## Main definitions

* `placed`: the values of a stream with the places where they go.
* `storeAll`: a vector after stores to its places.

## Main statements

* `foldl_eq_of_stores`: what a place holds after many stores.
* `storeAll_eq`: stores that make up a vector.
* `getElem_storeAll_placed`, `getElem_storeAll_of_forall_ne`: what a place holds after a stream.
-/

namespace Nes

/-! ### Streams -/

/-- The values of a stream with the places where they go. -/
def placed {π α : Type} (place : Nat → π) (values : List α) : List (π × α) :=
  values.zipIdx.map fun (value, i) => (place i, value)

section Placed

variable {π α : Type} {place : Nat → π} {values : List α}

theorem mem_placed {s : π × α} : s ∈ placed place values ↔
    ∃ i, ∃ _ : i < values.length, s = (place i, values[i]) := by
  rw [placed, List.mem_map]
  constructor
  · rintro ⟨⟨value, i⟩, hmem, rfl⟩
    obtain ⟨hi, hvalue⟩ := List.getElem?_eq_some_iff.1 (List.mem_zipIdx_iff_getElem?.1 hmem)
    exact ⟨i, hi, congrArg (place i, ·) hvalue.symm⟩
  · rintro ⟨i, hi, rfl⟩
    exact ⟨(values[i], i), List.mem_zipIdx_iff_getElem?.2 (List.getElem?_eq_getElem hi), rfl⟩

theorem placed_concat (place : Nat → π) (values : List α) (value : α) :
    placed place (values ++ [value]) = placed place values ++ [(place values.length, value)] := by
  rw [placed, List.zipIdx_append, List.map_append, Nat.zero_add]
  rfl

end Placed

/-! ### Many stores -/

/-- **What a place holds after many stores**, of which some put a value there, always the same, and
the others keep what is there.  The induction is on the stores; what has to hold of the memory for
that, such as its wiring, is carried along. -/
theorem foldl_eq_of_stores {σ ω β : Type} {P : σ → Prop} {g : σ → ω → σ} {f : σ → β}
    {m : ω → Prop} {value : β} {stores : List ω} (hkeep : ∀ s w, P s → P (g s w))
    (hput : ∀ w ∈ stores, m w → ∀ s, P s → f (g s w) = value)
    (hmiss : ∀ w ∈ stores, ¬ m w → ∀ s, P s → f (g s w) = f s) {s : σ} (hs : P s)
    (h : f s = value ∨ ∃ w ∈ stores, m w) : f (stores.foldl g s) = value := by
  induction stores generalizing s with
  | nil => exact h.resolve_right fun ⟨_, hmem, _⟩ => absurd hmem List.not_mem_nil
  | cons w stores ih =>
    obtain ⟨hhere, hput⟩ := List.forall_mem_cons.1 hput
    obtain ⟨hpast, hmiss⟩ := List.forall_mem_cons.1 hmiss
    refine ih hput hmiss (hkeep s w hs) ?_
    by_cases hw : m w
    · exact .inl (hhere hw s hs)
    · obtain hheld | ⟨w', hmem, hw'⟩ := h
      · exact .inl ((hpast hw s hs).trans hheld)
      · obtain rfl | hmem := List.mem_cons.1 hmem
        · exact absurd hw' hw
        · exact .inr ⟨w', hmem, hw'⟩

/-- A vector after stores to its places, in order. -/
def storeAll {α : Type} {n : Nat} (buffer : Vector α n) (stores : List (Fin n × α)) : Vector α n :=
  stores.foldl (fun buffer s => buffer.set s.1 s.2) buffer

/-- Places that are stored to one after the other hold what belongs there if only that is stored,
and if every place is stored to. -/
theorem storeAll_eq {α : Type} {n : Nat} {target : Vector α n} {stores : List (Fin n × α)}
    (h : ∀ s ∈ stores, target[s.1] = s.2) (hall : ∀ i, ∃ s ∈ stores, s.1 = i)
    (buffer : Vector α n) : storeAll buffer stores = target := by
  apply Vector.ext
  intro i hi
  refine foldl_eq_of_stores (P := fun _ => True) (f := fun buffer : Vector α n => buffer[i])
    (m := fun s => s.1 = ⟨i, hi⟩) (fun _ _ _ => trivial) ?_ ?_ trivial (.inr (hall ⟨i, hi⟩))
  · rintro ⟨_, value⟩ hs rfl buffer -
    exact (Vector.getElem_set_self ..).trans (h _ hs).symm
  · intro s _ hs buffer _
    have hne : s.1.val ≠ i := fun e => hs (Fin.ext e)
    exact Vector.getElem_set_ne _ _ hne

section StoreAll

variable {α : Type} {n : Nat}

theorem storeAll_concat (buffer : Vector α n) (stores : List (Fin n × α)) (s : Fin n × α) :
    storeAll buffer (stores ++ [s]) = (storeAll buffer stores).set s.1 s.2 := by
  rw [storeAll, List.foldl_append]
  rfl

/-- A place that is not stored to holds what was there. -/
theorem getElem_storeAll_of_forall_ne {stores : List (Fin n × α)} {j : Fin n}
    (h : ∀ s ∈ stores, s.1 ≠ j) (buffer : Vector α n) : (storeAll buffer stores)[j] = buffer[j] := by
  refine foldl_eq_of_stores (P := fun _ => True) (f := fun buffer : Vector α n => buffer[j])
    (m := fun s => s.1 = j) (fun _ _ _ => trivial) ?_ ?_ trivial (.inl rfl)
  · intro s hs hj
    exact absurd hj (h s hs)
  · intro s _ hj buffer _
    exact Vector.getElem_set_ne _ _ fun e => hj (Fin.ext e)

/-- **Of the values that go to one place the last one stays.**  The induction is from the end of the
stream: the value stored there is the one that stays, or it goes elsewhere. -/
theorem getElem_storeAll_placed {place : Nat → Fin n} {values : List α} {i : Nat}
    (hi : i < values.length) (hlast : ∀ i' < values.length, place i' = place i → i' ≤ i)
    (buffer : Vector α n) : (storeAll buffer (placed place values))[place i] = values[i] := by
  induction values using List.reverseRecOn with
  | nil => exact absurd hi (Nat.not_lt_zero i)
  | append_singleton values value ih =>
    simp only [List.length_append, List.length_singleton] at hi hlast
    simp only [placed_concat, storeAll_concat]
    obtain hlt | rfl := Nat.lt_succ_iff_lt_or_eq.1 hi
    · have hne : place values.length ≠ place i := fun h =>
        Nat.not_le.2 hlt (hlast _ (Nat.lt_succ_self _) h)
      have hearlier := ih hlt fun i' hi' => hlast i' (Nat.lt_succ_of_lt hi')
      rw [List.getElem_append_left hlt, ← hearlier]
      exact Vector.getElem_set_ne _ _ fun e => hne (Fin.ext e)
    · rw [List.getElem_concat_length rfl]
      exact Vector.getElem_set_self ..

end StoreAll

end Nes
