/-
  DirichletMixture: the first of the largest entries.

  In exact arithmetic every entry of a vector is a number, so its peak is the first of its
  largest entries.

  * `IsPeak` says what a peak is, and `IsPeak.unique` that there is only one;
  * `exists_argmax?`: a vector that is not empty has one, and its place is computed;
  * `IsPeak.map`: a strictly increasing function leaves it in its place.
-/
import Mathlib.Order.Monotone.Defs
import DirichletMixture.Proofs.Exact.Basic

namespace DirichletMixture

variable {K : Type} [Exact K]

/-- The entry `x` at place `k` is a largest one, and none before it is as large. -/
structure IsPeak (w : List K) (k : Nat) (x : K) : Prop where
  entry : w[k]? = some x
  largest : ∀ y ∈ w, y ≤ x
  first : ∀ j, w[j]? = some x → k ≤ j

variable {w : List K} {k k' : Nat} {x x' : K}

theorem IsPeak.unique (h : IsPeak w k x) (h' : IsPeak w k' x') : k = k' ∧ x = x' := by
  obtain rfl : x = x' :=
    le_antisymm (h'.largest x (List.mem_of_getElem? h.entry))
      (h.largest x' (List.mem_of_getElem? h'.entry))
  exact ⟨Nat.le_antisymm (h.first k' h'.entry) (h'.first k h.entry), rfl⟩

/-- A further entry that is larger becomes the peak. -/
theorem IsPeak.concat_of_lt (h : IsPeak w k x) (hx : x < x') : IsPeak (w ++ [x']) w.length x' where
  entry := List.getElem?_concat_length
  largest y hy := by
    rcases List.mem_append.1 hy with hy | hy
    · exact (h.largest y hy).trans hx.le
    · exact (List.mem_singleton.1 hy).le
  first j hj := by
    by_contra hlt
    rw [List.getElem?_append_left (not_le.1 hlt)] at hj
    exact absurd (h.largest x' (List.mem_of_getElem? hj)) (not_le.2 hx)

/-- A further entry that is not larger changes nothing. -/
theorem IsPeak.concat_of_le (h : IsPeak w k x) (hx : x' ≤ x) : IsPeak (w ++ [x']) k x where
  entry := (List.getElem?_append_left (List.getElem?_eq_some_iff.1 h.entry).1).trans h.entry
  largest y hy := by
    rcases List.mem_append.1 hy with hy | hy
    · exact h.largest y hy
    · rwa [List.mem_singleton.1 hy]
  first j hj := by
    by_cases hlt : j < w.length
    · rw [List.getElem?_append_left hlt] at hj
      exact h.first j hj
    · exact (List.getElem?_eq_some_iff.1 h.entry).1.le.trans (not_lt.1 hlt)

/-- A peak of the entries before leads to the peak of all. -/
theorem IsPeak.exists_argmaxFrom (h : IsPeak w k x) (xs : List K) :
    ∃ y, IsPeak (w ++ xs) (argmaxFrom x k w.length xs) y := by
  induction xs generalizing w k x with
  | nil =>
    rw [List.append_nil]
    exact ⟨x, h⟩
  | cons x' xs ih =>
    have hlen : w.length + 1 = (w ++ [x']).length := by simp
    rw [argmaxFrom, hlen, List.append_cons]
    by_cases hx : x < x'
    · rw [if_pos (exceeds_iff.2 hx)]
      exact ih (h.concat_of_lt hx)
    · rw [if_neg (mt exceeds_iff.1 hx)]
      exact ih (h.concat_of_le (not_lt.1 hx))

/-- **The place that is computed is that of the peak.** -/
theorem exists_argmax? (hw : w ≠ []) : ∃ k x, argmax? w = some k ∧ IsPeak w k x := by
  cases w with
  | nil => exact absurd rfl hw
  | cons x xs =>
    have hfirst : IsPeak [x] 0 x :=
      ⟨rfl, fun y hy => (List.mem_singleton.1 hy).le, fun j _ => Nat.zero_le j⟩
    obtain ⟨y, hy⟩ := hfirst.exists_argmaxFrom xs
    exact ⟨_, y, rfl, hy⟩

theorem IsPeak.argmax?_eq (h : IsPeak w k x) : argmax? w = some k := by
  obtain ⟨k', x', hk, h'⟩ := exists_argmax? (List.ne_nil_of_mem (List.mem_of_getElem? h.entry))
  rw [hk, (h.unique h').1]

/-- A strictly increasing function leaves the peak in its place. -/
theorem IsPeak.map (h : IsPeak w k x) {f : K → K} (hf : StrictMono f) :
    IsPeak (w.map f) k (f x) where
  entry := by rw [List.getElem?_map, h.entry, Option.map_some]
  largest y hy := by
    obtain ⟨z, hz, rfl⟩ := List.mem_map.1 hy
    exact hf.monotone (h.largest z hz)
  first j hj := by
    rw [List.getElem?_map] at hj
    obtain ⟨z, hz, hzx⟩ := Option.map_eq_some_iff.1 hj
    rw [hf.injective hzx] at hz
    exact h.first j hz

end DirichletMixture
