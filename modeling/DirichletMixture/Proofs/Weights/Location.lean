/-
  DirichletMixture: where thresholds are located.

  In exact arithmetic the cumulative sums of weights ascend, and every threshold belongs in
  front of the first sum that it does not exceed.  Weights that are zero make sums equal, and
  a threshold may lie past the last sum; the index that is located has a positive weight all
  the same, and a larger threshold is never located further to the front.

  * `lt_insertionPoint_iff`: which of ascending sums lie in front of a threshold;
  * `bisect` looks for the place of a threshold by halving, and `bisect_eq_insertionPoint`: it
    finds the one that going through the sums one by one leads to;
  * `locate_isLeast` and `locate_isGreatest`: the two ways to locate a threshold, and
    `locate_mono`;
  * `thresholds_are_located` puts this together.
-/
import Mathlib.Algebra.Order.BigOperators.Group.List
import Mathlib.Order.Bounds.Defs
import DirichletMixture.Proofs.Exact.Basic
import DirichletMixture.Proofs.Weights.Support

namespace DirichletMixture

variable {K : Type}

/-! ## Halving -/

/-- The first place from `low` on and before `high` of which `before` is false, or `high`: the
    place in the middle says in which half it lies. -/
def halve (before : Nat → Bool) (low high : Nat) : Nat :=
  if low < high then
    if before (low + (high - low) / 2) then halve before (low + (high - low) / 2 + 1) high
    else halve before low (low + (high - low) / 2)
  else low
termination_by high - low
decreasing_by all_goals omega

/-- **Halving finds the place where `before` turns false.** -/
theorem halve_eq {before : Nat → Bool} {p low high : Nat}
    (hbefore : ∀ i < high, before i = true ↔ i < p) (hlow : low ≤ p) (hhigh : p ≤ high) :
    halve before low high = p := by
  fun_induction halve before low high with
  | case1 low high hlt hmid ih =>
    have hp : low + (high - low) / 2 < p := (hbefore _ (by omega)).1 hmid
    exact ih hbefore hp hhigh
  | case2 low high hlt hmid ih =>
    have hp : ¬ low + (high - low) / 2 < p := mt (hbefore _ (by omega)).2 hmid
    exact ih (fun i hi => hbefore i (by omega)) hlow (Nat.not_lt.1 hp)
  | case3 low high hge => exact Nat.le_antisymm hlow (hhigh.trans (Nat.not_lt.1 hge))

/-- The place of a threshold among ascending sums, found by halving. -/
def bisect {α : Type} [Scalar α] (u : α) (sums : List α) : Nat :=
  halve (fun i => (sums[i]?).any fun c => exceeds u c) 0 sums.length

/-! ## Ascending sums -/

variable [Exact K] {u v : K}

theorem insertionPoint_le (u : K) (sums : List K) : insertionPoint u sums ≤ sums.length :=
  (List.takeWhile_prefix _).length_le

/-- **The sums in front of a threshold** are those that it exceeds. -/
theorem lt_insertionPoint_iff {sums : List K} (hsums : sums.Pairwise (· ≤ ·)) {k : Nat} {c : K}
    (hk : sums[k]? = some c) : k < insertionPoint u sums ↔ c < u := by
  induction sums generalizing k with
  | nil => cases hk
  | cons s sums ih =>
    obtain ⟨hs, hsums⟩ := List.pairwise_cons.1 hsums
    rw [insertionPoint, List.takeWhile_cons]
    by_cases hstep : s < u
    · -- the threshold belongs further on
      rw [if_pos (exceeds_iff.2 hstep), List.length_cons]
      cases k with
      | zero =>
        obtain rfl := Option.some.inj hk
        exact iff_of_true (Nat.succ_pos _) hstep
      | succ k => exact Nat.succ_lt_succ_iff.trans (ih hsums hk)
    · have hle : s ≤ c := by
        rcases List.mem_cons.1 (List.mem_of_getElem? hk) with rfl | hc
        · exact le_rfl
        · exact hs c hc
      rw [if_neg (mt exceeds_iff.1 hstep)]
      exact iff_of_false (Nat.not_lt_zero k) fun hc => hstep (hle.trans_lt hc)

/-- **Halving and going through one by one lead to the same place** among ascending sums. -/
theorem bisect_eq_insertionPoint {sums : List K} (hsums : sums.Pairwise (· ≤ ·)) (u : K) :
    bisect u sums = insertionPoint u sums := by
  refine halve_eq (fun i hi => ?_) (Nat.zero_le _) (insertionPoint_le u sums)
  have hc := List.getElem?_eq_getElem hi
  rw [hc, Option.any_some, exceeds_iff, lt_insertionPoint_iff hsums hc]

theorem insertionPoint_mono {sums : List K} (hsums : sums.Pairwise (· ≤ ·)) (huv : u ≤ v) :
    insertionPoint u sums ≤ insertionPoint v sums := by
  by_contra hlt
  have hv : insertionPoint v sums < insertionPoint u sums := Nat.not_le.1 hlt
  have hc := List.getElem?_eq_getElem (hv.trans_le (insertionPoint_le u sums))
  -- the sum at the place of `v` is exceeded by `u`, but not by `v`
  have hu := (lt_insertionPoint_iff hsums hc).1 hv
  exact Nat.lt_irrefl _ ((lt_insertionPoint_iff hsums hc).2 (hu.trans_le huv))

/-! ## Cumulative sums -/

section
variable {w : List K}

theorem getElem?_cumulativeFrom (acc : K) (w : List K) (k : Nat) :
    (cumulativeFrom acc w)[k]? = (w[k]?).map fun _ => acc + (w.take (k + 1)).sum := by
  induction w generalizing acc k with
  | nil => rfl
  | cons x xs ih =>
    cases k with
    | zero => simp [cumulativeFrom]
    | succ k => simp [cumulativeFrom, ih, add_assoc]

theorem getElem?_cumulative {k : Nat} (hk : k < w.length) :
    (cumulative w)[k]? = some (w.take (k + 1)).sum := by
  rw [cumulative, getElem?_cumulativeFrom, List.getElem?_eq_getElem hk, Option.map_some, zero_add]

theorem pairwise_cumulativeFrom (hw : ∀ x ∈ w, 0 ≤ x) (acc : K) :
    (acc :: cumulativeFrom acc w).Pairwise (· ≤ ·) := by
  induction w generalizing acc with
  | nil => exact List.pairwise_singleton _ _
  | cons x xs ih =>
    obtain ⟨hx, hxs⟩ := List.forall_mem_cons.1 hw
    have hrest := ih hxs (acc + x)
    have hacc : acc ≤ acc + x := le_add_of_nonneg_right hx
    refine List.pairwise_cons.2 ⟨?_, hrest⟩
    rw [cumulativeFrom, List.forall_mem_cons]
    exact ⟨hacc, fun c hc => hacc.trans ((List.pairwise_cons.1 hrest).1 c hc)⟩

/-- Cumulative sums of weights ascend. -/
theorem pairwise_cumulative (hw : ∀ x ∈ w, 0 ≤ x) : (cumulative w).Pairwise (· ≤ ·) :=
  (List.pairwise_cons.1 (pairwise_cumulativeFrom hw 0)).2

/-- An index lies in front of the place of a threshold if its cumulative sum is exceeded. -/
theorem lt_insertionPoint_cumulative_iff (hw : ∀ x ∈ w, 0 ≤ x) {k : Nat} (hk : k < w.length) :
    k < insertionPoint u (cumulative w) ↔ (w.take (k + 1)).sum < u :=
  lt_insertionPoint_iff (pairwise_cumulative hw) (getElem?_cumulative hk)

/-! ## Locating thresholds -/

theorem locate_of_lt (h : insertionPoint u (cumulative w) < w.length) :
    locate w u = insertionPoint u (cumulative w) :=
  if_pos h

theorem locate_of_ge (h : w.length ≤ insertionPoint u (cumulative w)) :
    locate w u = lastPositive w :=
  if_neg (Nat.not_lt.2 h)

/-- No index of positive weight comes after the last one. -/
theorem le_lastPositive {k : Nat} {x : K} (hk : w[k]? = some x) (hx : 0 < x) :
    k ≤ lastPositive w := by
  induction w generalizing k with
  | nil => cases hk
  | cons y ys ih =>
    cases k with
    | zero => exact Nat.zero_le _
    | succ k =>
      have hmem : x ∈ ys := List.mem_of_getElem? hk
      have hany : ys.any (fun z => decide (0 < z)) = true :=
        List.any_eq_true.2 ⟨x, hmem, decide_eq_true hx⟩
      rw [lastPositive, if_pos hany]
      exact Nat.succ_le_succ (ih hk)

/-- **A threshold that some cumulative sum reaches** is located at the first such sum. -/
theorem locate_isLeast (hw : ∀ x ∈ w, 0 ≤ x)
    (h : ∃ k < w.length, u ≤ (w.take (k + 1)).sum) :
    IsLeast {k | k < w.length ∧ u ≤ (w.take (k + 1)).sum} (locate w u) := by
  have hle : ∀ k, k < w.length ∧ u ≤ (w.take (k + 1)).sum →
      insertionPoint u (cumulative w) ≤ k := by
    rintro k ⟨hk, hu⟩
    exact Nat.not_lt.1 (mt (lt_insertionPoint_cumulative_iff hw hk).1 (not_lt.2 hu))
  obtain ⟨k, hk, hu⟩ := h
  have hlt : insertionPoint u (cumulative w) < w.length := (hle k ⟨hk, hu⟩).trans_lt hk
  have hreached : u ≤ (w.take (insertionPoint u (cumulative w) + 1)).sum :=
    not_lt.1 (mt (lt_insertionPoint_cumulative_iff hw hlt).2 (Nat.lt_irrefl _))
  rw [locate_of_lt hlt]
  exact ⟨⟨hlt, hreached⟩, hle⟩

/-- **A threshold past all cumulative sums** is located at the last positive weight. -/
theorem locate_isGreatest (hw : ∀ x ∈ w, 0 ≤ x) (hpos : ∃ x ∈ w, 0 < x)
    (h : ∀ k < w.length, (w.take (k + 1)).sum < u) :
    IsGreatest {k | ∃ x, w[k]? = some x ∧ 0 < x} (locate w u) := by
  have hge : w.length ≤ insertionPoint u (cumulative w) := by
    refine Nat.not_lt.1 fun hlt => Nat.lt_irrefl (insertionPoint u (cumulative w)) ?_
    exact (lt_insertionPoint_cumulative_iff hw hlt).2 (h _ hlt)
  rw [locate_of_ge hge]
  refine ⟨exists_pos_of_lastPositive hpos, ?_⟩
  rintro k ⟨x, hk, hx⟩
  exact le_lastPositive hk hx

/-- **A larger threshold is never located further to the front.** -/
theorem locate_mono (hw : ∀ x ∈ w, 0 ≤ x) (hpos : ∃ x ∈ w, 0 < x) (hu : 0 < u) (huv : u ≤ v) :
    locate w u ≤ locate w v := by
  have hmono := insertionPoint_mono (pairwise_cumulative hw) huv
  rcases Nat.lt_or_ge (insertionPoint v (cumulative w)) w.length with hv | hv
  · rw [locate_of_lt hv, locate_of_lt (hmono.trans_lt hv)]
    exact hmono
  · -- whatever `u` is located at has a positive weight
    obtain ⟨x, hx, hxpos⟩ := exists_pos_of_locate hu hpos
    rw [locate_of_ge hv]
    exact le_lastPositive hx hxpos

/-- **Every positive threshold is located.**  For weights of which none is negative and one is
    positive: a positive threshold is located at an index of positive weight.  It is the first
    whose cumulative sum reaches the threshold, and if there is none, the last of positive
    weight.  A larger threshold is never located further to the front.  And halving finds the
    same place among the cumulative sums as going through them one by one, whatever the
    threshold is. -/
theorem thresholds_are_located {w : List K} (hw : ∀ x ∈ w, 0 ≤ x) (hpos : ∃ x ∈ w, 0 < x) :
    (∀ u, 0 < u →
      (∃ x, w[locate w u]? = some x ∧ 0 < x) ∧
      ((∃ k < w.length, u ≤ (w.take (k + 1)).sum) →
        IsLeast {k | k < w.length ∧ u ≤ (w.take (k + 1)).sum} (locate w u)) ∧
      ((∀ k < w.length, (w.take (k + 1)).sum < u) →
        IsGreatest {k | ∃ x, w[k]? = some x ∧ 0 < x} (locate w u)) ∧
      ∀ v, u ≤ v → locate w u ≤ locate w v) ∧
    ∀ u, bisect u (cumulative w) = insertionPoint u (cumulative w) :=
  ⟨fun _ hu => ⟨exists_pos_of_locate hu hpos, locate_isLeast hw, locate_isGreatest hw hpos,
    fun _ => locate_mono hw hpos hu⟩, bisect_eq_insertionPoint (pairwise_cumulative hw)⟩

/-- With weights of zero in front, in between and at the end: a threshold that equals a
    cumulative sum is located there, and one past all sums at the last positive weight. -/
theorem threshold_past_all_sums_is_located :
    (∀ x ∈ [0, 2, 0, 1, (0 : ℚ)], 0 ≤ x) ∧ (∃ x ∈ [0, 2, 0, 1, (0 : ℚ)], 0 < x) ∧
      locate [0, 2, 0, 1, (0 : ℚ)] 2 = 1 ∧ locate [0, 2, 0, 1, (0 : ℚ)] 7 = 3 ∧
      bisect 7 (cumulative [0, 2, 0, 1, (0 : ℚ)]) = 5 := by
  have hw : ∀ x ∈ [0, 2, 0, 1, (0 : ℚ)], 0 ≤ x := by decide +kernel
  have hpos : ∃ x ∈ [0, 2, 0, 1, (0 : ℚ)], 0 < x := by decide +kernel
  obtain ⟨hlocate, hbisect⟩ := thresholds_are_located hw hpos
  obtain ⟨-, hleast, -⟩ := hlocate 2 (by decide +kernel)
  obtain ⟨-, -, hgreatest, -⟩ := hlocate 7 (by decide +kernel)
  refine ⟨hw, hpos, ?_, ?_, (hbisect 7).trans (by decide +kernel)⟩
  · refine (hleast ⟨1, by decide +kernel⟩).unique ⟨by decide +kernel, ?_⟩
    rintro k ⟨hk, hu⟩
    exact (by decide +kernel :
      ∀ k < 5, (2 : ℚ) ≤ (([0, 2, 0, 1, 0] : List ℚ).take (k + 1)).sum → 1 ≤ k) k hk hu
  · refine (hgreatest (by decide +kernel)).unique ⟨⟨1, by decide +kernel⟩, ?_⟩
    rintro k ⟨x, hk, hx⟩
    exact le_lastPositive hk hx

end

end DirichletMixture
