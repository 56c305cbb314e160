/-
  DirichletMixture: what is drawn from weights, and when.

  In exact arithmetic, weights can be drawn from if none of them is negative and one of
  them is positive, and whatever is drawn has a positive weight: the threshold is positive,
  it is located among the cumulative sums, and the sums grow only with positive weights.

  * `exists_of_locate`: what is needed of a threshold for the weight that it is located at,
    and `exists_pos_of_locate`: a positive threshold is located at a positive weight;
  * `checkWeights_eq_ok` and `exists_pos_of_drawIndex`: when an index is drawn, and which;
  * `exists_normalizeByMax` and `normalizeByMax_of_zero`: weights that are not negative
    can be divided by the largest, unless they are all zero.
-/
import Mathlib.Algebra.Order.BigOperators.Group.List
import DirichletMixture.Proofs.Exact.Basic
import DirichletMixture.Proofs.Weights.Calls

namespace DirichletMixture

variable {ω K : Type} [Exact K]

/-! ## Locating a threshold -/

section
variable {α : Type} [Scalar α] {u acc : α} {w : List α} {P Q : α → Prop}

/-- A threshold belongs at a weight that leads up to it, if it belongs among the sums. -/
theorem exists_of_insertionPoint (hacc : Q acc)
    (hstep : ∀ x ∈ w, ∀ c, Q c → exceeds u (c + x) = true → Q (c + x))
    (hstop : ∀ x ∈ w, ∀ c, Q c → ¬ exceeds u (c + x) = true → P x)
    (hk : insertionPoint u (cumulativeFrom acc w) < w.length) :
    ∃ x, w[insertionPoint u (cumulativeFrom acc w)]? = some x ∧ P x := by
  induction w generalizing acc with
  | nil => cases hk
  | cons x xs ih =>
    rw [cumulativeFrom, insertionPoint, List.takeWhile_cons] at hk ⊢
    by_cases hx : exceeds u (acc + x) = true
    · -- the threshold lies further on
      rw [if_pos hx, List.length_cons] at hk ⊢
      exact ih (hstep x List.mem_cons_self acc hacc hx)
        (fun y hy => hstep y (List.mem_cons_of_mem x hy))
        (fun y hy => hstop y (List.mem_cons_of_mem x hy)) (Nat.lt_of_succ_lt_succ hk)
    · rw [if_neg hx]
      exact ⟨x, rfl, hstop x List.mem_cons_self acc hacc hx⟩

/-- The same where the threshold may lie past the last sum. -/
theorem exists_of_locate (hzero : Q 0)
    (hstep : ∀ x ∈ w, ∀ c, Q c → exceeds u (c + x) = true → Q (c + x))
    (hstop : ∀ x ∈ w, ∀ c, Q c → ¬ exceeds u (c + x) = true → P x)
    (hlast : ∃ x, w[lastPositive w]? = some x ∧ P x) : ∃ x, w[locate w u]? = some x ∧ P x := by
  unfold locate
  by_cases hk : insertionPoint u (cumulative w) < w.length
  · simp only [hk, if_true]
    exact exists_of_insertionPoint hzero hstep hstop hk
  · simp only [hk, if_false]
    exact hlast

end

theorem exists_pos_of_lastPositive {α : Type} [Scalar α] {w : List α} (hw : ∃ x ∈ w, 0 < x) :
    ∃ x, w[lastPositive w]? = some x ∧ 0 < x := by
  induction w with
  | nil => simp at hw
  | cons x xs ih =>
    rw [lastPositive]
    by_cases hxs : ∃ y ∈ xs, 0 < y
    · rw [if_pos (by simpa using hxs)]
      exact ih hxs
    · rw [if_neg (by simpa using hxs)]
      obtain ⟨y, hy, hpos⟩ := hw
      rcases List.mem_cons.1 hy with rfl | hy
      · exact ⟨y, rfl, hpos⟩
      · exact absurd ⟨y, hy, hpos⟩ hxs

/-- **A positive threshold is located at a positive weight**, if there is one. -/
theorem exists_pos_of_locate {w : List K} {u : K} (hu : 0 < u) (hw : ∃ x ∈ w, 0 < x) :
    ∃ x, w[locate w u]? = some x ∧ 0 < x := by
  refine exists_of_locate (Q := (· < u)) hu (fun x _ c _ hx => exceeds_iff.1 hx)
    (fun x _ c hc hx => ?_) (exists_pos_of_lastPositive hw)
  exact pos_of_lt_add_right (hc.trans_le (not_lt.1 (mt exceeds_iff.2 hx)))

/-! ## Drawing -/

/-- The uniform draws lie between zero, included, and one. -/
def Generator.UnitUniform (g : Generator ω K) : Prop :=
  ∀ s, 0 ≤ (g.uniform s).1 ∧ (g.uniform s).1 < 1

/-- Weights can be drawn from if none is negative and their sum is positive. -/
theorem checkWeights_eq_ok {w : List K} {total : K} :
    checkWeights w = .ok total ↔ (∀ x ∈ w, 0 ≤ x) ∧ 0 < w.sum ∧ total = w.sum := by
  have hempty : w.isEmpty = true ↔ w = [] := List.isEmpty_iff
  have hneg : (w.any (fun x => Scalar.isNaN x) || w.any fun x => decide (x < 0)) = true ↔
      ¬ ∀ x ∈ w, 0 ≤ x := by
    simp
  rw [checkWeights]
  by_cases hnil : w = []
  · rw [if_pos (hempty.2 hnil), hnil]
    simp
  rw [if_neg (mt hempty.1 hnil)]
  by_cases hw : ∀ x ∈ w, 0 ≤ x
  · rw [if_neg (fun h => hneg.1 h hw), pairwiseSum_eq_sum]
    by_cases hsum : 0 < w.sum
    · rw [if_pos (isMeasure_iff.2 hsum), Except.ok.injEq, eq_comm]
      simp only [hsum, true_and]
      exact (and_iff_right hw).symm
    · rw [if_neg (mt isMeasure_iff.1 hsum)]
      simp [hsum]
  · rw [if_pos (hneg.2 hw)]
    simp [hw]

theorem exists_pos_of_sum_pos {w : List K} (h : 0 < w.sum) : ∃ x ∈ w, 0 < x := by
  refine List.exists_lt_of_sum_lt (f := fun _ => 0) id ?_
  simpa using h

theorem sum_pos_of_exists_pos {w : List K} (hw : ∀ x ∈ w, 0 ≤ x) (h : ∃ x ∈ w, 0 < x) :
    0 < w.sum := by
  obtain ⟨x, hx, hpos⟩ := h
  exact hpos.trans_le (List.single_le_sum hw x hx)

/-- **Whatever is drawn has a positive weight.** -/
theorem exists_pos_of_drawIndex {g : Generator ω K} (hg : g.UnitUniform) {w : List K} {k : Nat}
    {s s' : ω} (h : (drawIndex g w).runOn s = (.ok k, s')) : ∃ x, w[k]? = some x ∧ 0 < x := by
  obtain ⟨total, hcheck, rfl, -⟩ := drawIndex_eq_ok.1 h
  obtain ⟨-, hsum, rfl⟩ := checkWeights_eq_ok.1 hcheck
  have hthreshold : 0 < (1 - (g.uniform s).1) * w.sum := mul_pos (sub_pos.2 (hg s).2) hsum
  exact exists_pos_of_locate hthreshold (exists_pos_of_sum_pos hsum)

/-! ## Weights divided by the largest -/

theorem foldl_larger_mem (x : K) (xs : List K) : xs.foldl larger x ∈ x :: xs := by
  induction xs generalizing x with
  | nil => exact List.mem_cons_self
  | cons y ys ih =>
    rw [List.foldl_cons, larger_eq_max]
    rcases max_choice x y with h | h <;> rw [h]
    · exact List.cons_subset_cons x (List.subset_cons_self y ys) (ih x)
    · exact List.mem_cons_of_mem x (ih y)

theorem le_foldl_larger (x : K) (xs : List K) : ∀ y ∈ x :: xs, y ≤ xs.foldl larger x := by
  induction xs generalizing x with
  | nil => simp
  | cons y ys ih =>
    have hle := ih (max x y)
    have hmax := hle _ List.mem_cons_self
    rw [List.foldl_cons, larger_eq_max, List.forall_mem_cons, List.forall_mem_cons]
    exact ⟨(le_max_left x y).trans hmax, (le_max_right x y).trans hmax,
      fun z hz => hle z (List.mem_cons_of_mem _ hz)⟩

theorem maximum?_eq_some {w : List K} {m : K} (h : maximum? w = some m) :
    m ∈ w ∧ ∀ x ∈ w, x ≤ m := by
  cases w with
  | nil => cases h
  | cons x xs =>
    obtain rfl := Option.some.inj h
    exact ⟨foldl_larger_mem x xs, le_foldl_larger x xs⟩

theorem normalizeByMax_eq_ok {p q : List K} (h : normalizeByMax p = .ok q) :
    ∃ m, 0 < m ∧ q = p.map (· / m) := by
  rw [normalizeByMax] at h
  by_cases hm : isMeasure ((maximum? p).getD 0) = true
  · simp only [hm, if_true] at h
    exact ⟨_, isMeasure_iff.1 hm, (Except.ok.inj h).symm⟩
  · simp only [hm] at h
    cases h

/-- Weights that are all zero cannot be divided by the largest. -/
theorem normalizeByMax_of_zero {p : List K} (hp : ∀ x ∈ p, x = 0) :
    normalizeByMax p = .error (.degenerate (.badMaximum 0) .unknown) := by
  have hmax : (maximum? p).getD 0 = 0 := by
    rcases hm : maximum? p with _ | m
    · rfl
    · exact hp m (maximum?_eq_some hm).1
  simp [normalizeByMax, hmax]

/-- **Weights can be drawn from once they are divided by the largest**, if none is negative
    and not all of them are zero. -/
theorem exists_normalizeByMax {p : List K} (hp : ∀ x ∈ p, 0 ≤ x) (hpos : ∃ x ∈ p, x ≠ 0) :
    ∃ q total, normalizeByMax p = .ok q ∧ checkWeights q = .ok total := by
  obtain ⟨x, hx, hne⟩ := hpos
  have hx0 : 0 < x := lt_of_le_of_ne (hp x hx) hne.symm
  rcases hm : maximum? p with _ | m
  · cases p with
    | nil => cases hx
    | cons y ys => cases hm
  have hm0 : 0 < m := hx0.trans_le ((maximum?_eq_some hm).2 x hx)
  refine ⟨p.map (· / m), _, ?_, checkWeights_eq_ok.2 ⟨?_, ?_, rfl⟩⟩
  · simp [normalizeByMax, hm, hm0]
  · intro y hy
    obtain ⟨z, hz, rfl⟩ := List.mem_map.1 hy
    exact div_nonneg (hp z hz) hm0.le
  · refine sum_pos_of_exists_pos ?_ ⟨x / m, List.mem_map_of_mem hx, div_pos hx0 hm0⟩
    intro y hy
    obtain ⟨z, hz, rfl⟩ := List.mem_map.1 hy
    exact div_nonneg (hp z hz) hm0.le

end DirichletMixture
