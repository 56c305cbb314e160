/-
  DirichletMixture: weights on another scale.

  In exact arithmetic a common positive factor drops out when weights are brought to a
  common measure.  If they cannot be, the reason is the same, but a largest weight that is
  not positive is quoted on the scale on which it was found.

  * `Fault.unquoted` is a fault without that number;
  * `maximum?_scale`: the largest weight scales with the weights;
  * `normalizeByMax_scale` and `normalizeBySum_scale`: normalized weights do not.
-/
import Mathlib.Algebra.BigOperators.Ring.List
import Mathlib.Algebra.Order.BigOperators.Group.List
import DirichletMixture.Proofs.Exact.Basic

namespace DirichletMixture

/-- The fault without the largest weight that it quotes, if it quotes one.  Its kind, its
    site and everything else stay. -/
def Fault.unquoted {α : Type} [Zero α] : Fault α → Fault α
  | .degenerate (.badMaximum _) site => .degenerate (.badMaximum 0) site
  | e => e

/-- Locating a fault does not look at what it quotes. -/
theorem Fault.unquoted_locate {α : Type} [Zero α] (e : Fault α) (site : Site) :
    (e.locate site).unquoted = e.unquoted.locate site := by
  cases e with
  | degenerate cause s => cases cause <;> rfl
  | _ => rfl

variable {K : Type} [Exact K]

/-! ## The largest weight -/

theorem larger_scale {c : K} (hc : 0 < c) (m x : K) :
    larger (c * m) (c * x) = c * larger m x := by
  rw [larger_eq_max, larger_eq_max, mul_max_of_nonneg _ _ hc.le]

theorem maximum?_scale {c : K} (hc : 0 < c) (ws : List K) :
    maximum? (ws.map (c * ·)) = (maximum? ws).map (c * ·) := by
  have hfold : ∀ (ws : List K) (m : K),
      (ws.map (c * ·)).foldl larger (c * m) = c * ws.foldl larger m := by
    intro ws
    induction ws with
    | nil =>
      intro m
      rfl
    | cons w ws ih =>
      intro m
      rw [List.map_cons, List.foldl_cons, List.foldl_cons, larger_scale hc, ih]
  cases ws with
  | nil => rfl
  | cons w ws => exact congrArg some (hfold ws w)

/-! ## Normalized weights -/

theorem isMeasure_scale {c : K} (hc : 0 < c) (m : K) : isMeasure (c * m) = isMeasure m := by
  rw [Bool.eq_iff_iff, isMeasure_iff, isMeasure_iff, mul_pos_iff_of_pos_left hc]

theorem map_div_scale {c : K} (hc : 0 < c) (ws : List K) (m : K) :
    (ws.map (c * ·)).map (· / (c * m)) = ws.map (· / m) := by
  rw [List.map_map]
  refine List.map_congr_left ?_
  intro w _
  exact mul_div_mul_left w m hc.ne'

/-- **A common factor drops out** when weights are divided by the largest; if there is no
    positive one, only the number that is quoted depends on the factor. -/
theorem normalizeByMax_scale {c : K} (hc : 0 < c) (ws : List K) :
    (normalizeByMax (ws.map (c * ·))).mapError Fault.unquoted =
      (normalizeByMax ws).mapError Fault.unquoted := by
  have hmax : (maximum? (ws.map (c * ·))).getD 0 = c * (maximum? ws).getD 0 := by
    rw [maximum?_scale hc]
    cases maximum? ws with
    | none => exact (mul_zero c).symm
    | some m => rfl
  simp only [normalizeByMax, hmax, isMeasure_scale hc, map_div_scale hc]
  split <;> rfl

/-- **A common factor drops out** when weights that are not negative are divided by their
    sum, whether that can be done or not. -/
theorem normalizeBySum_scale {c : K} (hc : 0 < c) {ws : List K} (hws : ∀ w ∈ ws, 0 ≤ w) :
    normalizeBySum (ws.map (c * ·)) = normalizeBySum ws := by
  have hsum : (ws.map (c * ·)).sum = c * ws.sum := by
    rw [List.sum_map_mul_left, List.map_id']
  simp only [normalizeBySum, pairwiseSum_eq_sum, hsum, isMeasure_scale hc, map_div_scale hc]
  split
  · rfl
  · rename_i h
    -- weights that are not negative add up to zero if not to a positive number
    have hzero : ws.sum = 0 :=
      le_antisymm (not_lt.1 (mt isMeasure_iff.2 h)) (List.sum_nonneg hws)
    rw [hzero, mul_zero]

end DirichletMixture
