/-
  DirichletMixture: indices drawn in double precision.

  Rounding keeps the order, so that much of what holds of exact weights holds of doubles as
  well: the threshold is at most the total, cumulative sums never fall, they rise only with
  positive weights, and where rounding pushes the threshold past the last sum, the last
  positive weight is taken.  But rounding may give zero: a threshold that is not above half
  of the smallest double is lost, and then the first index is taken, whatever its weight.

  * `pairwiseSum_closed`: a property that sums keep holds of the sum of a vector;
  * `rounds_drawThreshold`: the threshold is the exact one, rounded;
  * `exists_pos_of_locate_double`: a positive threshold is located at a positive weight;
  * `zero_weights_are_drawn_by_lost_thresholds_only` puts them together, and
    `lost_threshold_draws_a_zero_weight` is a draw that fails.
-/
import Mathlib.Algebra.Order.Field.Basic
import Mathlib.Tactic.FieldSimp
import Mathlib.Tactic.NormNum
import DirichletMixture.Proofs.Double.Arithmetic
import DirichletMixture.Proofs.Exact.Basic
import DirichletMixture.Proofs.Weights.Support

namespace DirichletMixture

open Double

variable {ω α : Type}

/-! ## What sums keep -/

section
variable [Scalar α] {P : α → Prop}

/-- All lanes have a property. -/
def Lanes.All (P : α → Prop) (l : Lanes α) : Prop :=
  ∀ x ∈ [l.l0, l.l1, l.l2, l.l3, l.l4, l.l5, l.l6, l.l7], P x

section
variable (hadd : ∀ {x y}, P x → P y → P (x + y))
include hadd

theorem foldl_closed {x : α} {xs : List α} (hx : P x) (hxs : ∀ y ∈ xs, P y) :
    P (xs.foldl (· + ·) x) := by
  induction xs generalizing x with
  | nil => exact hx
  | cons y ys ih =>
    obtain ⟨hy, hys⟩ := List.forall_mem_cons.1 hxs
    exact ih (hadd hx hy) hys

theorem Lanes.sum_closed {l : Lanes α} {xs : List α} (hl : l.All P) (hxs : ∀ y ∈ xs, P y) :
    P (l.sum xs) := by
  fun_induction Lanes.sum l xs with
  | case1 l x0 x1 x2 x3 x4 x5 x6 x7 xs ih =>
    simp only [Lanes.All, List.forall_mem_cons] at hl hxs ih
    obtain ⟨h0, h1, h2, h3, h4, h5, h6, h7, -⟩ := hl
    obtain ⟨k0, k1, k2, k3, k4, k5, k6, k7, hxs⟩ := hxs
    exact ih ⟨hadd h0 k0, hadd h1 k1, hadd h2 k2, hadd h3 k3, hadd h4 k4, hadd h5 k5, hadd h6 k6,
      hadd h7 k7, fun y hy => absurd hy List.not_mem_nil⟩ hxs
  | case2 l xs =>
    simp only [Lanes.All, List.forall_mem_cons] at hl
    obtain ⟨h0, h1, h2, h3, h4, h5, h6, h7, -⟩ := hl
    exact foldl_closed hadd (hadd (hadd (hadd h0 h1) (hadd h2 h3))
      (hadd (hadd h4 h5) (hadd h6 h7))) hxs

variable (hzero : P 0)
include hzero

theorem blockSum_closed {xs : List α} (hxs : ∀ y ∈ xs, P y) : P (blockSum xs) := by
  unfold blockSum
  split
  · rename_i x0 x1 x2 x3 x4 x5 x6 x7 xs
    simp only [List.forall_mem_cons] at hxs
    obtain ⟨k0, k1, k2, k3, k4, k5, k6, k7, hxs⟩ := hxs
    refine Lanes.sum_closed hadd ?_ hxs
    simp only [Lanes.All, List.forall_mem_cons]
    exact ⟨k0, k1, k2, k3, k4, k5, k6, k7, fun y hy => absurd hy List.not_mem_nil⟩
  · cases xs with
    | nil => exact hzero
    | cons x xs =>
      obtain ⟨hx, hxs⟩ := List.forall_mem_cons.1 hxs
      exact foldl_closed hadd hx hxs

theorem blockwiseSum_closed {xs : List α} (hxs : ∀ y ∈ xs, P y) : P (blockwiseSum xs) := by
  fun_induction blockwiseSum xs with
  | case1 xs h ih₁ ih₂ =>
    exact hadd (ih₁ fun y hy => hxs y (List.mem_of_mem_take hy))
      (ih₂ fun y hy => hxs y (List.mem_of_mem_drop hy))
  | case2 xs h => exact blockSum_closed hadd hzero hxs

/-- **What sums of two keep** holds of the sum of a vector. -/
theorem pairwiseSum_closed {xs : List α} (hxs : ∀ y ∈ xs, P y) : P (pairwiseSum xs) :=
  hadd hzero (blockwiseSum_closed hadd hzero hxs)

end

end

/-! ## Weights that are doubles -/

section
variable {x y u : Float} {w : List Float}

theorem nonneg_add (hx : Nonneg x) (hy : Nonneg y) : Nonneg (x + y) :=
  (rounds_add hx hy).nonneg (add_nonneg hx.value_nonneg hy.value_nonneg)

/-- A sum with nothing is not rounded. -/
theorem value_add_of_zero (hx : Nonneg x) (hy : Nonneg y) (hzero : value y = 0) :
    value (x + y) = value x := by
  have hrounds := rounds_add hx hy
  rw [hzero, add_zero] at hrounds
  exact hrounds.value_eq hx.representable hx.value_le_limit

theorem exceeds_iff_value (hu : Nonneg u) (hx : Nonneg x) :
    exceeds u x = true ↔ value x < value u := by
  have hu' := (nonneg_iff.1 hu).1
  have hx' := (nonneg_iff.1 hx).1
  have hexceeds : exceeds u x = (!x.isNaN && (u.isNaN || decide (x < u))) := rfl
  rw [hexceeds, hu', hx', Bool.not_false, Bool.true_and, Bool.false_or, decide_eq_true_iff, lt_iff,
    and_iff_right ⟨hx', hu'⟩]

theorem nonneg_iff_le : Nonneg x ↔ 0.0 ≤ x := by
  rw [nonneg_iff, le_iff, value_zero]
  exact ⟨fun h => ⟨⟨rfl, h.1⟩, h.2⟩, fun h => ⟨h.1.2, h.2⟩⟩

theorem pos_iff_value (hx : Nonneg x) : 0.0 < x ↔ 0 < value x := by
  rw [lt_iff, value_zero]
  exact and_iff_right ⟨rfl, (nonneg_iff.1 hx).1⟩

/-- If the total is positive, so is a weight. -/
theorem exists_pos_of_total (hw : ∀ x ∈ w, Nonneg x) (htotal : 0 < value (pairwiseSum w)) :
    ∃ x ∈ w, 0 < value x := by
  by_contra hnone
  have hzero : ∀ x ∈ w, Nonneg x ∧ value x = 0 := by
    intro x hx
    refine ⟨hw x hx, le_antisymm (not_lt.1 fun hpos => hnone ⟨x, hx, hpos⟩) ?_⟩
    exact (hw x hx).value_nonneg
  have hsum : Nonneg (pairwiseSum w) ∧ value (pairwiseSum w) = 0 := by
    refine pairwiseSum_closed ?_ ⟨nonneg_zero, value_zero⟩ hzero
    intro x y hx hy
    exact ⟨nonneg_add hx.1 hy.1, (value_add_of_zero hx.1 hy.1 hy.2).trans hx.2⟩
  exact htotal.ne' hsum.2

end

/-! ## Drawing -/

/-- When weights are not refused. -/
theorem checkWeights_of_sound [Scalar α] {w : List α} (hne : w ≠ [])
    (hw : ∀ x ∈ w, Scalar.isNaN x = false ∧ ¬ x < 0)
    (hfinite : Scalar.isFinite (pairwiseSum w) = true) (hpos : ¬ pairwiseSum w ≤ 0) :
    checkWeights w = .ok (pairwiseSum w) := by
  have hnan : (w.any fun x => Scalar.isNaN x) = false :=
    List.any_eq_false.2 fun x hx => Bool.eq_false_iff.1 (hw x hx).1
  have hneg : (w.any fun x => decide (x < 0)) = false :=
    List.any_eq_false.2 fun x hx => mt decide_eq_true_iff.1 (hw x hx).2
  have hmeasure : isMeasure (pairwiseSum w) = true := by
    rw [isMeasure, hfinite, decide_eq_false hpos]
    rfl
  rw [checkWeights, if_neg (mt List.isEmpty_iff.1 hne), hnan, hneg, Bool.or_false,
    if_neg Bool.false_ne_true, if_pos hmeasure]

section
variable {w : List Float}

/-- Weights that an index can be drawn with in double precision: they are finite and not
    negative, and so is their total, which is not zero. -/
structure UsableDoubles (w : List Float) : Prop where
  weights : ∀ x ∈ w, x.isFinite = true ∧ 0.0 ≤ x
  total_finite : (pairwiseSum w).isFinite = true
  total_pos : 0.0 < pairwiseSum w

theorem UsableDoubles.nonneg (hw : UsableDoubles w) : ∀ x ∈ w, Nonneg x :=
  fun x hx => nonneg_iff_le.2 (hw.weights x hx).2

theorem UsableDoubles.nonneg_total (hw : UsableDoubles w) : Nonneg (pairwiseSum w) :=
  pairwiseSum_closed (P := Nonneg) nonneg_add nonneg_zero hw.nonneg

theorem UsableDoubles.value_total_pos (hw : UsableDoubles w) : 0 < value (pairwiseSum w) :=
  (pos_iff_value hw.nonneg_total).1 hw.total_pos

theorem UsableDoubles.ne_nil (hw : UsableDoubles w) : w ≠ [] := by
  rintro rfl
  obtain ⟨x, hx, -⟩ := exists_pos_of_total hw.nonneg hw.value_total_pos
  exact List.not_mem_nil hx

theorem UsableDoubles.checkWeights_eq (hw : UsableDoubles w) :
    checkWeights w = .ok (pairwiseSum w) := by
  refine checkWeights_of_sound hw.ne_nil (fun x hx => ⟨(nonneg_iff.1 (hw.nonneg x hx)).1, ?_⟩)
    hw.total_finite ?_
  · intro hlt
    exact absurd (hw.nonneg x hx).value_nonneg (not_le.2 (lt_iff.1 hlt).2)
  · intro hle
    exact absurd (le_iff.1 hle).2 (not_le.2 hw.value_total_pos)

/-- A uniform draw of 53 bits. -/
structure IsUniformDraw (r : Float) (m : ℕ) : Prop where
  finite : r.isFinite = true
  value_eq : value r = m / 2 ^ 53
  lt : m < 2 ^ 53

theorem IsUniformDraw.nonneg {r : Float} {m : ℕ} (hr : IsUniformDraw r m) : Nonneg r := by
  refine nonneg_iff.2 ⟨isNaN_of_isFinite hr.finite, ?_⟩
  rw [hr.value_eq]
  positivity

/-- The complement of a uniform draw is not rounded. -/
theorem IsUniformDraw.complement {r : Float} {m : ℕ} (hr : IsUniformDraw r m) :
    Nonneg (1.0 - r) ∧ (1.0 - r).isFinite = true ∧ value (1.0 - r) = 1 - m / 2 ^ 53 := by
  have hle : (m : ℚ) / 2 ^ 53 ≤ 1 := by
    rw [div_le_one (by positivity)]
    exact_mod_cast hr.lt.le
  have hnonneg : (0 : ℚ) ≤ 1 - m / 2 ^ 53 := sub_nonneg.2 hle
  have hlimit : (1 : ℚ) - m / 2 ^ 53 < limit := by
    refine (sub_le_self 1 (by positivity)).trans_lt ?_
    rw [limit_eq]
    exact one_lt_zpow₀ one_lt_two (by decide)
  have hrepresentable : Representable (1 - m / 2 ^ 53) := by
    rcases Nat.eq_zero_or_pos m with rfl | hm
    · simpa using representable_natCast (n := 1) (by norm_num)
    · refine ⟨2 ^ 53 - m, -53, by omega, by decide, ?_⟩
      rw [Nat.cast_sub hr.lt.le, zpow_neg]
      push_cast
      field_simp
      ring
  have hrounds := rounds_sub nonneg_one hr.nonneg rfl (by rw [value_one, hr.value_eq]; exact hle)
  rw [value_one, hr.value_eq] at hrounds
  have hvalue := hrounds.value_eq hrepresentable hlimit.le
  exact ⟨hrounds.nonneg hnonneg,
    (hrounds.nonneg hnonneg).isFinite (hvalue ▸ hlimit), hvalue⟩

/-- The threshold that is located among the cumulative sums. -/
def drawThreshold (r : Float) (w : List Float) : Float := (1.0 - r) * pairwiseSum w

section
variable {r : Float} {m : ℕ}

/-- **The threshold** is the exact one, rounded. -/
theorem rounds_drawThreshold (hw : UsableDoubles w) (hr : IsUniformDraw r m) :
    Rounds ((1 - m / 2 ^ 53) * value (pairwiseSum w)) (drawThreshold r w) := by
  obtain ⟨hnonneg, hfinite, hvalue⟩ := hr.complement
  rw [← hvalue]
  exact rounds_mul hnonneg hw.nonneg_total hfinite hw.total_finite

theorem nonneg_drawThreshold (hw : UsableDoubles w) (hr : IsUniformDraw r m) :
    Nonneg (drawThreshold r w) := by
  refine (rounds_drawThreshold hw hr).nonneg ?_
  rw [← hr.complement.2.2]
  exact mul_nonneg hr.complement.1.value_nonneg hw.value_total_pos.le

/-- The threshold is not above the total. -/
theorem drawThreshold_le (hw : UsableDoubles w) (hr : IsUniformDraw r m) :
    drawThreshold r w ≤ pairwiseSum w := by
  have htotal := hw.nonneg_total
  refine le_iff.2 ⟨⟨(nonneg_iff.1 (nonneg_drawThreshold hw hr)).1, (nonneg_iff.1 htotal).1⟩, ?_⟩
  refine (rounds_drawThreshold hw hr).ge _ htotal.representable ?_
  refine mul_le_of_le_one_left htotal.value_nonneg (sub_le_self 1 ?_)
  positivity

/-- **When the threshold is lost**: it is zero if the exact one is at most half of the
    smallest double. -/
theorem drawThreshold_pos_iff (hw : UsableDoubles w) (hr : IsUniformDraw r m) :
    0.0 < drawThreshold r w ↔ 2 ^ (-1075 : ℤ) < (1 - m / 2 ^ 53) * value (pairwiseSum w) := by
  have hnonneg := nonneg_drawThreshold hw hr
  rw [pos_iff_value hnonneg, hnonneg.value_nonneg.lt_iff_ne', Ne,
    (rounds_drawThreshold hw hr).eq_zero_iff, not_le]

/-- A total above the smallest normal double leaves no threshold to be lost. -/
theorem drawThreshold_pos_of_normal (hw : UsableDoubles w) (hr : IsUniformDraw r m)
    (htotal : 2 ^ (-1022 : ℤ) < value (pairwiseSum w)) : 0.0 < drawThreshold r w := by
  have hstep : (2 : ℚ) ^ (-53 : ℤ) ≤ 1 - m / 2 ^ 53 := by
    have hm : (m : ℚ) + 1 ≤ 2 ^ 53 := by exact_mod_cast hr.lt
    rw [zpow_neg, le_sub_iff_add_le, zpow_ofNat, ← one_div, ← add_div, add_comm]
    exact (div_le_one (by positivity)).2 hm
  rw [drawThreshold_pos_iff hw hr]
  calc (2 : ℚ) ^ (-1075 : ℤ) = 2 ^ (-53 : ℤ) * 2 ^ (-1022 : ℤ) := by
        rw [← zpow_add₀ two_ne_zero]
        rfl
    _ < 2 ^ (-53 : ℤ) * value (pairwiseSum w) := mul_lt_mul_of_pos_left htotal (twoPow_pos _)
    _ ≤ (1 - m / 2 ^ 53) * value (pairwiseSum w) :=
      mul_le_mul_of_nonneg_right hstep hw.value_total_pos.le

/-- **A threshold that is not lost** is located at a positive weight, be it among the
    cumulative sums or past the last of them. -/
theorem exists_pos_of_locate_double (hw : UsableDoubles w) {u : Float} (hu : Nonneg u)
    (hpos : 0 < value u) : ∃ x, w[locate w u]? = some x ∧ 0.0 < x := by
  obtain ⟨y, hy, hypos⟩ := exists_pos_of_total hw.nonneg hw.value_total_pos
  have hstart : Nonneg 0.0 ∧ value 0.0 < value u := ⟨nonneg_zero, by rwa [value_zero]⟩
  refine exists_of_locate (Q := fun c => Nonneg c ∧ value c < value u) hstart
    (fun x hx c hc hexceeds => ?_) (fun x hx c hc hstop => ?_)
    (exists_pos_of_lastPositive ⟨y, hy, (pos_iff_value (hw.nonneg y hy)).2 hypos⟩)
  · have hsum := nonneg_add hc.1 (hw.nonneg x hx)
    exact ⟨hsum, (exceeds_iff_value hu hsum).1 hexceeds⟩
  · -- a weight of zero would leave the sum where it was
    rw [exceeds_iff_value hu (nonneg_add hc.1 (hw.nonneg x hx))] at hstop
    refine (pos_iff_value (hw.nonneg x hx)).2 ?_
    refine lt_of_le_of_ne (hw.nonneg x hx).value_nonneg fun hzero => hstop ?_
    rw [value_add_of_zero hc.1 (hw.nonneg x hx) hzero.symm]
    exact hc.2

/-- **A threshold that is lost** is located at the first index. -/
theorem locate_of_lost (hw : UsableDoubles w) {u : Float} (hu : Nonneg u) (hzero : value u = 0) :
    locate w u = 0 := by
  obtain ⟨x, xs, rfl⟩ := List.exists_cons_of_ne_nil hw.ne_nil
  have hsum : Nonneg (0.0 + x) := nonneg_add nonneg_zero (hw.nonneg x List.mem_cons_self)
  have hstay : ¬ exceeds u (0.0 + x) = true := by
    rw [exceeds_iff_value hu hsum, hzero]
    exact not_lt.2 hsum.value_nonneg
  have hfirst : insertionPoint u (cumulative (x :: xs)) = 0 := by
    rw [cumulative, cumulativeFrom, insertionPoint, List.takeWhile_cons]
    exact congrArg List.length (if_neg hstay)
  simp [locate, hfirst]

end

/-- **Weights of zero are drawn by lost thresholds only.**  With usable weights and any
    uniform draw of 53 bits, an index is drawn.  The threshold is not above the total; it is
    zero exactly if the threshold before rounding is at most half of the smallest double,
    which takes a total of at most the smallest normal double.  An index that is drawn with
    a threshold that is not zero has a positive weight; otherwise it is the first index. -/
theorem zero_weights_are_drawn_by_lost_thresholds_only (g : Generator ω Float) (s : ω)
    (hw : UsableDoubles w) {m : ℕ} (hr : IsUniformDraw (g.uniform s).1 m) :
    ∃ k x, (drawIndex g w).runOn s = (.ok k, (g.uniform s).2) ∧ w[k]? = some x ∧
      0.0 ≤ drawThreshold (g.uniform s).1 w ∧ drawThreshold (g.uniform s).1 w ≤ pairwiseSum w ∧
      (0.0 < drawThreshold (g.uniform s).1 w ↔
        2 ^ (-1075 : ℤ) < (1 - m / 2 ^ 53) * value (pairwiseSum w)) ∧
      (2 ^ (-1022 : ℤ) < value (pairwiseSum w) → 0.0 < drawThreshold (g.uniform s).1 w) ∧
      (0.0 < drawThreshold (g.uniform s).1 w → 0.0 < x) ∧
      (¬ 0.0 < drawThreshold (g.uniform s).1 w → k = 0) := by
  have hrun : (drawIndex g w).runOn s =
      (.ok (locate w (drawThreshold (g.uniform s).1 w)), (g.uniform s).2) :=
    drawIndex_eq_ok.2 ⟨_, hw.checkWeights_eq, rfl, rfl⟩
  have hnonneg := nonneg_drawThreshold hw hr
  have hle := drawThreshold_le hw hr
  have hiff := drawThreshold_pos_iff hw hr
  have hnormal := drawThreshold_pos_of_normal hw hr
  generalize drawThreshold (g.uniform s).1 w = u at *
  by_cases hpos : 0 < value u
  · obtain ⟨x, hx, hxpos⟩ := exists_pos_of_locate_double hw hnonneg hpos
    exact ⟨_, x, hrun, hx, nonneg_iff_le.1 hnonneg, hle, hiff, hnormal, fun _ => hxpos,
      fun hzero => absurd ((pos_iff_value hnonneg).2 hpos) hzero⟩
  · have hlost := locate_of_lost hw hnonneg (le_antisymm (not_lt.1 hpos) hnonneg.value_nonneg)
    obtain ⟨x, xs, rfl⟩ := List.exists_cons_of_ne_nil hw.ne_nil
    rw [hlost] at hrun
    exact ⟨0, x, hrun, rfl, nonneg_iff_le.1 hnonneg, hle, hiff, hnormal,
      fun hpos' => absurd ((pos_iff_value hnonneg).1 hpos') hpos, fun _ => rfl⟩

/-- The sum of these in lanes is larger than the sum from left to right. -/
def overshooting : List Float := 1.0 :: (List.replicate 7 1.1102230246251565e-16 ++ [0.0])

theorem usableDoubles_overshooting : UsableDoubles overshooting :=
  ⟨by decide +kernel, by decide +kernel, by decide +kernel⟩

/-- The threshold of the largest draw lies past all cumulative sums, and the index is that of
    a positive weight all the same. -/
theorem overshooting_threshold_draws_a_positive_weight :
    UsableDoubles overshooting ∧ IsUniformDraw 0.0 0 ∧
      insertionPoint (drawThreshold 0.0 overshooting) (cumulative overshooting) = 9 ∧
      ∃ k x, (drawIndex Script.generator overshooting).runOn ⟨[0.0], 0, 0⟩ = (.ok k, ⟨[], 0, 1⟩) ∧
        overshooting[k]? = some x ∧ 0.0 < x := by
  have hr : IsUniformDraw 0.0 0 :=
    ⟨by decide +kernel, by rw [value_zero, Nat.cast_zero, zero_div], by decide⟩
  obtain ⟨k, x, hrun, hx, -, -, -, -, hpos, -⟩ :=
    zero_weights_are_drawn_by_lost_thresholds_only Script.generator ⟨[0.0], 0, 0⟩
      usableDoubles_overshooting hr
  exact ⟨usableDoubles_overshooting, hr, by decide +kernel, k, x, hrun, hx,
    hpos (by decide +kernel)⟩

/-- A weight of zero before the smallest positive one. -/
def underflowing : List Float := [0.0, 5e-324]

/-- Half of the smallest double is rounded to zero, and a weight of zero is drawn. -/
theorem lost_threshold_draws_a_zero_weight :
    UsableDoubles underflowing ∧ IsUniformDraw 0.5 (2 ^ 52) ∧
      ¬ 0.0 < drawThreshold 0.5 underflowing ∧
      ∃ k x, (drawIndex Script.generator underflowing).runOn ⟨[0.5], 0, 0⟩ =
        (.ok k, ⟨[], 0, 1⟩) ∧ underflowing[k]? = some x ∧ ¬ 0.0 < x := by
  have hw : UsableDoubles underflowing := ⟨by decide +kernel, by decide +kernel, by decide +kernel⟩
  have hhalf : (0.5 : Float).toModel.unpack =
      .finite .positive (2 ^ 52) (-53) (Nat.two_pow_pos 52) := rfl
  have hr : IsUniformDraw 0.5 (2 ^ 52) := by
    refine ⟨by decide +kernel, ?_, by norm_num⟩
    rw [value, hhalf, rawValue_positive]
    norm_num
  have hlocate : 0 = locate underflowing (drawThreshold 0.5 underflowing) := by decide +kernel
  exact ⟨hw, hr, by decide +kernel, 0, 0.0,
    drawIndex_eq_ok.2 ⟨_, hw.checkWeights_eq, hlocate, rfl⟩, rfl, by decide +kernel⟩

end

end DirichletMixture
