/-
  DirichletMixture: one pass over the observations in place of two.

  A component adds up its observations and their squares in one pass.  The textbook takes
  the mean first and then, in a second pass, the squared distances from it.  In exact
  arithmetic both come to the same belief: what the squares have on top of the mean is the
  spread around it, so it is never negative and never cut off at zero.

  * `spreadAround_eq_zero_iff` and `spreadAround_meanOf_eq_zero_iff`: there is no spread
    exactly if all numbers agree;
  * `NormalPrior.posterior_of_statistics_eq_map` and `NormalModel.Holds.finalize_eq_map`: what the
    statistics lead to, whether the prior has a centre or not;
  * `one_pass_is_enough` puts this together.
-/
import Mathlib.Algebra.Order.BigOperators.Group.Multiset
import DirichletMixture.Proofs.Exact.Basic
import DirichletMixture.Proofs.Normal.Batches
import DirichletMixture.Proofs.Normal.Bounds

namespace DirichletMixture

variable {ω K : Type} [Exact K]

/-! ## Numbers without spread -/

theorem spreadAround_cons (c x : K) (X : Multiset K) :
    spreadAround c (x ::ₘ X) = (x - c) ^ 2 + spreadAround c X := by
  rw [spreadAround, Multiset.map_cons, Multiset.sum_cons, spreadAround]

theorem spreadAround_eq_zero_iff {c : K} {X : Multiset K} :
    spreadAround c X = 0 ↔ ∀ x ∈ X, x = c := by
  induction X using Multiset.induction_on with
  | empty => simp [spreadAround]
  | cons x X ih =>
    rw [spreadAround_cons, add_eq_zero_iff_of_nonneg (sq_nonneg _) (spreadAround_nonneg c X), ih,
      Multiset.forall_mem_cons, sq_eq_zero_iff, sub_eq_zero]

/-- Numbers are not spread around their mean exactly if they agree. -/
theorem spreadAround_meanOf_eq_zero_iff {X : Multiset K} (hX : (X.card : K) ≠ 0) :
    spreadAround (meanOf X) X = 0 ↔ ∀ x ∈ X, ∀ y ∈ X, x = y := by
  rw [spreadAround_eq_zero_iff]
  constructor
  · intro h x hx y hy
    rw [h x hx, h y hy]
  · intro h x hx
    have hall : X = Multiset.replicate X.card x :=
      Multiset.eq_replicate_card.2 fun y hy => h y hy x hx
    have hsum : X.sum = X.card • x := (congrArg Multiset.sum hall).trans (Multiset.sum_replicate _ _)
    rw [meanOf, hsum, nsmul_eq_mul, mul_div_cancel_left₀ _ hX]

/-- What the squares have on top of the mean is the spread around it. -/
theorem squares_sub_eq_spreadAround {X : Multiset K} (hX : (X.card : K) ≠ 0) :
    (X.map (· ^ 2)).sum - X.card * square (X.sum / X.card) = spreadAround (meanOf X) X := by
  rw [square, ← pow_two, ← meanOf, ← spreadAround_meanOf hX]

/-! ## Priors with and without a centre -/

theorem NormalPrior.posterior_of_statistics_eq_map (p : NormalPrior K) (X : Multiset (List K)) :
    p.posterior (Statistics.of p.dimension X) = p.center.map (p.conjugate · X) := by
  rcases hcenter : p.center with e | center
  · exact posterior_of_center_eq_error hcenter _
  · exact posterior_of_statistics hcenter X

namespace NormalModel

variable {prior : NormalPrior K} {X : Multiset (List K)} {m : NormalModel K}

theorem Holds.posterior_eq_map (h : m.Holds prior X) :
    prior.posterior m.statistics = prior.center.map (prior.conjugate · X) := by
  rw [h.statistics_eq, prior.posterior_of_statistics_eq_map]

/-- A component with observations takes the most plausible parameters of its belief. -/
theorem Holds.finalize_eq_map (h : m.Holds prior X) (hX : X.card ≠ 0) :
    m.finalize = prior.center.map fun center =>
      { m with
        mean := (prior.conjugate center X).mean
        variance := (prior.conjugate center X).scale.map
          (· / ((prior.conjugate center X).shape + 1)) } := by
  have hcount : m.count ≠ 0 := h.count_eq ▸ hX
  rw [NormalModel.finalize, if_neg hcount, h.prior_eq, h.posterior_eq_map]
  rcases prior.center with e | center <;> rfl

theorem Holds.getElem?_statistics (h : m.Holds prior X) {i : Nat} (hi : i < prior.dimension) :
    m.sum[i]? = some (column i X).sum ∧
      m.squares[i]? = some ((column i X).map (· ^ 2)).sum := by
  obtain ⟨-, hsum, hsquares⟩ := Statistics.mk.inj h.statistics_eq
  rw [hsum, hsquares]
  constructor <;> rw [List.getElem?_map, List.getElem?_range hi, Option.map_some]

variable [Readable K]

/-- Observations with an entry for each coordinate are taken in. -/
theorem Holds.exists_observeAll (g : Generator ω K) (h : m.Holds prior X)
    {xs : List (Observation K)} (hxs : ∀ x ∈ xs, x.Spans prior.dimension) :
    ∃ m', (normalFamily g prior).observeAll m xs = .ok m' ∧
      m'.Holds prior (X + (xs.map Observation.point : List _)) := by
  induction xs generalizing m X with
  | nil => exact ⟨m, rfl, by simpa using h⟩
  | cons x xs ih =>
    obtain ⟨hx, hrest⟩ := List.forall_mem_cons.1 hxs
    rw [← h.prior_eq] at hx
    have hobserve : m.observe x = .ok (m.absorb x.point) :=
      map_eq_ok.2 ⟨_, vector_eq_ok.2 ⟨hx, rfl⟩, rfl⟩
    obtain ⟨m', hm', hholds⟩ := ih (h.observe hobserve).2 hrest
    refine ⟨m', ?_, ?_⟩
    · rw [Component.observeAll]
      exact bind_eq_ok.2 ⟨_, hobserve, hm'⟩
    · rw [List.map_cons, ← Multiset.cons_coe, Multiset.add_cons, ← Multiset.cons_add]
      exact hholds

end NormalModel

/-- **One pass is enough.**  In exact arithmetic, let a fresh component of any prior observe
    some vectors of its dimension, at least one, in order.  It takes all of them in.  At each
    coordinate, what its sum of squares has on top of the mean is the spread of the vectors
    around their mean: this is not negative, so that nothing is cut off, and zero exactly if
    the vectors agree at the coordinate.  So the statistics lead to the belief that is
    computed in two passes, and finalizing the component takes the mean of this belief and
    the most plausible variance.  All this is so if the prior has a centre; if it has none,
    both fail for that. -/
theorem one_pass_is_enough [Readable K] (g : Generator ω K) (prior : NormalPrior K)
    (mean variance : List K) {xs : List (Observation K)} (hxs : xs ≠ [])
    (hspans : ∀ x ∈ xs, x.Spans prior.dimension) {X : Multiset (List K)}
    (hX : (xs.map Observation.point : List (List K)) = X) :
    ∃ m, (normalFamily g prior).observeAll (.fresh prior mean variance) xs = .ok m ∧
      (∀ i < prior.dimension, ∃ s q, m.sum[i]? = some s ∧ m.squares[i]? = some q ∧
        0 ≤ q - xs.length * square (s / xs.length) ∧
        larger (q - xs.length * square (s / xs.length)) 0 =
          q - xs.length * square (s / xs.length) ∧
        (q - xs.length * square (s / xs.length) = 0 ↔
          ∀ x ∈ xs, ∀ y ∈ xs, x.point.getD i 0 = y.point.getD i 0)) ∧
      prior.posterior m.statistics = (prior.center.map fun center =>
        { mean := (List.range prior.dimension).map fun i =>
            prior.centerAfter (center.getD i 0) (column i X)
          precisionScale := prior.precisionScale + xs.length
          shape := prior.shape + xs.length / 2
          scale := (List.range prior.dimension).map fun i =>
            prior.scaleAfter (center.getD i 0) (column i X) }) ∧
      m.finalize = prior.center.map fun center =>
        { m with
          mean := (List.range prior.dimension).map fun i =>
            prior.centerAfter (center.getD i 0) (column i X)
          variance := (List.range prior.dimension).map fun i =>
            prior.scaleAfter (center.getD i 0) (column i X) /
              (prior.shape + xs.length / 2 + 1) } := by
  obtain ⟨m, hm, hholds⟩ :=
    (NormalModel.holds_fresh prior mean variance).exists_observeAll g hspans
  rw [zero_add, hX] at hholds
  have hcard : X.card = xs.length := by
    rw [← hX, Multiset.coe_card, List.length_map]
  have hne : X.card ≠ 0 := hcard ▸ mt List.length_eq_zero_iff.1 hxs
  refine ⟨m, hm, ?_, ?_, ?_⟩
  · intro i hi
    obtain ⟨hsum, hsquares⟩ := hholds.getElem?_statistics hi
    have hcolumn : ((column i X).card : K) ≠ 0 := by
      rw [card_column]
      exact Nat.cast_ne_zero.2 hne
    have hspread := squares_sub_eq_spreadAround hcolumn
    rw [card_column, hcard] at hspread
    refine ⟨_, _, hsum, hsquares, ?_, ?_, ?_⟩
    · rw [hspread]
      exact spreadAround_nonneg _ _
    · rw [hspread, larger_eq_max, max_eq_left (spreadAround_nonneg _ _)]
    · rw [hspread, spreadAround_meanOf_eq_zero_iff hcolumn, ← hX]
      simp [column]
  · rw [hholds.posterior_eq_map, ← hcard]
    rfl
  · rw [hholds.finalize_eq_map hne, ← hcard]
    simp only [NormalPrior.conjugate, List.map_map, Function.comp_def]

/-- Two points of the plane that agree in the second coordinate, where the variance is all
    from the prior and the distance of its centre. -/
theorem two_points_agree_in_one_coordinate :
    ∃ m m', (normalFamily Script.seeded NormalPrior.plane).observeAll
        (.fresh NormalPrior.plane [0, 0] [1, 1])
        [.value (.ofList [1, 2]), .value (.ofList [3, 2])] = .ok m ∧
      (∃ s q, m.sum[1]? = some s ∧ m.squares[1]? = some q ∧ q - 2 * square (s / 2) = 0) ∧
      m.finalize = .ok m' ∧ m'.mean = [4 / 3, 5 / 3] ∧ m'.variance = [10 / 9, 4 / 9] := by
  obtain ⟨m, hm, hat, -, hfinalize⟩ := one_pass_is_enough Script.seeded NormalPrior.plane
    [0, 0] [1, 1] (List.cons_ne_nil (.value (.ofList [1, 2])) [.value (.ofList [3, 2])])
    (by simp [Observation.Spans, Observation.point, Observation.vector?, NormalPrior.plane]) rfl
  obtain ⟨s, q, hs, hq, -, -, hagree⟩ := hat 1 (by decide)
  have hcenter : NormalPrior.plane.center = .ok [0, 1] := rfl
  rw [hcenter] at hfinalize
  refine ⟨m, _, hm, ⟨s, q, hs, hq, ?_⟩, hfinalize, ?_, ?_⟩
  · refine hagree.2 ?_
    simp [Observation.point, Observation.vector?]
  · norm_num [NormalPrior.plane, NormalPrior.standard, List.range_succ, NormalPrior.centerAfter,
      column, Observation.point, Observation.vector?]
  · norm_num [NormalPrior.plane, NormalPrior.standard, List.range_succ, NormalPrior.scaleAfter,
      spreadAround, meanOf, column, Observation.point, Observation.vector?]

end DirichletMixture
