/-
  DirichletMixture: how far the parameters of a component can get.

  A component that is finalized takes the most plausible parameters.  What it observed can
  draw its mean away from the centre of the prior, but not beyond the observations, and it
  can shrink the variance only as far as the number of observations allows.

  * `Between` says that a number lies between the least and the greatest of some numbers,
    and `between_centerAfter` that the centre of a belief does;
  * `NormalModel.Bounded` are the bounds of a component, and `Holds.bounded_of_finalize` says
    that finalizing leads to them.
-/
import Mathlib.Data.Finset.Max
import DirichletMixture.Proofs.Normal.Redrawing

namespace DirichletMixture

variable {K : Type} [Exact K]

/-! ## Between the least and the greatest -/

/-- The number lies between the least and the greatest of some numbers. -/
def Between (Y : Multiset K) (x : K) : Prop :=
  ∃ least ∈ Y, ∃ greatest ∈ Y,
    (∀ y ∈ Y, least ≤ y ∧ y ≤ greatest) ∧ least ≤ x ∧ x ≤ greatest

/-- A number lies between them if it keeps all bounds that they keep. -/
theorem between_of_bounds {Y : Multiset K} {x : K} (hY : Y ≠ 0)
    (hlow : ∀ b, (∀ y ∈ Y, b ≤ y) → b ≤ x) (hhigh : ∀ b, (∀ y ∈ Y, y ≤ b) → x ≤ b) :
    Between Y x := by
  have hne : Y.toFinset.Nonempty := Multiset.toFinset_nonempty.2 hY
  obtain ⟨least, hleast, hmin⟩ := Y.toFinset.exists_min_image id hne
  obtain ⟨greatest, hgreatest, hmax⟩ := Y.toFinset.exists_max_image id hne
  have hle : ∀ y ∈ Y, least ≤ y := fun y hy => hmin y (Multiset.mem_toFinset.2 hy)
  have hge : ∀ y ∈ Y, y ≤ greatest := fun y hy => hmax y (Multiset.mem_toFinset.2 hy)
  exact ⟨least, Multiset.mem_toFinset.1 hleast, greatest, Multiset.mem_toFinset.1 hgreatest,
    fun y hy => ⟨hle y hy, hge y hy⟩, hlow least hle, hhigh greatest hge⟩

namespace NormalPrior

variable (p : NormalPrior K) {m b : K} {X : Multiset K}

theorem le_centerAfter (hm : b ≤ m) (hX : ∀ x ∈ X, b ≤ x) : b ≤ p.centerAfter m X := by
  have hsum : X.card * b ≤ X.sum := by
    rw [← nsmul_eq_mul]
    exact Multiset.card_nsmul_le_sum hX
  rw [centerAfter, le_div_iff₀ (p.precisionScale_add_card_pos X)]
  calc b * (p.precisionScale + X.card)
      = p.precisionScale * b + X.card * b := by ring
    _ ≤ p.precisionScale * m + X.sum :=
      add_le_add (mul_le_mul_of_nonneg_left hm p.precisionScale_pos.le) hsum

theorem centerAfter_le (hm : m ≤ b) (hX : ∀ x ∈ X, x ≤ b) : p.centerAfter m X ≤ b := by
  have hsum : X.sum ≤ X.card * b := by
    rw [← nsmul_eq_mul]
    exact Multiset.sum_le_card_nsmul _ _ hX
  rw [centerAfter, div_le_iff₀ (p.precisionScale_add_card_pos X)]
  calc p.precisionScale * m + X.sum
      ≤ p.precisionScale * b + X.card * b :=
        add_le_add (mul_le_mul_of_nonneg_left hm p.precisionScale_pos.le) hsum
    _ = b * (p.precisionScale + X.card) := by ring

/-- **The centre of a belief** lies between the centre of the prior and the observations. -/
theorem between_centerAfter (m : K) (X : Multiset K) :
    Between (m ::ₘ X) (p.centerAfter m X) := by
  refine between_of_bounds (Multiset.cons_ne_zero) ?_ ?_ <;> intro b hb <;>
    rw [Multiset.forall_mem_cons] at hb
  · exact p.le_centerAfter hb.1 hb.2
  · exact p.centerAfter_le hb.1 hb.2

end NormalPrior

/-! ## Finalized components -/

/-- A component with as many observations as there are vectors in `X`, where the prior has
    the given centre: its variances have a lower bound, and its mean lies between the centre
    and the vectors at every coordinate. -/
structure NormalModel.Bounded (prior : NormalPrior K) (center : List K)
    (X : Multiset (List K)) (m : NormalModel K) : Prop where
  count_eq : m.count = X.card
  length_mean : m.mean.length = prior.dimension
  length_variance : m.variance.length = prior.dimension
  mean_between : ∀ (i : Nat) (h : i < m.mean.length),
    Between (center.getD i 0 ::ₘ column i X) m.mean[i]
  variance_ge : ∀ v ∈ m.variance, prior.scale / (prior.shape + (m.count : K) / 2 + 1) ≤ v

theorem NormalModel.Holds.count_eq {prior : NormalPrior K} {X : Multiset (List K)}
    {m : NormalModel K} (h : m.Holds prior X) : m.count = X.card := by
  have hcount : (m.count : Int) = X.card := congrArg Statistics.count h.statistics_eq
  exact Int.natCast_inj.1 hcount

/-- **Finalized components are bounded** by what they hold. -/
theorem NormalModel.Holds.bounded_of_finalize {prior : NormalPrior K} {center : List K}
    {X : Multiset (List K)} {m m' : NormalModel K} (h : m.Holds prior X)
    (hc : prior.center = .ok center) (hcount : m.count ≠ 0) (hm : m.finalize = .ok m') :
    m'.Bounded prior center X := by
  have hholds := h.finalize hm
  unfold NormalModel.finalize at hm
  rw [if_neg hcount, h.prior_eq, h.posterior hc] at hm
  obtain rfl := Except.ok.inj hm
  refine ⟨hholds.count_eq, by simp [NormalPrior.conjugate], by simp [NormalPrior.conjugate],
    ?_, ?_⟩
  · intro i hi
    simp only [NormalPrior.conjugate, List.getElem_map, List.getElem_range]
    exact prior.between_centerAfter _ _
  · intro v hv
    obtain ⟨scale, hscale, rfl⟩ := List.mem_map.1 hv
    obtain ⟨i, -, rfl⟩ := List.mem_map.1 hscale
    have hdivisor : 0 < (prior.conjugate center X).shape + 1 :=
      add_pos (prior.proper_conjugate center X).shape_pos one_pos
    rw [hholds.count_eq]
    exact div_le_div_of_nonneg_right (prior.scale_le_scaleAfter _ _) hdivisor.le

end DirichletMixture
