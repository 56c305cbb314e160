/-
  DirichletMixture: the density of a normal component is a product.

  The coordinates of a normal component are independent of each other, but its density is
  not computed as a product: the squared distances of all coordinates are added up before
  one exponential is taken, and one square root is taken of everything that normalizes.
  Where the exponential of a sum and the root of a product are products, so is the density.

  * `densityOf` is the density as a function of lists, and `NormalModel.density_eq`: a
    component computes it;
  * `densityOf_append` splits it in two, and `densityOf_ofFn` down to single coordinates;
  * `density_factorizes` says both of components, and that the order of coordinates makes
    no difference.
-/
import Mathlib.Algebra.BigOperators.Fin
import Mathlib.Algebra.Order.BigOperators.GroupWithZero.List
import Mathlib.Tactic.Ring
import DirichletMixture.Proofs.Exact.Basic
import DirichletMixture.Proofs.Exact.Elementary
import DirichletMixture.Normal.Model

namespace DirichletMixture

variable {K : Type} [Exact K]

/-! ## The density of lists -/

/-- The density of independent coordinates with these means and variances at a vector. -/
def densityOf (mean variance v : List K) : K :=
  Exact.exp (-half * (List.zipWith (fun d s => square d / s)
      (List.zipWith (· - ·) v mean) variance).sum) /
    Exact.sqrt ((two * Exact.pi) ^ v.length * variance.prod)

section
variable (he : Elementary K)
include he

/-- **The density of joined vectors** is the product of their densities. -/
theorem densityOf_append {mean mean' variance variance' v v' : List K}
    (hmean : mean.length = v.length) (hvariance : variance.length = v.length)
    (hpos : ∀ s ∈ variance, 0 < s) (hpos' : ∀ s ∈ variance', 0 < s) :
    densityOf (mean ++ mean') (variance ++ variance') (v ++ v') =
      densityOf mean variance v * densityOf mean' variance' v' := by
  have hprod : ∀ l : List K, (∀ s ∈ l, 0 < s) → 0 ≤ l.prod := fun l hl =>
    List.prod_nonneg fun s hs => (hl s hs).le
  -- what stands under the root is a product of what stands under two roots
  have hroot : (two * Exact.pi : K) ^ (v.length + v'.length) * (variance.prod * variance'.prod) =
      ((two * Exact.pi) ^ v.length * variance.prod) *
        ((two * Exact.pi) ^ v'.length * variance'.prod) := by
    rw [pow_add]
    ring
  rw [densityOf, List.zipWith_append hmean.symm,
    List.zipWith_append (by rw [List.length_zipWith, hmean, hvariance, Nat.min_self]),
    List.sum_append, mul_add, he.exp_add, List.length_append, List.prod_append, hroot,
    he.sqrt_mul _ _ (mul_nonneg (he.circles_nonneg _) (hprod _ hpos))
      (mul_nonneg (he.circles_nonneg _) (hprod _ hpos')),
    mul_div_mul_comm, densityOf, densityOf]

/-- **The density is the product** of the densities of the single coordinates. -/
theorem densityOf_ofFn {d : Nat} (hd : 0 < d) (mean variance v : Fin d → K)
    (hpos : ∀ i, 0 < variance i) :
    densityOf (List.ofFn mean) (List.ofFn variance) (List.ofFn v) =
      ∏ i, densityOf [mean i] [variance i] [v i] := by
  obtain ⟨n, rfl⟩ := Nat.exists_eq_succ_of_ne_zero hd.ne'
  induction n with
  | zero => simp
  | succ n ih =>
    -- the first coordinate is split off
    have hcons : ∀ f : Fin (n + 1 + 1) → K, List.ofFn f = [f 0] ++ List.ofFn fun i => f i.succ :=
      fun f => List.ofFn_succ
    rw [hcons mean, hcons variance, hcons v, Fin.prod_univ_succ,
      ← ih (Nat.succ_pos n) _ _ _ fun i => hpos i.succ]
    refine densityOf_append he rfl rfl ?_ ?_
    · intro s hs
      rw [List.mem_singleton.1 hs]
      exact hpos 0
    · rw [List.forall_mem_ofFn_iff]
      exact fun i => hpos i.succ

end

/-! ## Components with given parameters -/

/-- A component has these means and variances of its coordinates. -/
structure NormalModel.HasParameters {d : Nat} (m : NormalModel K) (mean variance : Fin d → K) :
    Prop where
  dimension : m.prior.dimension = d
  mean : m.mean = List.ofFn mean
  variance : m.variance = List.ofFn variance

/-- An observation stands for a vector with these coordinates. -/
def Observation.Shows [Readable K] {d : Nat} (x : Observation K) (v : Fin d → K) : Prop :=
  x.vector? = .ok (List.ofFn v)

theorem NormalModel.densityAt_eq {m : NormalModel K} {v : List K}
    (hv : v.length = m.prior.dimension) : m.densityAt v = densityOf m.mean m.variance v := by
  rw [densityAt, deviations, pairwiseSum_eq_sum, normalizer, circles, ← List.prod_eq_foldl,
    densityOf, hv]
  rfl

theorem NormalModel.density_eq [Readable K] {d : Nat} {m : NormalModel K}
    {mean variance v : Fin d → K} {x : Observation K} (hm : m.HasParameters mean variance)
    (hx : x.Shows v) :
    m.density x = .ok (densityOf (List.ofFn mean) (List.ofFn variance) (List.ofFn v)) := by
  have hlength : (List.ofFn v).length = m.prior.dimension := by
    rw [List.length_ofFn, hm.dimension]
  have hvector : m.vector x = .ok (List.ofFn v) := by
    rw [vector, hx]
    exact if_pos hlength
  rw [density, hvector]
  simp only [bind, Except.bind, isFinite_exact, if_true, pure, Except.pure]
  rw [densityAt_eq hlength, hm.mean, hm.variance]

theorem NormalModel.HasParameters.dimension_pos {d : Nat} {m : NormalModel K}
    {mean variance : Fin d → K} (hm : m.HasParameters mean variance) : 0 < d :=
  hm.dimension ▸ m.prior.dimension_pos

/-- A component of one coordinate has a density at a number. -/
theorem NormalModel.density_of_single [Readable K] {m : NormalModel K} {mean variance v : K}
    {x : Observation K} (hm : m.HasParameters (fun _ : Fin 1 => mean) fun _ => variance)
    (hx : x.Shows fun _ : Fin 1 => v) :
    m.density x = .ok (densityOf [mean] [variance] [v]) :=
  density_eq hm hx

/-- **The density of a component factorizes**: it is the product of the densities of
    components of one coordinate each.  So it does not depend on the order of the
    coordinates, and joined vectors have the product of the densities of their parts. -/
theorem density_factorizes [Readable K] (he : Elementary K) {d : Nat} {m : NormalModel K}
    {mean variance v : Fin d → K} {x : Observation K} (hm : m.HasParameters mean variance)
    (hvariance : ∀ i, 0 < variance i) (hx : x.Shows v) :
    (∀ (c : Fin d → NormalModel K) (y : Fin d → Observation K),
      (∀ i, (c i).HasParameters (fun _ : Fin 1 => mean i) fun _ => variance i) →
      (∀ i, (y i).Shows fun _ : Fin 1 => v i) →
      ∃ q : Fin d → K, (∀ i, (c i).density (y i) = .ok (q i)) ∧ m.density x = .ok (∏ i, q i)) ∧
    (∀ (σ : Equiv.Perm (Fin d)) (m' : NormalModel K) (x' : Observation K),
      m'.HasParameters (mean ∘ σ) (variance ∘ σ) → x'.Shows (v ∘ σ) →
      m'.density x' = m.density x) ∧
    ∀ (d' : Nat) (mean' variance' v' : Fin d' → K) (m' m'' : NormalModel K)
      (x' x'' : Observation K), m'.HasParameters mean' variance' → (∀ i, 0 < variance' i) →
      x'.Shows v' → m''.HasParameters (Fin.append mean mean') (Fin.append variance variance') →
      x''.Shows (Fin.append v v') →
      ∃ p p', m.density x = .ok p ∧ m'.density x' = .ok p' ∧ m''.density x'' = .ok (p * p') := by
  refine ⟨?_, ?_, ?_⟩
  · intro c y hc hy
    refine ⟨_, fun i => NormalModel.density_of_single (hc i) (hy i), ?_⟩
    rw [NormalModel.density_eq hm hx, densityOf_ofFn he hm.dimension_pos _ _ _ hvariance]
  · intro σ m' x' hm' hx'
    rw [NormalModel.density_eq hm' hx', NormalModel.density_eq hm hx,
      densityOf_ofFn he hm.dimension_pos _ _ _ hvariance,
      densityOf_ofFn he hm.dimension_pos (mean ∘ σ) (variance ∘ σ) (v ∘ σ) fun i =>
        hvariance (σ i)]
    -- the factors are the same ones in another order
    exact congrArg Except.ok
      (Equiv.prod_comp σ fun i => densityOf [mean i] [variance i] [v i])
  · intro d' mean' variance' v' m' m'' x' x'' hm' hvariance' hx' hm'' hx''
    refine ⟨_, _, NormalModel.density_eq hm hx, NormalModel.density_eq hm' hx', ?_⟩
    rw [NormalModel.density_eq hm'' hx'', List.ofFn_fin_append, List.ofFn_fin_append,
      List.ofFn_fin_append, densityOf_append he]
    · rw [List.length_ofFn, List.length_ofFn]
    · rw [List.length_ofFn, List.length_ofFn]
    · exact List.forall_mem_ofFn_iff.2 hvariance
    · exact List.forall_mem_ofFn_iff.2 hvariance'

/-! ## Components of real numbers -/

/-- A component with these parameters and no observations. -/
noncomputable def realNormal {d : Nat} (hd : 0 < d) (mean variance : Fin d → ℝ) :
    NormalModel ℝ :=
  .fresh ⟨.scalar 0, 1, 1, 1, d, hd, one_pos, one_pos, one_pos⟩ (List.ofFn mean)
    (List.ofFn variance)

theorem realNormal_hasParameters {d : Nat} (hd : 0 < d) (mean variance : Fin d → ℝ) :
    (realNormal hd mean variance).HasParameters mean variance :=
  ⟨rfl, rfl, rfl⟩

/-- The vector with these coordinates. -/
def realPoint {d : Nat} (v : Fin d → ℝ) : Observation ℝ :=
  .value (.ofList (List.ofFn v))

theorem realPoint_shows {d : Nat} (v : Fin d → ℝ) : (realPoint v).Shows v := by
  simp [realPoint, Observation.Shows, Observation.vector?]

/-- In the plane, with means 0 and 1 and variances 1 and 4, the density at (1, 3) is the
    product of two densities on the line. -/
theorem density_factorizes_in_the_plane :
    (∀ i : Fin 2, (0 : ℝ) < ![1, 4] i) ∧
    ∃ q : Fin 2 → ℝ,
      (∀ i, (realNormal one_pos (fun _ => ![0, 1] i) fun _ => ![1, 4] i).density
        (realPoint fun _ : Fin 1 => ![1, 3] i) = .ok (q i)) ∧
      (realNormal two_pos ![0, 1] ![1, 4]).density (realPoint ![1, 3]) = .ok (∏ i, q i) := by
  have hpos : ∀ i : Fin 2, (0 : ℝ) < ![1, 4] i := by
    rw [Fin.forall_fin_two]
    exact ⟨one_pos, four_pos⟩
  exact ⟨hpos, (density_factorizes elementary_real (realNormal_hasParameters two_pos _ _) hpos
    (realPoint_shows _)).1 _ _ (fun i => realNormal_hasParameters one_pos _ _)
    fun i => realPoint_shows _⟩

end DirichletMixture
