/-
  DirichletMixture: normal components never divide by zero.

  A component, a prior and a generator can be taken over to checked numbers, where a
  quotient by zero is undefined.  There beliefs, draws and densities are those that they are
  in exact arithmetic, so nothing that is undefined ever comes up.

  * `NormalModel.checked` and its neighbours take the data over;
  * `NormalPrior.posterior_checked` and `NormalModel.finalize_checked`: beliefs and final
    parameters never divide by zero;
  * `NormalModel.Spread.density_checked`: the density of a component with positive variances
    does not, if positive numbers have positive roots;
  * `fromPosterior_checked` and `fromPrior_checked`: drawing components does not, if
    precisions come out positive.
-/
import Mathlib.Algebra.Order.BigOperators.GroupWithZero.List
import DirichletMixture.Proofs.Exact.Checked
import DirichletMixture.Proofs.Nested
import DirichletMixture.Proofs.Normal.Redrawing

namespace DirichletMixture

variable {ω K : Type} [Exact K]

open Checked (value)

/-! ## Data over checked numbers -/

def NormalPrior.checked (p : NormalPrior K) : NormalPrior (Checked K) where
  mean := p.mean.map value
  precisionScale := value p.precisionScale
  shape := value p.shape
  scale := value p.scale
  dimension := p.dimension
  dimension_pos := p.dimension_pos
  precisionScale_pos := p.precisionScale_pos
  shape_pos := p.shape_pos
  scale_pos := p.scale_pos

def Belief.checked (b : Belief K) : Belief (Checked K) :=
  ⟨b.mean.map value, value b.precisionScale, value b.shape, b.scale.map value⟩

def Statistics.checked (s : Statistics K) : Statistics (Checked K) :=
  ⟨s.count, s.sum.map value, s.squares.map value⟩

def NormalModel.checked (m : NormalModel K) : NormalModel (Checked K) where
  prior := m.prior.checked
  mean := m.mean.map value
  variance := m.variance.map value
  count := m.count
  sum := m.sum.map value
  squares := m.squares.map value

def Observation.checked : Observation K → Observation (Checked K)
  | .label text => .label text
  | .value x => .value (x.map Checked.value)

/-! ## Beliefs -/

theorem stretch_map {α β : Type} (f : α → β) (n : Nat) (xs : List α) :
    stretch n (xs.map f) = (stretch n xs).map f := by
  match xs with
  | [] => rfl
  | [x] => exact (List.map_replicate).symm
  | _ :: _ :: _ => rfl

theorem map_map_comm {α α' β β' : Type} {f : α → β} {f' : α' → β'} {U : β → β'} {V : α → α'}
    {xs : List α} (h : ∀ x ∈ xs, f' (V x) = U (f x)) : (xs.map V).map f' = (xs.map f).map U := by
  rw [List.map_map, List.map_map]
  exact List.map_congr_left h

theorem zipWith_map_comm {α α' β β' γ γ' : Type} {f : α → β → γ} {f' : α' → β' → γ'} {U : γ → γ'}
    {V : α → α'} {W : β → β'} {xs : List α} {ys : List β}
    (h : ∀ x, ∀ y ∈ ys, f' (V x) (W y) = U (f x y)) :
    List.zipWith f' (xs.map V) (ys.map W) = (List.zipWith f xs ys).map U := by
  induction xs generalizing ys with
  | nil => rfl
  | cons x xs ih =>
    cases ys with
    | nil => rfl
    | cons y ys =>
      obtain ⟨hy, hys⟩ := List.forall_mem_cons.1 (fun y hy x => h x y hy)
      simp only [List.map_cons, List.zipWith_cons_cons, hy, ih fun x y hy => hys y hy x]

namespace NormalPrior

variable (p : NormalPrior K)

@[simp] theorem dimension_checked : p.checked.dimension = p.dimension := rfl

theorem checkDimension_checked :
    p.checked.checkDimension.toOption = p.checkDimension.toOption := by
  unfold checkDimension
  rw [dimension_checked]
  split <;> rfl

theorem center_checked : p.checked.center.toOption = p.center.toOption.map (List.map value) := by
  have hmean : p.checked.mean = p.mean.map value := rfl
  unfold center
  rw [toOption_bind, toOption_bind, checkDimension_checked, Option.map_bind, hmean,
    dimension_checked]
  refine Option.bind_congr fun _ _ => ?_
  rcases p.mean with x | xs
  · exact congrArg some (List.map_replicate).symm
  · have hshape := Nested.shape?_map value (.list xs)
    simp only [Nested.map] at hshape ⊢
    rw [hshape, Nested.flattenAll_mapAll, stretch_map]
    rcases (Nested.list xs).shape? with _ | _ | ⟨n, _ | _⟩
    · rfl
    · rfl
    · dsimp only
      split <;> rfl
    · rfl

theorem initial_checked :
    p.checked.initial.toOption = p.initial.toOption.map Belief.checked := by
  rw [initial, initial, toOption_map, toOption_map, center_checked, Option.map_map, Option.map_map]
  congr 1
  funext mean
  simp only [Function.comp_apply, Belief.checked, List.map_replicate]
  rfl

variable {p} in
theorem updatedMean_checked {n : K} (hn : 0 ≤ n) (m s : K) :
    p.checked.updatedMean (value n) (value m) (value s) = value (p.updatedMean n m s) :=
  Checked.value_div (add_pos_of_pos_of_nonneg p.precisionScale_pos hn).ne'

variable {p} in
theorem updatedScale_checked {n : K} (hn : 0 < n) (m s q : K) :
    p.checked.updatedScale (value n) (value m) (value s) (value q) =
      value (p.updatedScale n m s q) := by
  have hdivisor : two * (p.precisionScale + n) ≠ 0 :=
    (mul_pos scalarTwo_pos (add_pos p.precisionScale_pos hn)).ne'
  simp only [updatedScale, checked, Checked.zero_eq, Checked.two_eq_value, Checked.half_eq_value,
    Checked.value_div hn.ne', Checked.value_add, Checked.value_sub, Checked.value_mul,
    Checked.square_value, Checked.larger_value, Checked.value_div hdivisor]

variable {p} in
theorem updatedMeans_checked {n : K} (hn : 0 ≤ n) (ms ss : List K) :
    List.zipWith (p.checked.updatedMean (value n)) (ms.map value) (ss.map value) =
      (List.zipWith (p.updatedMean n) ms ss).map value :=
  zipWith_map_comm fun _ _ _ => updatedMean_checked hn _ _

variable {p} in
theorem updatedScales_checked {n : K} (hn : 0 < n) (ms ss qs : List K) :
    List.zipWith (fun m sq => p.checked.updatedScale (value n) m sq.1 sq.2) (ms.map value)
        ((ss.map value).zip (qs.map value)) =
      (List.zipWith (fun m sq => p.updatedScale n m sq.1 sq.2) ms (ss.zip qs)).map value := by
  rw [List.zip_map]
  exact zipWith_map_comm fun _ _ _ => updatedScale_checked hn _ _ _

/-- **Beliefs never divide by zero**, whatever the statistics are. -/
theorem posterior_checked {s : Statistics K} (hs : 0 ≤ s.count) :
    (p.checked.posterior s.checked).toOption = (p.posterior s).toOption.map Belief.checked := by
  have hcount : s.checked.count = s.count := rfl
  unfold posterior
  rcases toOption_eq_map p.initial_checked with ⟨e, e', h, h'⟩ | ⟨b, h, h'⟩ <;> rw [h, h']
  · rfl
  simp only [Except.bind]
  rw [hcount]
  by_cases hzero : s.count = 0
  · rw [if_pos hzero, if_pos hzero]
    rfl
  rw [if_neg hzero, if_neg hzero]
  have hn : (0 : K) < s.count := Int.cast_pos.2 (lt_of_le_of_ne hs (Ne.symm hzero))
  have hmean : b.checked.mean = b.mean.map value := rfl
  have hsum : s.checked.sum = s.sum.map value := rfl
  have hsquares : s.checked.squares = s.squares.map value := rfl
  rw [hmean, hsum, hsquares]
  simp only [List.length_map, stretch_map, Checked.intCast_eq, Checked.isFinite_value,
    isFinite_exact, Bool.not_true, Bool.false_eq_true, if_false]
  -- the vectors have a common length over checked numbers if they have one at all
  rcases commonLength? [b.mean.length, s.sum.length] with _ | k
  · rfl
  rcases commonLength? [b.mean.length, s.sum.length, s.squares.length] with _ | l
  · rfl
  dsimp only
  rw [updatedMeans_checked hn.le, updatedScales_checked hn, Checked.two_eq_value,
    Checked.value_div scalarTwo_pos.ne']
  rfl

end NormalPrior

/-! ## Components -/

namespace NormalModel

variable (m : NormalModel K)

/-- **Final parameters never divide by zero**, whatever a component has observed. -/
theorem finalize_checked : m.checked.finalize.toOption = m.finalize.toOption.map checked := by
  have hcount : m.checked.count = m.count := rfl
  have hnonneg : 0 ≤ m.statistics.count := Int.natCast_nonneg m.count
  unfold finalize
  rw [hcount]
  by_cases hzero : m.count = 0
  · rw [if_pos hzero, if_pos hzero]
    rfl
  rw [if_neg hzero, if_neg hzero, toOption_map, toOption_map]
  have hbelief : (m.checked.prior.posterior m.checked.statistics).toOption =
      (m.prior.posterior m.statistics).toOption.map Belief.checked :=
    m.prior.posterior_checked hnonneg
  rw [hbelief, Option.map_map, Option.map_map]
  rcases h : m.prior.posterior m.statistics with e | b
  · rfl
  have hdivisor : b.shape + 1 ≠ 0 :=
    (add_pos (positive_of_posterior h).shape_pos one_pos).ne'
  have hvariance : b.checked.scale.map (· / (b.checked.shape + 1)) =
      (b.scale.map (· / (b.shape + 1))).map value :=
    map_map_comm fun _ _ => Checked.value_div hdivisor
  simp only [Except.toOption, Option.map_some, Function.comp_apply, hvariance]
  rfl

end NormalModel

/-! ## Densities -/

/-- The root of a positive number is positive, and so is the ratio of a circle. -/
structure PositiveRoots (K : Type) [Exact K] : Prop where
  pi_pos : 0 < (Scalar.pi : K)
  sqrt_pos : ∀ x : K, 0 < x → 0 < Scalar.sqrt x

theorem positiveRoots_rat : PositiveRoots ℚ where
  pi_pos := by norm_num [Scalar.pi, Exact.pi]
  sqrt_pos q hq := by
    have hnum : 0 < Int.sqrt q.num :=
      Int.natCast_pos.2 (Nat.sqrt_pos.2 (Int.lt_toNat.2 (Rat.num_pos.2 hq)))
    have hden : 0 < Nat.sqrt q.den := Nat.sqrt_pos.2 q.den_pos
    change 0 < mkRat (Int.sqrt q.num) (Nat.sqrt q.den)
    rw [Rat.mkRat_eq_div]
    exact div_pos (Int.cast_pos.2 hnum) (Nat.cast_pos.2 hden)

omit [Exact K] in
theorem Observation.vector?_checked [Readable K] (x : Observation K) :
    x.checked.vector?.toOption = x.vector?.toOption.map (List.map Checked.value) := by
  rcases x with text | x
  · have hread : (readScalar? text : Option (Checked K)) =
        (readScalar? text).map Checked.value := by
      rw [readScalar?, readScalar?, Option.map_map]
      rfl
    simp only [checked, vector?, hread]
    rcases (readScalar? text : Option K) with _ | x <;> rfl
  · simp only [checked, vector?, Nested.entries?_map]
    rcases x.entries? with _ | xs <;> rfl

namespace NormalModel

variable (m : NormalModel K)

theorem vector_checked [Readable K] (x : Observation K) :
    (m.checked.vector x.checked).toOption = (m.vector x).toOption.map (List.map value) := by
  have hd : m.checked.prior.dimension = m.prior.dimension := m.prior.dimension_checked
  unfold vector
  rw [toOption_bind, toOption_bind, x.vector?_checked, Option.map_bind, Option.bind_map]
  refine Option.bind_congr fun v _ => ?_
  simp only [Function.comp_apply, hd, List.length_map]
  split <;> rfl

theorem circles_checked : m.checked.circles = value m.circles := rfl

theorem foldl_mul_checked (x : K) (xs : List K) :
    (xs.map value).foldl (· * ·) (value x) = value (xs.foldl (· * ·) x) := by
  induction xs generalizing x with
  | nil => rfl
  | cons y ys ih => exact ih (x * y)

variable {m} (hm : m.Spread)
include hm

theorem Spread.deviations_checked (v : List K) :
    m.checked.deviations (v.map value) = (m.deviations v).map value := by
  have hdifference : List.zipWith (· - ·) (v.map value) m.checked.mean =
      (List.zipWith (· - ·) v m.mean).map value :=
    zipWith_map_comm fun _ _ _ => rfl
  rw [deviations, hdifference]
  exact zipWith_map_comm fun _ s hs => Checked.value_div (hm s hs).ne'

/-- The divisor in the density is positive. -/
theorem Spread.normalizer_pos (hK : PositiveRoots K) : 0 < m.normalizer := by
  have hcircles : 0 < m.circles := pow_pos (mul_pos scalarTwo_pos hK.pi_pos) _
  have hproduct : 0 < m.variance.foldl (· * ·) 1 := by
    rw [← List.prod_eq_foldl]
    exact List.prod_pos hm
  exact hK.sqrt_pos _ (mul_pos hcircles hproduct)

/-- **Densities never divide by zero.** -/
theorem Spread.density_checked [Readable K] (hK : PositiveRoots K) (x : Observation K) :
    (m.checked.density x.checked).toOption = (m.density x).toOption.map value := by
  have hnormalizer : m.checked.normalizer = value m.normalizer := by
    have hproduct := foldl_mul_checked 1 m.variance
    rw [normalizer, circles_checked]
    exact congrArg (fun y => Scalar.sqrt (value m.circles * y)) hproduct
  unfold density
  rw [toOption_bind, toOption_bind, vector_checked, Option.map_bind, Option.bind_map]
  refine Option.bind_congr fun v _ => ?_
  rw [Function.comp_apply, circles_checked, Checked.isFinite_value, isFinite_exact]
  have hsum : pairwiseSum ((m.deviations v).map value) = value (pairwiseSum (m.deviations v)) :=
    pairwiseSum_map (fun _ _ => rfl) rfl _
  have hdensity : m.checked.densityAt (v.map value) = value (m.densityAt v) := by
    rw [densityAt, hm.deviations_checked, hsum, hnormalizer, Checked.half_eq_value]
    exact Checked.value_div (hm.normalizer_pos hK).ne'
  exact congrArg some hdensity

end NormalModel

/-! ## Draws -/

theorem map_one_div_checked {xs : List K} (h : ∀ x ∈ xs, 0 < x) :
    (xs.map value).map (1 / ·) = (xs.map (1 / ·)).map value :=
  map_map_comm fun x hx => Checked.value_div (h x hx).ne'

theorem NormalModel.ofVectors_checked (prior : NormalPrior K) (mean variance : List K) :
    (ofVectors prior.checked (mean.map value) (variance.map value)).toOption =
      (ofVectors prior mean variance).toOption.map checked := by
  have hcoordinates : ∀ xs : List K, (coordinates prior.checked (xs.map value)).toOption =
      (coordinates prior xs).toOption.map (List.map value) := by
    intro xs
    unfold coordinates
    rw [prior.dimension_checked, List.length_map]
    split <;> rfl
  have hfresh : ∀ xs ys : List K, fresh prior.checked (xs.map value) (ys.map value) =
      (fresh prior xs ys).checked := by
    intro xs ys
    simp only [fresh, checked, List.map_replicate]
    rfl
  unfold ofVectors
  rw [toOption_bind, toOption_bind, hcoordinates, Option.map_bind, Option.bind_map]
  refine Option.bind_congr fun xs _ => ?_
  simp only [Function.comp_apply]
  rw [toOption_bind, toOption_bind, hcoordinates, Option.map_bind, Option.bind_map]
  refine Option.bind_congr fun ys _ => ?_
  exact congrArg some (hfresh xs ys)

section
variable {g : Generator ω K} {prior : NormalPrior K} (hg : g.PositiveGammas)
include hg

theorem draw_checked {b : Belief K} (hb : b.Positive) :
    (b.draw g prior).Mirrors NormalModel.checked (b.checked.draw g.checked prior.checked) := by
  have hparameters : b.checked.scale.map (1 / ·) = (b.scale.map (1 / ·)).map value :=
    map_one_div_checked hb.scale_pos
  refine .bind (hparameters ▸ g.gamma_checked _ _) fun s precision t hdraw => ?_
  have hvariance : (precision.map value).map (1 / ·) = (precision.map (1 / ·)).map value :=
    map_one_div_checked (hg _ _ _ _ _ hb.shape_pos (forall_one_div_pos hb.scale_pos) hdraw)
  have hdeviations : ((precision.map (1 / ·)).map value).map
      (meanDeviation b.checked.precisionScale) =
        ((precision.map (1 / ·)).map (meanDeviation b.precisionScale)).map value :=
    map_map_comm fun _ _ => congrArg Scalar.sqrt (Checked.value_div hb.precisionScale_pos.ne')
  dsimp only
  rw [hvariance, hdeviations]
  refine .bind (g.normal_checked _ _) fun _ mean _ _ => ?_
  exact .ofExcept (NormalModel.ofVectors_checked prior mean _)

/-- **Drawing components never divides by zero.** -/
theorem drawEach_checked {bs : List (Except (Fault K) (Belief K))}
    {bs' : List (Except (Fault (Checked K)) (Belief (Checked K)))}
    (hbs : ∀ b, .ok b ∈ bs → b.Positive)
    (h : bs'.map Except.toOption = bs.map fun b => b.toOption.map Belief.checked) :
    (drawEach g prior bs).Mirrors (List.map NormalModel.checked)
      (drawEach g.checked prior.checked bs') := by
  induction bs generalizing bs' with
  | nil =>
    obtain rfl := List.map_eq_nil_iff.1 h
    exact .pure []
  | cons b bs ih =>
    obtain ⟨b', bs', rfl, hb, hrest⟩ := List.map_eq_cons_iff.1 h
    refine .bind (.ofExcept hb) fun s belief t hbelief => ?_
    obtain ⟨rfl, -⟩ := Prod.mk.inj hbelief
    refine .bind (draw_checked hg (hbs belief List.mem_cons_self)) fun _ m _ _ => ?_
    refine .bind (ih (fun b hb => hbs b (List.mem_cons_of_mem _ hb)) hrest) fun _ ms _ _ => ?_
    exact .pure (m :: ms)

variable [Readable K]

theorem fromPosterior_checked (ms : List (NormalModel K)) :
    ((normalFamily g prior).fromPosterior ms).Mirrors (List.map NormalModel.checked)
      ((normalFamily g.checked prior.checked).fromPosterior (ms.map NormalModel.checked)) := by
  refine drawEach_checked hg (fun b hb => NormalPrior.positive_of_mem_posteriors hb) ?_
  rw [List.map_map, List.map_map, List.map_map]
  refine List.map_congr_left fun m _ => ?_
  exact prior.posterior_checked (s := m.statistics) (Int.natCast_nonneg m.count)

theorem fromPrior_checked (n : Nat) :
    ((normalFamily g prior).fromPrior n).Mirrors (List.map NormalModel.checked)
      ((normalFamily g.checked prior.checked).fromPrior n) := by
  have hdimension : prior.checked.checkDimension.toOption =
      prior.checkDimension.toOption.map id := by
    rw [Option.map_id]
    exact prior.checkDimension_checked
  refine .bind (.ofExcept hdimension) fun _ _ _ _ => ?_
  refine drawEach_checked hg (fun b hb => NormalPrior.positive_of_mem_initials hb) ?_
  rw [List.map_replicate, List.map_replicate, prior.initial_checked]

end

end DirichletMixture
