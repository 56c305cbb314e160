/-
  DirichletMixture: what observations make of the prior of a normal component.

  In exact arithmetic a component needs no more than its statistics: the belief that is
  computed from them is the one that all its observations lead to, in whatever order they
  came.

  * `NormalPrior.conjugate` is the belief after a multiset of vectors, and
    `completing_the_square` the identity behind it: as functions of the mean, the prior and
    the observations together and the new belief put the same exponent on it;
  * `posterior_of_statistics`: this is what the statistics lead to;
  * `statistics_observeAll` and `statistics_finalize`: a component keeps the statistics of
    what it observed.
-/
import Mathlib.Algebra.Order.BigOperators.Group.Multiset
import Mathlib.Tactic.FieldSimp
import Mathlib.Tactic.LinearCombination
import Mathlib.Tactic.Ring
import DirichletMixture.Proofs.Exact.Basic
import DirichletMixture.Proofs.Family.Counting
import DirichletMixture.Proofs.Nested

namespace DirichletMixture

variable {ω K : Type} [Exact K]

/-! ## Numbers -/

/-- The squared distances of some numbers from `c`, added up. -/
def spreadAround (c : K) (X : Multiset K) : K := (X.map fun x => (x - c) ^ 2).sum

theorem spreadAround_nonneg (c : K) (X : Multiset K) : 0 ≤ spreadAround c X := by
  refine Multiset.sum_nonneg ?_
  intro y hy
  obtain ⟨x, -, rfl⟩ := Multiset.mem_map.1 hy
  exact sq_nonneg _

theorem spreadAround_eq (c : K) (X : Multiset K) :
    spreadAround c X = (X.map (· ^ 2)).sum - 2 * c * X.sum + X.card * c ^ 2 := by
  induction X using Multiset.induction_on with
  | empty => simp [spreadAround]
  | cons x X ih =>
    rw [spreadAround] at ih ⊢
    simp only [Multiset.map_cons, Multiset.sum_cons, Multiset.card_cons, ih]
    push_cast
    ring

/-- The mean of some numbers. -/
def meanOf (X : Multiset K) : K := X.sum / X.card

theorem sum_eq_card_mul_meanOf {X : Multiset K} (hX : (X.card : K) ≠ 0) :
    X.sum = X.card * meanOf X := by
  rw [meanOf, mul_div_cancel₀ _ hX]

/-- The spread around the mean is what the squares have on top of the mean. -/
theorem spreadAround_meanOf {X : Multiset K} (hX : (X.card : K) ≠ 0) :
    spreadAround (meanOf X) X = (X.map (· ^ 2)).sum - X.card * meanOf X ^ 2 := by
  rw [spreadAround_eq]
  linear_combination (-2 * meanOf X) * sum_eq_card_mul_meanOf hX

/-! ## The belief after some observations -/

namespace NormalPrior

variable (p : NormalPrior K)

/-- The centre of a coordinate, which was `m` before, after the numbers `X`. -/
def centerAfter (m : K) (X : Multiset K) : K :=
  (p.precisionScale * m + X.sum) / (p.precisionScale + X.card)

/-- The scale of a coordinate with the centre `m` after the numbers `X`. -/
def scaleAfter (m : K) (X : Multiset K) : K :=
  p.scale + 1 / 2 * spreadAround (meanOf X) X +
    p.precisionScale * X.card * (meanOf X - m) ^ 2 / (2 * (p.precisionScale + X.card))

theorem precisionScale_add_card_pos (X : Multiset K) : 0 < p.precisionScale + X.card :=
  add_pos_of_pos_of_nonneg p.precisionScale_pos (Nat.cast_nonneg _)

/-- **Completing the square.**  What the prior and some numbers `X` have against a mean `c`
    is what the belief after them has against it. -/
theorem completing_the_square (m c : K) (X : Multiset K) :
    p.scale + p.precisionScale / 2 * (c - m) ^ 2 + 1 / 2 * spreadAround c X =
      p.scaleAfter m X + (p.precisionScale + X.card) / 2 * (c - p.centerAfter m X) ^ 2 := by
  have hpos := (p.precisionScale_add_card_pos X).ne'
  -- no numbers have no mean, but then nothing is said of it
  by_cases hX : X.card = 0
  · obtain rfl := Multiset.card_eq_zero.1 hX
    have hscale := p.precisionScale_pos.ne'
    simp only [scaleAfter, centerAfter, spreadAround, Multiset.map_zero, Multiset.sum_zero,
      Multiset.card_zero, Nat.cast_zero, add_zero, mul_zero, zero_mul, zero_div]
    field_simp
  · have hX' : (X.card : K) ≠ 0 := Nat.cast_ne_zero.2 hX
    rw [scaleAfter, centerAfter, spreadAround_meanOf hX', spreadAround_eq,
      sum_eq_card_mul_meanOf hX']
    field_simp
    ring

end NormalPrior

/-! ## Vectors -/

/-- The entries of some vectors at one coordinate. -/
def column (i : Nat) (X : Multiset (List K)) : Multiset K := X.map fun v => v.getD i 0

@[simp] theorem card_column (i : Nat) (X : Multiset (List K)) : (column i X).card = X.card :=
  Multiset.card_map _ _

@[simp] theorem column_zero (i : Nat) : column i (0 : Multiset (List K)) = 0 := rfl

@[simp] theorem column_cons (i : Nat) (v : List K) (X : Multiset (List K)) :
    column i (v ::ₘ X) = v.getD i 0 ::ₘ column i X :=
  Multiset.map_cons _ _ _

/-- The belief after the vectors `X`, coordinate by coordinate, where the prior has the
    given centre. -/
def NormalPrior.conjugate (p : NormalPrior K) (center : List K) (X : Multiset (List K)) :
    Belief K where
  mean := (List.range p.dimension).map fun i => p.centerAfter (center.getD i 0) (column i X)
  precisionScale := p.precisionScale + X.card
  shape := p.shape + X.card / 2
  scale := (List.range p.dimension).map fun i => p.scaleAfter (center.getD i 0) (column i X)

/-- The count, the sum and the sum of squares of some vectors of dimension `d`. -/
def Statistics.of (d : Nat) (X : Multiset (List K)) : Statistics K where
  count := X.card
  sum := (List.range d).map fun i => (column i X).sum
  squares := (List.range d).map fun i => ((column i X).map (· ^ 2)).sum

/-! ## Centres -/

theorem NormalPrior.length_center {α : Type} [Scalar α] {p : NormalPrior α} {center : List α}
    (h : p.center = .ok center) : center.length = p.dimension := by
  obtain ⟨u, -, h⟩ := bind_eq_ok.1 h
  rcases hmean : p.mean with x | xs <;> rw [hmean] at h
  · obtain rfl := Except.ok.inj h
    exact List.length_replicate
  · simp only at h
    rcases hshape : (Nested.list xs).shape? with _ | _ | ⟨n, _ | ⟨n', s⟩⟩ <;> rw [hshape] at h
    · cases h
    · cases h
    · simp only at h
      have hlen := Nested.length_flattenAll hshape
      split_ifs at h with hn
      obtain rfl := Except.ok.inj h
      rcases hn with rfl | rfl
      · rw [← hlen, stretch_length]
      · obtain ⟨x, hx⟩ := List.length_eq_one_iff.1 hlen
        rw [hx]
        exact List.length_replicate
    · cases h

theorem NormalPrior.checkDimension_of_center {α : Type} [Scalar α] {p : NormalPrior α}
    {center : List α} (h : p.center = .ok center) : p.checkDimension = .ok () := by
  obtain ⟨u, hu, -⟩ := bind_eq_ok.1 h
  exact hu

/-! ## The belief that is computed -/

section
variable {p : NormalPrior K} {center : List K}

/-- Without observations the prior's own parameters stay. -/
theorem NormalPrior.conjugate_zero (h : center.length = p.dimension) :
    p.conjugate center 0 =
      ⟨center, p.precisionScale, p.shape, List.replicate p.dimension p.scale⟩ := by
  have hmean : (List.range p.dimension).map (fun i => p.centerAfter (center.getD i 0) 0) =
      center := by
    refine List.ext_getElem (by simp [h]) ?_
    intro i h₁ h₂
    have hpos := p.precisionScale_pos.ne'
    simp [centerAfter, h₂, mul_div_cancel_left₀ _ hpos]
  have hscale : (List.range p.dimension).map (fun i => p.scaleAfter (center.getD i 0) 0) =
      List.replicate p.dimension p.scale := by
    refine List.ext_getElem (by simp) ?_
    intro i h₁ h₂
    simp [scaleAfter, spreadAround]
  simp only [conjugate, column_zero, hmean, hscale, Multiset.card_zero, Nat.cast_zero, add_zero,
    zero_div]

theorem NormalPrior.initial_of_center (h : p.center = .ok center) :
    p.initial = .ok (p.conjugate center 0) := by
  rw [conjugate_zero (length_center h), initial, h]
  rfl

theorem NormalPrior.posterior_of_center_eq_error {e : Fault K} (h : p.center = .error e)
    (s : Statistics K) : p.posterior s = .error e := by
  rw [posterior, initial, h]
  rfl

theorem stretch_of_length {α : Type} {n : Nat} {xs : List α} (h : xs.length = n) :
    stretch n xs = xs := by
  rw [← h, stretch_length]

theorem NormalPrior.updatedMean_eq (p : NormalPrior K) (m : K) (X : Multiset K) :
    p.updatedMean X.card m X.sum = p.centerAfter m X := rfl

theorem NormalPrior.updatedScale_eq (p : NormalPrior K) (m : K) {X : Multiset K}
    (hX : (X.card : K) ≠ 0) :
    p.updatedScale X.card m X.sum (X.map (· ^ 2)).sum = p.scaleAfter m X := by
  have hspread : larger ((X.map (· ^ 2)).sum - X.card * square (X.sum / X.card)) 0 =
      spreadAround (meanOf X) X := by
    rw [square, ← pow_two, ← meanOf, ← spreadAround_meanOf hX, larger_eq_max,
      max_eq_left (spreadAround_nonneg _ X)]
  rw [updatedScale, hspread, half_eq, two_eq, square, ← pow_two, ← meanOf, scaleAfter]

/-- With statistics that have an entry for each coordinate, no vector is stretched. -/
theorem NormalPrior.posterior_of_lengths (h : p.center = .ok center) {count : Int}
    (hcount : count ≠ 0) {s q : List K} (hs : s.length = p.dimension)
    (hq : q.length = p.dimension) :
    p.posterior ⟨count, s, q⟩ =
      .ok ⟨List.zipWith (p.updatedMean count) center s, p.precisionScale + count,
        p.shape + count / 2,
        List.zipWith (fun m sq => p.updatedScale count m sq.1 sq.2) center (s.zip q)⟩ := by
  have hcenter := length_center h
  have hcommon : commonLength? [center.length, s.length] = some p.dimension := by
    rw [hcenter, hs]
    exact commonLength?_replicate 1 p.dimension
  have hcommon' : commonLength? [center.length, s.length, q.length] = some p.dimension := by
    rw [hcenter, hs, hq]
    exact commonLength?_replicate 2 p.dimension
  rw [posterior, initial_of_center h, conjugate_zero hcenter]
  simp only [Except.bind, if_neg hcount, isFinite_exact, Bool.not_true, Bool.false_eq_true,
    if_false, hcommon, hcommon', stretch_of_length hcenter, stretch_of_length hs,
    stretch_of_length hq, two_eq]

/-- **The statistics of some vectors** lead to the belief after them. -/
theorem NormalPrior.posterior_of_statistics (h : p.center = .ok center) (X : Multiset (List K)) :
    p.posterior (Statistics.of p.dimension X) = .ok (p.conjugate center X) := by
  have hcenter := length_center h
  -- no statistics are looked at before the first observation
  by_cases hX : X.card = 0
  · obtain rfl := Multiset.card_eq_zero.1 hX
    rw [posterior, initial_of_center h]
    rfl
  have hlen : (Statistics.of p.dimension X).sum.length = p.dimension := by simp [Statistics.of]
  have hlen' : (Statistics.of p.dimension X).squares.length = p.dimension := by simp [Statistics.of]
  have hmean : List.zipWith (p.updatedMean X.card) center (Statistics.of p.dimension X).sum =
      (p.conjugate center X).mean := by
    refine List.ext_getElem (by simp [conjugate, hcenter, hlen]) ?_
    intro i h₁ h₂
    have hi : i < center.length := by simpa [conjugate, hcenter] using h₂
    simpa [conjugate, Statistics.of, hi] using p.updatedMean_eq center[i] (column i X)
  have hscale : List.zipWith (fun m sq => p.updatedScale X.card m sq.1 sq.2) center
      ((Statistics.of p.dimension X).sum.zip (Statistics.of p.dimension X).squares) =
        (p.conjugate center X).scale := by
    refine List.ext_getElem (by simp [conjugate, hcenter, hlen, hlen']) ?_
    intro i h₁ h₂
    have hi : i < center.length := by simpa [conjugate, hcenter] using h₂
    have hcard : ((column i X).card : K) ≠ 0 := by simpa using hX
    simpa [conjugate, Statistics.of, hi] using p.updatedScale_eq center[i] hcard
  have hposterior := posterior_of_lengths h (Int.natCast_ne_zero.2 hX) hlen hlen'
  rw [Int.cast_natCast, hmean, hscale] at hposterior
  exact hposterior

end

/-! ## What a component holds -/

/-- The component has the given prior and has absorbed the vectors `X`, whatever its
    parameters are. -/
structure NormalModel.Holds (prior : NormalPrior K) (X : Multiset (List K)) (m : NormalModel K) :
    Prop where
  prior_eq : m.prior = prior
  statistics_eq : m.statistics = Statistics.of prior.dimension X

namespace NormalModel

variable {prior : NormalPrior K} {X : Multiset (List K)} {m m' : NormalModel K}

theorem holds_fresh (prior : NormalPrior K) (mean variance : List K) :
    (fresh prior mean variance).Holds prior 0 := by
  have hzero : (List.range prior.dimension).map (fun _ => (0 : K)) =
      List.replicate prior.dimension 0 := by
    rw [List.map_const', List.length_range]
  refine ⟨rfl, ?_⟩
  simp only [fresh, statistics, Statistics.of, column_zero, Multiset.card_zero, Multiset.sum_zero,
    Multiset.map_zero, hzero, Nat.cast_zero]

theorem holds_of_drawEach {g : Generator ω K} {bs : List (Except (Fault K) (Belief K))}
    {ms : List (NormalModel K)} {s s' : ω} (h : (drawEach g prior bs).runOn s = (.ok ms, s')) :
    ∀ m ∈ ms, m.Holds prior 0 := by
  intro m hm
  obtain ⟨mean, variance, rfl⟩ := eq_fresh_of_drawEach h m hm
  exact holds_fresh prior mean variance

theorem Holds.absorb (h : m.Holds prior X) {v : List K} (hv : v.length = prior.dimension) :
    (m.absorb v).Holds prior (v ::ₘ X) := by
  obtain ⟨hprior, hstat⟩ := h
  obtain ⟨hcount, hsum, hsquares⟩ := Statistics.mk.inj hstat
  have hsum' : List.zipWith (· + ·) m.sum v =
      (List.range prior.dimension).map fun i => (column i (v ::ₘ X)).sum := by
    rw [hsum]
    refine List.ext_getElem (by simp [hv]) ?_
    intro i h₁ h₂
    have hi : i < v.length := by simpa [hv] using h₂
    simp [hi, add_comm]
  have hsquares' : List.zipWith (· + ·) m.squares (v.map square) =
      (List.range prior.dimension).map fun i => ((column i (v ::ₘ X)).map (· ^ 2)).sum := by
    rw [hsquares]
    refine List.ext_getElem (by simp [hv]) ?_
    intro i h₁ h₂
    have hi : i < v.length := by simpa [hv] using h₂
    simp [hi, add_comm, square, pow_two]
  refine ⟨hprior, ?_⟩
  simp only [NormalModel.absorb, statistics, Statistics.of, hsum', hsquares', Multiset.card_cons]
  simp [hcount]

theorem Holds.finalize (h : m.Holds prior X) (hm : m.finalize = .ok m') : m'.Holds prior X := by
  unfold NormalModel.finalize at hm
  split_ifs at hm with hcount
  · obtain rfl := Except.ok.inj hm
    exact h
  · obtain ⟨b, -, rfl⟩ := map_eq_ok.1 hm
    exact ⟨h.prior_eq, h.statistics_eq⟩

/-- The belief that a component leads to is the one after all that it holds. -/
theorem Holds.posterior {center : List K} (h : m.Holds prior X) (hc : prior.center = .ok center) :
    prior.posterior m.statistics = .ok (prior.conjugate center X) := by
  rw [h.statistics_eq, NormalPrior.posterior_of_statistics hc]

theorem Holds.exists_finalize {center : List K} (h : m.Holds prior X)
    (hc : prior.center = .ok center) : ∃ m', m.finalize = .ok m' := by
  have hposterior := h.posterior hc
  rw [← h.prior_eq] at hposterior
  unfold NormalModel.finalize
  by_cases hcount : m.count = 0
  · exact ⟨m, if_pos hcount⟩
  · rw [if_neg hcount, hposterior]
    exact ⟨_, rfl⟩

end NormalModel

/-! ## Observations -/

section
variable [Readable K]

/-- The vector of an observation, empty if it has none. -/
def Observation.point (x : Observation K) : List K :=
  match x.vector? with
  | .ok v => v
  | .error _ => []

/-- The observation has a vector with an entry for each of `d` coordinates. -/
def Observation.Spans (d : Nat) (x : Observation K) : Prop :=
  x.vector? = .ok x.point ∧ x.point.length = d

namespace NormalModel

variable {prior : NormalPrior K} {X : Multiset (List K)} {m m' : NormalModel K}

theorem vector_eq_ok {x : Observation K} {v : List K} :
    m.vector x = .ok v ↔ x.Spans m.prior.dimension ∧ v = x.point := by
  unfold vector Observation.Spans Observation.point
  rcases x.vector? with e | w
  · simp [bind, Except.bind]
  · by_cases hlen : w.length = m.prior.dimension
    · simp [bind, Except.bind, hlen, eq_comm]
    · simp [bind, Except.bind, hlen]

theorem Holds.observe {x : Observation K} (h : m.Holds prior X) (hm : m.observe x = .ok m') :
    x.Spans prior.dimension ∧ m'.Holds prior (x.point ::ₘ X) := by
  obtain ⟨v, hv, rfl⟩ := map_eq_ok.1 hm
  obtain ⟨hspans, rfl⟩ := vector_eq_ok.1 hv
  rw [h.prior_eq] at hspans
  exact ⟨hspans, h.absorb hspans.2⟩

theorem Holds.observeAll {g : Generator ω K} {xs : List (Observation K)} (h : m.Holds prior X)
    (hm : (normalFamily g prior).observeAll m xs = .ok m') :
    (∀ x ∈ xs, x.Spans prior.dimension) ∧
      m'.Holds prior (X + (xs.map Observation.point : List _)) := by
  induction xs generalizing m X with
  | nil =>
    obtain rfl := Except.ok.inj hm
    simpa using h
  | cons x xs ih =>
    obtain ⟨m₁, hx, hrest⟩ := bind_eq_ok.1 hm
    obtain ⟨hspans, h₁⟩ := h.observe hx
    obtain ⟨hall, hlast⟩ := ih h₁ hrest
    refine ⟨List.forall_mem_cons.2 ⟨hspans, hall⟩, ?_⟩
    rw [List.map_cons, ← Multiset.cons_coe, Multiset.add_cons, ← Multiset.cons_add]
    exact hlast

end NormalModel

end

end DirichletMixture
