/-
  DirichletMixture: observations in batches and in coordinates.

  The belief after some numbers can serve as a prior for more of them.  In exact arithmetic
  nothing is lost on the way: two batches lead to the belief after all their numbers.  And a
  prior of several coordinates is nothing but one prior for each of them.

  * `NormalPrior.renewed` is the belief after some numbers as a prior, and `centerAfter_add`
    and `scaleAfter_add` say that more numbers lead from it to where all of them lead at once;
  * `NormalPrior.along` is the prior of one coordinate, and `posterior_along`: it has its
    part of the belief;
  * `batches_add_up` puts this together.
-/
import Mathlib.Tactic.LinearCombination
import DirichletMixture.Proofs.Exact.Basic
import DirichletMixture.Proofs.Chain.Resampling
import DirichletMixture.Proofs.Normal.Conjugate
import DirichletMixture.Proofs.Normal.Redrawing

namespace DirichletMixture

variable {K : Type} [Exact K]

/-! ## One batch after the other -/

theorem spreadAround_add (c : K) (A B : Multiset K) :
    spreadAround c (A + B) = spreadAround c A + spreadAround c B := by
  rw [spreadAround, Multiset.map_add, Multiset.sum_add]
  rfl

/-- A prior passes its own checks. -/
theorem NormalPrior.make_eq_self {α : Type} [Scalar α] (p : NormalPrior α) :
    make p.mean p.precisionScale p.shape p.scale p.dimension = .ok p := by
  rw [make, dif_pos (Int.natCast_pos.2 p.dimension_pos), dif_pos p.precisionScale_pos,
    dif_pos p.shape_pos, dif_pos p.scale_pos]
  rfl

namespace NormalPrior

variable (p : NormalPrior K) (m : K)

theorem shape_add_card_pos (X : Multiset K) : 0 < p.shape + X.card / two :=
  add_pos_of_pos_of_nonneg p.shape_pos (div_nonneg (Nat.cast_nonneg _) scalarTwo_pos.le)

/-- The belief about one coordinate with the centre `m`, after the numbers `X`, taken for a
    prior. -/
def renewed (X : Multiset K) : NormalPrior K where
  mean := .ofList [p.centerAfter m X]
  precisionScale := p.precisionScale + X.card
  shape := p.shape + X.card / two
  scale := p.scaleAfter m X
  dimension := 1
  dimension_pos := Nat.one_pos
  precisionScale_pos := p.precisionScale_add_card_pos X
  shape_pos := p.shape_add_card_pos X
  scale_pos := p.scaleAfter_pos m X

theorem center_renewed (X : Multiset K) : (p.renewed m X).center = .ok [p.centerAfter m X] :=
  rfl

/-- A second batch moves the centre to where both batches move it at once. -/
theorem centerAfter_add (A B : Multiset K) :
    (p.renewed m A).centerAfter (p.centerAfter m A) B = p.centerAfter m (A + B) := by
  have hA := (p.precisionScale_add_card_pos A).ne'
  rw [centerAfter, centerAfter, centerAfter, renewed, mul_div_cancel₀ _ hA, Multiset.sum_add,
    Multiset.card_add, Nat.cast_add, add_assoc, add_assoc]

/-- A second batch makes the scale what both batches make it at once.  Both ways put the
    same exponent on every mean, so also on the centre that they share, where nothing but
    the scale is left of it. -/
theorem scaleAfter_add (A B : Multiset K) :
    (p.renewed m A).scaleAfter (p.centerAfter m A) B = p.scaleAfter m (A + B) := by
  have hwhole := p.completing_the_square m (p.centerAfter m (A + B)) (A + B)
  have hfirst := p.completing_the_square m (p.centerAfter m (A + B)) A
  have hsecond := (p.renewed m A).completing_the_square (p.centerAfter m A)
    (p.centerAfter m (A + B)) B
  rw [centerAfter_add, sub_self] at hsecond
  rw [sub_self, spreadAround_add] at hwhole
  simp only [renewed] at hsecond ⊢
  linear_combination hwhole - hfirst - hsecond

end NormalPrior

/-- The count, the sum and the sum of squares of some numbers. -/
def Statistics.ofNumbers (xs : List K) : Statistics K where
  count := xs.length
  sum := [xs.sum]
  squares := [(xs.map (· ^ 2)).sum]

/-- Numbers as vectors with one entry. -/
def singletons {β : Type} (xs : List β) : Multiset (List β) := Multiset.map (fun x => [x]) xs

theorem card_singletons {β : Type} (xs : List β) : (singletons xs).card = xs.length :=
  Multiset.card_map _ _

theorem column_singletons (xs : List K) : column 0 (singletons xs) = xs := by
  rw [column, singletons, Multiset.map_map]
  exact Multiset.map_id _

theorem Statistics.of_singletons (xs : List K) :
    Statistics.of 1 (singletons xs) = ofNumbers xs := by
  simp only [Statistics.of, ofNumbers, List.range_one, List.map_cons, List.map_nil,
    column_singletons, card_singletons, Multiset.map_coe, Multiset.sum_coe]

/-- The numbers lead to the belief after them. -/
theorem NormalPrior.posterior_ofNumbers {p : NormalPrior K} {m : K} (hd : p.dimension = 1)
    (h : p.center = .ok [m]) (xs : List K) :
    p.posterior (.ofNumbers xs) =
      .ok ⟨[p.centerAfter m xs], p.precisionScale + xs.length, p.shape + xs.length / 2,
        [p.scaleAfter m xs]⟩ := by
  have hposterior := posterior_of_statistics h (singletons xs)
  rw [hd, Statistics.of_singletons] at hposterior
  simp only [hposterior, conjugate, hd, List.range_one, List.map_cons, List.map_nil,
    column_singletons, card_singletons, List.getD_cons_zero]

/-! ## One coordinate beside the other -/

namespace NormalPrior

variable {p : NormalPrior K} {center : List K}

/-- The prior of a single coordinate with the centre `m`. -/
def along {α : Type} [Scalar α] (p : NormalPrior α) (m : α) : NormalPrior α :=
  { p with
    mean := .scalar m
    dimension := 1
    dimension_pos := Nat.one_pos }

theorem center_along (p : NormalPrior K) (m : K) : (p.along m).center = .ok [m] := rfl

/-- Without observations the belief is the prior's own. -/
theorem posterior_of_count_zero (h : p.center = .ok center) (s q : List K) :
    p.posterior ⟨0, s, q⟩ =
      .ok ⟨center, p.precisionScale, p.shape, List.replicate p.dimension p.scale⟩ := by
  rw [posterior, initial_of_center h, conjugate_zero (length_center h)]
  rfl

theorem exists_posterior (h : p.center = .ok center) (count : Int) {s q : List K}
    (hs : s.length = p.dimension) (hq : q.length = p.dimension) :
    ∃ b, p.posterior ⟨count, s, q⟩ = .ok b ∧ b.mean.length = p.dimension ∧
      b.scale.length = p.dimension := by
  have hcenter := length_center h
  by_cases hcount : count = 0
  · subst hcount
    exact ⟨_, posterior_of_count_zero h s q, hcenter, List.length_replicate⟩
  · refine ⟨_, posterior_of_lengths h hcount hs hq, ?_, ?_⟩
    · rw [List.length_zipWith, hcenter, hs, Nat.min_self]
    · rw [List.length_zipWith, List.length_zip, hcenter, hs, hq, Nat.min_self, Nat.min_self]

/-- **Each coordinate for itself**: it comes out as if there were no others. -/
theorem posterior_along (h : p.center = .ok center) {count : Int} {s q : List K}
    (hs : s.length = p.dimension) (hq : q.length = p.dimension) {b : Belief K}
    (hb : p.posterior ⟨count, s, q⟩ = .ok b) {i : Nat} {m x y mu scale : K}
    (hm : center[i]? = some m) (hx : s[i]? = some x) (hy : q[i]? = some y)
    (hmu : b.mean[i]? = some mu) (hscale : b.scale[i]? = some scale) :
    (p.along m).posterior ⟨count, [x], [y]⟩ =
      .ok ⟨[mu], b.precisionScale, b.shape, [scale]⟩ := by
  -- without observations the statistics are not looked at
  by_cases hcount : count = 0
  · subst hcount
    rw [posterior_of_count_zero h] at hb
    obtain rfl := Except.ok.inj hb
    obtain rfl := Option.some.inj (hm.symm.trans hmu)
    obtain rfl := List.eq_of_mem_replicate (List.mem_of_getElem? hscale)
    exact posterior_of_count_zero (p.center_along m) [x] [y]
  · rw [posterior_of_lengths h hcount hs hq] at hb
    obtain rfl := Except.ok.inj hb
    have hxy : (s.zip q)[i]? = some (x, y) := List.getElem?_zip_eq_some.2 ⟨hx, hy⟩
    rw [List.getElem?_zipWith, hm, hx] at hmu
    rw [List.getElem?_zipWith, hm, hxy] at hscale
    obtain rfl := Option.some.inj hmu
    obtain rfl := Option.some.inj hscale
    exact posterior_of_lengths (p.center_along m) hcount rfl rfl

end NormalPrior

/-- **Batches add up.**  In exact arithmetic, take any prior, with positive numbers.  If its
    mean is no centre of its dimension, every posterior fails for that.  Otherwise, if there
    is one coordinate, the belief after some numbers `A` is accepted as a prior again, and
    what further numbers `B` make of it is in all parts what the numbers `A ++ B` make of the
    first prior.  And with any number of coordinates, the belief that comes from any
    statistics has for each coordinate the mean and the scale, and the precision scale and the
    shape, that the prior of this coordinate alone leads to. -/
theorem batches_add_up (p : NormalPrior K) :
    (∀ e, p.center = .error e → ∀ s, p.posterior s = .error e) ∧
    ∀ center, p.center = .ok center →
      (p.dimension = 1 → ∀ A B : List K, ∃ mu precisionScale shape scale renewed,
        p.posterior (.ofNumbers A) = .ok ⟨[mu], precisionScale, shape, [scale]⟩ ∧
        NormalPrior.make (.ofList [mu]) precisionScale shape scale 1 = .ok renewed ∧
        renewed.posterior (.ofNumbers B) = p.posterior (.ofNumbers (A ++ B)) ∧
        ∃ b, renewed.posterior (.ofNumbers B) = .ok b) ∧
      ∀ (count : Int) (s q : List K), s.length = p.dimension → q.length = p.dimension →
        ∃ b, p.posterior ⟨count, s, q⟩ = .ok b ∧ b.mean.length = p.dimension ∧
          b.scale.length = p.dimension ∧
          ∀ (i : Nat) (m x y mu scale : K), center[i]? = some m → s[i]? = some x →
            q[i]? = some y → b.mean[i]? = some mu → b.scale[i]? = some scale →
            ∃ single,
              NormalPrior.make (.scalar m) p.precisionScale p.shape p.scale 1 = .ok single ∧
              single.posterior ⟨count, [x], [y]⟩ =
                .ok ⟨[mu], b.precisionScale, b.shape, [scale]⟩ := by
  refine ⟨fun e he s => NormalPrior.posterior_of_center_eq_error he s, ?_⟩
  intro center hcenter
  constructor
  · intro hd A B
    obtain ⟨m, rfl⟩ := List.length_eq_one_iff.1 ((NormalPrior.length_center hcenter).trans hd)
    have hsecond := NormalPrior.posterior_ofNumbers (p := p.renewed m A) rfl
      (p.center_renewed m A) B
    have hboth := NormalPrior.posterior_ofNumbers hd hcenter (A ++ B)
    refine ⟨_, _, _, _, p.renewed m A, NormalPrior.posterior_ofNumbers hd hcenter A,
      (p.renewed m A).make_eq_self, ?_, _, hsecond⟩
    rw [hsecond, hboth, NormalPrior.centerAfter_add, NormalPrior.scaleAfter_add,
      Multiset.coe_add]
    simp only [NormalPrior.renewed, two_eq, Multiset.coe_card, List.length_append, Nat.cast_add]
    rw [add_assoc, add_assoc, ← add_div]
  · intro count s q hs hq
    obtain ⟨b, hb, hmean, hscale⟩ := NormalPrior.exists_posterior hcenter count hs hq
    refine ⟨b, hb, hmean, hscale, ?_⟩
    intro i m x y mu scale hm hx hy hmu hscale
    exact ⟨p.along m, (p.along m).make_eq_self,
      NormalPrior.posterior_along hcenter hs hq hb hm hx hy hmu hscale⟩

/-- A prior of two coordinates with different centres. -/
def NormalPrior.plane : NormalPrior ℚ :=
  { standard with
    mean := .ofList [0, 1]
    dimension := 2
    dimension_pos := Nat.two_pos }

/-- The numbers 1 and 3 make a prior with the centre 4/3, which the number 2 leads to where
    all three lead the first one; and the second coordinate of a plane has its own prior. -/
theorem three_numbers_in_two_batches :
    (∃ renewed, NormalPrior.make (.ofList [(4 / 3 : ℚ)]) 3 2 (10 / 3) 1 = .ok renewed ∧
      renewed.posterior (.ofNumbers [2]) = NormalPrior.standard.posterior (.ofNumbers [1, 3, 2])) ∧
    ∃ b single mu scale, NormalPrior.plane.posterior ⟨2, [4, 2], [10, 4]⟩ = .ok b ∧
      b.mean[1]? = some mu ∧ b.scale[1]? = some scale ∧
      NormalPrior.make (.scalar (1 : ℚ)) 1 1 1 1 = .ok single ∧
      single.posterior ⟨2, [2], [4]⟩ = .ok ⟨[mu], b.precisionScale, b.shape, [scale]⟩ := by
  constructor
  · have hfirst : (NormalPrior.standard.posterior (.ofNumbers [1, 3])).toOption.map (fun b =>
        (b.mean, b.precisionScale, b.shape, b.scale)) = some ([4 / 3], 3, 2, [10 / 3]) := by
      decide +kernel
    obtain ⟨-, hcentred⟩ := batches_add_up NormalPrior.standard
    obtain ⟨hbatches, -⟩ := hcentred [0] rfl
    obtain ⟨mu, precisionScale, shape, scale, renewed, hA, hmake, hB, -⟩ :=
      hbatches rfl [1, 3] [2]
    rw [hA] at hfirst
    cases hfirst
    exact ⟨renewed, hmake, hB⟩
  · obtain ⟨-, hcentred⟩ := batches_add_up NormalPrior.plane
    obtain ⟨-, hcoordinates⟩ := hcentred [0, 1] rfl
    obtain ⟨b, hb, hmean, hscale, halong⟩ := hcoordinates 2 [4, 2] [10, 4] rfl rfl
    have hmu : 1 < b.mean.length := hmean ▸ Nat.one_lt_two
    have hsc : 1 < b.scale.length := hscale ▸ Nat.one_lt_two
    obtain ⟨single, hmake, hsingle⟩ := halong 1 1 2 4 _ _ rfl rfl rfl
      (List.getElem?_eq_getElem hmu) (List.getElem?_eq_getElem hsc)
    exact ⟨b, single, _, _, hb, List.getElem?_eq_getElem hmu, List.getElem?_eq_getElem hsc,
      hmake, hsingle⟩

end DirichletMixture
