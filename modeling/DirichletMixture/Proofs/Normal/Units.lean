/-
  DirichletMixture: normal components in other units.

  Observations may be measured in another unit and from another origin.  If the prior is
  written in the same units, beliefs and estimates come out in them: the sums and the squares
  change in their own ways, but the spread of the observations and the distance of their mean
  from the centre do not see the origin, and scale with the square of the factor.

  * `inUnits` is a vector in other units, `Belief.inUnits` a belief and `NormalPrior.InUnits` a
    prior;
  * `scaleAfter_eq`: the scale of a belief, with its own centre in the place of the mean of the
    observations;
  * `conjugate_inUnits`: the belief after observations in other units, and
    `NormalModel.Holds.posterior_inUnits` and `NormalModel.Holds.finalize_inUnits`: what
    components make of them;
  * `estimation_is_equivariant` puts this together.
-/
import Mathlib.Tactic.FieldSimp
import Mathlib.Tactic.LinearCombination
import Mathlib.Tactic.Ring
import DirichletMixture.Proofs.Exact.Basic
import DirichletMixture.Proofs.Normal.Centred

namespace DirichletMixture

variable {ω K : Type} [Exact K]

/-! ## Numbers in other units -/

theorem sum_moved (s t : K) (X : Multiset K) :
    (X.map (s * · + t)).sum = s * X.sum + X.card * t := by
  induction X using Multiset.induction_on with
  | empty => simp
  | cons x X ih =>
    simp only [Multiset.map_cons, Multiset.sum_cons, Multiset.card_cons, ih]
    push_cast
    ring

theorem spreadAround_moved (s t b : K) (X : Multiset K) :
    spreadAround (s * b + t) (X.map (s * · + t)) = square s * spreadAround b X := by
  induction X using Multiset.induction_on with
  | empty => simp [spreadAround]
  | cons x X ih =>
    rw [Multiset.map_cons, spreadAround_cons, spreadAround_cons, ih, square]
    ring

namespace NormalPrior

variable (p p' : NormalPrior K) (m s t : K) (X : Multiset K)

/-- The scale grows by what the prior and the observations have against the new centre. -/
theorem scaleAfter_eq :
    p.scaleAfter m X =
      p.scale + p.precisionScale / 2 * (p.centerAfter m X - m) ^ 2 +
        1 / 2 * spreadAround (p.centerAfter m X) X := by
  have hsquare := p.completing_the_square m (p.centerAfter m X) X
  rw [sub_self] at hsquare
  linear_combination -hsquare

variable {p p'}

theorem centerAfter_moved (hprecision : p'.precisionScale = p.precisionScale) :
    p'.centerAfter (s * m + t) (X.map (s * · + t)) = s * p.centerAfter m X + t := by
  have hpos := (p.precisionScale_add_card_pos X).ne'
  rw [centerAfter, centerAfter, hprecision, sum_moved, Multiset.card_map]
  field_simp
  ring

theorem scaleAfter_moved (hprecision : p'.precisionScale = p.precisionScale)
    (hscale : p'.scale = square s * p.scale) :
    p'.scaleAfter (s * m + t) (X.map (s * · + t)) = square s * p.scaleAfter m X := by
  rw [scaleAfter_eq, scaleAfter_eq, centerAfter_moved m s t X hprecision, spreadAround_moved,
    hprecision, hscale, square]
  ring

end NormalPrior

/-! ## Vectors, beliefs and priors in other units -/

/-- A vector in other units: each coordinate is multiplied by `s` and moved by its entry of
    `c`. -/
def inUnits (s : K) (c v : List K) : List K := List.zipWith (fun t x => s * x + t) c v

/-- A belief in other units. -/
def Belief.inUnits (s : K) (c : List K) (b : Belief K) : Belief K where
  mean := DirichletMixture.inUnits s c b.mean
  precisionScale := b.precisionScale
  shape := b.shape
  scale := b.scale.map (square s * ·)

/-- The second prior is the first in other units. -/
structure NormalPrior.InUnits (s : K) (c : List K) (p p' : NormalPrior K) : Prop where
  center_eq : p'.center = p.center.map (inUnits s c)
  precisionScale_eq : p'.precisionScale = p.precisionScale
  shape_eq : p'.shape = p.shape
  scale_eq : p'.scale = square s * p.scale
  dimension_eq : p'.dimension = p.dimension

section
variable {s : K} {c v center : List K} {d i : Nat} {X : Multiset (List K)} {p p' : NormalPrior K}

theorem length_inUnits (hc : c.length = d) (hv : v.length = d) : (inUnits s c v).length = d := by
  rw [inUnits, List.length_zipWith, hc, hv, Nat.min_self]

theorem getD_inUnits (hc : c.length = d) (hv : v.length = d) (hi : i < d) :
    (inUnits s c v).getD i 0 = s * v.getD i 0 + c.getD i 0 := by
  rw [← hc] at hi
  have hi' : i < v.length := by rwa [hv, ← hc]
  simp [inUnits, hi, hi']

theorem column_inUnits (hc : c.length = d) (hX : ∀ v ∈ X, v.length = d) (hi : i < d) :
    column i (X.map (inUnits s c)) = (column i X).map (s * · + c.getD i 0) := by
  rw [column, column, Multiset.map_map, Multiset.map_map]
  refine Multiset.map_congr rfl ?_
  intro v hv
  exact getD_inUnits hc (hX v hv) hi

/-- **The belief in other units** is the one after the observations in other units. -/
theorem conjugate_inUnits (h : p.InUnits s c p') (hc : c.length = p.dimension)
    (hcenter : center.length = p.dimension) (hX : ∀ v ∈ X, v.length = p.dimension) :
    p'.conjugate (inUnits s c center) (X.map (inUnits s c)) =
      (p.conjugate center X).inUnits s c := by
  have hmean : (List.range p.dimension).map (fun i =>
      p'.centerAfter ((inUnits s c center).getD i 0) (column i (X.map (inUnits s c)))) =
        inUnits s c ((List.range p.dimension).map fun i =>
          p.centerAfter (center.getD i 0) (column i X)) := by
    refine List.ext_getElem (by simp [inUnits, hc]) ?_
    intro i h₁ h₂
    have hi : i < p.dimension := by simpa using h₁
    rw [List.getElem_map, List.getElem_range, getD_inUnits hc hcenter hi, column_inUnits hc hX hi,
      NormalPrior.centerAfter_moved _ _ _ _ h.precisionScale_eq]
    simp [inUnits, hc, hi]
  have hscale : (List.range p.dimension).map (fun i =>
      p'.scaleAfter ((inUnits s c center).getD i 0) (column i (X.map (inUnits s c)))) =
        ((List.range p.dimension).map fun i =>
          p.scaleAfter (center.getD i 0) (column i X)).map (square s * ·) := by
    rw [List.map_map]
    refine List.map_congr_left ?_
    intro i hi
    have hi := List.mem_range.1 hi
    rw [getD_inUnits hc hcenter hi, column_inUnits hc hX hi,
      NormalPrior.scaleAfter_moved _ _ _ _ h.precisionScale_eq h.scale_eq]
    rfl
  rw [NormalPrior.conjugate, h.dimension_eq, hmean, hscale, h.precisionScale_eq, h.shape_eq,
    Multiset.card_map]
  rfl

/-! ## Accepted priors -/

theorem NormalPrior.center_of_mean_eq (hmean : p.mean = .ofList center)
    (hlen : center.length = p.dimension) (hd : p.checkDimension = .ok ()) :
    p.center = .ok center := by
  have hshape : (Nested.list (center.map .scalar)).shape? = some [center.length] :=
    Nested.shape?_ofList center
  rw [NormalPrior.center, hd, hmean]
  simp only [Nested.ofList, hshape, hlen, true_or, if_true, Nested.flattenAll_map_scalar,
    stretch_of_length hlen]
  rfl

/-- The prior with another mean, and with the scale in units that are `s` times as small. -/
def NormalPrior.rescaled {α : Type} [Scalar α] {s : α} (p : NormalPrior α)
    (hscale : 0 < square s * p.scale) (mean : Nested α) : NormalPrior α :=
  { p with
    mean := mean
    scale := square s * p.scale
    scale_pos := hscale }

theorem NormalPrior.square_mul_scale_pos (p : NormalPrior K) (hs : s ≠ 0) :
    0 < square s * p.scale :=
  mul_pos (mul_self_pos.2 hs) p.scale_pos

/-- A prior in other units is accepted.  A mean that is no centre can stay as it is. -/
theorem NormalPrior.exists_inUnits (p : NormalPrior K) (hs : s ≠ 0) (hc : c.length = p.dimension) :
    ∃ mean p', make mean p.precisionScale p.shape (square s * p.scale) p.dimension = .ok p' ∧
      p.InUnits s c p' := by
  have hscale := p.square_mul_scale_pos hs
  rcases hcenter : p.center with e | center
  · have hsame : (p.rescaled hscale p.mean).center = p.center := rfl
    refine ⟨p.mean, p.rescaled hscale p.mean, (p.rescaled hscale p.mean).make_eq_self,
      ⟨?_, rfl, rfl, rfl, rfl⟩⟩
    rw [hsame, hcenter]
    rfl
  · have hd : p.checkDimension = .ok () := checkDimension_of_center hcenter
    have hlen : center.length = p.dimension := length_center hcenter
    have hmoved : (p.rescaled hscale (.ofList (inUnits s c center))).center =
        .ok (inUnits s c center) :=
      center_of_mean_eq rfl (length_inUnits hc hlen) hd
    refine ⟨_, p.rescaled hscale (.ofList (inUnits s c center)),
      (p.rescaled hscale (.ofList (inUnits s c center))).make_eq_self, ⟨?_, rfl, rfl, rfl, rfl⟩⟩
    rw [hmoved, hcenter]
    rfl

end

/-! ## Components -/

/-- The first observation is a vector of dimension `d`, and the second one is this vector in
    other units. -/
def Observation.InUnits [Readable K] (d : Nat) (s : K) (c : List K) (x x' : Observation K) : Prop :=
  x.Spans d ∧ x'.vector? = .ok (inUnits s c x.point)

section
variable [Readable K] {s : K} {c : List K} {d : Nat} {xs xs' : List (Observation K)}

theorem Observation.InUnits.point_eq {x x' : Observation K} (h : x.InUnits d s c x') :
    x'.point = inUnits s c x.point := by
  simp only [point, h.2]

theorem Observation.InUnits.spans {x x' : Observation K} (h : x.InUnits d s c x')
    (hc : c.length = d) : x'.Spans d := by
  refine ⟨by rw [h.point_eq, h.2], ?_⟩
  rw [h.point_eq]
  exact length_inUnits hc h.1.2

theorem spans_inUnits (h : List.Forall₂ (Observation.InUnits d s c) xs xs') (hc : c.length = d) :
    (∀ x ∈ xs, x.Spans d) ∧ ∀ x ∈ xs', x.Spans d := by
  induction h with
  | nil => simp
  | cons hx _ ih =>
    exact ⟨List.forall_mem_cons.2 ⟨hx.1, ih.1⟩, List.forall_mem_cons.2 ⟨hx.spans hc, ih.2⟩⟩

theorem points_inUnits (h : List.Forall₂ (Observation.InUnits d s c) xs xs') :
    xs'.map Observation.point = (xs.map Observation.point).map (inUnits s c) := by
  rw [List.map_map, eq_comm, map_eq_map_iff_forall₂]
  exact h.imp fun x x' hx => hx.point_eq.symm

end

section
variable {s : K} {c : List K} {p p' : NormalPrior K} {X : Multiset (List K)} {m m' : NormalModel K}
  (hp : p.InUnits s c p') (hc : c.length = p.dimension) (hX : ∀ v ∈ X, v.length = p.dimension)
  (h : m.Holds p X) (h' : m'.Holds p' (X.map (inUnits s c)))
include hp hc hX h h'

theorem NormalModel.Holds.posterior_inUnits :
    p'.posterior m'.statistics = (p.posterior m.statistics).map (Belief.inUnits s c) := by
  rw [h'.posterior_eq_map, h.posterior_eq_map, hp.center_eq]
  rcases hcenter : p.center with e | center
  · rfl
  · exact congrArg Except.ok (conjugate_inUnits hp hc (NormalPrior.length_center hcenter) hX)

theorem NormalModel.Holds.finalize_inUnits (hcard : X.card ≠ 0) :
    m'.finalize = m.finalize.map fun final =>
      { m' with
        mean := inUnits s c final.mean
        variance := final.variance.map (square s * ·) } := by
  have hcard' : (X.map (inUnits s c)).card ≠ 0 := by rwa [Multiset.card_map]
  rw [h'.finalize_eq_map hcard', h.finalize_eq_map hcard, hp.center_eq]
  rcases hcenter : p.center with e | center
  · rfl
  · simp only [Except.map, conjugate_inUnits hp hc (NormalPrior.length_center hcenter) hX,
      Belief.inUnits, List.map_map, Function.comp_def, mul_div_assoc]

end

/-- **Estimation is equivariant.**  In exact arithmetic, take any prior and other units, with a
    factor that is not zero and an origin for each coordinate.  The prior in these units is
    accepted.  Let a fresh component of the prior observe some vectors of its dimension, and a
    fresh component of the prior in other units the same vectors in other units, each drawn with
    any parameters.  Both take all of them in.  The beliefs that the components lead to are the
    same in the two units, and if there were any observations so are the mean and the variance
    that finalizing the components sets: the mean is multiplied and moved, and the variance
    multiplied by the square of the factor.  If the first prior has no centre, all this fails
    for the same reason in both units. -/
theorem estimation_is_equivariant [Readable K] (g : Generator ω K) (p : NormalPrior K) {s : K}
    (hs : s ≠ 0) {c : List K} (hc : c.length = p.dimension) :
    (∃ mean p', NormalPrior.make mean p.precisionScale p.shape (square s * p.scale) p.dimension =
      .ok p' ∧ p.InUnits s c p') ∧
    ∀ p', p.InUnits s c p' → ∀ xs xs',
      List.Forall₂ (Observation.InUnits p.dimension s c) xs xs' →
        ∀ mean variance mean' variance', ∃ m m',
          (normalFamily g p).observeAll (.fresh p mean variance) xs = .ok m ∧
          (normalFamily g p').observeAll (.fresh p' mean' variance') xs' = .ok m' ∧
          p'.posterior m'.statistics = (p.posterior m.statistics).map (Belief.inUnits s c) ∧
          (xs ≠ [] → m'.finalize = m.finalize.map fun final =>
            { m' with
              mean := inUnits s c final.mean
              variance := final.variance.map (square s * ·) }) := by
  refine ⟨p.exists_inUnits hs hc, ?_⟩
  intro p' hp xs xs' hxs mean variance mean' variance'
  obtain ⟨hspans, hspans'⟩ := spans_inUnits hxs hc
  rw [← hp.dimension_eq] at hspans'
  obtain ⟨m, hm, hholds⟩ := (NormalModel.holds_fresh p mean variance).exists_observeAll g hspans
  obtain ⟨m', hm', hholds'⟩ :=
    (NormalModel.holds_fresh p' mean' variance').exists_observeAll g hspans'
  rw [zero_add] at hholds hholds'
  rw [points_inUnits hxs, ← Multiset.map_coe] at hholds'
  obtain ⟨X, hX⟩ : ∃ X : Multiset (List K), (xs.map Observation.point : List (List K)) = X :=
    ⟨_, rfl⟩
  rw [hX] at hholds hholds'
  have hlengths : ∀ v ∈ X, v.length = p.dimension := by
    intro v hv
    rw [← hX] at hv
    obtain ⟨x, hx, rfl⟩ := List.mem_map.1 (Multiset.mem_coe.1 hv)
    exact (hspans x hx).2
  refine ⟨m, m', hm, hm', hholds.posterior_inUnits hp hc hlengths hholds', ?_⟩
  intro hne
  have hcard : X.card ≠ 0 := by
    rw [← hX, Multiset.coe_card, List.length_map]
    exact mt List.length_eq_zero_iff.1 hne
  exact hholds.finalize_inUnits hp hc hlengths hholds' hcard

/-- The plane with its first axis turned over, both stretched to double length and moved. -/
def NormalPrior.turnedPlane : NormalPrior ℚ :=
  plane.rescaled (plane.square_mul_scale_pos (s := -2) (by norm_num)) (.ofList [1, 1])

/-- Two points of the plane and the same points in other units. -/
theorem two_points_in_other_units :
    ∃ m m' final final',
      (normalFamily Script.seeded NormalPrior.plane).observeAll
        (.fresh NormalPrior.plane [0, 0] [1, 1])
        [.value (.ofList [1, 2]), .value (.ofList [3, 2])] = .ok m ∧
      (normalFamily Script.seeded NormalPrior.turnedPlane).observeAll
        (.fresh NormalPrior.turnedPlane [0, 0] [1, 1])
        [.value (.ofList [-1, -1]), .value (.ofList [-5, -1])] = .ok m' ∧
      m.finalize = .ok final ∧ m'.finalize = .ok final' ∧
      final.mean = [4 / 3, 5 / 3] ∧ final'.mean = [-5 / 3, -1 / 3] ∧
      final.variance = [10 / 9, 4 / 9] ∧ final'.variance = [40 / 9, 16 / 9] := by
  obtain ⟨-, hunits⟩ := estimation_is_equivariant Script.seeded NormalPrior.plane (s := -2)
    (by norm_num) (c := [1, 3]) rfl
  have hprior : NormalPrior.plane.InUnits (-2) [1, 3] NormalPrior.turnedPlane :=
    ⟨congrArg Except.ok (by decide +kernel), rfl, rfl, rfl, rfl⟩
  have hpoints : List.Forall₂ (Observation.InUnits (K := ℚ) 2 (-2) [1, 3])
      [.value (.ofList [1, 2]), .value (.ofList [3, 2])]
      [.value (.ofList [-1, -1]), .value (.ofList [-5, -1])] :=
    .cons ⟨⟨rfl, rfl⟩, congrArg Except.ok (by decide +kernel)⟩
      (.cons ⟨⟨rfl, rfl⟩, congrArg Except.ok (by decide +kernel)⟩ .nil)
  obtain ⟨m, m', hm, hm', -, hfinal⟩ := hunits _ hprior _ _ hpoints [0, 0] [1, 1] [0, 0] [1, 1]
  have hvalues : (((normalFamily Script.seeded NormalPrior.plane).observeAll
      (.fresh NormalPrior.plane [0, 0] [1, 1])
      [.value (.ofList [1, 2]), .value (.ofList [3, 2])]).bind NormalModel.finalize).toOption.map
        (fun m => (m.mean, m.variance)) = some ([4 / 3, 5 / 3], [10 / 9, 4 / 9]) := by
    decide +kernel
  rw [hm] at hvalues
  rcases hfinalize : m.finalize with e | final
  · rw [Except.bind, hfinalize] at hvalues
    cases hvalues
  · rw [Except.bind, hfinalize] at hvalues
    obtain ⟨hmean, hvariance⟩ := Prod.mk.inj (Option.some.inj hvalues)
    have hfinal' := hfinal (List.cons_ne_nil _ _)
    rw [hfinalize] at hfinal'
    refine ⟨m, m', final, _, hm, hm', hfinalize, hfinal', hmean, ?_, hvariance, ?_⟩
    · exact (congrArg (inUnits (-2) [1, 3]) hmean).trans (by decide +kernel)
    · exact (congrArg (List.map (square (-2) * ·)) hvariance).trans (by decide +kernel)

end DirichletMixture
