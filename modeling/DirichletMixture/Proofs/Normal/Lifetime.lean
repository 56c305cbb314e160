/-
  DirichletMixture: what a normal component is asked over its life.

  A component observes, tells densities and is finalized in any order, and some of this
  fails.  What it comes to in the end depends on nothing but the vectors that it has
  accepted: not on their order, not on what it was asked for in between, and not on what it
  has refused.

  * `NormalModel.Step` is one thing that a component is asked for, `NormalModel.after` the
    component after some of them, and `NormalModel.accepted` the vectors that it accepts;
  * `runOn_observe_of_spans` and its neighbours say what each step does in place;
  * `NormalModel.Kept` is the invariant: a component holds what it has accepted, and has the
    parameters that it was made with as long as nothing can replace them;
  * `final_parameters_depend_on_what_was_accepted` puts this together.
-/
import DirichletMixture.Normal.InPlace
import DirichletMixture.Proofs.Exact.Basic
import DirichletMixture.Proofs.Normal.Centred
import DirichletMixture.Proofs.Normal.Failures

namespace DirichletMixture

variable {K : Type} [Exact K]

namespace NormalModel

/-! ## What a component keeps -/

variable {prior : NormalPrior K} {X : Multiset (List K)} {m₀ m m' : NormalModel K}

/-- A component is known by its parameters and what it holds. -/
theorem Holds.eq (h : m.Holds prior X) (h' : m'.Holds prior X) (hmean : m.mean = m'.mean)
    (hvariance : m.variance = m'.variance) : m = m' := by
  have hprior := h.prior_eq.trans h'.prior_eq.symm
  have hcount := h.count_eq.trans h'.count_eq.symm
  obtain ⟨-, hsum, hsquares⟩ :=
    Statistics.mk.inj (h.statistics_eq.trans h'.statistics_eq.symm)
  cases m
  cases m'
  simp only at hprior hmean hvariance hcount hsum hsquares
  simp only [hprior, hmean, hvariance, hcount, hsum, hsquares]

/-- Nothing can replace the parameters: there is nothing to finalize with, or the prior has no
    centre to start from. -/
def Stuck (prior : NormalPrior K) (X : Multiset (List K)) : Prop :=
  X = 0 ∨ ∃ e, prior.center = .error e

/-- What is left of a component that was made as `m₀`, once it has accepted the vectors `X`. -/
structure Kept (m₀ : NormalModel K) (X : Multiset (List K)) (m : NormalModel K) : Prop where
  holds : m.Holds m₀.prior X
  mean_eq : Stuck m₀.prior X → m.mean = m₀.mean
  variance_eq : Stuck m₀.prior X → m.variance = m₀.variance

theorem kept_fresh (prior : NormalPrior K) (mean variance : List K) :
    (fresh prior mean variance).Kept 0 (fresh prior mean variance) :=
  ⟨holds_fresh prior mean variance, fun _ => rfl, fun _ => rfl⟩

theorem exists_fresh_of_make {mean variance : Nested K}
    (h : make prior mean variance = .ok m) : ∃ mu v, m = fresh prior mu v := by
  obtain ⟨mu, -, hrest⟩ := bind_eq_ok.1 h
  obtain ⟨v, -, hm⟩ := bind_eq_ok.1 hrest
  exact ⟨mu, v, (Except.ok.inj hm).symm⟩

theorem Kept.absorb (h : m₀.Kept X m) {v : List K} (hv : v.length = m₀.prior.dimension) :
    m₀.Kept (v ::ₘ X) (m.absorb v) := by
  have hstuck : Stuck m₀.prior (v ::ₘ X) → Stuck m₀.prior X := by
    rintro (hzero | hcenter)
    · exact absurd hzero (Multiset.cons_ne_zero)
    · exact .inr hcenter
  exact ⟨h.holds.absorb hv, fun hX => h.mean_eq (hstuck hX), fun hX => h.variance_eq (hstuck hX)⟩

/-- A component whose parameters nothing can replace is finalized to itself, or not at all. -/
theorem Holds.eq_of_stuck (h : m.Holds prior X) (hX : Stuck prior X)
    (hm : m.finalize = .ok m') : m' = m := by
  by_cases hcard : X.card = 0
  · rw [NormalModel.finalize, if_pos (h.count_eq.trans hcard)] at hm
    exact (Except.ok.inj hm).symm
  · obtain ⟨e, he⟩ := hX.resolve_left fun hzero => hcard (Multiset.card_eq_zero.2 hzero)
    rw [h.finalize_eq_map hcard, he] at hm
    cases hm

theorem Kept.finalize (h : m₀.Kept X m) : m₀.Kept X (Attempt.replacedBy m m.finalize).2 := by
  rcases hm : m.finalize with e | m'
  · exact h
  · refine ⟨h.holds.finalize hm, fun hX => ?_, fun hX => ?_⟩
    · rw [Attempt.replacedBy, h.holds.eq_of_stuck hX hm, h.mean_eq hX]
    · rw [Attempt.replacedBy, h.holds.eq_of_stuck hX hm, h.variance_eq hX]

theorem Kept.eq_of_stuck (h : m₀.Kept X m) (h₀ : m₀.Kept X m') (hX : Stuck m₀.prior X) : m = m' :=
  h.holds.eq h₀.holds ((h.mean_eq hX).trans (h₀.mean_eq hX).symm)
    ((h.variance_eq hX).trans (h₀.variance_eq hX).symm)

/-- Components that have accepted the same are finalized alike. -/
theorem Kept.runOn_finalizeInPlace_eq (h : m₀.Kept X m) (h' : m₀.Kept X m') :
    finalizeInPlace.runOn m = finalizeInPlace.runOn m' := by
  by_cases hX : Stuck m₀.prior X
  · rw [h.eq_of_stuck h' hX]
  · obtain ⟨hne, hcentred⟩ := not_or.1 hX
    have hcard : X.card ≠ 0 := mt Multiset.card_eq_zero.1 hne
    have hm := h.holds.finalize_eq_map hcard
    have hm' := h'.holds.finalize_eq_map hcard
    rcases hcenter : m₀.prior.center with e | center
    · exact absurd ⟨e, hcenter⟩ hcentred
    rw [hcenter] at hm hm'
    -- what they are finalized to has the same parameters, and still holds the same
    have heq := (h.holds.finalize hm).eq (h'.holds.finalize hm') rfl rfl
    rw [runOn_finalizeInPlace, runOn_finalizeInPlace, hm, hm']
    exact congrArg (Prod.mk (Except.ok ())) heq

end NormalModel

/-! ## Steps -/

namespace NormalModel

/-- What a component can be asked for. -/
inductive Step (α : Type) where
  | observe (x : Observation α)
  | density (x : Observation α)
  | finalize

section
variable {α : Type} [Readable α] {x : Observation α} {d : Nat}

/-- The vector that a component of dimension `d` accepts in the step, if any. -/
def Step.accepted (d : Nat) : Step α → List (List α)
  | .observe x =>
    match x.vector? with
    | .ok v => if v.length = d then [v] else []
    | .error _ => []
  | .density _ | .finalize => []

/-- The vectors that a component of dimension `d` accepts in some steps. -/
def accepted (d : Nat) (steps : List (Step α)) : List (List α) := steps.flatMap (Step.accepted d)

theorem accepted_of_spans (h : x.Spans d) : (Step.observe x).accepted d = [x.point] := by
  obtain ⟨hpoint, hlen⟩ := h
  simp only [Step.accepted, hpoint, if_pos hlen]

theorem accepted_of_refusedWith {e : Fault α} (h : x.RefusedWith d e) :
    (Step.observe x).accepted d = [] := by
  cases h with
  | dimension hv hne => simp only [Step.accepted, hv, if_neg hne]
  | unreadable he => simp only [Step.accepted, he]

variable [Scalar α]

/-- The step in place.  Its value, if any, is not looked at. -/
def Step.perform : Step α → Attempt (NormalModel α) α Unit
  | .observe x => observeInPlace x
  | .density x => (densityInPlace x).ignore
  | .finalize => finalizeInPlace

/-- The component after some steps, whether they fail or not. -/
def after (m : NormalModel α) (steps : List (Step α)) : NormalModel α :=
  steps.foldl (fun m s => (s.perform.runOn m).2) m

end

variable [Readable K]

section
variable {m : NormalModel K} {x : Observation K} {e : Fault K}

theorem runOn_observe_of_spans (h : x.Spans m.prior.dimension) :
    (Step.observe x).perform.runOn m = (.ok (), m.absorb x.point) := by
  rw [Step.perform, runOn_observeInPlace, observe, vector_eq_ok.2 ⟨h, rfl⟩]
  rfl

theorem runOn_observe_of_refusedWith (h : x.RefusedWith m.prior.dimension e) :
    (Step.observe x).perform.runOn m = (.error e, m) := by
  rw [Step.perform, runOn_observeInPlace, observe, vector_eq_error h]
  rfl

theorem runOn_density (m : NormalModel K) (x : Observation K) :
    (Step.density x).perform.runOn m = ((m.density x).map fun _ => (), m) := by
  rw [Step.perform, Attempt.runOn_ignore, runOn_densityInPlace]

theorem runOn_density_of_refusedWith (h : x.RefusedWith m.prior.dimension e) :
    (Step.density x).perform.runOn m = (.error e, m) := by
  rw [runOn_density, density_eq_error h]
  rfl

end

/-! ## Lives -/

variable {X : Multiset (List K)} {m₀ m : NormalModel K}

/-- **One step**: the component has accepted one vector more, or none. -/
theorem Kept.perform (h : m₀.Kept X m) (s : Step K) :
    m₀.Kept (s.accepted m₀.prior.dimension + X) (s.perform.runOn m).2 := by
  cases s with
  | observe x =>
    by_cases hx : x.Spans m.prior.dimension
    · rw [runOn_observe_of_spans hx, ← h.holds.prior_eq, accepted_of_spans hx,
        Multiset.coe_singleton, Multiset.singleton_add]
      rw [h.holds.prior_eq] at hx
      exact h.absorb hx.2
    · obtain ⟨e, he⟩ := Observation.not_spans_iff.1 hx
      rw [runOn_observe_of_refusedWith he, ← h.holds.prior_eq, accepted_of_refusedWith he,
        Multiset.coe_nil, zero_add]
      exact h
  | density x =>
    rw [runOn_density, Step.accepted, Multiset.coe_nil, zero_add]
    exact h
  | finalize =>
    rw [Step.perform, runOn_finalizeInPlace, Step.accepted, Multiset.coe_nil, zero_add]
    exact h.finalize

/-- **A whole life**: the component has accepted what it can accept. -/
theorem Kept.after (h : m₀.Kept X m) (steps : List (Step K)) :
    m₀.Kept (X + accepted m₀.prior.dimension steps) (m.after steps) := by
  induction steps generalizing m X with
  | nil =>
    rw [accepted, List.flatMap_nil, Multiset.coe_nil, add_zero]
    exact h
  | cons s steps ih =>
    have hrest := ih (h.perform s)
    rw [add_comm (s.accepted _ : Multiset (List K)) X, add_assoc, Multiset.coe_add] at hrest
    rw [accepted, List.flatMap_cons]
    exact hrest

/-- **Final parameters depend on what was accepted.**  In exact arithmetic, make a component with
    any prior and parameters, and ask it for anything in any order.  Then an observation that is
    no vector of the right dimension is refused as a wrong value, both when it is observed and
    when its density is asked for, and the component stays as it is; one that is a vector of the
    right dimension is taken in.  Telling a density changes nothing, and finalizing the component
    keeps its statistics.  When it is finalized in the end, it comes to the same as after any
    other steps in which it accepts the same vectors, in whatever order; and if it accepts none,
    it comes to what it was made as. -/
theorem final_parameters_depend_on_what_was_accepted {prior : NormalPrior K}
    {mean variance : Nested K} {m₀ : NormalModel K} (hmake : make prior mean variance = .ok m₀)
    (steps : List (Step K)) :
    (∀ x : Observation K, ¬ x.Spans prior.dimension →
      ∃ e, x.RefusedWith prior.dimension e ∧ e.kind = .value ∧
        (Step.observe x).perform.runOn (m₀.after steps) = (.error e, m₀.after steps) ∧
        (Step.density x).perform.runOn (m₀.after steps) = (.error e, m₀.after steps)) ∧
    (∀ x : Observation K, x.Spans prior.dimension →
      (Step.observe x).perform.runOn (m₀.after steps) =
        (.ok (), (m₀.after steps).absorb x.point)) ∧
    (∀ x, ((Step.density x).perform.runOn (m₀.after steps)).2 = m₀.after steps) ∧
    (Step.finalize.perform.runOn (m₀.after steps)).2.statistics = (m₀.after steps).statistics ∧
    (∀ steps', (accepted prior.dimension steps).Perm (accepted prior.dimension steps') →
      Step.finalize.perform.runOn (m₀.after steps) =
        Step.finalize.perform.runOn (m₀.after steps')) ∧
    (accepted prior.dimension steps = [] →
      Step.finalize.perform.runOn (m₀.after steps) = (.ok (), m₀)) := by
  obtain ⟨mu, v, hfresh⟩ := exists_fresh_of_make hmake
  have hprior : m₀.prior = prior := by rw [hfresh, fresh]
  have hkept : ∀ steps, m₀.Kept (accepted prior.dimension steps) (m₀.after steps) := by
    intro steps
    have hafter := (kept_fresh prior mu v).after steps
    rw [← hfresh, zero_add, hprior] at hafter
    exact hafter
  have hdimension : (m₀.after steps).prior.dimension = prior.dimension := by
    rw [(hkept steps).holds.prior_eq, hprior]
  refine ⟨?_, ?_, ?_, ?_, ?_, ?_⟩
  · intro x hx
    obtain ⟨e, he⟩ := Observation.not_spans_iff.1 hx
    rw [← hdimension] at he
    exact ⟨e, hdimension ▸ he, he.kind, runOn_observe_of_refusedWith he,
      runOn_density_of_refusedWith he⟩
  · intro x hx
    rw [← hdimension] at hx
    exact runOn_observe_of_spans hx
  · intro x
    rw [runOn_density]
  · have hstatistics := (hkept steps).finalize.holds.statistics_eq
    rw [Step.perform, runOn_finalizeInPlace, hstatistics, (hkept steps).holds.statistics_eq]
  · intro steps' hperm
    have hsame := hkept steps
    rw [Multiset.coe_eq_coe.2 hperm] at hsame
    exact hsame.runOn_finalizeInPlace_eq (hkept steps')
  · intro hnone
    have hsame := hkept steps
    have hempty : m₀.Kept 0 m₀ := hkept []
    rw [hnone] at hsame
    have hcount : m₀.count = 0 := hempty.holds.count_eq
    rw [hsame.eq_of_stuck hempty (.inl rfl), Step.perform, runOn_finalizeInPlace,
      NormalModel.finalize, if_pos hcount]
    rfl

/-- A point of the plane is observed before and one after the component is finalized, among
    others that are refused. -/
def scattered : List (Step ℚ) :=
  [.observe (.value (.ofList [1, 2])), .density (.value (.ofList [3])), .finalize,
    .observe (.value (.scalar 7)), .observe (.value (.list [.ofList [3], .ofList [2]]))]

/-- The same two points the other way round. -/
def gathered : List (Step ℚ) :=
  [.observe (.value (.ofList [3, 2])), .observe (.value (.list [.ofList [1, 2]]))]

/-- Both come to the same mean and variance, and a single number is refused once more. -/
theorem two_points_in_either_order :
    ∃ m₀ m e, make NormalPrior.plane (.ofList [0, 0]) (.list [.ofList [1], .ofList [1]]) = .ok m₀ ∧
      (Step.observe (.value (.scalar 7))).perform.runOn (m₀.after scattered) =
        (.error e, m₀.after scattered) ∧ e.kind = .value ∧
      Step.finalize.perform.runOn (m₀.after scattered) = (.ok (), m) ∧
      Step.finalize.perform.runOn (m₀.after gathered) = (.ok (), m) ∧
      m.mean = [4 / 3, 5 / 3] ∧ m.variance = [10 / 9, 4 / 9] := by
  have hmake : make NormalPrior.plane (.ofList [0, 0]) (.list [.ofList [1], .ofList [1]]) =
      .ok (fresh NormalPrior.plane [0, 0] [1, 1]) := rfl
  obtain ⟨hrefused, -, -, -, hsame, -⟩ :=
    final_parameters_depend_on_what_was_accepted hmake scattered
  have hspans : ¬ (Observation.value (.scalar (7 : ℚ))).Spans NormalPrior.plane.dimension := by
    rintro ⟨-, hlen⟩
    cases hlen
  obtain ⟨e, -, hkind, hobserve, -⟩ := hrefused _ hspans
  have hgathered := hsame gathered (.swap _ _ _)
  have hvalues : (fun r : Except (Fault ℚ) Unit × NormalModel ℚ =>
      (r.1.toOption, r.2.mean, r.2.variance)) (Step.finalize.perform.runOn
        ((fresh NormalPrior.plane [0, 0] [1, 1]).after scattered)) =
      (some (), [4 / 3, 5 / 3], [10 / 9, 4 / 9]) := by
    decide +kernel
  rcases hrun : Step.finalize.perform.runOn
    ((fresh NormalPrior.plane [0, 0] [1, 1]).after scattered) with ⟨e' | u, m⟩ <;>
    rw [hrun] at hvalues
  · cases hvalues
  · obtain ⟨-, hparameters⟩ := Prod.mk.inj hvalues
    obtain ⟨hmean, hvariance⟩ := Prod.mk.inj hparameters
    exact ⟨_, m, e, hmake, hobserve, hkind, hrun, hgathered.symm.trans hrun, hmean, hvariance⟩

end NormalModel

end DirichletMixture
