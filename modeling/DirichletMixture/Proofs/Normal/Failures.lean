/-
  DirichletMixture: how chains of normal components fail.

  A chain of normal components starts only if its prior has a centre, and then its
  components can be redrawn in every iteration.  So what is left to fail are the
  observations: one may be no vector of the right dimension, or have unusable weights.

  * `Observation.RefusedWith` says for which reason no component takes an observation, and
    `not_spans_iff` that there is one unless it is a vector of the right dimension;
  * `Chain.error_cases_of_normals` and `Chain.spans_of_iterate`: what a failed iteration has
    come upon, and what a completed one has not;
  * `normal_components_fail_at_observations` puts this together for every chain that is
    reached from a start.
-/
import DirichletMixture.Proofs.Exact.Basic
import DirichletMixture.Proofs.Chain.Reachable
import DirichletMixture.Proofs.Chain.Resampling
import DirichletMixture.Proofs.Chain.Stopping
import DirichletMixture.Proofs.Normal.Redrawing
import DirichletMixture.Proofs.Weights.Stick

namespace DirichletMixture

variable {τ ω α K : Type}

/-! ## Observations -/

section
variable [Readable α]

/-- Why components of dimension `d` do not take an observation: it is a vector of another
    dimension, or cannot be read as a vector. -/
inductive Observation.RefusedWith (d : Nat) (x : Observation α) : Fault α → Prop where
  | dimension {v : List α} :
    x.vector? = .ok v → v.length ≠ d → x.RefusedWith d (.dimension v.length d)
  | unreadable {e : Fault α} : x.vector? = .error e → x.RefusedWith d e

namespace Observation

variable {d : Nat} {x : Observation α} {e : Fault α}

theorem RefusedWith.not_spans (h : x.RefusedWith d e) : ¬ x.Spans d := by
  rintro ⟨hpoint, hlen⟩
  cases h with
  | @dimension v hv hne =>
    rw [hpoint] at hv
    obtain rfl := Except.ok.inj hv
    exact hne hlen
  | unreadable he =>
    rw [hpoint] at he
    cases he

/-- An observation is refused unless it is a vector of the right dimension. -/
theorem not_spans_iff : ¬ x.Spans d ↔ ∃ e, x.RefusedWith d e := by
  constructor
  · intro h
    rcases hv : x.vector? with e | v
    · exact ⟨e, .unreadable hv⟩
    · refine ⟨_, .dimension hv ?_⟩
      intro hlen
      have hpoint : x.point = v := by simp only [point, hv]
      exact h ⟨by rw [hpoint, hv], by rw [hpoint, hlen]⟩
  · rintro ⟨e, h⟩
    exact h.not_spans

/-- Refusals are about values. -/
theorem RefusedWith.kind (h : x.RefusedWith d e) : e.kind = .value := by
  cases h with
  | dimension => rfl
  | unreadable he =>
    rcases x with text | y
    · rw [vector?] at he
      split at he
      · obtain rfl := Except.error.inj he
        rfl
      · cases he
    · rw [vector?] at he
      split at he
      · obtain rfl := Except.error.inj he
        rfl
      · cases he

theorem RefusedWith.locate (h : x.RefusedWith d e) (site : Site) : e.locate site = e := by
  have hkind := h.kind
  cases e with
  | degenerate => cases hkind
  | _ => rfl

end Observation

end

variable [Exact K]

/-! ## Likelihoods -/

section
variable [Readable K]

namespace NormalModel

variable {m : NormalModel K} {x : Observation K} {e : Fault K}

theorem vector_eq_error (h : x.RefusedWith m.prior.dimension e) : m.vector x = .error e := by
  cases h with
  | dimension hv hne => simp [vector, hv, hne, bind, Except.bind]
  | unreadable he => simp [vector, he, bind, Except.bind]

theorem density_eq_error (h : x.RefusedWith m.prior.dimension e) : m.density x = .error e := by
  rw [density, vector_eq_error h]
  rfl

/-- A component has a likelihood for a vector exactly if the dimension is right. -/
theorem exists_density_iff : (∃ q, m.density x = .ok q) ↔ x.Spans m.prior.dimension := by
  constructor
  · rintro ⟨q, hq⟩
    obtain ⟨v, hv, -⟩ := bind_eq_ok.1 hq
    exact (vector_eq_ok.1 hv).1
  · intro h
    refine ⟨m.densityAt x.point, ?_⟩
    rw [density, vector_eq_ok.2 ⟨h, rfl⟩]
    rfl

end NormalModel

end

/-! ## Iterations -/

theorem Mixture.exists_weights {M : Type} {m : Mixture M K} {g : Generator ω K}
    (hg : g.ServesShares) (hm : 0 < m.alpha0) (d : Draws ω K) :
    ∃ w, ((m.weights g).runOn d).1 = .ok w := by
  rcases hw : d.weights with _ | w
  · obtain ⟨w, s, hdraw⟩ := exists_breakStick hg hm m.occupancy d.source
    exact ⟨w, congrArg Prod.fst (weights_eq_ok.2 (Or.inr ⟨hw, s, hdraw, rfl⟩))⟩
  · exact ⟨w, by rw [runOn_weights_of_some hw]⟩

namespace Chain

variable [Readable K] {g' : Generator τ K} {prior : NormalPrior K} {get : ω → τ}
  {put : τ → ω → ω} {g : Generator ω K}

section
variable {c c' : Chain ω (Observation K) (NormalModel K) K}
  (hms : ∀ m ∈ c.state.mixture.models, m.Sound prior)
include hms

/-- Observations that are routed are vectors of the right dimension. -/
theorem spans_of_route {iteration j : Nat} {ms ms' : List (NormalModel K)}
    {xs : List (Observation K)} {d d' : Draws ω K}
    (h : (route ((normalFamily g' prior).focus get put).toComponent g c.state.mixture iteration
      ms j xs).runOn d = (.ok ms', d')) : ∀ x ∈ xs, x.Spans prior.dimension := by
  intro x hx
  obtain ⟨m, hm, hdensity⟩ := exists_density_of_route h x hx
  obtain ⟨-, X, hX⟩ := hms m hm
  rw [← hX.prior_eq]
  exact NormalModel.exists_density_iff.1 hdensity

/-- **A completed iteration** has come upon no observation that is refused. -/
theorem spans_of_iterate {u : Unit}
    (h : (iterate ((normalFamily g' prior).focus get put) g).runOn c = (.ok u, c')) :
    ∀ x ∈ c.data, x.Spans prior.dimension := by
  obtain ⟨ms, d, hsweep, -⟩ := iterate_eq_ok.1 h
  obtain ⟨fresh, d₁, -, hrest⟩ := Attempt.runOn_bind_eq_ok.1 hsweep
  obtain ⟨ms', d₂, hroute, -⟩ := Attempt.runOn_bind_eq_ok.1 hrest
  exact spans_of_route hms hroute

/-- **A failed iteration** has come upon an observation that is refused, or that has
    unusable weights. -/
theorem error_cases_of_normals (hg' : g'.ServesNormals) (hg : g.ServesShares)
    (halpha0 : 0 < c.state.mixture.alpha0) (hsize : 0 < c.state.mixture.size)
    (hc : c.state.Sound g) {e : Fault K}
    (h : (iterate ((normalFamily g' prior).focus get put) g).runOn c = (.error e, c')) :
    ∃ (j : Nat) (x : Observation K), c.data[j]? = some x ∧
      (∀ y ∈ c.data.take j, y.Spans prior.dimension) ∧
      (x.Spans prior.dimension ∧ (∃ cause, e = .degenerate cause ⟨some c.iteration, some j⟩) ∨
        x.RefusedWith prior.dimension e) := by
  obtain ⟨fresh, s, hdraw, hlen, -⟩ :=
    exists_fromPosterior hg' get put hms c.state.draws.source
  rw [Mixture.length_models] at hlen
  rcases error_cases_of_receptive ((normalFamily_receptive g' prior).focus get put) hms h with
    ⟨s', hs'⟩ | ⟨fresh', s', hs', hlen'⟩ | ⟨j, hstops⟩
  · rw [hdraw] at hs'
    cases hs'
  · rw [hdraw] at hs'
    cases hs'
    exact absurd hlen hlen'
  obtain ⟨x, ms, d, hcomes, hassign⟩ := stopsAt_iff.1 hstops
  obtain ⟨w, hw⟩ := Mixture.exists_weights hg halpha0 d
  obtain ⟨hweights, -⟩ := (hcomes.hasWeights_iff.2 hw).exists_drawWeights hc
  have hcases := Mixture.error_cases_of_assign hw hassign
  obtain ⟨hx, fresh', d₁, -, hroute⟩ := hcomes
  refine ⟨j, x, hx, spans_of_route hms hroute, ?_⟩
  by_cases hspans : x.Spans prior.dimension
  · -- the observation has all scores, so they are unusable
    have hdensity : ∀ m ∈ c.state.mixture.models,
        ∃ q, ((normalFamily g' prior).focus get put).density m x = .ok q := by
      intro m hm
      obtain ⟨-, X, hX⟩ := hms m hm
      exact NormalModel.exists_density_iff.2 (by rwa [hX.prior_eq])
    obtain ⟨ps, hps⟩ := Mixture.exists_scoresFor w hdensity
    rcases hcases with ⟨e', he', -⟩ | ⟨-, hcause⟩
    · cases hps.symm.trans he'
    · exact Or.inl ⟨hspans, hcause⟩
  · -- all components refuse the observation, and for the same reason
    obtain ⟨e', he'⟩ := Observation.not_spans_iff.1 hspans
    have hdensity : ∀ m ∈ c.state.mixture.models,
        ((normalFamily g' prior).focus get put).density m x = .error e' := by
      intro m hm
      obtain ⟨-, X, hX⟩ := hms m hm
      exact NormalModel.density_eq_error (by rwa [hX.prior_eq])
    have hps := Mixture.scoresFor_eq_error hweights hsize hdensity
    rcases hcases with ⟨e'', he'', rfl⟩ | ⟨⟨ps, hps'⟩, -⟩
    · obtain rfl := Except.error.inj (hps.symm.trans he'')
      rw [he'.locate]
      exact Or.inr he'
    · cases hps.symm.trans hps'

end

section
variable {plan : Plan K} {data : List (Observation K)} {s s' : ω}
  {c₀ c : Chain ω (Observation K) (NormalModel K) K}
  (h : start ((normalFamily g' prior).focus get put) plan data s = (.ok c₀, s'))
include h

/-- An observation that is refused keeps a chain from completing any iteration. -/
theorem blank_of_not_spans {ps : List (Pass ω (Observation K) (NormalModel K) K)}
    (hrun : Leads ((normalFamily g' prior).focus get put) g c₀ ps c)
    (hdata : ∃ x ∈ data, ¬ x.Spans prior.dimension) :
    c.iteration = 0 ∧ c.samples = [] ∧ ∀ n ∈ c.state.mixture.totals, n = 0 := by
  have hf := (normalFamily_receptive g' prior).focus get put
  have h₀ := hf.prior _ _ _ _ (fromPrior_of_start h)
  obtain ⟨-, hdata₀, hi, hs⟩ := start_blank h
  obtain ⟨-, htotals, -⟩ := start_mixture h
  have hnone : ps = [] := by
    refine List.eq_nil_iff_forall_not_mem.2 ?_
    intro p hp
    obtain ⟨⟨qs, hbefore⟩, hiterate⟩ := hrun.of_mem hp
    have hspans := spans_of_iterate (hbefore.forall_models hf.toMaintains h₀) hiterate
    obtain ⟨x, hx, hrefused⟩ := hdata
    refine hrefused (hspans x ?_)
    rwa [hbefore.data, hdata₀]
  subst hnone
  refine ⟨hrun.iteration.trans hi, ?_, ?_⟩
  · refine List.eq_nil_iff_forall_not_mem.2 ?_
    intro ms hms
    obtain ⟨p, hp, -⟩ := (hrun.accounted hi hs).samples ms hms
    cases hp
  · have hmixture : c.state.mixture = c₀.state.mixture := hrun.mixture
    rw [hmixture]
    exact List.sum_eq_zero_iff.1 htotals

/-- **Chains of normal components fail at observations only.**  In exact arithmetic, let
    gamma, normal and beta draws with positive parameters succeed, and let a chain of normal
    components start.  Then its prior has a centre, and wherever the chain gets to, its
    components have positive variances, and the beliefs that they lead to can be computed.
    An iteration fails only at an observation, after all those before it were routed: it is
    a vector of the right dimension with unusable weights, or it is refused for what it is.
    So weights are the only reason if all observations are vectors of the right dimension.
    If one of them is not, every iteration fails, and the chain is as blank as at its
    start. -/
theorem normal_components_fail_at_observations (hg' : g'.ServesNormals) (hg : g.ServesShares)
    (hc : Reachable ((normalFamily g' prior).focus get put) g c₀ c) :
    (∃ center, prior.center = .ok center ∧ ∀ m ∈ c.state.mixture.models,
      m.Spread ∧ ∃ X, prior.posterior m.statistics = .ok (prior.conjugate center X)) ∧
    (∀ e c', (iterate ((normalFamily g' prior).focus get put) g).runOn c = (.error e, c') →
      ∃ (j : Nat) (x : Observation K), data[j]? = some x ∧
        (∀ y ∈ data.take j, y.Spans prior.dimension) ∧
        (x.Spans prior.dimension ∧
            (∃ cause, e = .degenerate cause ⟨some c.iteration, some j⟩) ∨
          x.RefusedWith prior.dimension e ∧ e.kind = .value)) ∧
    ((∀ x ∈ data, x.Spans prior.dimension) →
      ∀ e c', (iterate ((normalFamily g' prior).focus get put) g).runOn c = (.error e, c') →
        ∃ (j : Nat) (cause : Degeneracy K),
          e = .degenerate cause ⟨some c.iteration, some j⟩) ∧
    ((∃ x ∈ data, ¬ x.Spans prior.dimension) →
      (∃ e c', (iterate ((normalFamily g' prior).focus get put) g).runOn c = (.error e, c')) ∧
        c.iteration = 0 ∧ c.samples = [] ∧ ∀ n ∈ c.state.mixture.totals, n = 0) := by
  have hf := (normalFamily_receptive g' prior).focus get put
  have h₀ := hf.prior _ _ _ _ (fromPrior_of_start h)
  obtain ⟨ps, hrun⟩ := hc.leads
  obtain ⟨rfl, hsize, halpha0, hsound⟩ := hc.of_start h
  have hms := hc.forall_models h hf.toMaintains
  have hpos : 0 < c.state.mixture.alpha0 := by
    rw [halpha0]
    exact plan.alpha0_pos
  have hclusters : 0 < c.state.mixture.size := by
    rw [hsize]
    exact plan.clusters_pos
  refine ⟨?_, ?_, ?_, ?_⟩
  · -- some component is live, so the prior has a centre
    obtain ⟨m, hm⟩ := List.exists_mem_of_length_pos (by rwa [Mixture.length_models] :
      0 < c.state.mixture.models.length)
    obtain ⟨⟨center, hcenter⟩, -⟩ := hms m hm
    refine ⟨center, hcenter, ?_⟩
    intro m' hm'
    obtain ⟨-, X, hX⟩ := hms m' hm'
    exact ⟨hrun.spread hg' h₀ (spread_of_start hg' h) m' hm', X, hX.posterior hcenter⟩
  · intro e c' he
    obtain ⟨j, x, hx, hbefore, hunusable | hrefused⟩ :=
      error_cases_of_normals hms hg' hg hpos hclusters hsound he
    · exact ⟨j, x, hx, hbefore, Or.inl hunusable⟩
    · exact ⟨j, x, hx, hbefore, Or.inr ⟨hrefused, hrefused.kind⟩⟩
  · intro hspans e c' he
    obtain ⟨j, x, hx, -, ⟨-, cause, rfl⟩ | hrefused⟩ :=
      error_cases_of_normals hms hg' hg hpos hclusters hsound he
    · exact ⟨j, cause, rfl⟩
    · exact absurd (hspans x (List.mem_of_getElem? hx)) hrefused.not_spans
  · intro hdata
    refine ⟨?_, blank_of_not_spans h hrun hdata⟩
    rcases hrun' : (iterate ((normalFamily g' prior).focus get put) g).runOn c with ⟨e | u, c'⟩
    · exact ⟨e, c', rfl⟩
    · obtain ⟨x, hx, hrefused⟩ := hdata
      exact absurd (spans_of_iterate hms hrun' x hx) hrefused

end

/-- Normal components that share a seed with the sampler. -/
abbrev seededNormals : Family UInt64 (Observation ℚ) (NormalModel ℚ) ℚ :=
  (normalFamily Script.seeded .standard).focus id fun s _ => s

/-- The start of a chain of two normal components with some observations. -/
abbrev startSeeded (data : List (Observation ℚ)) :
    Except (Fault ℚ) (Chain UInt64 (Observation ℚ) (NormalModel ℚ) ℚ) × UInt64 :=
  start seededNormals (Plan.exactPair 0 1 2 Nat.one_pos) data 0

/-- After the number 1 comes a vector of two entries: after a call that has failed, the next
    iteration fails for its dimension, and nothing has been kept of the number. -/
theorem second_observation_is_too_long :
    ∃ c₀ s' c', startSeeded [.value (.scalar 1), .value (.ofList [1, 2])] = (.ok c₀, s') ∧
      (iterate seededNormals Script.seeded).runOn
        (after seededNormals Script.seeded [.cluster none] c₀) = (.error (.dimension 2 1), c') ∧
      (after seededNormals Script.seeded [.cluster none] c₀).iteration = 0 ∧
      (after seededNormals Script.seeded [.cluster none] c₀).samples = [] ∧
      ∀ n ∈ (after seededNormals Script.seeded [.cluster none] c₀).state.mixture.totals,
        n = 0 := by
  have hkind : (startSeeded [.value (.scalar 1), .value (.ofList [1, 2])]).1.toOption.map
      (fun c => ((iterate seededNormals Script.seeded).runOn
        (after seededNormals Script.seeded [.cluster none] c)).1.mapError Fault.kind) =
      some (.error .value) := by
    decide +kernel
  rcases hstart : startSeeded [.value (.scalar 1), .value (.ofList [1, 2])] with ⟨e | c₀, s'⟩ <;>
    rw [hstart] at hkind
  · cases hkind
  have hone : (Observation.value (.scalar (1 : ℚ))).Spans NormalPrior.standard.dimension :=
    ⟨rfl, rfl⟩
  have htwo : ¬ (Observation.value (.ofList [(1 : ℚ), 2])).Spans
      NormalPrior.standard.dimension := by
    rintro ⟨-, hlen⟩
    cases hlen
  obtain ⟨-, hfails, -, hblank⟩ := normal_components_fail_at_observations hstart
    Script.servesNormals_seeded Script.servesShares_seeded
    (reachable_after seededNormals Script.seeded [.cluster none] c₀)
  obtain ⟨⟨e, c', he⟩, hrest⟩ := hblank ⟨_, List.mem_cons_of_mem _ List.mem_cons_self, htwo⟩
  obtain ⟨j, x, hx, -, ⟨-, cause, rfl⟩ | ⟨hrefused, -⟩⟩ := hfails e c' he
  · -- the number 1 has weights that can be used
    have hvalue : ((iterate seededNormals Script.seeded).runOn
        (after seededNormals Script.seeded [.cluster none] c₀)).1.mapError Fault.kind =
          .error .value :=
      Option.some.inj hkind
    rw [he] at hvalue
    cases hvalue
  refine ⟨c₀, s', c', rfl, ?_, hrest⟩
  rw [he]
  rcases j with _ | _ | j
  · cases hx
    exact absurd hone hrefused.not_spans
  · cases hx
    cases hrefused with
    | dimension hv _ => cases hv; rfl
    | unreadable he => cases he
  · cases hx

/-- A list of two lists of different lengths is no array of numbers, and an iteration that
    comes to it fails for that, neither for a dimension nor for weights. -/
theorem ragged_observation_has_no_dimension :
    (Script.seeded : Generator UInt64 ℚ).ServesNormals ∧
      (Script.seeded : Generator UInt64 ℚ).ServesShares ∧
      ∃ c₀ s' e c', startSeeded [.value (.list [.ofList [1, 2], .ofList [3]])] = (.ok c₀, s') ∧
        (iterate seededNormals Script.seeded).runOn c₀ = (.error e, c') ∧
        ¬ ((∃ cause site, e = .degenerate cause site) ∨
          ∃ actual expected, e = .dimension actual expected) := by
  have hmessage : (startSeeded [.value (.list [.ofList [1, 2], .ofList [3]])]).1.toOption.map
      (fun c => ((iterate seededNormals Script.seeded).runOn c).1.mapError Fault.message?) =
      some (.error none) := by
    decide +kernel
  refine ⟨Script.servesNormals_seeded, Script.servesShares_seeded, ?_⟩
  rcases hstart : startSeeded [.value (.list [.ofList [1, 2], .ofList [3]])] with ⟨e | c₀, s'⟩ <;>
    rw [hstart] at hmessage
  · cases hmessage
  have hnone : ((iterate seededNormals Script.seeded).runOn c₀).1.mapError Fault.message? =
      .error none :=
    Option.some.inj hmessage
  rcases hrun : (iterate seededNormals Script.seeded).runOn c₀ with ⟨e | u, c'⟩ <;>
    rw [hrun] at hnone
  · refine ⟨c₀, s', e, c', rfl, hrun, ?_⟩
    -- a fault of either form would have a text
    rintro (⟨cause, site, rfl⟩ | ⟨actual, expected, rfl⟩) <;> cases hnone
  · cases hnone

end Chain

end DirichletMixture
