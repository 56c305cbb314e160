/-
  DirichletMixture: where an iteration stops.

  Once there are fresh components and weights, an iteration goes on as long as it can draw
  destinations.  If components take what they can score, it fails only for lack of
  components, or at the first observation that finds no destination.

  * `Mixture.Drawable` says that a destination can be drawn for an observation once the
    weights are known, and `exists_assign_of_drawable` that it is;
  * `lt_size_of_assign`: a destination is one of the clusters, and `error_cases_of_assign`:
    why there is none;
  * `Chain.error_cases_of_receptive`: the ways in which an iteration fails;
  * `Chain.exists_comesTo` and `Chain.exists_iterate`: an iteration comes to an observation
    if destinations can be drawn for those before it, and ends well if they can be drawn
    for all.
-/
import DirichletMixture.Proofs.Exact.Basic
import DirichletMixture.Proofs.Chain.Destinations
import DirichletMixture.Proofs.Family.Receptive
import DirichletMixture.Proofs.Weights.Calls

namespace DirichletMixture

variable {ω O M α : Type} [Scalar α]

/-! ## One observation -/

namespace Mixture

variable {c : Component O M α} {g : Generator ω α} {m : Mixture M α} {x : O} {w : List α}
  {d d' : Draws ω α} {site : Site}

/-- A destination is one of the clusters, and the point has a likelihood under its live
    component. -/
theorem lt_size_of_assign {k : Nat} (h : (m.assign c g x site).runOn d = (.ok k, d')) :
    k < m.size ∧ ∃ model ∈ m.models, ∃ q, c.density model x = .ok q := by
  obtain ⟨w, d₁, p, s, -, hnormalized, hk, -⟩ := assign_eq_ok.1 h
  obtain ⟨ps, hps, hnormalize⟩ := bind_eq_ok.1 hnormalized
  have hlt := lt_length_of_drawIndex hk
  rw [length_normalizeByMax hnormalize] at hlt
  obtain ⟨weight, model, q, -, hmodel, hq, -⟩ :=
    exists_mul_of_scoresFor hps (List.getElem?_eq_getElem hlt)
  refine ⟨?_, model, List.mem_of_getElem? hmodel, q, hq⟩
  rw [← length_models]
  exact (List.getElem?_eq_some_iff.1 hmodel).1

/-- The scores of the point for the weights `w` can be normalized and drawn from. -/
def Drawable (c : Component O M α) (m : Mixture M α) (w : List α) (x : O) : Prop :=
  ∃ p total, (m.scoresFor c w x).bind normalizeByMax = .ok p ∧ checkWeights p = .ok total

theorem exists_assign_of_drawable (hw : ((m.weights g).runOn d).1 = .ok w)
    (hx : m.Drawable c w x) (site : Site) :
    ∃ k d', (m.assign c g x site).runOn d = (.ok k, d') := by
  obtain ⟨p, total, hp, htotal⟩ := hx
  exact ⟨_, _, assign_eq_ok.2 ⟨w, _, p, _, Prod.ext hw rfl, hp,
    drawIndex_eq_ok.2 ⟨total, htotal, rfl, rfl⟩, rfl⟩⟩

/-- Once the weights are known, there is no destination only if the point has no scores, or
    unusable ones. -/
theorem error_cases_of_assign {e : Fault α} (hw : ((m.weights g).runOn d).1 = .ok w)
    (h : (m.assign c g x site).runOn d = (.error e, d')) :
    (∃ e', m.scoresFor c w x = .error e' ∧ e'.locate site = e) ∨
      (∃ ps, m.scoresFor c w x = .ok ps) ∧ ∃ cause, e = .degenerate cause site := by
  obtain ⟨e', rfl, hnone | ⟨w', d₁, hw', hrest⟩⟩ := assign_eq_error.1 h
  · rw [hnone] at hw
    cases hw
  rw [hw'] at hw
  obtain rfl := Except.ok.inj hw
  rcases hps : m.scoresFor c w' x with e'' | ps <;> rw [hps] at hrest
  · rcases hrest with ⟨he, -⟩ | ⟨p, s, hp, -⟩
    · obtain rfl := Except.error.inj he
      exact Or.inl ⟨_, rfl, rfl⟩
    · cases hp
  · right
    refine ⟨⟨ps, rfl⟩, ?_⟩
    rcases hrest with ⟨he, -⟩ | ⟨p, s, -, hdraw, -⟩
    · obtain ⟨cause, rfl⟩ := normalizeByMax_eq_error he
      exact ⟨cause, rfl⟩
    · obtain ⟨-, cause, rfl⟩ := drawIndex_eq_error hdraw
      exact ⟨cause, rfl⟩

end Mixture

/-! ## Several observations -/

/-- Observations that are routed have likelihoods under live components. -/
theorem exists_density_of_route {c : Component O M α} {g : Generator ω α} {m : Mixture M α}
    {iteration j : Nat} {ms ms' : List M} {xs : List O} {d d' : Draws ω α}
    (h : (route c g m iteration ms j xs).runOn d = (.ok ms', d')) :
    ∀ x ∈ xs, ∃ model ∈ m.models, ∃ q, c.density model x = .ok q := by
  induction xs generalizing ms j d with
  | nil => simp
  | cons x xs ih =>
    obtain ⟨k, d₁, hassign, hrest⟩ := Attempt.runOn_bind_eq_ok.1 h
    obtain ⟨ms₁, d₂, -, hroute⟩ := Attempt.runOn_bind_eq_ok.1 hrest
    exact List.forall_mem_cons.2 ⟨(Mixture.lt_size_of_assign hassign).2, ih hroute⟩

section
variable {f : Family ω O M α} {g : Generator ω α} {m : Mixture M α} {Q : M → Prop}

/-- A component that is live at a destination takes what is routed there. -/
theorem exists_observeIn (hf : f.Receptive Q) (hm : ∀ model ∈ m.models, Q model) {ms : List M}
    (hms : ∀ model ∈ ms, Q model) (hlen : ms.length = m.size) {x : O} {site : Site} {k : Nat}
    {d d' : Draws ω α} (h : (m.assign f.toComponent g x site).runOn d = (.ok k, d')) :
    ∃ ms', observeIn f.toComponent ms k x = .ok ms' ∧ ms'.length = m.size ∧
      ∀ model ∈ ms', Q model := by
  obtain ⟨hk, model, hmodel, q, hq⟩ := Mixture.lt_size_of_assign h
  have hk' : k < ms.length := by rwa [hlen]
  have hold := hms _ (List.getElem_mem hk')
  obtain ⟨m', hm'⟩ := hf.takes model ms[k] x q (hm model hmodel) hold hq
  refine ⟨ms.set k m', observeIn_eq_ok.2 ⟨_, _, List.getElem?_eq_getElem hk', hm', rfl⟩, ?_, ?_⟩
  · rw [List.length_set, hlen]
  · intro model' hmodel'
    rcases List.mem_or_eq_of_mem_set hmodel' with hmem | rfl
    · exact hms _ hmem
    · exact hf.observe _ _ _ hold hm'

/-- Observations for which destinations can be drawn are routed. -/
theorem exists_route_of_drawable (hf : f.Receptive Q) (hm : ∀ model ∈ m.models, Q model)
    {w : List α} {xs : List O} (hxs : ∀ x ∈ xs, m.Drawable f.toComponent w x)
    (iteration j : Nat) {ms : List M} {d : Draws ω α} (hms : ∀ model ∈ ms, Q model)
    (hlen : ms.length = m.size) (hw : ((m.weights g).runOn d).1 = .ok w) :
    ∃ ms' d', (route f.toComponent g m iteration ms j xs).runOn d = (.ok ms', d') := by
  induction xs generalizing ms j d with
  | nil => exact ⟨ms, d, rfl⟩
  | cons x xs ih =>
    obtain ⟨hx, hrest⟩ := List.forall_mem_cons.1 hxs
    obtain ⟨k, d₁, hassign⟩ :=
      Mixture.exists_assign_of_drawable hw hx ⟨some iteration, some j⟩
    obtain ⟨ms₁, hobserve, hlen₁, hms₁⟩ := exists_observeIn hf hm hms hlen hassign
    obtain ⟨ms', d', hroute⟩ := ih hrest (j + 1) hms₁ hlen₁
      ((weights_of_assign hassign).trans hw)
    refine ⟨ms', d', ?_⟩
    rw [route, Attempt.runOn_bind_ok hassign, hobserve]
    exact hroute

end

/-! ## Iterations -/

namespace Chain

variable {f : Family ω O M α} {g : Generator ω α} {c c' : Chain ω O M α} {Q : M → Prop}
  (hf : f.Receptive Q) (hQ : ∀ m ∈ c.state.mixture.models, Q m)
include hf hQ

/-- If components take what they can score, an iteration fails only for lack of components
    or of a destination. -/
theorem error_cases_of_receptive {e : Fault α} (h : (iterate f g).runOn c = (.error e, c')) :
    (∃ s, (f.fromPosterior c.state.mixture.models).runOn c.state.draws.source = (.error e, s)) ∨
    (∃ fresh s,
      (f.fromPosterior c.state.mixture.models).runOn c.state.draws.source = (.ok fresh, s) ∧
      fresh.length ≠ c.state.mixture.size) ∨
    ∃ j, StopsAt f g c j e c'.state.draws := by
  obtain ⟨d, hsweep, rfl⟩ := iterate_eq_error.1 h
  rcases Attempt.runOn_bind_eq_error.1 hsweep with hrenew | ⟨fresh, d₁, hrenew, hrest⟩
  · obtain ⟨s, -, hs | ⟨fresh, hs, hlen, -⟩⟩ := renew_eq_error.1 hrenew
    · exact Or.inl ⟨s, hs⟩
    · exact Or.inr (Or.inl ⟨fresh, s, hs, hlen⟩)
  right; right
  obtain ⟨s, hs, hlen, -⟩ := renew_eq_ok.1 hrenew
  have hfresh := hf.posterior _ _ _ _ hs
  rcases Attempt.runOn_bind_eq_error.1 hrest with hroute | ⟨ms, d₂, hroute, hfinal⟩
  · obtain ⟨j, x, ms, d₂, hx, hbefore, hlast⟩ := route_eq_error hroute
    rw [Nat.zero_add] at hlast
    rcases hlast with hassign | ⟨k, hassign, hrefuses⟩
    · exact ⟨j, x, fresh, d₁, ms, d₂, hx, hrenew, hbefore, hassign⟩
    · -- the component that the observation goes to takes it
      obtain ⟨hlen', hms⟩ := forall_of_route hf.toMaintains hfresh hbefore
      obtain ⟨ms', hms', -⟩ := exists_observeIn hf hQ hms (hlen'.trans hlen) hassign
      rw [hms'] at hrefuses
      cases hrefuses
  · -- all components can be finalized
    obtain ⟨-, hms⟩ := forall_of_route hf.toMaintains hfresh hroute
    obtain ⟨ms', hms'⟩ := exists_mapM_eq_ok fun m hm => hf.finalizes m (hms m hm)
    rw [hms'] at hfinal
    cases hfinal

variable {w : List α} (hw : HasWeights f g c w)
include hw

/-- An iteration comes to an observation if destinations can be drawn for those before. -/
theorem exists_comesTo {j : Nat} {x : O} (hx : c.data[j]? = some x)
    (hbefore : ∀ y ∈ c.data.take j, c.state.mixture.Drawable f.toComponent w y) :
    ∃ ms d, ComesTo f g c j x ms d := by
  obtain ⟨fresh, d, d', hrenew, hweights⟩ := hw
  obtain ⟨s, hs, hlen, -⟩ := renew_eq_ok.1 hrenew
  obtain ⟨ms, d₁, hroute⟩ := exists_route_of_drawable hf hQ hbefore c.iteration 0
    (hf.posterior _ _ _ _ hs) hlen (by rw [hweights])
  exact ⟨ms, d₁, hx, fresh, d, hrenew, hroute⟩

/-- An iteration ends well if destinations can be drawn for all observations. -/
theorem exists_iterate (hdata : ∀ x ∈ c.data, c.state.mixture.Drawable f.toComponent w x) :
    ∃ c', (iterate f g).runOn c = (.ok (), c') := by
  obtain ⟨fresh, d, d', hrenew, hweights⟩ := hw
  obtain ⟨s, hs, hlen, -⟩ := renew_eq_ok.1 hrenew
  have hfresh := hf.posterior _ _ _ _ hs
  obtain ⟨ms, d₁, hroute⟩ := exists_route_of_drawable hf hQ hdata c.iteration 0 hfresh hlen
    (by rw [hweights])
  obtain ⟨-, hms⟩ := forall_of_route hf.toMaintains hfresh hroute
  obtain ⟨ms', hms'⟩ := exists_mapM_eq_ok fun m hm => hf.finalizes m (hms m hm)
  refine ⟨_, iterate_eq_ok.2 ⟨ms', d₁, ?_, rfl⟩⟩
  rw [sweep, Attempt.runOn_bind_ok hrenew, Attempt.runOn_bind_ok hroute, hms']
  rfl

end Chain

end DirichletMixture
