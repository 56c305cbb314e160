/-
  DirichletMixture: what an iteration asks of the generator.

  The weights of an iteration are drawn when the first observation is scored, if nobody has
  read them before, and every observation then takes one uniform draw.  This is so whether
  the iteration ends well or not; only the observation for which there is no destination
  takes none.

  * `Mixture.Spends` compares the record before and after some draws for a mixture, and
    `spends_of_assign_ok`, `spends_of_route` and their neighbours follow it through an
    iteration;
  * `calls_of_iterate` and `calls_of_stopsAt`: the calls of a whole iteration, completed or
    not;
  * `Consumption` says what is called after some requests to a chain, and
    `randomness_is_fixed` that this holds after all of them.
-/
import DirichletMixture.Proofs.Exact.Basic
import DirichletMixture.Proofs.Weights.Calls
import DirichletMixture.Proofs.Chain.Conservation
import DirichletMixture.Proofs.Chain.Stopping

namespace DirichletMixture

variable {ω O M K : Type} [Exact K]

namespace Mixture

/-! ## Weights -/

/-- The calls that it takes to know the weights: none if they are drawn already. -/
def weightCalls (m : Mixture M K) (d : Draws ω K) : List (Call K) :=
  if d.weights.isSome then [] else shareCalls m.alpha0 m.occupancy

/-- Between the draws `d` and `d'`, the weights were drawn if they were not, and then the
    calls `cs` were made. -/
structure Spends (m : Mixture M K) (d : Draws (Recorded ω K) K) (cs : List (Call K))
    (d' : Draws (Recorded ω K) K) : Prop where
  drawn : d'.weights.isSome = true
  calls : d'.source.calls = d.source.calls ++ (m.weightCalls d ++ cs)

variable {c : Component O M K} {g : Generator ω K} {m : Mixture M K} {x : O}
  {d d' d'' : Draws (Recorded ω K) K} {cs cs' : List (Call K)}

theorem Spends.append (h : m.Spends d cs d') (h' : m.Spends d' cs' d'') :
    m.Spends d (cs ++ cs') d'' := by
  refine ⟨h'.drawn, ?_⟩
  have hnone : m.weightCalls d' = [] := if_pos h.drawn
  rw [h'.calls, h.calls, hnone, List.nil_append, List.append_assoc, List.append_assoc]

section
variable (hg : g.ServesShares) (hm : 0 < m.alpha0)
include hg hm

theorem exists_runOn_weights (d : Draws (Recorded ω K) K) :
    ∃ w d', (m.weights g.recorded).runOn d = (.ok w, d') ∧ m.Spends d [] d' := by
  rcases hw : d.weights with _ | w
  · obtain ⟨w, r, hrun, hcalls⟩ := exists_runOn_breakStick hg hm m.occupancy d.source
    refine ⟨w, ⟨r, some w⟩, weights_eq_ok.2 (Or.inr ⟨hw, r, hrun, rfl⟩), rfl, ?_⟩
    simp [weightCalls, hw, hcalls]
  · refine ⟨w, d, runOn_weights_of_some hw, ?_, ?_⟩
    · rw [hw]; rfl
    · simp [weightCalls, hw]

theorem spends_of_weights {w : List K} (h : (m.weights g.recorded).runOn d = (.ok w, d')) :
    m.Spends d [] d' := by
  obtain ⟨w', d₁, h', hspends⟩ := exists_runOn_weights hg hm d
  rw [h] at h'
  obtain ⟨-, rfl⟩ := Prod.mk.inj h'
  exact hspends

/-! ## Assigning a point -/

theorem spends_of_assign_ok {site : Site} {k : Nat}
    (h : (m.assign c g.recorded x site).runOn d = (.ok k, d')) : m.Spends d [.uniform] d' := by
  obtain ⟨w, d₁, p, r, hw, -, hk, rfl⟩ := assign_eq_ok.1 h
  have hspends := spends_of_weights hg hm hw
  have hindex : m.Spends d₁ [.uniform] { d₁ with source := r } := by
    refine ⟨hspends.drawn, ?_⟩
    rw [calls_of_drawIndex hk, weightCalls, if_pos hspends.drawn, List.nil_append]
  exact hspends.append hindex

theorem spends_of_assign_error {site : Site} {e : Fault K}
    (h : (m.assign c g.recorded x site).runOn d = (.error e, d')) : m.Spends d [] d' := by
  obtain ⟨e', -, hw | ⟨w, d₁, hw, ⟨-, rfl⟩ | ⟨p, r, -, hk, rfl⟩⟩⟩ := assign_eq_error.1 h
  · obtain ⟨w, d₁, hw', -⟩ := exists_runOn_weights hg hm d
    rw [hw] at hw'
    cases hw'
  · exact spends_of_weights hg hm hw
  · rw [(drawIndex_eq_error hk).1]
    exact spends_of_weights hg hm hw

/-! ## Routing -/

/-- Routing some observations takes the weights and a uniform draw for each of them. -/
theorem spends_of_route {iteration j : Nat} {ms ms' : List M} {xs : List O} (hxs : xs ≠ [])
    (h : (route c g.recorded m iteration ms j xs).runOn d = (.ok ms', d')) :
    m.Spends d (List.replicate xs.length .uniform) d' := by
  induction xs generalizing ms j d with
  | nil => exact absurd rfl hxs
  | cons x xs ih =>
    obtain ⟨k, d₁, hk, hrest⟩ := Attempt.runOn_bind_eq_ok.1 h
    obtain ⟨ms₁, d₂, hobserve, hroute⟩ := Attempt.runOn_bind_eq_ok.1 hrest
    obtain ⟨-, rfl⟩ := Prod.mk.inj hobserve
    -- the first observation leaves the weights drawn for all others
    have hfirst := spends_of_assign_ok hg hm hk
    by_cases hnil : xs = []
    · subst hnil
      obtain ⟨-, rfl⟩ := Prod.mk.inj hroute
      exact hfirst
    · exact hfirst.append (ih hnil hroute)

/-- If there is no destination for the next observation, only those before it took a
    uniform draw. -/
theorem spends_of_route_assign {iteration j : Nat} {ms ms' : List M} {xs : List O} {site : Site}
    {e : Fault K} (h : (route c g.recorded m iteration ms j xs).runOn d = (.ok ms', d'))
    (hx : (m.assign c g.recorded x site).runOn d' = (.error e, d'')) :
    m.Spends d (List.replicate xs.length .uniform) d'' := by
  have hlast := spends_of_assign_error hg hm hx
  by_cases hnil : xs = []
  · subst hnil
    obtain ⟨-, rfl⟩ := Prod.mk.inj h
    exact hlast
  · have hspends := (spends_of_route hg hm hnil h).append hlast
    rwa [List.append_nil] at hspends

end

end Mixture

/-! ## Iterations -/

namespace Chain

/-- What the sampler itself calls in an iteration that routes `n` observations. -/
def routingCalls (c : Chain ω O M K) (n : Nat) : List (Call K) :=
  c.state.mixture.weightCalls c.state.draws ++ List.replicate n .uniform

section
variable {f : Family (Recorded ω K) O M K} {g : Generator ω K} {c c' : Chain (Recorded ω K) O M K}
  (hg : g.ServesShares) (hm : 0 < c.state.mixture.alpha0)
include hg hm

theorem calls_of_iterate {u : Unit} (h : (iterate f g.recorded).runOn c = (.ok u, c')) :
    ∃ fresh r,
      (f.fromPosterior c.state.mixture.models).runOn c.state.draws.source = (.ok fresh, r) ∧
      c'.state.draws.source.calls =
        r.calls ++ if c.data = [] then [] else c.routingCalls c.data.length := by
  obtain ⟨ms, d, hsweep, rfl⟩ := iterate_eq_ok.1 h
  obtain ⟨fresh, d₁, hrenew, hrest⟩ := Attempt.runOn_bind_eq_ok.1 hsweep
  obtain ⟨ms', d₂, hroute, hfinal⟩ := Attempt.runOn_bind_eq_ok.1 hrest
  obtain ⟨r, hr, -, rfl⟩ := renew_eq_ok.1 hrenew
  obtain ⟨-, rfl⟩ := Prod.mk.inj hfinal
  refine ⟨fresh, r, hr, ?_⟩
  by_cases hdata : c.data = []
  · rw [hdata] at hroute
    obtain ⟨-, rfl⟩ := Prod.mk.inj hroute
    rw [if_pos hdata, List.append_nil]
    rfl
  · rw [if_neg hdata]
    exact (Mixture.spends_of_route hg hm hdata hroute).calls

/-- The calls of an iteration that finds no destination for an observation. -/
theorem calls_of_stopsAt {j : Nat} {e : Fault K} {d : Draws (Recorded ω K) K}
    (h : StopsAt f g.recorded c j e d) :
    ∃ fresh r,
      (f.fromPosterior c.state.mixture.models).runOn c.state.draws.source = (.ok fresh, r) ∧
      d.source.calls = r.calls ++ c.routingCalls j := by
  obtain ⟨x, fresh, d₁, ms, d₂, hx, hrenew, hroute, hassign⟩ := h
  obtain ⟨r, hr, -, rfl⟩ := renew_eq_ok.1 hrenew
  have hj : (c.data.take j).length = j := by
    have hlt := (List.getElem?_eq_some_iff.1 hx).1
    rw [List.length_take_of_le hlt.le]
  have hspends := Mixture.spends_of_route_assign hg hm hroute hassign
  rw [hj] at hspends
  exact ⟨fresh, r, hr, hspends.calls⟩

end

/-! ## Whole runs -/

/-- How an iteration of the chain `c`, which the completed iterations `ps` have led to, uses
    the generator: everything that the sampler itself calls comes after what drawing new
    components has called. -/
structure Consumption (f : Family (Recorded ω K) O M K) (g : Generator ω K) (plan : Plan K)
    (data : List O) (ps : List (Pass (Recorded ω K) O M K)) (c : Chain (Recorded ω K) O M K) :
    Prop where
  alpha0 : c.state.mixture.alpha0 = plan.alpha0
  /-- The occupancy is that of the last completed iteration, zero before the first. -/
  occupancy : c.state.mixture.occupancy =
    (ps.getLast?.map fun p => p.models.map f.count).getD (List.replicate plan.clusters 0)
  /-- There is a beta call for every cluster, and no share is taken without one. -/
  shares : (shareCalls c.state.mixture.alpha0 c.state.mixture.occupancy).length = plan.clusters
  second_shape : ∀ k, 0 < plan.alpha0 + ((c.state.mixture.occupancy.drop (k + 1)).sum : Nat)
  none_drawn : ∀ e r,
    (f.fromPosterior c.state.mixture.models).runOn c.state.draws.source = (.error e, r) →
      (iterate f g.recorded).runOn c =
        (.error e, c.withDraws { c.state.draws with source := r })
  wrong_count : ∀ fresh r,
    (f.fromPosterior c.state.mixture.models).runOn c.state.draws.source = (.ok fresh, r) →
      fresh.length ≠ plan.clusters →
        (iterate f g.recorded).runOn c =
          (.error (.wrongCount plan.clusters fresh.length (some c.iteration)),
            c.withDraws { c.state.draws with source := r })
  completed : ∀ fresh r c',
    (f.fromPosterior c.state.mixture.models).runOn c.state.draws.source = (.ok fresh, r) →
      (iterate f g.recorded).runOn c = (.ok (), c') →
        c'.state.draws.source.calls =
          r.calls ++ if data = [] then [] else c.routingCalls data.length
  stopped : ∀ fresh r j e d,
    (f.fromPosterior c.state.mixture.models).runOn c.state.draws.source = (.ok fresh, r) →
      StopsAt f g.recorded c j e d →
        (iterate f g.recorded).runOn c = (.error e, c.withDraws d) ∧ j < data.length ∧
          d.source.calls = r.calls ++ c.routingCalls j

section
variable {f : Family (Recorded ω K) O M K} {g : Generator ω K} {plan : Plan K} {data : List O}
  {s s' : Recorded ω K} {c₀ c : Chain (Recorded ω K) O M K}
  {ps : List (Pass (Recorded ω K) O M K)}

theorem Leads.consumption (hg : g.ServesShares) (h : start f plan data s = (.ok c₀, s'))
    (hrun : Leads f g.recorded c₀ ps c) : Consumption f g plan data ps c := by
  obtain ⟨-, hdata, -, -⟩ := start_blank h
  obtain ⟨hsize, -, -⟩ := start_mixture h
  obtain ⟨halpha0, hoccupancy⟩ := start_occupancy h
  have hpos : 0 < c.state.mixture.alpha0 := by
    rw [hrun.alpha0, halpha0]
    exact plan.alpha0_pos
  have hsize' : c.state.mixture.size = plan.clusters := hrun.size.trans hsize
  have hdata' : c.data = data := hrun.data.trans hdata
  refine ⟨hrun.alpha0.trans halpha0, ?_, ?_, ?_, ?_, ?_, ?_, ?_⟩
  · rw [hrun.occupancy, hoccupancy]
  · rw [length_shareCalls, hrun.occupancy, hoccupancy]
    rcases hlast : ps.getLast? with _ | p
    · exact List.length_replicate
    · obtain ⟨fresh, t, z, -, hlen, hrouted⟩ := hrun.exists_routed (List.mem_of_getLast? hlast)
      show (p.models.map f.count).length = plan.clusters
      rw [List.length_map, hrouted.length, hlen, hsize]
  · intro k
    exact second_shape_pos plan.alpha0_pos _
  · intro e r hr
    refine iterate_eq_error.2 ⟨_, Attempt.runOn_bind_error ?_, rfl⟩
    exact renew_eq_error.2 ⟨r, rfl, Or.inl hr⟩
  · intro fresh r hr hlen
    rw [← hsize'] at hlen ⊢
    refine iterate_eq_error.2 ⟨_, Attempt.runOn_bind_error ?_, rfl⟩
    exact renew_eq_error.2 ⟨r, rfl, Or.inr ⟨fresh, hr, hlen, rfl⟩⟩
  · intro fresh r c' hr hc'
    obtain ⟨fresh', r', hr', hcalls⟩ := calls_of_iterate hg hpos hc'
    rw [hr] at hr'
    obtain ⟨-, rfl⟩ := Prod.mk.inj hr'
    rw [hcalls, hdata']
  · intro fresh r j e d hr hstops
    obtain ⟨fresh', r', hr', hcalls⟩ := calls_of_stopsAt hg hpos hstops
    rw [hr] at hr'
    obtain ⟨-, rfl⟩ := Prod.mk.inj hr'
    have hiterate := iterate_eq_error_of_stopsAt hstops
    obtain ⟨x, -, -, -, -, hx, -⟩ := hstops
    rw [← hdata']
    exact ⟨hiterate, (List.getElem?_eq_some_iff.1 hx).1, hcalls⟩

end

/-- **The use of randomness is fixed.**  In exact arithmetic, let beta draws with positive
    shapes succeed.  Wherever requests to a chain have led, what the sampler calls in an
    iteration comes after what drawing new components has called: nothing if there are none,
    too few or too many of them, or no data; otherwise the shares of the weights, unless
    these are drawn already, and one uniform draw for each observation that finds its
    destination.  If components take what they can score, there is no other way in which an
    iteration can fail; tallies and normal components do. -/
theorem randomness_is_fixed [Readable K] (f : Family (Recorded ω K) O M K) (g : Generator ω K)
    (hg : g.ServesShares) {plan : Plan K} {data : List O} {s s' : Recorded ω K}
    {c₀ c : Chain (Recorded ω K) O M K} {ps : List (Pass (Recorded ω K) O M K)}
    (h : start f plan data s = (.ok c₀, s')) (hrun : Leads f g.recorded c₀ ps c) :
    Consumption f g plan data ps c ∧
    (∀ Q, f.Receptive Q → ∀ e c', (iterate f g.recorded).runOn c = (.error e, c') →
      (∃ r, (f.fromPosterior c.state.mixture.models).runOn c.state.draws.source =
        (.error e, r)) ∨
      (∃ fresh r, (f.fromPosterior c.state.mixture.models).runOn c.state.draws.source =
        (.ok fresh, r) ∧ fresh.length ≠ plan.clusters) ∨
      ∃ j, StopsAt f g.recorded c j e c'.state.draws) ∧
    (∀ (density : Nat → O → Except (Fault K) K) (size : Option Nat)
      (get : Recorded ω K → List Nat) (put : List Nat → Recorded ω K → Recorded ω K),
      ((tabulated density size).focus get put).Receptive fun _ => True) ∧
    ∀ {τ : Type} (g' : Generator τ K) (prior : NormalPrior K) (get : Recorded ω K → τ)
      (put : τ → Recorded ω K → Recorded ω K),
      ((normalFamily g' prior).focus get put).Receptive (NormalModel.Sound prior) := by
  obtain ⟨hsize, -, -⟩ := start_mixture h
  refine ⟨hrun.consumption hg h, ?_, ?_, ?_⟩
  · intro Q hf e c' he
    have hQ : ∀ m ∈ c.state.mixture.models, Q m :=
      hrun.forall_models hf.toMaintains (hf.prior _ _ _ _ (fromPrior_of_start h))
    rw [← hsize, ← hrun.size]
    exact error_cases_of_receptive hf hQ he
  · intro density size get put
    exact (tabulated_receptive density size).focus get put
  · intro τ g' prior get put
    exact (normalFamily_receptive g' prior).focus get put

/-- The iteration after a call that failed for one tally too many: the first iteration has
    routed one number to the first tally and two to the second, and its weights are gone. -/
theorem weights_follow_the_occupancy :
    ∃ c c', after (recordedTallies nearby) Script.besideSizes.recorded [.cluster none]
        exactFaltering = c ∧
      (iterate (recordedTallies nearby) Script.besideSizes.recorded).runOn c = (.ok (), c') ∧
      c'.state.draws.source.calls =
        c.state.draws.source.calls ++ [.beta 2 3, .beta 3 1, .uniform, .uniform, .uniform] := by
  have hstart : start (recordedTallies nearby) (Plan.exactPair 0 1 2 Nat.one_pos) [0, 1, 1]
      (Recorded.fresh (⟨[], 0, 0⟩, [2, 3])) = (.ok exactFaltering, _) :=
    start_recordedTallies nearby _ _ _
  obtain ⟨hconsumption, -⟩ := randomness_is_fixed (recordedTallies nearby) Script.besideSizes
    (servesShares_script.focus _ _) hstart (leads_after _ _ [.cluster none] _)
  generalize hc : after (recordedTallies nearby) Script.besideSizes.recorded [.cluster none]
    exactFaltering = c at hconsumption
  have hok : ((iterate (recordedTallies nearby) Script.besideSizes.recorded).runOn c).1.isOk =
      true := by
    rw [← hc]
    decide +kernel
  have hweights : c.state.draws.weights = none := by
    rw [← hc]
    decide +kernel
  have hoccupancy : c.state.mixture.occupancy = [1, 2] := by
    rw [← hc]
    decide +kernel
  obtain ⟨fresh, r, hdraw, hcalls⟩ := calls_of_fromPosterior nearby c.state.mixture.models
    c.state.draws.source
  rcases hrun : (iterate (recordedTallies nearby) Script.besideSizes.recorded).runOn c with
    ⟨e | u, c'⟩ <;> rw [hrun] at hok
  · cases hok
  refine ⟨c, c', rfl, hrun, ?_⟩
  rw [hconsumption.completed fresh r c' hdraw hrun, hcalls, if_neg (by simp), routingCalls,
    Mixture.weightCalls, hweights, hconsumption.alpha0, hoccupancy]
  norm_num [shareCalls, List.replicate, Plan.exactPair]

end Chain

end DirichletMixture
