/-
  DirichletMixture: every component is drawn from what its predecessor observed.

  Normal components are drawn anew in every iteration.  What the component at some place is
  drawn from depends on the prior and on the observations that the iteration before has
  routed to the same place, and on nothing else.

  * `Pass.absorbed` are the vectors that an iteration has routed to a place, and
    `Pass.holds` says that the component there holds just these;
  * `Leads.beliefs`: the live components lead to the beliefs after these vectors;
  * `Redraws` says what drawing from some beliefs does, and
    `components_follow_their_shares` that every iteration of every run does this.
-/
import DirichletMixture.Proofs.Exact.Basic
import DirichletMixture.Proofs.Normal.Conjugate
import DirichletMixture.Proofs.Normal.Resampled
import DirichletMixture.Proofs.Chain.Conservation
import DirichletMixture.Proofs.Chain.Destinations
import DirichletMixture.Proofs.Chain.Tallies

namespace DirichletMixture

variable {τ ω M K : Type} [Exact K] [Readable K]

/-- Normal components that are drawn with a record, which is a part of the source. -/
def recordedNormals (g : Generator ω K) (prior : NormalPrior K) (get : τ → Recorded ω K)
    (put : Recorded ω K → τ → τ) : Family τ (Observation K) (NormalModel K) K :=
  (normalFamily g.recorded prior).focus get put

/-- The vectors that a completed iteration has routed to the component `k`. -/
def Pass.absorbed (f : Family τ (Observation K) M K) (g : Generator τ K)
    (p : Pass τ (Observation K) M K) (k : Nat) : Multiset (List K) :=
  ((share k (p.destinations f g) p.before.data).map Observation.point : List (List K))

/-- The vectors that the last of some completed iterations has routed to the component `k`,
    none if there is no iteration. -/
def lastAbsorbed (f : Family τ (Observation K) M K) (g : Generator τ K)
    (ps : List (Pass τ (Observation K) M K)) (k : Nat) : Multiset (List K) :=
  match ps.getLast? with
  | none => 0
  | some p => p.absorbed f g k

/-- From the components `ms` and the record `r`, one fresh component is drawn from each of
    some beliefs.  This makes two calls for each of them, and none of the fresh components
    has absorbed anything. -/
structure Redraws (g : Generator ω K) (prior : NormalPrior K) (beliefs : List (Belief K))
    (ms : List (NormalModel K)) (r : Recorded ω K) (fresh : List (NormalModel K))
    (r' : Recorded ω K) : Prop where
  drawn : ((normalFamily g.recorded prior).fromPosterior ms).runOn r = (.ok fresh, r')
  calls : ∃ cs, Resampled g prior beliefs r.source cs fresh r'.source ∧
    cs.length = 2 * beliefs.length ∧ r'.calls = r.calls ++ cs
  blank : ∀ m ∈ fresh, m.count = 0 ∧ m.sum = List.replicate prior.dimension 0 ∧
    m.squares = List.replicate prior.dimension 0

/-- The iteration has drawn fresh components, one for each of `n` clusters, from the beliefs
    after the vectors `X k`, and has then routed the data to them. -/
def Pass.Resamples (g : Generator ω K) (prior : NormalPrior K) (get : τ → Recorded ω K)
    (put : Recorded ω K → τ → τ) (sampler : Generator τ K) (center : List K) (n : Nat)
    (X : Nat → Multiset (List K)) (p : Pass τ (Observation K) (NormalModel K) K) : Prop :=
  ∃ fresh r',
    Redraws g prior ((List.range n).map fun k => prior.conjugate center (X k))
      p.before.state.mixture.models (get p.before.state.draws.source) fresh r' ∧
    Routed (recordedNormals g prior get put).toComponent p.before.data
      (p.destinations (recordedNormals g prior get put) sampler) fresh p.models

/-! ## What live components hold -/

section
variable {g : Generator ω K} {prior : NormalPrior K} {get : τ → Recorded ω K}
  {put : Recorded ω K → τ → τ} {sampler : Generator τ K}

theorem runOn_fromPosterior_eq_ok {ms fresh : List (NormalModel K)} {t t' : τ}
    (h : ((recordedNormals g prior get put).fromPosterior ms).runOn t = (.ok fresh, t')) :
    ∃ r', ((normalFamily g.recorded prior).fromPosterior ms).runOn (get t) = (.ok fresh, r') := by
  obtain ⟨hfresh, -⟩ := Prod.mk.inj h
  exact ⟨_, Prod.ext hfresh rfl⟩

theorem holds_of_fromPosterior {ms fresh : List (NormalModel K)} {t t' : τ}
    (h : ((recordedNormals g prior get put).fromPosterior ms).runOn t = (.ok fresh, t')) :
    ∀ m ∈ fresh, m.Holds prior 0 := by
  obtain ⟨r', hdraw⟩ := runOn_fromPosterior_eq_ok h
  exact NormalModel.holds_of_drawEach hdraw

/-- **A completed iteration** leaves components that hold what it has routed to them. -/
theorem Pass.holds {p : Pass τ (Observation K) (NormalModel K) K} {u : Unit}
    (h : (Chain.iterate (recordedNormals g prior get put) sampler).runOn p.before =
      (.ok u, p.after)) {k : Nat} {m : NormalModel K} (hm : p.models[k]? = some m) :
    m.Holds prior (p.absorbed (recordedNormals g prior get put) sampler k) := by
  obtain ⟨fresh, t, hdraw, -, hrouted⟩ := Pass.routed h
  obtain ⟨m₀, m', hm₀, hobs, hfin⟩ := hrouted.exists_absorbed hm
  have hfresh := holds_of_fromPosterior hdraw m₀ (List.mem_of_getElem? hm₀)
  obtain ⟨-, hall⟩ := hfresh.observeAll (g := g.recorded) hobs
  rw [zero_add] at hall
  exact hall.finalize hfin

/-- The vectors of an iteration's data have an entry for each coordinate. -/
theorem Pass.spans {p : Pass τ (Observation K) (NormalModel K) K} {u : Unit}
    (h : (Chain.iterate (recordedNormals g prior get put) sampler).runOn p.before =
      (.ok u, p.after)) : ∀ x ∈ p.before.data, x.Spans prior.dimension := by
  intro x hx
  obtain ⟨fresh, t, hdraw, -, hrouted⟩ := Pass.routed h
  have hmem := (flatMap_share_perm hrouted.positions hrouted.places).mem_iff.2 hx
  obtain ⟨k, hk, hxk⟩ := List.mem_flatMap.1 hmem
  have hk : k < fresh.length := List.mem_range.1 hk
  obtain ⟨m', m'', hobs, -, -⟩ := hrouted.absorbed k _ (List.getElem?_eq_getElem hk)
  have hfresh := holds_of_fromPosterior hdraw _ (List.getElem_mem hk)
  exact (hfresh.observeAll (g := g.recorded) hobs).1 x hxk

namespace Chain

variable {c₀ c : Chain τ (Observation K) (NormalModel K) K}
  {ps : List (Pass τ (Observation K) (NormalModel K) K)}

/-- The live components lead to the beliefs after what the last completed iteration has
    routed to them, or after nothing if there is none. -/
theorem Leads.beliefs (h : Leads (recordedNormals g prior get put) sampler c₀ ps c)
    (h₀ : ∀ m ∈ c₀.state.mixture.models, m.Holds prior 0) {center : List K}
    (hc : prior.center = .ok center) :
    (c.state.mixture.models.map fun m => prior.posterior m.statistics) =
      ((List.range c.state.mixture.size).map fun k => prior.conjugate center
        (lastAbsorbed (recordedNormals g prior get put) sampler ps k)).map .ok := by
  have hholds : ∀ (k : Nat) (m : NormalModel K), c.state.mixture.models[k]? = some m →
      m.Holds prior (lastAbsorbed (recordedNormals g prior get put) sampler ps k) := by
    intro k m hm
    rw [h.mixture] at hm
    unfold lastAbsorbed
    -- the live components are those of the last iteration, or of the start
    rcases hlast : ps.getLast? with _ | q <;> rw [hlast] at hm
    · exact h₀ m (List.mem_of_getElem? hm)
    · obtain ⟨-, hrun⟩ := h.of_mem (List.mem_of_getLast? hlast)
      exact Pass.holds hrun hm
  refine List.ext_getElem (by simp) ?_
  intro k h₁ h₂
  have hk : k < c.state.mixture.models.length := by simpa using h₁
  have hposterior := (hholds k _ (List.getElem?_eq_getElem hk)).posterior hc
  simpa using hposterior

theorem Leads.resamples (h : Leads (recordedNormals g prior get put) sampler c₀ ps c)
    (h₀ : ∀ m ∈ c₀.state.mixture.models, m.Holds prior 0) {center : List K}
    (hc : prior.center = .ok center) {i : Nat} {p : Pass τ (Observation K) (NormalModel K) K}
    (hp : ps[i]? = some p) :
    p.Resamples g prior get put sampler center c₀.state.mixture.size
      (lastAbsorbed (recordedNormals g prior get put) sampler (ps.take i)) := by
  obtain ⟨hbefore, hrun⟩ := h.take hp
  obtain ⟨fresh, t, hdraw, hlen, hrouted⟩ := Pass.routed hrun
  obtain ⟨r', hdrawn⟩ := runOn_fromPosterior_eq_ok hdraw
  have hbeliefs := hbefore.beliefs h₀ hc
  have hsteps := hdrawn
  rw [fromPosterior_eq_drawEach _ hbeliefs] at hsteps
  obtain ⟨cs, hcs, hcalls⟩ := resampled_of_drawEach hsteps
  rw [hbefore.size] at hcs
  refine ⟨fresh, r', ⟨hdrawn, ⟨cs, hcs, hcs.length_calls, hcalls⟩, ?_⟩, hrouted⟩
  intro m hm
  obtain ⟨mean, variance, rfl⟩ := eq_fresh_of_drawEach hdrawn m hm
  exact ⟨rfl, rfl, rfl⟩

theorem Leads.lastAbsorbed_eq_zero (h : Leads (recordedNormals g prior get put) sampler c₀ ps c)
    (hdata : c₀.data = []) (k : Nat) :
    lastAbsorbed (recordedNormals g prior get put) sampler ps k = 0 := by
  unfold lastAbsorbed
  rcases hlast : ps.getLast? with _ | q
  · rfl
  · obtain ⟨⟨qs, hbefore⟩, -⟩ := h.of_mem (List.mem_of_getLast? hlast)
    simp [Pass.absorbed, hbefore.data, hdata, share]

/-- Without data, drawing from the posterior of the live components is drawing from the
    prior. -/
theorem Leads.fromPosterior_eq_fromPrior
    (h : Leads (recordedNormals g prior get put) sampler c₀ ps c)
    (h₀ : ∀ m ∈ c₀.state.mixture.models, m.Holds prior 0) {center : List K}
    (hc : prior.center = .ok center) (hdata : c₀.data = []) :
    (normalFamily g.recorded prior).fromPosterior c.state.mixture.models =
      (normalFamily g.recorded prior).fromPrior c₀.state.mixture.size := by
  have hbeliefs := h.beliefs h₀ hc
  simp only [h.lastAbsorbed_eq_zero hdata, List.map_const', List.length_range] at hbeliefs
  rw [fromPosterior_eq_drawEach _ hbeliefs, h.size, fromPrior_eq_drawEach _
    (NormalPrior.checkDimension_of_center hc) (NormalPrior.initial_of_center hc)]

/-- A chain of normal components starts only if its prior has a centre, with components
    that have absorbed nothing. -/
theorem exists_center_of_start {plan : Plan K} {data : List (Observation K)} {s s' : τ}
    (h : start (recordedNormals g prior get put) plan data s = (.ok c₀, s')) :
    (∃ center, prior.center = .ok center) ∧
      ∀ m ∈ c₀.state.mixture.models, m.Holds prior 0 := by
  obtain ⟨hms, -⟩ := Prod.mk.inj (fromPrior_of_start h)
  obtain ⟨u, r₁, -, hrest⟩ := Attempt.runOn_bind_eq_ok.1 (Prod.ext hms rfl :
    ((normalFamily g.recorded prior).fromPrior plan.clusters).runOn (get s) =
      (.ok c₀.state.mixture.models, _))
  constructor
  · -- there is a cluster, so the belief before any observation was looked at
    obtain ⟨n, hn⟩ := Nat.exists_eq_succ_of_ne_zero plan.clusters_pos.ne'
    rw [hn, List.replicate_succ] at hrest
    obtain ⟨b, r₂, hb, -⟩ := Attempt.runOn_bind_eq_ok.1 hrest
    obtain ⟨hinitial, -⟩ := Prod.mk.inj hb
    obtain ⟨center, hcenter, -⟩ := map_eq_ok.1 hinitial
    exact ⟨center, hcenter⟩
  · exact NormalModel.holds_of_drawEach hrest

end Chain

end

namespace Chain

/-- **Components are resampled from their shares.**  In exact arithmetic, let a chain of
    normal components start, with a record of the calls that are made for them, which may
    belong to the source of the sampler or stand beside it.  Then the prior has a centre.
    Whatever is asked of the chain, the first iteration that is completed draws its
    components from the prior, and every later one draws the component at each place from
    the belief after the vectors that the iteration before it has routed to this place; it
    makes a gamma and a normal call for each place in order, and no other ones, and the
    components that it draws have absorbed nothing.  The live components are then those that
    the iteration before has left behind.  Without data, every iteration does what drawing
    from the prior does. -/
theorem components_are_resampled_from_their_shares (g : Generator ω K) (prior : NormalPrior K)
    (get : τ → Recorded ω K) (put : Recorded ω K → τ → τ) (sampler : Generator τ K)
    {plan : Plan K} {data : List (Observation K)} {s s' : τ}
    {c₀ : Chain τ (Observation K) (NormalModel K) K}
    (h : start (recordedNormals g prior get put) plan data s = (.ok c₀, s'))
    (rs : List (Request (Observation K))) :
    ∃ center, prior.center = .ok center ∧
      prior.conjugate center 0 =
        ⟨center, prior.precisionScale, prior.shape, List.replicate prior.dimension prior.scale⟩ ∧
      (∀ p, (passes (recordedNormals g prior get put) sampler rs c₀)[0]? = some p →
        p.Resamples g prior get put sampler center plan.clusters fun _ => 0) ∧
      (∀ i q p, (passes (recordedNormals g prior get put) sampler rs c₀)[i]? = some q →
        (passes (recordedNormals g prior get put) sampler rs c₀)[i + 1]? = some p →
        p.before.state.mixture.models = q.models ∧
        p.Resamples g prior get put sampler center plan.clusters
          (q.absorbed (recordedNormals g prior get put) sampler)) ∧
      (∀ p ∈ passes (recordedNormals g prior get put) sampler rs c₀,
        p.before.data = data ∧ ∀ x ∈ data, x.Spans prior.dimension) ∧
      (data = [] → ∀ p ∈ passes (recordedNormals g prior get put) sampler rs c₀,
        (normalFamily g.recorded prior).fromPosterior p.before.state.mixture.models =
          (normalFamily g.recorded prior).fromPrior plan.clusters) := by
  obtain ⟨⟨center, hc⟩, h₀⟩ := exists_center_of_start h
  obtain ⟨-, hdata, -, -⟩ := start_blank h
  obtain ⟨hsize, -, -⟩ := start_mixture h
  have hrun := leads_after (recordedNormals g prior get put) sampler rs c₀
  refine ⟨center, hc, NormalPrior.conjugate_zero (NormalPrior.length_center hc), ?_, ?_, ?_, ?_⟩
  · intro p hp
    have hresamples := hrun.resamples h₀ hc hp
    rw [hsize, List.take_zero] at hresamples
    exact hresamples
  · intro i q p hq hp
    have hlast : ((passes (recordedNormals g prior get put) sampler rs c₀).take (i + 1)).getLast? =
        some q := by
      rw [List.take_add_one, hq, Option.toList_some, List.getLast?_concat]
    have hresamples := hrun.resamples h₀ hc hp
    rw [hsize] at hresamples
    unfold lastAbsorbed at hresamples
    rw [hlast] at hresamples
    refine ⟨?_, hresamples⟩
    rw [(hrun.take hp).1.mixture, hlast]
    rfl
  · intro p hp
    obtain ⟨⟨qs, hbefore⟩, hiterate⟩ := hrun.of_mem hp
    have hdata' : p.before.data = data := hbefore.data.trans hdata
    refine ⟨hdata', ?_⟩
    rw [← hdata']
    exact Pass.spans hiterate
  · intro hnil p hp
    obtain ⟨⟨qs, hbefore⟩, -⟩ := hrun.of_mem hp
    rw [← hsize]
    exact hbefore.fromPosterior_eq_fromPrior h₀ hc (hdata.trans hnil)

end Chain

/-! ## A run that can be followed -/

/-- A prior around zero in one dimension. -/
def NormalPrior.standard : NormalPrior ℚ where
  mean := .scalar 0
  precisionScale := 1
  shape := 1
  scale := 1
  dimension := 1
  dimension_pos := Nat.one_pos
  precisionScale_pos := one_pos
  shape_pos := one_pos
  scale_pos := one_pos

/-- Normal components that share a script and its record with the sampler. -/
abbrev scriptedNormals : Family (Recorded (Script ℚ) ℚ) (Observation ℚ) (NormalModel ℚ) ℚ :=
  recordedNormals Script.generator .standard id fun r _ => r

namespace Chain

/-- The start of a chain with the points 1 and 3. -/
abbrev startOfTwo : Except (Fault ℚ) (Chain (Recorded (Script ℚ) ℚ) (Observation ℚ)
    (NormalModel ℚ) ℚ) × Recorded (Script ℚ) ℚ :=
  start scriptedNormals (Plan.exactPair 0 1 2 Nat.one_pos) [.value (.scalar 1), .value (.scalar 3)]
    (Recorded.fresh ⟨[1/2, 1/2, 1/2, 1/2, 1/2, 1/2, 1/2, 3/4, 1/2, 1/2, 3/4, 0], 0, 0⟩)

/-- The first iteration routes the points 1 and 3 to two components, and the second draws
    one component after 1 and one after 3. -/
theorem points_apart_are_resampled_apart :
    ∃ c₀ s' center q p,
      startOfTwo = (.ok c₀, s') ∧
      passes scriptedNormals Script.generator.recorded [.cluster none] c₀ = [q, p] ∧
      q.absorbed scriptedNormals Script.generator.recorded 0 = {[1]} ∧
      q.absorbed scriptedNormals Script.generator.recorded 1 = {[3]} ∧
      q.Resamples Script.generator .standard id (fun r _ => r) Script.generator.recorded center 2
        (fun _ => 0) ∧
      p.Resamples Script.generator .standard id (fun r _ => r) Script.generator.recorded center 2
        (q.absorbed scriptedNormals Script.generator.recorded) := by
  have hdest : startOfTwo.1.toOption.map (fun c =>
      (passes scriptedNormals Script.generator.recorded [.cluster none] c).map
        (Pass.destinations scriptedNormals Script.generator.recorded)) =
      some [[0, 1], [1, 1]] := by
    decide +kernel
  rcases hstart : startOfTwo with ⟨e | c₀, s'⟩ <;> rw [hstart] at hdest
  · cases hdest
  obtain ⟨center, -, -, hfirst, hnext, hdata, -⟩ := components_are_resampled_from_their_shares
    Script.generator .standard id (fun r _ => r) Script.generator.recorded hstart [.cluster none]
  obtain ⟨q, ps, hpasses, hq, hps⟩ := List.map_eq_cons_iff.1 (Option.some.inj hdest)
  obtain ⟨p, ps, rfl, -, hnil⟩ := List.map_eq_cons_iff.1 hps
  obtain rfl := List.map_eq_nil_iff.1 hnil
  have hq' := (hdata q (by rw [hpasses]; exact List.mem_cons_self)).1
  refine ⟨c₀, s', center, q, p, rfl, hpasses, ?_, ?_, ?_, ?_⟩
  · rw [Pass.absorbed, hq, hq']
    rfl
  · rw [Pass.absorbed, hq, hq']
    rfl
  · exact hfirst q (by rw [hpasses]; rfl)
  · exact (hnext 0 q p (by rw [hpasses]; rfl) (by rw [hpasses]; rfl)).2

end Chain

end DirichletMixture
