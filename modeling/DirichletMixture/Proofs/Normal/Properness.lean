/-
  DirichletMixture: normal components stay proper along every run.

  The variances of normal components arise in two ways: they are drawn, or they are the most
  plausible ones in the light of some observations.  Both ways lead to positive numbers, so
  densities exist, and what is drawn next has parameters that make sense.

  * `Call.Proper` says when the parameters of a call make sense, and `Recorded.GoesOn` that
    a record grows by such calls; `drawEach_goesOn`: this is what drawing components does;
  * `Leads.spread_of_gammas` and `Leads.spread_of_sample`: live components and samples are
    spread at any time, and `Reachable.goesOn`: all calls so far were proper;
  * `Pass.bounded`: what an iteration leaves behind keeps to the bounds that its
    observations set;
  * `normal_components_stay_proper` puts this together.
-/
import DirichletMixture.Proofs.Chain.Resampling
import DirichletMixture.Proofs.Chain.Sources
import DirichletMixture.Proofs.Normal.Bounds
import DirichletMixture.Proofs.Normal.Checked

namespace DirichletMixture

variable {τ ω K : Type}

/-! ## Records that grow -/

/-- The later record goes on from the earlier one with calls that have a property. -/
def Recorded.GoesOn {α : Type} (P : Call α → Prop) (r r' : Recorded ω α) : Prop :=
  ∃ cs, r'.calls = r.calls ++ cs ∧ ∀ c ∈ cs, P c

section
variable {α β : Type} {P : Call α → Prop}

theorem Recorded.goesOn_refl (r : Recorded ω α) : r.GoesOn P r :=
  ⟨[], (List.append_nil _).symm, by simp⟩

theorem Recorded.goesOn_trans (r r' r'' : Recorded ω α) (h : r.GoesOn P r')
    (h' : r'.GoesOn P r'') : r.GoesOn P r'' := by
  obtain ⟨cs, hcs, hP⟩ := h
  obtain ⟨cs', hcs', hP'⟩ := h'
  refine ⟨cs ++ cs', by rw [hcs', hcs, List.append_assoc], ?_⟩
  intro c hc
  exact (List.mem_append.1 hc).elim (hP c) (hP' c)

theorem Recorded.note_goesOn {c : Call α} (hc : P c) (r : Recorded ω α) (s : ω) :
    r.GoesOn P (r.note c s) :=
  ⟨[c], calls_note c r s, List.forall_mem_singleton.2 hc⟩

theorem Recorded.attempt_goesOn {c : Call α} (hc : P c) (a : Attempt ω α β) :
    (attempt c a).Respects (GoesOn P) := by
  intro r
  exact note_goesOn hc r _

end

variable [Exact K]

/-- The parameters of a call make sense: the shape and the scales of a gamma draw are
    positive, and the deviations of a normal draw are roots of positive numbers. -/
def Call.Proper : Call K → Prop
  | .gamma shape scales => 0 < shape ∧ ∀ scale ∈ scales, 0 < scale
  | .normal _ deviations =>
    ∃ quantities : List K, deviations = quantities.map Scalar.sqrt ∧ ∀ q ∈ quantities, 0 < q
  | .uniform | .beta _ _ => True

/-- A recorded generator makes uniform and beta draws with any parameters. -/
theorem Generator.recorded_moves (g : Generator ω K) :
    g.recorded.Moves (Recorded.GoesOn Call.Proper) where
  uniform r := Recorded.note_goesOn trivial r _
  beta _ _ := Recorded.attempt_goesOn trivial _

theorem Generator.PositiveGammas.recorded {g : Generator ω K} (hg : g.PositiveGammas) :
    g.recorded.PositiveGammas := by
  intro shape scales r xs r' hshape hscales h
  exact hg shape scales r.source xs r'.source hshape hscales (Recorded.runOn_attempt_eq_ok h).1

section
variable {g : Generator ω K} {prior : NormalPrior K} (hg : g.PositiveGammas)
include hg

theorem draw_goesOn {b : Belief K} (hb : b.Positive) :
    (b.draw g.recorded prior).Respects (Recorded.GoesOn Call.Proper) := by
  have hscales := forall_one_div_pos hb.scale_pos
  refine .bind_of_runOn Recorded.goesOn_trans
    (Recorded.attempt_goesOn ⟨hb.shape_pos, hscales⟩ _) fun r precision r' hgamma => ?_
  have hvariance : ∀ v ∈ precision.map (1 / ·), 0 < v :=
    forall_one_div_pos (hg.recorded _ _ _ _ _ hb.shape_pos hscales hgamma)
  have hproper : Call.Proper (.normal b.mean
      ((precision.map (1 / ·)).map (meanDeviation b.precisionScale))) := by
    refine ⟨(precision.map (1 / ·)).map (· / b.precisionScale), ?_, ?_⟩
    · rw [List.map_map (f := (· / b.precisionScale))]
      rfl
    · intro q hq
      obtain ⟨v, hv, rfl⟩ := List.mem_map.1 hq
      exact div_pos (hvariance v hv) hb.precisionScale_pos
  exact Attempt.Respects.bind Recorded.goesOn_trans (Recorded.attempt_goesOn hproper _)
    (fun _ => .ofExcept Recorded.goesOn_refl _) r'

/-- **Drawing components makes proper calls**, also if one of them fails. -/
theorem drawEach_goesOn {bs : List (Except (Fault K) (Belief K))}
    (hbs : ∀ b, .ok b ∈ bs → b.Positive) :
    (drawEach g.recorded prior bs).Respects (Recorded.GoesOn Call.Proper) := by
  induction bs with
  | nil => exact .pure Recorded.goesOn_refl _
  | cons r bs ih =>
    refine .bind_of_runOn Recorded.goesOn_trans (.ofExcept Recorded.goesOn_refl _)
      fun s b t hb => ?_
    obtain ⟨rfl, -⟩ := Prod.mk.inj hb
    have hrest := ih fun b hb => hbs b (List.mem_cons_of_mem _ hb)
    refine Attempt.Respects.bind Recorded.goesOn_trans
      (draw_goesOn hg (hbs b List.mem_cons_self)) (fun m => ?_) t
    exact .bind Recorded.goesOn_trans hrest fun _ => .pure Recorded.goesOn_refl _

/-! ## The family -/

variable [Readable K] {get : τ → Recorded ω K} {put : Recorded ω K → τ → τ}

theorem fromPosterior_goesOn (hget : ∀ r t, get (put r t) = r) (ms : List (NormalModel K)) :
    ((recordedNormals g prior get put).fromPosterior ms).Respects
      fun t t' => (get t).GoesOn Call.Proper (get t') :=
  .focus hget (drawEach_goesOn hg fun _ hb => NormalPrior.positive_of_mem_posteriors hb)

theorem fromPrior_goesOn (hget : ∀ r t, get (put r t) = r) (n : Nat) :
    ((recordedNormals g prior get put).fromPrior n).Respects
      fun t t' => (get t).GoesOn Call.Proper (get t') :=
  .focus hget (.bind Recorded.goesOn_trans (.ofExcept Recorded.goesOn_refl _) fun _ =>
    drawEach_goesOn hg fun _ hb => NormalPrior.positive_of_mem_initials hb)

theorem spread_of_fromPosterior {ms fresh : List (NormalModel K)} {t t' : τ}
    (h : ((recordedNormals g prior get put).fromPosterior ms).runOn t = (.ok fresh, t')) :
    ∀ m ∈ fresh, m.Spread := by
  obtain ⟨r', hdraw⟩ := runOn_fromPosterior_eq_ok h
  exact spread_of_drawEach hg.recorded
    (fun _ hb => NormalPrior.positive_of_mem_posteriors hb) hdraw

theorem spread_of_fromPrior {n : Nat} {fresh : List (NormalModel K)} {t t' : τ}
    (h : ((recordedNormals g prior get put).fromPrior n).runOn t = (.ok fresh, t')) :
    ∀ m ∈ fresh, m.Spread := by
  obtain ⟨hfresh, -⟩ := Prod.mk.inj h
  obtain ⟨_, _, -, hdraw⟩ := Attempt.runOn_bind_eq_ok.1 (Prod.ext hfresh rfl :
    ((normalFamily g.recorded prior).fromPrior n).runOn (get t) = (.ok fresh, _))
  exact spread_of_drawEach hg.recorded
    (fun _ hb => NormalPrior.positive_of_mem_initials hb) hdraw

end

/-! ## Runs -/

section
variable [Readable K] {g : Generator ω K} {prior : NormalPrior K} {get : τ → Recorded ω K}
  {put : Recorded ω K → τ → τ} {sampler : Generator τ K}

/-- **A completed iteration** leaves components that keep to the bounds which the vectors
    that it has routed to them set. -/
theorem Pass.bounded {p : Pass τ (Observation K) (NormalModel K) K} {u : Unit}
    (h : (Chain.iterate (recordedNormals g prior get put) sampler).runOn p.before =
      (.ok u, p.after)) {center : List K} (hc : prior.center = .ok center) {k : Nat}
    {m : NormalModel K} (hm : p.models[k]? = some m) (hcount : 0 < m.count) :
    m.Bounded prior center (p.absorbed (recordedNormals g prior get put) sampler k) := by
  obtain ⟨fresh, t, hdraw, -, hrouted⟩ := Pass.routed h
  obtain ⟨m₀, m', hm₀, hobs, hfin⟩ := hrouted.exists_absorbed hm
  have hfresh := holds_of_fromPosterior hdraw m₀ (List.mem_of_getElem? hm₀)
  obtain ⟨-, hall⟩ := hfresh.observeAll (g := g.recorded) hobs
  rw [zero_add] at hall
  have hcount' : m'.count ≠ 0 := by
    rw [hall.count_eq, ← (hall.finalize hfin).count_eq]
    exact hcount.ne'
  exact hall.bounded_of_finalize hc hcount' hfin

namespace Chain

variable {plan : Plan K} {data : List (Observation K)} {s s' : τ}
  {c₀ c : Chain τ (Observation K) (NormalModel K) K}
  {ps : List (Pass τ (Observation K) (NormalModel K) K)} (hg : g.PositiveGammas)
  (h : Chain.start (recordedNormals g prior get put) plan data s = (.ok c₀, s'))
include hg h

theorem Leads.spread_of_gammas (hrun : Leads (recordedNormals g prior get put) sampler c₀ ps c) :
    ∀ m ∈ c.state.mixture.models, m.Spread := by
  change Leads ((normalFamily g.recorded prior).focus get put) sampler c₀ ps c at hrun
  refine hrun.spread_of_draws (spread_of_fromPrior hg (fromPrior_of_start h)) ?_
  intro b qs t fresh t' _ hdraw
  exact spread_of_fromPosterior hg hdraw

theorem Leads.spread_of_sample (hrun : Leads (recordedNormals g prior get put) sampler c₀ ps c)
    {ms : List (NormalModel K)} (hms : ms ∈ c.samples) : ∀ m ∈ ms, m.Spread := by
  obtain ⟨p, hp, rfl⟩ := hrun.exists_pass_of_sample h hms
  obtain ⟨⟨qs, hbefore⟩, hiterate⟩ := hrun.of_mem hp
  exact (hbefore.pass hiterate).spread_of_gammas hg h

/-- The record at the start goes on to the record at any time with proper calls. -/
theorem Reachable.goesOn (hget : ∀ r t, get (put r t) = r)
    (hsampler : sampler.Moves fun t t' => (get t).GoesOn Call.Proper (get t'))
    (hrun : Reachable (recordedNormals g prior get put) sampler c₀ c) :
    (get s).GoesOn Call.Proper (get c.state.draws.source) := by
  have hstart : (get s).GoesOn Call.Proper (get c₀.state.draws.source) := by
    obtain ⟨ms, hdraw, -, rfl⟩ := start_eq_ok.1 h
    have hprior : (get s).GoesOn Call.Proper
        (get (((recordedNormals g prior get put).fromPrior plan.clusters).runOn s).2) :=
      fromPrior_goesOn hg hget plan.clusters s
    rw [hdraw] at hprior
    exact hprior
  refine Recorded.goesOn_trans _ _ _ hstart ?_
  exact hrun.moves (fun t => Recorded.goesOn_refl (get t))
    (fun t t' t'' => Recorded.goesOn_trans (get t) (get t') (get t'')) hsampler
    fun b _ => fromPosterior_goesOn hg hget _

end Chain

end

namespace Chain

/-- **Normal components stay proper.**  In exact arithmetic, let gamma draws with positive
    parameters be positive if they succeed, let positive numbers have positive roots, and let
    a chain of normal components start, with a record of the calls that are made for them, to
    which the sampler may add uniform and beta draws.  Wherever the chain gets to, its
    components and those of its samples have positive variances, and their densities never
    divide by zero: over numbers where such a quotient is undefined they are the same.
    Neither does finalizing any component, or drawing from the prior, or from the posterior
    of any components.  All gamma calls so far have had positive parameters, and the
    deviations of all normal calls were roots of positive numbers.  The samples were left
    behind by completed iterations, and a component that an iteration has left behind with
    observations keeps to their bounds: its variances are not too small for their number,
    and its mean lies between the centre of the prior and the observations. -/
theorem normal_components_stay_proper [Readable K] (g : Generator ω K) (prior : NormalPrior K)
    (get : τ → Recorded ω K) (put : Recorded ω K → τ → τ) (sampler : Generator τ K)
    {plan : Plan K} {data : List (Observation K)} {s s' : τ}
    {c₀ c : Chain τ (Observation K) (NormalModel K) K} (hK : PositiveRoots K)
    (hg : g.PositiveGammas) (hget : ∀ r t, get (put r t) = r)
    (hsampler : sampler.Moves fun t t' => (get t).GoesOn Call.Proper (get t'))
    (h : start (recordedNormals g prior get put) plan data s = (.ok c₀, s'))
    (hc : Reachable (recordedNormals g prior get put) sampler c₀ c) :
    (∀ m, m ∈ c.state.mixture.models ∨ (∃ ms ∈ c.samples, m ∈ ms) →
      m.Spread ∧ ∀ x : Observation K,
        (m.checked.density x.checked).toOption = (m.density x).toOption.map Checked.value) ∧
    (∀ m : NormalModel K,
      m.checked.finalize.toOption = m.finalize.toOption.map NormalModel.checked) ∧
    (∀ n, ((normalFamily g.recorded prior).fromPrior n).Mirrors (List.map NormalModel.checked)
      ((normalFamily g.recorded.checked prior.checked).fromPrior n)) ∧
    (∀ ms, ((normalFamily g.recorded prior).fromPosterior ms).Mirrors
      (List.map NormalModel.checked)
      ((normalFamily g.recorded.checked prior.checked).fromPosterior
        (ms.map NormalModel.checked))) ∧
    (get s).GoesOn Call.Proper (get c.state.draws.source) ∧
    ∃ center ps, prior.center = .ok center ∧
      Leads (recordedNormals g prior get put) sampler c₀ ps c ∧
      (∀ ms ∈ c.samples, ∃ p ∈ ps, p.models = ms) ∧
      ∀ p ∈ ps, ∀ (k : Nat) (m : NormalModel K), p.models[k]? = some m → 0 < m.count →
        m.Bounded prior center
          (p.absorbed (recordedNormals g prior get put) sampler k) := by
  obtain ⟨⟨center, hcenter⟩, -⟩ := exists_center_of_start h
  obtain ⟨ps, hrun⟩ := hc.leads
  refine ⟨?_, fun m => m.finalize_checked, fun n => fromPrior_checked hg.recorded n,
    fun ms => fromPosterior_checked hg.recorded ms, hc.goesOn hg h hget hsampler,
    center, ps, hcenter, hrun, fun ms hms => hrun.exists_pass_of_sample h hms, ?_⟩
  · intro m hm
    have hspread : m.Spread := by
      rcases hm with hm | ⟨ms, hms, hm⟩
      · exact hrun.spread_of_gammas hg h m hm
      · exact hrun.spread_of_sample hg h hms m hm
    exact ⟨hspread, hspread.density_checked hK⟩
  · intro p hp k m hm hcount
    exact Pass.bounded (hrun.of_mem hp).2 hcenter hm hcount

/-- Normal components that share a seed and its record with the sampler. -/
abbrev recordedSeeded : Family (Recorded UInt64 ℚ) (Observation ℚ) (NormalModel ℚ) ℚ :=
  recordedNormals Script.seeded .standard id fun r _ => r

/-- Two iterations over the points 1 and 3 leave two samples behind.  Their components have
    positive variances, and those with observations not too small ones. -/
theorem seeded_normals_stay_proper :
    ∃ c₀ s', start recordedSeeded (Plan.exactPair 0 1 2 Nat.one_pos)
        [.value (.scalar 1), .value (.scalar 3)] (Recorded.fresh 0) = (.ok c₀, s') ∧
      (after recordedSeeded Script.seeded.recorded [.cluster none] c₀).samples.length = 2 ∧
      ∀ ms ∈ (after recordedSeeded Script.seeded.recorded [.cluster none] c₀).samples,
        ∀ m ∈ ms, m.Spread ∧
          (0 < m.count → ∀ v ∈ m.variance, 1 / (1 + (m.count : ℚ) / 2 + 1) ≤ v) := by
  have hlength : (start recordedSeeded (Plan.exactPair 0 1 2 Nat.one_pos)
      [.value (.scalar 1), .value (.scalar 3)] (Recorded.fresh 0)).1.toOption.map (fun c =>
        (after recordedSeeded Script.seeded.recorded [.cluster none] c).samples.length) =
      some 2 := by
    decide +kernel
  rcases hstart : start recordedSeeded (Plan.exactPair 0 1 2 Nat.one_pos)
      [.value (.scalar 1), .value (.scalar 3)] (Recorded.fresh 0) with ⟨e | c₀, s'⟩ <;>
    rw [hstart] at hlength
  · cases hlength
  obtain ⟨hspread, -, -, -, -, center, ps, -, -, hsamples, hbounded⟩ :=
    normal_components_stay_proper Script.seeded .standard id (fun r _ => r)
      Script.seeded.recorded positiveRoots_rat Script.servesNormals_seeded.positiveGammas
      (fun _ _ => rfl) Script.seeded.recorded_moves hstart
      (reachable_after recordedSeeded Script.seeded.recorded [.cluster none] c₀)
  refine ⟨c₀, s', rfl, Option.some.inj hlength, ?_⟩
  intro ms hms m hm
  refine ⟨(hspread m (Or.inr ⟨ms, hms, hm⟩)).1, ?_⟩
  intro hcount
  obtain ⟨p, hp, rfl⟩ := hsamples ms hms
  obtain ⟨k, hk⟩ := List.getElem?_of_mem hm
  exact (hbounded p hp k m hk hcount).variance_ge

end Chain

end DirichletMixture
