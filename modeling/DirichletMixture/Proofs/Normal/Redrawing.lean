/-
  DirichletMixture: normal components can always be redrawn.

  The centre of a prior is looked at, and beliefs are computed, only when components are
  drawn.  Observations keep a belief proper: its shape and its scales stay positive.  So
  drawing from it goes well wherever drawing from the prior did, and the variances of what
  is drawn are positive.

  * `Generator.ServesNormals` says that draws with proper parameters succeed, and
    `Generator.PositiveGammas` that gamma draws are positive if they do;
  * `NormalPrior.proper_conjugate`: beliefs stay proper, and
    `NormalPrior.positive_of_posterior`: their parameters are positive anyway;
  * `exists_fromPosterior` and `exists_fromPrior`: components can be drawn, and they are
    spread, that is, have positive variances; `spread_of_drawEach`: they are whenever the
    draws succeed;
  * `Chain.Leads.spread`: the live components of a chain are spread at any time.
-/
import DirichletMixture.Proofs.Exact.Basic
import DirichletMixture.Proofs.Chain.Conservation
import DirichletMixture.Proofs.Family.Receptive
import DirichletMixture.Proofs.Generator.Seeded
import DirichletMixture.Proofs.Normal.Resampled

namespace DirichletMixture

variable {τ ω K : Type} [Exact K]

/-! ## Generators -/

/-- Gamma draws with positive parameters succeed and are positive, and normal draws succeed,
    with an entry for each parameter. -/
structure Generator.ServesNormals (g : Generator ω K) : Prop where
  gamma : ∀ shape scales s, 0 < shape → (∀ scale ∈ scales, 0 < scale) →
    ∃ xs s', (g.gamma shape scales).runOn s = (.ok xs, s') ∧ xs.length = scales.length ∧
      ∀ x ∈ xs, 0 < x
  normal : ∀ means deviations s, means.length = deviations.length →
    ∃ xs s', (g.normal means deviations).runOn s = (.ok xs, s') ∧ xs.length = means.length

/-- Gamma draws with positive parameters are positive if they succeed. -/
def Generator.PositiveGammas (g : Generator ω K) : Prop :=
  ∀ shape scales s xs s', 0 < shape → (∀ scale ∈ scales, 0 < scale) →
    (g.gamma shape scales).runOn s = (.ok xs, s') → ∀ x ∈ xs, 0 < x

theorem Generator.ServesNormals.positiveGammas {g : Generator ω K} (hg : g.ServesNormals) :
    g.PositiveGammas := by
  intro shape scales s xs s' hshape hscales h
  obtain ⟨ys, t, hys, -, hpos⟩ := hg.gamma shape scales s hshape hscales
  obtain ⟨hxs, -⟩ := Prod.mk.inj (h.symm.trans hys)
  obtain rfl := Except.ok.inj hxs
  exact hpos

theorem Script.length_nextFor {β : Type} (f : β → K → K) (xs : List β) (s : Script K) :
    (nextFor f xs s).1.length = xs.length := by
  induction xs generalizing s with
  | nil => rfl
  | cons x xs ih => exact congrArg Nat.succ (ih (next s).2)

/-- With nothing laid down, what becomes of the entries is made from parts of one. -/
theorem Script.exists_fraction_of_nextFor {β : Type} (f : β → K → K) (xs : List β)
    (seed : UInt64) (drawn : Nat) :
    ∀ y ∈ (nextFor f xs ⟨[], seed, drawn⟩).1, ∃ x ∈ xs, ∃ t, y = f x (fraction t) := by
  induction xs generalizing seed drawn with
  | nil =>
    intro y hy
    cases hy
  | cons x xs ih =>
    intro y hy
    rcases List.mem_cons.1 hy with rfl | hy
    · exact ⟨x, List.mem_cons_self, step seed, rfl⟩
    · obtain ⟨x', hx', t, ht⟩ := ih (step seed) (drawn + 1) y hy
      exact ⟨x', List.mem_cons_of_mem x hx', t, ht⟩

theorem Script.servesNormals_seeded : (seeded : Generator UInt64 K).ServesNormals where
  gamma shape scales seed hshape hscales := by
    refine ⟨_, _, rfl, length_nextFor _ scales _, ?_⟩
    intro y hy
    obtain ⟨scale, hscale, t, rfl⟩ := exists_fraction_of_nextFor _ scales seed 0 y hy
    have hhalf : (0 : K) < half := by
      rw [half_eq]
      exact one_half_pos
    exact mul_pos (mul_pos hshape (hscales scale hscale))
      (add_pos_of_nonneg_of_pos (fraction_mem t).1 hhalf)
  normal means deviations seed h := by
    refine ⟨_, _, rfl, (length_nextFor _ (means.zip deviations) _).trans ?_⟩
    rw [List.length_zip, h, Nat.min_self]

theorem forall_one_div_pos {xs : List K} (h : ∀ x ∈ xs, 0 < x) : ∀ y ∈ xs.map (1 / ·), 0 < y := by
  intro y hy
  obtain ⟨x, hx, rfl⟩ := List.mem_map.1 hy
  exact one_div_pos.2 (h x hx)

/-! ## Beliefs -/

/-- A belief that components of dimension `d` can be drawn from. -/
structure Belief.Proper (d : Nat) (b : Belief K) : Prop where
  length_mean : b.mean.length = d
  shape_pos : 0 < b.shape
  length_scale : b.scale.length = d
  scale_pos : ∀ scale ∈ b.scale, 0 < scale

theorem NormalPrior.scale_le_scaleAfter (p : NormalPrior K) (m : K) (X : Multiset K) :
    p.scale ≤ p.scaleAfter m X := by
  have hspread : 0 ≤ 1 / 2 * spreadAround (meanOf X) X :=
    mul_nonneg one_half_pos.le (spreadAround_nonneg _ X)
  have hdistance : 0 ≤ p.precisionScale * X.card * (meanOf X - m) ^ 2 :=
    mul_nonneg (mul_nonneg p.precisionScale_pos.le (Nat.cast_nonneg _)) (sq_nonneg _)
  have hdivisor : 0 < 2 * (p.precisionScale + X.card) :=
    mul_pos two_pos (p.precisionScale_add_card_pos X)
  exact le_add_of_le_of_nonneg (le_add_of_nonneg_right hspread)
    (div_nonneg hdistance hdivisor.le)

theorem NormalPrior.scaleAfter_pos (p : NormalPrior K) (m : K) (X : Multiset K) :
    0 < p.scaleAfter m X :=
  p.scale_pos.trans_le (p.scale_le_scaleAfter m X)

/-- **Observations keep a belief proper.** -/
theorem NormalPrior.proper_conjugate (p : NormalPrior K) (center : List K)
    (X : Multiset (List K)) : (p.conjugate center X).Proper p.dimension where
  length_mean := by simp [conjugate]
  shape_pos := add_pos_of_pos_of_nonneg p.shape_pos (div_nonneg (Nat.cast_nonneg _) zero_le_two)
  length_scale := by simp [conjugate]
  scale_pos := by
    intro scale hscale
    obtain ⟨i, -, rfl⟩ := List.mem_map.1 hscale
    exact p.scaleAfter_pos _ _

theorem NormalModel.Sound.exists_belief {prior : NormalPrior K} {m : NormalModel K}
    (h : m.Sound prior) :
    ∃ b, prior.posterior m.statistics = .ok b ∧ b.Proper prior.dimension := by
  obtain ⟨⟨center, hcenter⟩, X, hX⟩ := h
  exact ⟨_, hX.posterior hcenter, prior.proper_conjugate center X⟩

/-- The parameters of a belief are positive. -/
structure Belief.Positive (b : Belief K) : Prop where
  precisionScale_pos : 0 < b.precisionScale
  shape_pos : 0 < b.shape
  scale_pos : ∀ scale ∈ b.scale, 0 < scale

theorem NormalPrior.updatedScale_pos (p : NormalPrior K) {n : K} (hn : 0 ≤ n) (m s q : K) :
    0 < p.updatedScale n m s q := by
  have hspread : 0 ≤ half * larger (q - n * square (s / n)) 0 := by
    rw [half_eq, larger_eq_max]
    exact mul_nonneg one_half_pos.le (le_max_right _ _)
  have hdistance : 0 ≤ p.precisionScale * n * square (s / n - m) :=
    mul_nonneg (mul_nonneg p.precisionScale_pos.le hn) (mul_self_nonneg _)
  have hdivisor : 0 ≤ two * (p.precisionScale + n) :=
    mul_nonneg scalarTwo_pos.le (add_nonneg p.precisionScale_pos.le hn)
  exact add_pos_of_pos_of_nonneg (add_pos_of_pos_of_nonneg p.scale_pos hspread)
    (div_nonneg hdistance hdivisor)

theorem NormalPrior.positive_of_initial {p : NormalPrior K} {b : Belief K}
    (h : p.initial = .ok b) : b.Positive := by
  obtain ⟨_, -, rfl⟩ := map_eq_ok.1 h
  refine ⟨p.precisionScale_pos, p.shape_pos, ?_⟩
  intro scale hscale
  rw [(List.mem_replicate.1 hscale).2]
  exact p.scale_pos

/-- **Beliefs are positive**, whatever statistics they come from. -/
theorem NormalPrior.positive_of_posterior {p : NormalPrior K} {s : Statistics K} {b : Belief K}
    (hs : 0 ≤ s.count) (h : p.posterior s = .ok b) : b.Positive := by
  obtain ⟨b₀, hb₀, h⟩ := bind_eq_ok.1 h
  split_ifs at h with hzero
  · obtain rfl := Except.ok.inj h
    exact positive_of_initial hb₀
  · have hn : (0 : K) ≤ s.count := Int.cast_nonneg hs
    have hhalf : 0 ≤ (s.count : K) / two := div_nonneg hn scalarTwo_pos.le
    dsimp only at h
    split at h
    · obtain rfl := Except.ok.inj h
      refine ⟨add_pos_of_pos_of_nonneg p.precisionScale_pos hn,
        add_pos_of_pos_of_nonneg p.shape_pos hhalf, ?_⟩
      intro scale hscale
      obtain ⟨i, hi, rfl⟩ := List.mem_iff_getElem.1 hscale
      rw [List.getElem_zipWith]
      exact p.updatedScale_pos hn _ _ _
    · cases h

theorem NormalModel.positive_of_posterior {p : NormalPrior K} {m : NormalModel K} {b : Belief K}
    (h : p.posterior m.statistics = .ok b) : b.Positive :=
  NormalPrior.positive_of_posterior (Int.natCast_nonneg m.count) h

theorem NormalPrior.positive_of_mem_initials {p : NormalPrior K} {n : Nat} {b : Belief K}
    (h : .ok b ∈ List.replicate n p.initial) : b.Positive :=
  positive_of_initial (List.mem_replicate.1 h).2.symm

theorem NormalPrior.positive_of_mem_posteriors {p : NormalPrior K} {ms : List (NormalModel K)}
    {b : Belief K} (h : .ok b ∈ ms.map fun m => p.posterior m.statistics) : b.Positive := by
  obtain ⟨m, -, hm⟩ := List.mem_map.1 h
  exact NormalModel.positive_of_posterior hm

/-! ## Drawing components -/

/-- The variances of a component are positive. -/
def NormalModel.Spread (m : NormalModel K) : Prop := ∀ v ∈ m.variance, 0 < v

theorem spread_of_draw {g : Generator ω K} {prior : NormalPrior K} {b : Belief K}
    {m : NormalModel K} {s s' : ω} (hg : g.PositiveGammas) (hb : b.Positive)
    (h : (b.draw g prior).runOn s = (.ok m, s')) : m.Spread := by
  obtain ⟨precision, s₁, hprecision, h₁⟩ := Attempt.runOn_bind_eq_ok.1 h
  obtain ⟨mean, s₂, -, h₂⟩ := Attempt.runOn_bind_eq_ok.1 h₁
  obtain ⟨hmodel, -⟩ := Prod.mk.inj h₂
  obtain rfl := NormalModel.ofVectors_eq_ok hmodel
  exact forall_one_div_pos
    (hg _ _ _ _ _ hb.shape_pos (forall_one_div_pos hb.scale_pos) hprecision)

/-- **Components that are drawn from positive beliefs are spread.** -/
theorem spread_of_drawEach {g : Generator ω K} {prior : NormalPrior K}
    {bs : List (Except (Fault K) (Belief K))} {ms : List (NormalModel K)} {s s' : ω}
    (hg : g.PositiveGammas) (hbs : ∀ b, .ok b ∈ bs → b.Positive)
    (h : (drawEach g prior bs).runOn s = (.ok ms, s')) : ∀ m ∈ ms, m.Spread := by
  induction bs generalizing s ms with
  | nil =>
    cases h
    simp
  | cons r bs ih =>
    obtain ⟨b, s₁, hb, h₁⟩ := Attempt.runOn_bind_eq_ok.1 h
    obtain ⟨rfl, -⟩ := Prod.mk.inj hb
    obtain ⟨m, s₂, hm, h₂⟩ := Attempt.runOn_bind_eq_ok.1 h₁
    obtain ⟨ms', s₃, hms, h₃⟩ := Attempt.runOn_bind_eq_ok.1 h₂
    cases h₃
    refine List.forall_mem_cons.2 ⟨spread_of_draw hg (hbs b List.mem_cons_self) hm, ?_⟩
    exact ih (fun b hb => hbs b (List.mem_cons_of_mem _ hb)) hms

section
variable {g : Generator ω K} {prior : NormalPrior K} (hg : g.ServesNormals)
include hg

theorem exists_draw {b : Belief K} (hb : b.Proper prior.dimension) (s : ω) :
    ∃ m s', (b.draw g prior).runOn s = (.ok m, s') ∧ m.Spread := by
  obtain ⟨precision, s₁, hprecision, hlen, hpos⟩ :=
    hg.gamma b.shape (b.scale.map (1 / ·)) s hb.shape_pos (forall_one_div_pos hb.scale_pos)
  rw [List.length_map, hb.length_scale] at hlen
  have hlen' : b.mean.length =
      ((precision.map (1 / ·)).map (meanDeviation b.precisionScale)).length := by
    rw [List.length_map, List.length_map, hlen, hb.length_mean]
  obtain ⟨mean, s₂, hmean, hlen''⟩ := hg.normal b.mean _ s₁ hlen'
  rw [hb.length_mean] at hlen''
  have hmodel : NormalModel.ofVectors prior mean (precision.map (1 / ·)) =
      .ok (NormalModel.fresh prior mean (precision.map (1 / ·))) := by
    simp [NormalModel.ofVectors, NormalModel.coordinates, hlen, hlen'', bind, Except.bind, pure,
      Except.pure]
  refine ⟨NormalModel.fresh prior mean (precision.map (1 / ·)), s₂, ?_, forall_one_div_pos hpos⟩
  rw [Belief.draw, Attempt.runOn_bind_ok hprecision, Attempt.runOn_bind_ok hmean, hmodel]
  rfl

theorem exists_drawEach {bs : List (Belief K)} (hbs : ∀ b ∈ bs, b.Proper prior.dimension)
    (s : ω) : ∃ ms s', (drawEach g prior (bs.map .ok)).runOn s = (.ok ms, s') ∧
      ms.length = bs.length ∧ ∀ m ∈ ms, m.Spread := by
  induction bs generalizing s with
  | nil => exact ⟨[], s, rfl, rfl, by simp⟩
  | cons b bs ih =>
    obtain ⟨hb, hrest⟩ := List.forall_mem_cons.1 hbs
    obtain ⟨m, s₁, hm, hspread⟩ := exists_draw hg hb s
    obtain ⟨ms, s₂, hms, hlen, hspreads⟩ := ih hrest s₁
    refine ⟨m :: ms, s₂, ?_, congrArg Nat.succ hlen,
      List.forall_mem_cons.2 ⟨hspread, hspreads⟩⟩
    have hbelief : (Attempt.ofExcept (.ok b) : Attempt ω K (Belief K)).runOn s = (.ok b, s) := rfl
    rw [List.map_cons, drawEach, Attempt.runOn_bind_ok hbelief, Attempt.runOn_bind_ok hm,
      Attempt.runOn_bind_ok hms]
    rfl

variable [Readable K] (get : τ → ω) (put : ω → τ → τ)

/-- **Sound components can be redrawn**, each of them once. -/
theorem exists_fromPosterior {ms : List (NormalModel K)} (hms : ∀ m ∈ ms, m.Sound prior)
    (t : τ) :
    ∃ fresh t', (((normalFamily g prior).focus get put).fromPosterior ms).runOn t =
        (.ok fresh, t') ∧ fresh.length = ms.length ∧ ∀ m ∈ fresh, m.Spread := by
  obtain ⟨bs, hmap, hproper⟩ := exists_map_eq_ok fun m hm => (hms m hm).exists_belief
  obtain ⟨fresh, s, hfresh, hlen, hspread⟩ := exists_drawEach hg hproper (get t)
  have hlen' : ms.length = bs.length := by simpa using congrArg List.length hmap
  refine ⟨fresh, put s t, ?_, hlen.trans hlen'.symm, hspread⟩
  rw [Family.focus, Attempt.runOn_focus, fromPosterior_eq_drawEach g hmap, hfresh]

/-- Components can be drawn from a prior with a centre, as many as asked for. -/
theorem exists_fromPrior {center : List K} (hc : prior.center = .ok center) (n : Nat) (t : τ) :
    ∃ ms t', (((normalFamily g prior).focus get put).fromPrior n).runOn t = (.ok ms, t') ∧
      ms.length = n ∧ ∀ m ∈ ms, m.Spread := by
  have hproper : ∀ b ∈ List.replicate n (prior.conjugate center 0), b.Proper prior.dimension := by
    intro b hb
    rw [(List.mem_replicate.1 hb).2]
    exact prior.proper_conjugate center 0
  obtain ⟨ms, s, hms, hlen, hspread⟩ := exists_drawEach hg hproper (get t)
  rw [List.length_replicate] at hlen
  refine ⟨ms, put s t, ?_, hlen, hspread⟩
  rw [Family.focus, Attempt.runOn_focus, fromPrior_eq_drawEach g
    (NormalPrior.checkDimension_of_center hc) (NormalPrior.initial_of_center hc), hms]

end

/-! ## Observing and finalizing -/

namespace NormalModel

variable {prior : NormalPrior K} {m m' : NormalModel K}

theorem Spread.observeAll [Readable K] (g : Generator ω K) (prior : NormalPrior K)
    {xs : List (Observation K)} (hm : m.Spread)
    (h : (normalFamily g prior).observeAll m xs = .ok m') : m'.Spread := by
  induction xs generalizing m with
  | nil =>
    obtain rfl := Except.ok.inj h
    exact hm
  | cons x xs ih =>
    obtain ⟨m₁, hx, hrest⟩ := bind_eq_ok.1 h
    obtain ⟨v, -, rfl⟩ := map_eq_ok.1 hx
    exact ih (m := m.absorb v) hm hrest

/-- A component that was spread is spread once it is finalized, whatever it has observed. -/
theorem Spread.finalize (hm : m.Spread) (h : m.finalize = .ok m') : m'.Spread := by
  unfold NormalModel.finalize at h
  split_ifs at h with hcount
  · obtain rfl := Except.ok.inj h
    exact hm
  · obtain ⟨b, hb, rfl⟩ := map_eq_ok.1 h
    have hpositive := positive_of_posterior hb
    intro v hv
    obtain ⟨scale, hscale, rfl⟩ := List.mem_map.1 hv
    exact div_pos (hpositive.scale_pos scale hscale) (add_pos hpositive.shape_pos one_pos)

end NormalModel

/-! ## Runs -/

namespace Chain

variable [Readable K] {g' : Generator τ K} {prior : NormalPrior K} {get : ω → τ}
  {put : τ → ω → ω} {g : Generator ω K} {c₀ c : Chain ω (Observation K) (NormalModel K) K}

/-- Live components are spread if those that are drawn are. -/
theorem Leads.spread_of_draws {ps : List (Pass ω (Observation K) (NormalModel K) K)}
    (h : Leads ((normalFamily g' prior).focus get put) g c₀ ps c)
    (hspread : ∀ m ∈ c₀.state.mixture.models, m.Spread)
    (hdraws : ∀ b qs t fresh t', Leads ((normalFamily g' prior).focus get put) g c₀ qs b →
      (((normalFamily g' prior).focus get put).fromPosterior b.state.mixture.models).runOn t =
        (.ok fresh, t') → ∀ m ∈ fresh, m.Spread) :
    ∀ m ∈ c.state.mixture.models, m.Spread := by
  induction h with
  | nil => exact hspread
  | idle _ hsame ih =>
    rw [hsame.mixture]
    exact ih
  | @pass qs b b' hb hrun _ =>
    obtain ⟨-, fresh, s, z, hdraw, -, hrouted⟩ := exists_routed_of_iterate hrun
    intro m hm
    obtain ⟨k, hk⟩ := List.getElem?_of_mem hm
    obtain ⟨m₀, m', hm₀, hobs, hfin⟩ := hrouted.exists_absorbed hk
    have hspread₀ := hdraws b qs _ fresh s hb hdraw m₀ (List.mem_of_getElem? hm₀)
    exact (hspread₀.observeAll g' prior hobs).finalize hfin

variable (hg' : g'.ServesNormals)
include hg'

/-- A chain starts with components that are spread. -/
theorem spread_of_start {plan : Plan K} {data : List (Observation K)} {s s' : ω}
    (h : start ((normalFamily g' prior).focus get put) plan data s = (.ok c₀, s')) :
    ∀ m ∈ c₀.state.mixture.models, m.Spread := by
  have hdraw := fromPrior_of_start h
  have hsound := ((normalFamily_receptive g' prior).focus get put).prior _ _ _ _ hdraw
  intro m hm
  obtain ⟨⟨center, hcenter⟩, -⟩ := hsound m hm
  obtain ⟨ms, s₁, hms, -, hspread⟩ := exists_fromPrior hg' get put hcenter plan.clusters s
  obtain ⟨hmodels, -⟩ := Prod.mk.inj (hms.symm.trans hdraw)
  obtain rfl := Except.ok.inj hmodels
  exact hspread m hm

/-- **Live components are spread** at any time. -/
theorem Leads.spread {ps : List (Pass ω (Observation K) (NormalModel K) K)}
    (h : Leads ((normalFamily g' prior).focus get put) g c₀ ps c)
    (hsound : ∀ m ∈ c₀.state.mixture.models, m.Sound prior)
    (hspread : ∀ m ∈ c₀.state.mixture.models, m.Spread) :
    ∀ m ∈ c.state.mixture.models, m.Spread := by
  have hf := (normalFamily_receptive g' prior).focus get put
  refine h.spread_of_draws hspread ?_
  intro b qs t fresh t' hb hdraw
  obtain ⟨fresh', s', hdraw', -, hspread'⟩ := exists_fromPosterior hg' get put
    (hb.forall_models hf.toMaintains hsound) t
  obtain ⟨hmodels, -⟩ := Prod.mk.inj (hdraw'.symm.trans hdraw)
  obtain rfl := Except.ok.inj hmodels
  exact hspread'

end Chain

end DirichletMixture
