/-
  DirichletMixture: which configurations are accepted, and what they are good for.

  A configuration is checked once, field by field, and used in three places that check what
  they are given again.

  * `accept_eq_forM`: the fields are checked in order, and nothing else is;
  * `Config.Sound` collects what an accepted configuration is good for, and
    `sound_of_accept`: later checks ask for what was checked already;
  * `accepted_configurations_are_sound` puts this together.
-/
import Mathlib.Data.Int.Order.Basic
import Mathlib.Data.List.Basic
import DirichletMixture.Chain.Points
import DirichletMixture.Proofs.Chain.Iteration
import DirichletMixture.Proofs.Config.Fields

namespace DirichletMixture

/-- **The fields are checked in order**, and nothing else is. -/
theorem accept_eq_forM (s : Settings Float) :
    (Config.accept s).map (fun _ => ()) = forM ConfigField.all fun f => f.check (s.given f) := by
  simp only [Config.accept, ConfigField.all, List.forM_cons, List.forM_nil, ConfigField.check,
    Settings.given]
  rcases checkSource s.source with e | _
  · rfl
  rcases checkPositive .clusters s.clusters with e | _
  · rfl
  rcases checkPositive .thin s.thin with e | _
  · rfl
  rcases checkNatural .burnin s.burnin with e | _
  · rfl
  rcases checkNatural .iterations s.iterations with e | _
  · rfl
  rcases checkConcentration s.alpha0 with e | _
  · rfl
  rcases checkThreshold s.threshold with e | _
  · rfl
  · rfl

/-! ## Acceptance -/

section
variable {ε β : Type} {f : β → Except ε Unit} {xs : List β}

theorem forM_eq_ok_iff : forM xs f = .ok () ↔ ∀ x ∈ xs, f x = .ok () := by
  induction xs with
  | nil => exact iff_of_true rfl fun x hx => absurd hx List.not_mem_nil
  | cons x xs ih =>
    rw [List.forM_cons, List.forall_mem_cons, ← ih]
    rcases f x with e | _
    · exact iff_of_false nofun fun h => nomatch h.1
    · exact (and_iff_right rfl).symm

/-- The first step that fails is the one whose fault it is. -/
theorem forM_eq_error {before after : List β} {x : β} {e : ε}
    (hbefore : ∀ y ∈ before, f y = .ok ()) (hx : f x = .error e) :
    forM (before ++ x :: after) f = .error e := by
  rw [List.forM_append, forM_eq_ok_iff.2 hbefore, List.forM_cons, hx]
  rfl

end

section
variable {s : Settings Float}

theorem accept_eq_ok_iff :
    (∃ c, Config.accept s = .ok c) ↔ ∀ f : ConfigField, f.Admits (s.given f) := by
  have hchecks : (∃ c, Config.accept s = .ok c) ↔
      ∀ f ∈ ConfigField.all, f.check (s.given f) = .ok () := by
    rw [← forM_eq_ok_iff, ← accept_eq_forM]
    rcases Config.accept s with e | c
    · exact iff_of_false nofun nofun
    · exact iff_of_true ⟨c, rfl⟩ rfl
  rw [hchecks]
  constructor
  · intro h f
    rcases f.check_cases (s.given f) with ⟨-, hadmits⟩ | ⟨herror, -⟩
    · exact hadmits
    · exact nomatch (h f f.mem_all).symm.trans herror
  · intro h f _
    exact (f.check_cases (s.given f)).elim And.left fun hrefused => absurd (h f) hrefused.2

/-- **The first field that does not hold what it has to** is the one that is reported. -/
theorem accept_eq_error {before after : List ConfigField} {f : ConfigField}
    (hall : ConfigField.all = before ++ f :: after)
    (hbefore : ∀ f' ∈ before, f'.Admits (s.given f')) (hf : ¬ f.Admits (s.given f)) :
    Config.accept s = .error (f.fault (s.given f)) := by
  have hchecks : (Config.accept s).map (fun _ => ()) = .error (f.fault (s.given f)) := by
    rw [accept_eq_forM, hall]
    refine forM_eq_error (fun f' hf' => ?_) ?_
    · exact (f'.check_cases (s.given f')).elim And.left fun hrefused =>
        absurd (hbefore f' hf') hrefused.2
    · exact (f.check_cases (s.given f)).elim (fun hadmits => absurd hadmits.2 hf) And.left
  rcases haccept : Config.accept s with e | c
  · rw [haccept] at hchecks
    exact congrArg Except.error (Except.error.inj hchecks)
  · rw [haccept] at hchecks
    cases hchecks

end

/-! ## What is accepted -/

/-- What a configuration made from settings is good for. -/
structure Config.Sound (s : Settings Float) (c : Config Float) : Prop where
  clusters : s.clusters = .int c.plan.clusters
  thin : s.thin = .int c.plan.thin
  burnin : s.burnin = .int c.plan.burnin
  iterations : s.iterations = .int c.plan.iterations
  alpha0 : s.alpha0.number? = some c.plan.alpha0
  /-- No remainder is taken by zero. -/
  thin_pos : 0 < c.plan.thin
  /-- There is a policy, whatever counts as true. -/
  policy : ∃ p, c.policy = .ok p ∧
    p.mode = if s.emitMostLikely.isTrue then .mostLikely else .threshold
  /-- A mixture is drawn without being refused for its size or its concentration. -/
  start {ω O M : Type} (f : Family ω O M Float) :
    Mixture.start f c.plan.clusters c.plan.alpha0 = do
      let ms ← f.fromPrior c.plan.clusters
      if ms.length = c.plan.clusters then pure (Mixture.ofModels c.plan.alpha0 ms)
      else throw (Fault.wrongCount c.plan.clusters ms.length none).worded
  /-- A call that names no number of iterations does nothing, … -/
  idle {ω O M : Type} (f : Family ω O M Float) (g : Generator ω Float)
    {chain : Chain ω O M Float} (hplan : chain.plan = c.plan) (hn : c.plan.iterations = 0) :
    (Chain.cluster f g none).runOn chain = (.ok chain.samples, chain)
  /-- … or goes through its iterations. -/
  run {ω O M : Type} (f : Family ω O M Float) (g : Generator ω Float)
    {chain : Chain ω O M Float} (hplan : chain.plan = c.plan) (hn : 0 < c.plan.iterations) :
    (Chain.cluster f g none).runOn chain =
      match (Chain.iterateTimes f g c.plan.iterations).runOn (chain.begin c.plan.iterations) with
      | (.ok _, chain') => (.ok chain'.samples, chain'.finish)
      | (.error e, chain') => (.error e, chain')

section
variable {s : Settings Float} {c : Config Float}

/-- A policy is made again with what was checked already, or with the default. -/
theorem policy_eq_ok (hthreshold : ∃ t, checkThreshold c.threshold = .ok t) :
    ∃ p, c.policy = .ok p ∧ p.mode = if c.emitMostLikely then .mostLikely else .threshold := by
  obtain ⟨t, ht⟩ := hthreshold
  obtain ⟨t₀, ht₀⟩ : ∃ t₀, checkThreshold (Policy.defaultThreshold : Setting Float) = .ok t₀ :=
    ⟨_, (ConfigField.checkThreshold_of_number rfl).trans
      (dif_pos (by decide +kernel : (0.0 : Float) ≤ 0.0 ∧ (0.0 : Float) ≤ 1.0))⟩
  rw [Config.policy]
  rcases c.emitMostLikely with _ | _
  · exact ⟨_, by rw [if_neg Bool.false_ne_true, Policy.make, ht]; rfl, rfl⟩
  · exact ⟨_, by rw [if_pos rfl, Policy.make, ht₀]; rfl, rfl⟩

/-- The checks of a mixture are those of a plan. -/
theorem start_eq_of_plan {ω O M : Type} (f : Family ω O M Float) (plan : Plan Float) :
    Mixture.start f plan.clusters plan.alpha0 = (do
      let ms ← f.fromPrior plan.clusters
      if ms.length = plan.clusters then pure (Mixture.ofModels plan.alpha0 ms)
      else throw (Fault.wrongCount plan.clusters ms.length none).worded) := by
  have hclusters : ¬ (plan.clusters : ℤ) ≤ 0 := not_le.2 (Int.natCast_pos.2 plan.clusters_pos)
  rw [Mixture.start, if_neg hclusters, if_pos ⟨plan.alpha0_finite, plan.alpha0_pos⟩,
    Int.toNat_natCast]

section
variable {ω O M : Type} (f : Family ω O M Float) (g : Generator ω Float) {chain : Chain ω O M Float}

theorem runOn_cluster_none_of_zero (hn : chain.plan.iterations = 0) :
    (Chain.cluster f g none).runOn chain = (.ok chain.samples, chain) :=
  Chain.runOn_cluster_of_zero (Int.natCast_eq_zero.2 hn)

theorem runOn_cluster_none_of_pos (hn : 0 < chain.plan.iterations) :
    (Chain.cluster f g none).runOn chain =
      match (Chain.iterateTimes f g chain.plan.iterations).runOn
        (chain.begin chain.plan.iterations) with
      | (.ok _, chain') => (.ok chain'.samples, chain'.finish)
      | (.error e, chain') => (.error e, chain') := by
  have hpos : 0 < (none : Option ℤ).getD chain.plan.iterations := Int.natCast_pos.2 hn
  rw [Chain.runOn_cluster_of_pos hpos, Option.getD_none, Int.toNat_natCast]
  rcases (Chain.iterateTimes f g chain.plan.iterations).runOn
    (chain.begin chain.plan.iterations) with ⟨_ | _, _⟩ <;> rfl

end

/-- **What is accepted is sound**: later checks ask for what was checked already. -/
theorem sound_of_accept (h : Config.accept s = .ok c) : c.Sound s := by
  obtain ⟨-, -, h⟩ := bind_eq_ok.1 h
  obtain ⟨clusters, hclusters, h⟩ := bind_eq_ok.1 h
  obtain ⟨thin, hthin, h⟩ := bind_eq_ok.1 h
  obtain ⟨burnin, hburnin, h⟩ := bind_eq_ok.1 h
  obtain ⟨iterations, hiterations, h⟩ := bind_eq_ok.1 h
  obtain ⟨alpha0, halpha0, h⟩ := bind_eq_ok.1 h
  obtain ⟨t, ht, h⟩ := bind_eq_ok.1 h
  obtain rfl := Except.ok.inj h
  exact {
    clusters := ConfigField.checkPositive_eq_ok_iff.1 hclusters
    thin := ConfigField.checkPositive_eq_ok_iff.1 hthin
    burnin := ConfigField.checkNatural_eq_ok_iff.1 hburnin
    iterations := ConfigField.checkNatural_eq_ok_iff.1 hiterations
    alpha0 := ConfigField.number?_of_checkConcentration halpha0
    thin_pos := thin.2
    policy := policy_eq_ok ⟨t, ht⟩
    start := fun f => start_eq_of_plan f _
    idle := fun f g _ hplan hn => runOn_cluster_none_of_zero f g (hplan ▸ hn)
    run := fun f g _ hplan hn => hplan ▸ runOn_cluster_none_of_pos f g (hplan ▸ hn) }

end

/-- **Exactly the right configurations are accepted, and they are sound.**  The fields hold
    anything; the first one, in order, that does not hold what it has to is reported.  What is
    refused by comparison is a configuration error, unless the value is too long to be shown
    in it. -/
theorem accepted_configurations_are_sound (s : Settings Float) :
    ((∃ c, Config.accept s = .ok c) ↔ ∀ f : ConfigField, f.Admits (s.given f)) ∧
      (∀ before f after, ConfigField.all = before ++ f :: after →
        (∀ f' ∈ before, f'.Admits (s.given f')) → ¬ f.Admits (s.given f) →
        Config.accept s = .error (f.fault (s.given f))) ∧
      (∀ f : ConfigField, f ≠ .source → f ≠ .alpha0 →
        (f = .threshold → (s.given f).number? ≠ none) →
        (f.fault (s.given f)).kind =
          if (s.given f).isWritable then .configuration else .value) ∧
      ∀ c, Config.accept s = .ok c → c.Sound s :=
  ⟨accept_eq_ok_iff, fun _ _ _ => accept_eq_error, fun _ => ConfigField.kind_fault,
    fun _ => sound_of_accept⟩

/-- A number of clusters below zero is refused, but if it has too many digits, then without
    words, and the refusal is not told apart from a misuse of values. -/
theorem long_number_is_no_configuration_error :
    ¬ ConfigField.clusters.Admits (.int Decimal.longNegative) ∧
      Config.accept (Settings.withClusters (.int Decimal.longNegative) : Settings Float) =
        .error .longNumber ∧
      (Fault.longNumber : Fault Float).kind ≠ .configuration := by
  have hrefused : ¬ ConfigField.clusters.Admits (.int Decimal.longNegative) :=
    not_lt.2 Decimal.longNegative_neg.le
  refine ⟨hrefused, ?_, by decide⟩
  have hsource : ∀ f ∈ [ConfigField.source], f.Admits
      ((Settings.withClusters (.int Decimal.longNegative) : Settings Float).given f) := by
    intro f hf
    obtain rfl := List.mem_singleton.1 hf
    exact le_refl (0 : ℤ)
  have haccept : Config.accept (Settings.withClusters (.int Decimal.longNegative) :
      Settings Float) = _ := accept_eq_error (f := .clusters) rfl hsource hrefused
  rw [haccept]
  exact congrArg Except.error (Fault.refuse_of_not_isWritable Decimal.isWritable_longNegative)

/-- Settings of many kinds: truth values count as numbers for the concentration and the
    source, and an empty list counts as false. -/
def mixedSettings : Settings Float where
  source := .flag true
  clusters := .int 3
  alpha0 := .flag true
  thin := .int 1
  burnin := .int 0
  iterations := .int 0
  emitMostLikely := .list []
  threshold := .int 1

/-- They are accepted and sound, but not with a truth value for a whole number: the first of
    the two is reported. -/
theorem mixed_settings_are_accepted :
    (∃ c, Config.accept mixedSettings = .ok c ∧ c.Sound mixedSettings) ∧
      Config.accept { mixedSettings with thin := .flag true, burnin := .flag true } =
        .error (.refused (.notPositive .thin (.flag true))) := by
  have hadmits : ∀ f : ConfigField, f.Admits (mixedSettings.given f)
    | .source => trivial
    | .clusters => (by decide : (0 : ℤ) < 3)
    | .thin => (by decide : (0 : ℤ) < 1)
    | .burnin | .iterations => le_refl (0 : ℤ)
    | .alpha0 => rfl
    | .threshold => (by decide : (0 : ℤ) ≤ 1 ∧ (1 : ℤ) ≤ 1)
  obtain ⟨c, hc⟩ := (accepted_configurations_are_sound mixedSettings).1.2 hadmits
  refine ⟨⟨c, hc, (accepted_configurations_are_sound mixedSettings).2.2.2 c hc⟩, ?_⟩
  refine (accepted_configurations_are_sound _).2.1 [.source, .clusters] .thin _ rfl ?_ id
  intro f hf
  rcases List.mem_pair.1 hf with rfl | rfl
  · exact hadmits .source
  · exact hadmits .clusters

end DirichletMixture
