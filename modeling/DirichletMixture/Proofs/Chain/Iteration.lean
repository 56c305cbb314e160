/-
  DirichletMixture: iterations and calls, step by step.

  Each operation of a chain is described once, by what it does when it ends well
  and what it leaves behind when it fails.

  * `start_eq_ok` describes the start of a chain, and `fromPrior_of_start` says where its
    components come from;
  * `Chain.complete` is a whole iteration's end in one step, and `runOn_conclude` says
    when the writes one after the other come to that: a state that is given a wrong
    number of components refuses them, and the sample stays;
  * `length_of_sweep`: a sweep that ends well has the right number;
  * so `iterate_eq_ok` and `iterate_eq_error` describe one iteration;
  * `iterateTimes_eq_error` finds the iteration that failed among several;
  * `runOn_cluster_of_pos` and its neighbours describe a call.
-/
import DirichletMixture.Chain.Run
import DirichletMixture.Proofs.Attempt

namespace DirichletMixture

/-! ## Sweeps -/

section
variable {ω O M α : Type} {f : Family ω O M α} {c : Component O M α} {g : Generator ω α}
  {m : Mixture M α} {iteration : Nat} {ms ms' : List M} {d d' : Draws ω α}

theorem length_of_renew (h : (renew f m iteration).runOn d = (.ok ms, d')) :
    ms.length = m.size := by
  obtain ⟨drawn, d₁, -, hcheck⟩ := Attempt.runOn_bind_eq_ok.1 h
  by_cases hlen : drawn.length = m.size
  · rw [if_pos hlen] at hcheck
    obtain rfl := Except.ok.inj (Prod.mk.inj hcheck).1
    exact hlen
  · rw [if_neg hlen] at hcheck
    cases hcheck

theorem observeIn_eq_ok {k : Nat} {x : O} :
    observeIn c ms k x = .ok ms' ↔
      ∃ m m', ms[k]? = some m ∧ c.observe m x = .ok m' ∧ ms' = ms.set k m' := by
  unfold observeIn
  rcases hm : ms[k]? with _ | m
  · simp
  · rcases hx : c.observe m x with e | m' <;> simp [Except.map, hx, eq_comm]

variable [Scalar α]

theorem length_of_route {j : Nat} {xs : List O}
    (h : (route c g m iteration ms j xs).runOn d = (.ok ms', d')) : ms'.length = ms.length := by
  induction xs generalizing ms j d with
  | nil => cases h; rfl
  | cons x xs ih =>
    obtain ⟨k, d₁, -, hrest⟩ := Attempt.runOn_bind_eq_ok.1 h
    obtain ⟨ms₁, d₂, hobserve, hroute⟩ := Attempt.runOn_bind_eq_ok.1 hrest
    obtain ⟨m₀, m₁, -, -, rfl⟩ := observeIn_eq_ok.1 (Prod.mk.inj hobserve).1
    rw [ih hroute, List.length_set]

/-- A sweep that ends well has one component for each cluster. -/
theorem length_of_sweep {data : List O}
    (h : (sweep f g m iteration data).runOn d = (.ok ms, d')) : ms.length = m.size := by
  obtain ⟨fresh, d₁, hfresh, hrest⟩ := Attempt.runOn_bind_eq_ok.1 h
  obtain ⟨ms₁, d₂, hroute, hlast⟩ := Attempt.runOn_bind_eq_ok.1 hrest
  rw [← length_of_mapM_eq_ok (Prod.mk.inj hlast).1, length_of_route hroute, length_of_renew hfresh]

end

namespace Chain

variable {ω O M α : Type} [Scalar α] {f : Family ω O M α} {g : Generator ω α}
  {c c' : Chain ω O M α}

/-! ## Starting -/

/-- A chain starts exactly if its family draws as many components as there are
    clusters. -/
theorem start_eq_ok {plan : Plan α} {data : List O} {s s' : ω} :
    start f plan data s = (.ok c, s') ↔
      ∃ ms, (f.fromPrior plan.clusters).runOn s = (.ok ms, s') ∧ ms.length = plan.clusters ∧
        c = ofMixture plan data (Mixture.ofModels plan.alpha0 ms) s' := by
  have hpos : ¬ (plan.clusters : Int) ≤ 0 := by have := plan.clusters_pos; omega
  rw [start, Mixture.start, if_neg hpos, if_pos ⟨plan.alpha0_finite, plan.alpha0_pos⟩,
    Int.toNat_natCast]
  rcases hdraw : (f.fromPrior plan.clusters).runOn s with ⟨e | ms, t⟩
  · rw [Attempt.runOn_bind_error hdraw]; simp
  · rw [Attempt.runOn_bind_ok hdraw]
    by_cases hlen : ms.length = plan.clusters
    · rw [if_pos hlen, Attempt.runOn_pure]
      constructor
      · intro h; cases h; exact ⟨ms, rfl, hlen, rfl⟩
      · rintro ⟨ms', h, -, rfl⟩; cases h; rfl
    · rw [if_neg hlen, Attempt.runOn_throw]
      constructor
      · intro h; cases h
      · rintro ⟨ms', h, hlen', -⟩; cases h; exact absurd hlen' hlen

/-- The first components are those that are drawn from the prior. -/
theorem fromPrior_of_start {plan : Plan α} {data : List O} {s s' : ω}
    (h : start f plan data s = (.ok c, s')) :
    (f.fromPrior plan.clusters).runOn s = (.ok c.state.mixture.models, s') := by
  obtain ⟨ms, hdraw, -, rfl⟩ := start_eq_ok.1 h
  rw [hdraw, ofMixture, State.ofMixture, Mixture.models_ofModels]

/-! ## The end of an iteration -/

/-- The samples after an iteration that ended with these components. -/
def samplesAfter (c : Chain ω O M α) (ms : List M) : List (List M) :=
  if c.plan.keeps c.iteration then c.samples ++ [ms] else c.samples

/-- The reports of an iteration that ended with these components. -/
def completionEvents (count : M → Nat) (c : Chain ω O M α) (ms : List M) : List (Event α) :=
  (if c.plan.keeps c.iteration then [.captured c.iteration (c.samples.length + 1)] else []) ++
    [.updated (ms.map count), .completed c.iteration ((ms.map count).filter (· ≠ 0)).length]

/-- The chain after an iteration that ended with these components. -/
def complete (count : M → Nat) (c : Chain ω O M α) (ms : List M) : Chain ω O M α :=
  { c with
    state := c.state.replace count ms
    samples := c.samplesAfter ms
    iteration := c.iteration + 1
    journal := c.journal ++ c.completionEvents count ms }

/-- What the writes at the end of an iteration come to. -/
theorem runOn_conclude (count : M → Nat) (kept ms : List M) (c : Chain ω O M α) :
    (conclude count kept ms).runOn c =
      if ms.length = c.state.mixture.size then
        (.ok (), { c.complete count ms with samples := c.samplesAfter kept })
      else (.error (.wrongCount c.state.mixture.size ms.length none), c.capture kept) := by
  have hstate : (c.capture kept).state = c.state := by
    rw [capture]
    split <;> rfl
  rw [conclude, Attempt.runOn_bind_ok (Attempt.runOn_modify _ c)]
  by_cases hlen : ms.length = c.state.mixture.size
  · have hupdate : (onState (State.update count ms)).runOn (c.capture kept) =
        (.ok (), { c.capture kept with state := c.state.replace count ms }) := by
      rw [onState, Attempt.runOn_focus, hstate, State.runOn_update_of_length hlen]
    rw [if_pos hlen, Attempt.runOn_bind_ok hupdate,
      Attempt.runOn_bind_ok (Attempt.runOn_modify _ _), Attempt.runOn_modify]
    simp only [capture, complete, samplesAfter, completionEvents, advance, report]
    split <;> simp [State.replace]
  · have hupdate : (onState (State.update count ms)).runOn (c.capture kept) =
        (.error (.wrongCount c.state.mixture.size ms.length none), c.capture kept) := by
      rw [onState, Attempt.runOn_focus, hstate, State.runOn_update_of_ne hlen, ← hstate]
    rw [if_neg hlen, Attempt.runOn_bind_error hupdate]

/-! ## One iteration -/

/-- What is read off the live mixture of a chain may change its draws, and nothing else. -/
theorem runOn_onState_read_bind {β γ : Type} (r : Mixture M α → Attempt (Draws ω α) α β)
    (k : β → Attempt (Chain ω O M α) α γ) (c : Chain ω O M α) :
    (onState (State.read r) >>= k).runOn c =
      match (r c.state.mixture).runOn c.state.draws with
      | (.ok b, d) => (k b).runOn (c.withDraws d)
      | (.error e, d) => (.error e, c.withDraws d) := by
  rw [Attempt.runOn_bind, onState, Attempt.runOn_focus, State.runOn_read]
  rcases (r c.state.mixture).runOn c.state.draws with ⟨e | b, d⟩ <;> rfl

/-- **One iteration in one step**: after a sweep that has ended well the state refuses
    nothing, so that all the writes are made or none. -/
theorem runOn_iterate (f : Family ω O M α) (g : Generator ω α) (c : Chain ω O M α) :
    (iterate f g).runOn c =
      match (sweep f g c.state.mixture c.iteration c.data).runOn c.state.draws with
      | (.ok ms, d) => (.ok (), (c.withDraws d).complete f.count ms)
      | (.error e, d) => (.error e, c.withDraws d) := by
  rw [iterate, Attempt.runOn_bind_ok (Attempt.runOn_get c), runOn_onState_read_bind]
  rcases hs : (sweep f g c.state.mixture c.iteration c.data).runOn c.state.draws with ⟨e | ms, d⟩
  · rfl
  · have hlen : ms.length = (c.withDraws d).state.mixture.size := length_of_sweep hs
    show (conclude f.count ms ms).runOn (c.withDraws d) = _
    rw [runOn_conclude, if_pos hlen]
    rfl

/-- An iteration ends well exactly if its sweep does; then it is completed with
    the components of the sweep. -/
theorem iterate_eq_ok {u : Unit} : (iterate f g).runOn c = (.ok u, c') ↔
    ∃ ms d, (sweep f g c.state.mixture c.iteration c.data).runOn c.state.draws = (.ok ms, d) ∧
      c' = (c.withDraws d).complete f.count ms := by
  rw [runOn_iterate]
  rcases (sweep f g c.state.mixture c.iteration c.data).runOn c.state.draws with ⟨e | ms, d⟩
  · simp
  · simp [eq_comm, and_assoc]

/-- An iteration fails exactly if its sweep does, and leaves nothing but other
    draws. -/
theorem iterate_eq_error {e : Fault α} : (iterate f g).runOn c = (.error e, c') ↔
    ∃ d, (sweep f g c.state.mixture c.iteration c.data).runOn c.state.draws = (.error e, d) ∧
      c' = c.withDraws d := by
  rw [runOn_iterate]
  rcases (sweep f g c.state.mixture c.iteration c.data).runOn c.state.draws with ⟨e' | ms, d⟩
  · simp [eq_comm, and_assoc]
  · simp

/-! ## Several iterations -/

theorem iterateTimes_succ (f : Family ω O M α) (g : Generator ω α) (n : Nat) :
    iterateTimes f g (n + 1) = (do iterate f g; iterateTimes f g n) := rfl

theorem iterateTimes_add (f : Family ω O M α) (g : Generator ω α) (m n : Nat) :
    iterateTimes f g (m + n) = (do iterateTimes f g m; iterateTimes f g n) := by
  induction m with
  | zero => rw [Nat.zero_add]; rfl
  | succ m ih => rw [Nat.succ_add, iterateTimes_succ, iterateTimes_succ, ih, bind_assoc]

/-- Several iterations fail exactly if one of them does, after all before it were
    completed. -/
theorem iterateTimes_eq_error {e : Fault α} {n : Nat} :
    (iterateTimes f g n).runOn c = (.error e, c') ↔
      ∃ i < n, ∃ c₁, (iterateTimes f g i).runOn c = (.ok (), c₁) ∧
        (iterate f g).runOn c₁ = (.error e, c') :=
  Attempt.times_eq_error

/-! ## Calls -/

section
variable {step : Attempt (Chain ω O M α) α Unit} {n : Option Int}

theorem runOn_call_of_neg (h : n.getD c.plan.iterations < 0) :
    (call step n).runOn c = (.error (.refuse (.negativeRun (n.getD c.plan.iterations))), c) := by
  rw [call, Attempt.runOn_bind_ok (Attempt.runOn_get c), if_pos h, Attempt.runOn_throw]

theorem runOn_call_of_zero (h : n.getD c.plan.iterations = 0) :
    (call step n).runOn c = (.ok c.samples, c) := by
  rw [call, Attempt.runOn_bind_ok (Attempt.runOn_get c), if_neg (by omega), if_pos h,
    Attempt.runOn_pure]

theorem runOn_call_of_pos (h : 0 < n.getD c.plan.iterations) :
    (call step n).runOn c =
      match (step.times (n.getD c.plan.iterations).toNat).runOn
        (c.begin (n.getD c.plan.iterations).toNat) with
      | (.ok _, c') => (.ok c'.samples, c'.finish)
      | (.error e, c') => (.error e, c') := by
  rw [call, Attempt.runOn_bind_ok (Attempt.runOn_get c), if_neg (by omega), if_neg (by omega),
    Attempt.runOn_bind_ok (Attempt.runOn_modify _ c)]
  rcases hrun : (step.times (n.getD c.plan.iterations).toNat).runOn
    (c.begin (n.getD c.plan.iterations).toNat) with ⟨e | u, c'⟩
  · rw [Attempt.runOn_bind_error hrun]
  · rw [Attempt.runOn_bind_ok hrun]; rfl

theorem runOn_cluster_of_neg (h : n.getD c.plan.iterations < 0) :
    (cluster f g n).runOn c = (.error (.refuse (.negativeRun (n.getD c.plan.iterations))), c) :=
  runOn_call_of_neg h

theorem runOn_cluster_of_zero (h : n.getD c.plan.iterations = 0) :
    (cluster f g n).runOn c = (.ok c.samples, c) :=
  runOn_call_of_zero h

theorem runOn_cluster_of_pos (h : 0 < n.getD c.plan.iterations) :
    (cluster f g n).runOn c =
      match (iterateTimes f g (n.getD c.plan.iterations).toNat).runOn
        (c.begin (n.getD c.plan.iterations).toNat) with
      | (.ok _, c') => (.ok c'.samples, c'.finish)
      | (.error e, c') => (.error e, c') :=
  runOn_call_of_pos h

end

end Chain

end DirichletMixture
