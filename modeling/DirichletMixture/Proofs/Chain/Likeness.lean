/-
  DirichletMixture: chains that agree in part.

  What an iteration does hangs on the data, the live state and the counter alone.
  So two chains that agree in these go on alike, whatever else they differ in.

  * `Chain.InStep` is this agreement, and `Chain.Alike` the stronger one that leaves
    only the phase and the reports free;
  * `iterate_matches`: iterations keep every agreement that is at least as strong as
    the first;
  * `iterateTimes_phase` and `iterateTimes_iteration`: the phase stays, and the
    counter moves on by one for every completed iteration.
-/
import DirichletMixture.Proofs.Chain.Iteration

namespace DirichletMixture

namespace Chain

variable {ω O M α : Type} [Scalar α]

/-- Two chains whose next iterations are the same: they differ at most in their plan,
    their samples, their phase and their reports. -/
structure InStep (c c' : Chain ω O M α) : Prop where
  data : c.data = c'.data
  state : c.state = c'.state
  iteration : c.iteration = c'.iteration

/-- Two chains that differ at most in their phase and their reports. -/
structure Alike (c c' : Chain ω O M α) : Prop extends InStep c c' where
  plan : c.plan = c'.plan
  samples : c.samples = c'.samples

section
variable {c c' c'' : Chain ω O M α}

theorem InStep.withDraws (h : InStep c c') (d : Draws ω α) :
    InStep (c.withDraws d) (c'.withDraws d) where
  data := h.data
  state := by simp only [Chain.withDraws, h.state]
  iteration := h.iteration

theorem InStep.complete (h : InStep c c') (count : M → Nat) (ms : List M) :
    InStep (c.complete count ms) (c'.complete count ms) where
  data := h.data
  state := by simp only [Chain.complete, h.state]
  iteration := by simp only [Chain.complete, h.iteration]

theorem Alike.refl (c : Chain ω O M α) : Alike c c := ⟨⟨rfl, rfl, rfl⟩, rfl, rfl⟩

theorem Alike.symm (h : Alike c c') : Alike c' c :=
  ⟨⟨h.data.symm, h.state.symm, h.iteration.symm⟩, h.plan.symm, h.samples.symm⟩

theorem Alike.trans (h : Alike c c') (h' : Alike c' c'') : Alike c c'' :=
  ⟨⟨h.data.trans h'.data, h.state.trans h'.state, h.iteration.trans h'.iteration⟩,
    h.plan.trans h'.plan, h.samples.trans h'.samples⟩

theorem begin_alike (n : Nat) (c : Chain ω O M α) : Alike (c.begin n) c :=
  ⟨⟨rfl, rfl, rfl⟩, rfl, rfl⟩

theorem finish_alike (c : Chain ω O M α) : Alike c.finish c := ⟨⟨rfl, rfl, rfl⟩, rfl, rfl⟩

theorem Alike.withDraws (h : Alike c c') (d : Draws ω α) :
    Alike (c.withDraws d) (c'.withDraws d) where
  toInStep := h.toInStep.withDraws d
  plan := h.plan
  samples := h.samples

theorem Alike.complete (h : Alike c c') (count : M → Nat) (ms : List M) :
    Alike (c.complete count ms) (c'.complete count ms) where
  toInStep := h.toInStep.complete count ms
  plan := h.plan
  samples := by simp only [Chain.complete, samplesAfter, h.plan, h.iteration, h.samples]

end

/-! ## Iterations side by side -/

section
variable (f : Family ω O M α) (g : Generator ω α) {R : Chain ω O M α → Chain ω O M α → Prop}

/-- **Chains in step go on in step.**  A relation between chains in step that lasts when
    both are given the same draws, or are completed with the same components, lasts
    through an iteration, and the iteration ends alike. -/
theorem iterate_matches (hR : ∀ c c', R c c' → InStep c c')
    (hd : ∀ c c' d, R c c' → R (c.withDraws d) (c'.withDraws d))
    (hc : ∀ c c' ms, R c c' → R (c.complete f.count ms) (c'.complete f.count ms)) :
    Attempt.Matches R Eq (iterate f g) (iterate f g) := by
  intro c c' h
  have hs := hR c c' h
  rcases hr : (iterate f g).runOn c with ⟨e | u, c₁⟩
  · obtain ⟨d, hsweep, rfl⟩ := iterate_eq_error.1 hr
    rw [hs.state, hs.iteration, hs.data] at hsweep
    rw [iterate_eq_error.2 ⟨d, hsweep, rfl⟩]
    exact ⟨rfl, hd _ _ d h⟩
  · obtain ⟨ms, d, hsweep, rfl⟩ := iterate_eq_ok.1 hr
    rw [hs.state, hs.iteration, hs.data] at hsweep
    rw [(iterate_eq_ok (u := u)).2 ⟨ms, d, hsweep, rfl⟩]
    exact ⟨rfl, hc _ _ ms (hd _ _ d h)⟩

theorem iterate_matches_alike :
    Attempt.Matches Alike Eq (iterate f g) (iterate f g) :=
  iterate_matches f g (fun _ _ h => h.toInStep) (fun _ _ d h => h.withDraws d)
    fun _ _ ms h => h.complete f.count ms

theorem iterateTimes_matches_alike (n : Nat) :
    Attempt.Matches Alike Eq (iterateTimes f g n) (iterateTimes f g n) :=
  (iterate_matches_alike f g).times n

end

/-! ## The phase and the counter -/

section
variable {f : Family ω O M α} {g : Generator ω α} {c c' : Chain ω O M α}

theorem iterate_phase : (iterate f g).Respects fun c c' => c'.phase = c.phase := by
  intro c
  rcases hr : (iterate f g).runOn c with ⟨e | u, c₁⟩
  · obtain ⟨d, -, rfl⟩ := iterate_eq_error.1 hr
    rfl
  · obtain ⟨ms, d, -, rfl⟩ := iterate_eq_ok.1 hr
    rfl

theorem iterateTimes_phase (n : Nat) :
    (iterateTimes f g n).Respects fun c c' => c'.phase = c.phase := by
  refine Attempt.Respects.times (R := fun c c' : Chain ω O M α => c'.phase = c.phase) ?_ ?_
    iterate_phase n
  · intro c
    rfl
  · intro c c' c'' h h'
    exact h'.trans h

theorem iterate_iteration {u : Unit} (h : (iterate f g).runOn c = (.ok u, c')) :
    c'.iteration = c.iteration + 1 := by
  obtain ⟨ms, d, -, rfl⟩ := iterate_eq_ok.1 h
  rfl

theorem iterateTimes_iteration {u : Unit} {n : Nat}
    (h : (iterateTimes f g n).runOn c = (.ok u, c')) : c'.iteration = c.iteration + n := by
  induction n generalizing c with
  | zero => obtain ⟨-, rfl⟩ := Prod.mk.inj h; rfl
  | succ n ih =>
    obtain ⟨u, c₁, h₁, hrest⟩ := Attempt.runOn_bind_eq_ok.1 h
    rw [ih hrest, iterate_iteration h₁]; omega

/-- Where several iterations fail, the counter says which of them did. -/
theorem iterateTimes_iteration_of_error {e : Fault α} {n : Nat}
    (h : (iterateTimes f g n).runOn c = (.error e, c')) :
    c.iteration ≤ c'.iteration ∧ c'.iteration < c.iteration + n := by
  obtain ⟨i, hi, c₁, hrun, hlast⟩ := iterateTimes_eq_error.1 h
  obtain ⟨d, -, rfl⟩ := iterate_eq_error.1 hlast
  have hc₁ := iterateTimes_iteration hrun
  simp only [withDraws]
  omega

end

end Chain

end DirichletMixture
