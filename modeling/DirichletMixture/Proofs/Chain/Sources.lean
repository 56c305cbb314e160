/-
  DirichletMixture: what happens to the source of a chain.

  A chain moves its source when it draws components, weights and destinations, and in no
  other way.  So a relation that these draws respect holds between the source at the start
  and the source at any time, also if iterations fail.

  * `Generator.Moves` says that the draws of the sampler respect a relation;
  * `Draws.Moves` carries the relation over to draws, and `sweep_moves` and
    `Reading.perform_moves` say who respects it;
  * `Reachable.moves`: the source of a chain that is reached.
-/
import DirichletMixture.Proofs.Chain.Reachable

namespace DirichletMixture

variable {ω O M α β : Type}

/-- The uniform and beta draws of a generator respect a relation. -/
structure Generator.Moves (R : ω → ω → Prop) (g : Generator ω α) : Prop where
  uniform : ∀ s, R s (g.uniform s).2
  beta : ∀ a b, (g.beta a b).Respects R

/-- The relation holds between the sources. -/
def Draws.Moves (R : ω → ω → Prop) (d d' : Draws ω α) : Prop := R d.source d'.source

section
variable {R : ω → ω → Prop} (hr : ∀ s, R s s) (ht : ∀ s t u, R s t → R t u → R s u)

include hr in
theorem Draws.Moves.refl (d : Draws ω α) : Moves R d d := hr _

include ht in
theorem Draws.Moves.trans (d d' d'' : Draws ω α) (h : Moves R d d') (h' : Moves R d' d'') :
    Moves R d d'' :=
  ht _ _ _ h h'

theorem Draws.onSource_moves {a : Attempt ω α β} (ha : a.Respects R) :
    (Draws.onSource a).Respects (Draws.Moves R) := by
  intro d
  exact ha d.source

variable [Scalar α] {g : Generator ω α} (hg : g.Moves R)
include hr ht hg

theorem breakFrom_moves (alpha0 : α) (counts : List α) :
    ∀ total remainder, (breakFrom g alpha0 total remainder counts).Respects R := by
  induction counts with
  | nil =>
    intro total remainder
    exact .pure hr _
  | cons n counts ih =>
    intro total remainder
    refine .bind ht ?_ fun share => .bind ht (ih _ _) fun pieces => .pure hr _
    rw [drawShare]
    split
    · exact hg.beta _ _
    · exact .pure hr _

omit ht in
theorem drawIndex_moves (w : List α) : (drawIndex g w).Respects R := by
  rw [drawIndex]
  rcases checkWeights w with cause | total
  · exact .throw hr _
  · intro s
    rw [Attempt.runOn_bind_ok (Attempt.runOn_lift _ _)]
    exact hg.uniform s

/-! ## Scoring and assigning -/

namespace Mixture

variable (c : Component O M α) (m : Mixture M α)

theorem weights_moves : (m.weights g).Respects (Draws.Moves R) := by
  intro d
  have hdraw := breakFrom_moves hr ht hg m.alpha0 (m.occupancy.map (Nat.cast : Nat → α))
    (pairwiseSum (m.occupancy.map (Nat.cast : Nat → α))) 1 d.source
  change R d.source ((m.drawWeights g).runOn d.source).2 at hdraw
  rcases h : (m.weights g).runOn d with ⟨e | w, d'⟩
  · obtain ⟨-, s, hs, rfl⟩ := weights_eq_error.1 h
    rwa [hs] at hdraw
  · rcases weights_eq_ok.1 h with ⟨-, rfl⟩ | ⟨-, s, hs, rfl⟩
    · exact hr _
    · rwa [hs] at hdraw

/-- Once the weights are known, nothing is drawn for what is a function of them. -/
theorem weights_bind_moves (r : List α → Except (Fault α) β) :
    (m.weights g >>= fun w => Attempt.ofExcept (r w)).Respects (Draws.Moves R) :=
  .bind (Draws.Moves.trans ht) (m.weights_moves hr ht hg) fun _ =>
    .ofExcept (Draws.Moves.refl hr) _

theorem normalized_moves (x : O) : (m.normalized c g x).Respects (Draws.Moves R) := by
  rw [normalized_eq]
  exact m.weights_bind_moves hr ht hg _

theorem assign_moves (x : O) (site : Site) :
    (m.assign c g x site).Respects (Draws.Moves R) :=
  .mapFault (.bind (Draws.Moves.trans ht) (m.normalized_moves hr ht hg c x) fun _ =>
    Draws.onSource_moves (drawIndex_moves hr hg _)) _

end Mixture

theorem Reading.perform_moves (c : Component O M α) (m : Mixture M α) (r : Reading O) :
    (r.perform c g m).Respects (Draws.Moves R) := by
  cases r with
  | weights => exact (m.weights_moves hr ht hg).ignore
  | score x k =>
    rw [Reading.perform, Mixture.score_eq]
    exact (m.weights_bind_moves hr ht hg _).ignore
  | scores x =>
    rw [Reading.perform, Mixture.scores_eq]
    exact (m.weights_bind_moves hr ht hg _).ignore
  | normalized x => exact (m.normalized_moves hr ht hg c x).ignore
  | assign x site => exact (m.assign_moves hr ht hg c x site).ignore

/-! ## Sweeps -/

theorem route_moves (c : Component O M α) (m : Mixture M α) (iteration : Nat) (xs : List O) :
    ∀ (ms : List M) (j : Nat), (route c g m iteration ms j xs).Respects (Draws.Moves R) := by
  induction xs with
  | nil =>
    intro ms j
    exact .pure (Draws.Moves.refl hr) _
  | cons x xs ih =>
    intro ms j
    refine .bind (Draws.Moves.trans ht) (m.assign_moves hr ht hg c x _) fun k => ?_
    exact .bind (Draws.Moves.trans ht) (.ofExcept (Draws.Moves.refl hr) _) fun ms => ih ms (j + 1)

/-- **A sweep respects a relation** if its draws do, at whatever point it fails. -/
theorem sweep_moves {f : Family ω O M α} {m : Mixture M α}
    (hf : (f.fromPosterior m.models).Respects R) (iteration : Nat) (data : List O) :
    (sweep f g m iteration data).Respects (Draws.Moves R) := by
  refine .bind (Draws.Moves.trans ht) ?_ fun ms => ?_
  · refine .bind (Draws.Moves.trans ht) (Draws.onSource_moves hf) fun ms => ?_
    split
    · exact .pure (Draws.Moves.refl hr) _
    · exact .throw (Draws.Moves.refl hr) _
  · exact .bind (Draws.Moves.trans ht) (route_moves hr ht hg f.toComponent m iteration data ms 0)
      fun ms => .ofExcept (Draws.Moves.refl hr) _

/-! ## Runs -/

namespace Chain

variable {f : Family ω O M α} {c₀ c : Chain ω O M α}

theorem iterate_moves (hf : (f.fromPosterior c.state.mixture.models).Respects R) :
    R c.state.draws.source ((iterate f g).runOn c).2.state.draws.source := by
  have hsweep := sweep_moves hr ht hg hf c.iteration c.data c.state.draws
  rcases hrun : (iterate f g).runOn c with ⟨e | u, c'⟩
  · obtain ⟨d, hd, rfl⟩ := iterate_eq_error.1 hrun
    rw [hd] at hsweep
    exact hsweep
  · obtain ⟨ms, d, hd, rfl⟩ := iterate_eq_ok.1 hrun
    rw [hd] at hsweep
    exact hsweep

/-- **The source of a chain that is reached** stands in the relation to the one at the
    start, if drawing from live components respects it. -/
theorem Reachable.moves (h : Reachable f g c₀ c)
    (hf : ∀ b, Reachable f g c₀ b → (f.fromPosterior b.state.mixture.models).Respects R) :
    R c₀.state.draws.source c.state.draws.source := by
  induction h with
  | start => exact hr _
  | iterate hb ih => exact ht _ _ _ ih (iterate_moves hr ht hg (hf _ hb))
  | begin _ _ ih => exact ih
  | finish _ ih => exact ih
  | @read b r hb ih =>
    exact ht _ _ _ ih (r.perform_moves hr ht hg f.toComponent b.state.mixture b.state.draws)

end Chain

end

end DirichletMixture
