/-
  DirichletMixture: failures leave no half-done iteration.

  An iteration may fail in its sweep, before anything is written, and once more when the
  live state is given the components, after a sample is written.  A sweep that has ended
  well has as many components as the state wants, and so the second does not occur.

  * `failed_iteration_is_atomic`: a failing iteration leaves other draws and nothing
    else, and weights that were drawn before it stay drawn; a failing call leaves
    what its completed iterations left, and then the same; in memory, what was there
    is spared, and the components of a family are found there as they are without it.
-/
import DirichletMixture.Proofs.Chain.Likeness
import DirichletMixture.Proofs.Chain.Reading
import DirichletMixture.Proofs.Chain.Sparing
import DirichletMixture.Proofs.Chain.Tallies
import DirichletMixture.Proofs.Chain.View

namespace DirichletMixture

namespace Chain

variable {ω O M α : Type} [Scalar α]

section
variable {f : Family ω O M α} {g : Generator ω α} {c c' : Chain ω O M α} {e : Fault α}

/-- A failing iteration changes the draws alone, and keeps weights that are drawn. -/
theorem exists_withDraws_of_error (h : (iterate f g).runOn c = (.error e, c')) :
    ∃ d, c' = c.withDraws d ∧ c.state.draws.Keeps d := by
  obtain ⟨d, hs, rfl⟩ := iterate_eq_error.1 h
  have hd := sweep_respects f g c.state.mixture c.iteration c.data c.state.draws
  rw [hs] at hd
  exact ⟨d, rfl, hd⟩

/-- A failing call was refused and changed nothing, or some of its steps have ended well and
    the next has failed. -/
theorem exists_completed_of_error {step : Attempt (Chain ω O M α) α Unit} {n : Option Int}
    (h : (call step n).runOn c = (.error e, c')) :
    n.getD c.plan.iterations < 0 ∧ c' = c ∨
      ∃ i < (n.getD c.plan.iterations).toNat, ∃ c₁,
        (step.times i).runOn (c.begin (n.getD c.plan.iterations).toNat) = (.ok (), c₁) ∧
          step.runOn c₁ = (.error e, c') := by
  rcases Int.lt_trichotomy (n.getD c.plan.iterations) 0 with hn | hn | hn
  · rw [runOn_call_of_neg hn] at h
    exact Or.inl ⟨hn, (Prod.mk.inj h).2.symm⟩
  · rw [runOn_call_of_zero hn] at h; cases h
  · right
    rw [runOn_call_of_pos hn] at h
    rcases hrun : (step.times (n.getD c.plan.iterations).toNat).runOn
      (c.begin (n.getD c.plan.iterations).toNat) with ⟨e' | u, c₀⟩ <;> rw [hrun] at h
    · obtain ⟨he, rfl⟩ := Prod.mk.inj h
      cases he
      exact Attempt.times_eq_error.1 hrun
    · cases h

end

/-- A chain in memory with other draws and nothing else: the same places, at which there is
    what was there, so that it looks the same with the components themselves. -/
structure Redrawn (c c' : Chain (Memory ω M) O Nat α) : Prop where
  eq_withDraws : c' = c.withDraws c'.state.draws
  keeps : c.state.draws.Keeps c'.state.draws
  spares : c.memory.Spares c'.memory
  view_eq : c.Placed → c'.view = c.view.withDraws c'.state.draws.bare

section
variable {F : Factory ω O M α} {g : Generator ω α} {c c' : Chain (Memory ω M) O Nat α}
  {e : Fault α}

/-- In place, too, a failing iteration changes the draws alone, and in memory it spares
    what was there. -/
theorem redrawn_of_error (hF : F.MakesNew)
    (h : (iterateInPlace F g).runOn c = (.error e, c')) : Redrawn c c' := by
  obtain ⟨d, hs, rfl⟩ := iterateInPlace_eq_error.1 h
  have hd := sweepInPlace_spares g c.state.mixture c.iteration hF c.data c.state.draws
  rw [hs] at hd
  exact ⟨rfl, hd.keeps, hd.memory, fun hc => view_withDraws hc hd.memory⟩

end

/-- **A failing iteration is atomic.**  Whatever made it fail and whatever calls came
    before, it changes the draws of the chain and nothing else, and weights that were
    drawn before it are kept.  So a call that fails in some iteration leaves the phase of
    a call under way and what the iterations before that one have left, which are those
    that can be made one by one without the call, and then other draws.  The same holds
    where components stand in memory and are written to in place: if the factory hands out
    new ones, then those of the live mixture and of the samples are as they were.  The
    factory of a family does, and with it iterations and calls in place are iterations and
    calls, seen with the components themselves. -/
theorem failed_iteration_is_atomic (f : Family ω O M α) (g : Generator ω α)
    (c : Chain ω O M α) :
    (∀ e c', (iterate f g).runOn c = (.error e, c') →
      c'.samples = c.samples ∧ c'.iteration = c.iteration ∧ c'.phase = c.phase ∧
        c'.state.mixture = c.state.mixture ∧
        c' = c.withDraws c'.state.draws ∧ c.state.draws.Keeps c'.state.draws) ∧
    (∀ n e c', (cluster f g n).runOn c = (.error e, c') →
      n.getD c.plan.iterations < 0 ∧ c' = c ∨
        ∃ i < (n.getD c.plan.iterations).toNat, ∃ c₁ c₂,
          (iterateTimes f g i).runOn (c.begin (n.getD c.plan.iterations).toNat) = (.ok (), c₁) ∧
          (iterateTimes f g i).runOn c = (.ok (), c₂) ∧ c₁.Alike c₂ ∧
          (iterate f g).runOn c₁ = (.error e, c') ∧ c' = c₁.withDraws c'.state.draws ∧
          c₁.state.draws.Keeps c'.state.draws ∧ c'.phase = .iterating) ∧
    (∀ F : Factory ω O M α, F.MakesNew → ∀ c : Chain (Memory ω M) O Nat α,
      (∀ e c', (iterateInPlace F g).runOn c = (.error e, c') → Redrawn c c') ∧
      (∀ n e c', (clusterInPlace F g n).runOn c = (.error e, c') →
        n.getD c.plan.iterations < 0 ∧ c' = c ∨
          ∃ i < (n.getD c.plan.iterations).toNat, ∃ c₁,
            ((iterateInPlace F g).times i).runOn (c.begin (n.getD c.plan.iterations).toNat) =
              (.ok (), c₁) ∧
            (iterateInPlace F g).runOn c₁ = (.error e, c') ∧ Redrawn c₁ c' ∧
            c.memory.Spares c₁.memory ∧ c'.phase = .iterating) ∧
      (c.Placed → ((iterateInPlace F g).runOn c).2.Placed)) ∧
    f.inMemory.MakesNew ∧ ∀ c : Chain (Memory ω M) O Nat α, c.Placed →
      (iterate f g).runOn c.view = ((iterateInPlace f.inMemory g).runOn c).map id view ∧
      ∀ n, (cluster f g n).runOn c.view =
        (((clusterInPlace f.inMemory g n).runOn c).1.map
            (List.map (List.map ((clusterInPlace f.inMemory g n).runOn c).2.memory.cell)),
          ((clusterInPlace f.inMemory g n).runOn c).2.view) := by
  refine ⟨?_, ?_, ?_, f.inMemory_makesNew, fun c hc =>
    ⟨iterate_view f g hc, fun n => cluster_view f g n hc⟩⟩
  · intro e c' h
    obtain ⟨d, rfl, hd⟩ := exists_withDraws_of_error h
    exact ⟨rfl, rfl, rfl, rfl, rfl, hd⟩
  · intro n e c' h
    refine (exists_completed_of_error h).imp_right ?_
    rintro ⟨i, hi, c₁, hrun, hlast⟩
    obtain ⟨u, c₂, hrun', -, halike⟩ := (iterateTimes_matches_alike f g i).ok (begin_alike _ c) hrun
    obtain ⟨d, rfl, hd⟩ := exists_withDraws_of_error hlast
    have hphase := iterateTimes_phase (f := f) (g := g) i
      (c.begin (n.getD c.plan.iterations).toNat)
    rw [iterateTimes, hrun] at hphase
    exact ⟨i, hi, c₁, c₂, hrun, hrun', halike, hlast, rfl, hd, hphase⟩
  · intro F hF c
    refine ⟨fun e c' => redrawn_of_error hF, ?_, iterateInPlace_placed hF⟩
    intro n e c' h
    refine (exists_completed_of_error h).imp_right ?_
    rintro ⟨i, hi, c₁, hrun, hlast⟩
    have hredrawn : Redrawn c₁ c' := redrawn_of_error hF hlast
    have hspares := timesInPlace_spares hF g i (c.begin (n.getD c.plan.iterations).toNat)
    have hphase := timesInPlace_phase F g i (c.begin (n.getD c.plan.iterations).toNat)
    rw [hrun] at hspares hphase
    exact ⟨i, hi, c₁, hrun, hlast, hredrawn, hspares,
      (congrArg phase hredrawn.eq_withDraws).trans hphase⟩

/-- A chain with a number that has the likelihood zero in both clusters. -/
def stray : Chain (ScriptAndSizes Float) Nat (Tally Nat) Float :=
  ofTallies (Plan.ofPair 0 1 1 Nat.one_pos) [0, 3] (⟨[], 0, 0⟩, [])

/-- The same in place: tallies at the first two places. -/
def strayInPlace : Chain (Memory (ScriptAndSizes Float) (Tally Nat)) Nat Nat Float :=
  ofMixture (Plan.ofPair 0 1 1 Nat.one_pos) [0, 3] (Mixture.ofModels 1 [0, 1])
    ⟨(⟨[], 0, 0⟩, []), Tally.fresh, 2⟩

/-- The iteration that meets it fails after it has drawn the weights, and in place after it
    has written to one of the new tallies.  It is the same iteration. -/
theorem stray_iteration_is_atomic :
    (∃ e c', (iterate (tallies nearby) Script.besideSizes).runOn stray = (.error e, c') ∧
      c'.state.draws.weights.isSome = true ∧ c'.samples = stray.samples ∧
      c'.iteration = stray.iteration ∧ c'.state.mixture = stray.state.mixture) ∧
    ∃ e c', (iterateInPlace (tallies nearby).inMemory Script.besideSizes).runOn strayInPlace =
        (.error e, c') ∧
      c'.state.draws.weights.isSome = true ∧ (c'.memory.cell 2).observed = [0] ∧
      Redrawn strayInPlace c' ∧ strayInPlace.view = stray ∧
      (iterate (tallies nearby) Script.besideSizes).runOn stray = (.error e, c'.view) := by
  obtain ⟨hatomic, -, hinPlace, hmakesNew, hview⟩ :=
    failed_iteration_is_atomic (tallies nearby) Script.besideSizes stray
  constructor
  · have hfails : ((iterate (tallies nearby) Script.besideSizes).runOn stray).1.isOk = false := by
      decide +kernel
    have hdrawn : ((iterate (tallies nearby) Script.besideSizes).runOn
        stray).2.state.draws.weights.isSome = true := by decide +kernel
    rcases hr : (iterate (tallies nearby) Script.besideSizes).runOn stray with ⟨e | u, c'⟩ <;>
      rw [hr] at hfails hdrawn
    · obtain ⟨hsamples, hiteration, -, hmixture, -, -⟩ := hatomic e c' hr
      exact ⟨e, c', rfl, hdrawn, hsamples, hiteration, hmixture⟩
    · cases hfails
  · have hfails : ((iterateInPlace (tallies nearby).inMemory Script.besideSizes).runOn
        strayInPlace).1.isOk = false := by decide +kernel
    have hdrawn : ((iterateInPlace (tallies nearby).inMemory Script.besideSizes).runOn
        strayInPlace).2.state.draws.weights.isSome = true := by decide +kernel
    have hwritten : (((iterateInPlace (tallies nearby).inMemory Script.besideSizes).runOn
        strayInPlace).2.memory.cell 2).observed = [0] := by decide +kernel
    rcases hr : (iterateInPlace (tallies nearby).inMemory Script.besideSizes).runOn strayInPlace
      with ⟨e | u, c'⟩ <;> rw [hr] at hfails hdrawn hwritten
    · obtain ⟨hiterations, -⟩ := hinPlace (tallies nearby).inMemory hmakesNew strayInPlace
      have hplaced : strayInPlace.Placed := ⟨by decide, nofun⟩
      have hsame : strayInPlace.view = stray := rfl
      obtain ⟨hiterate, -⟩ := hview strayInPlace hplaced
      rw [hr, hsame] at hiterate
      exact ⟨e, c', rfl, hdrawn, hwritten, hiterations e c' hr, hsame, hiterate⟩
    · cases hfails

end Chain

end DirichletMixture
