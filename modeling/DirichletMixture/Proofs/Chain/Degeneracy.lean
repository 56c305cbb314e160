/-
  DirichletMixture: likelihoods decide where an iteration degenerates.

  An observation is hopeless for known weights if all its scores are zero.  In exact
  arithmetic, with likelihoods and weights that are not negative, no destination can be
  drawn for a hopeless observation, and one can be drawn for every other.  Neither weights
  nor scores change while observations are routed, so the first hopeless observation is
  where the iteration fails, whatever has become of those before it.

  * `Mixture.Hopeless` says that an observation is hopeless, `normalized_of_hopeless` what
    its scores come to, and `drawable_of_not_hopeless` that all others can be drawn for;
  * `Chain.iterate_of_hopeless` and `Chain.exists_iterate`: how an iteration ends;
  * `degeneracies_are_decided_by_likelihoods`: this is so for every chain that is reached.
-/
import DirichletMixture.Proofs.Exact.Basic
import DirichletMixture.Proofs.Chain.Conservation
import DirichletMixture.Proofs.Chain.Reachable
import DirichletMixture.Proofs.Chain.Stopping
import DirichletMixture.Proofs.Generator.Seeded
import DirichletMixture.Proofs.Weights.Stick
import DirichletMixture.Proofs.Weights.Support

namespace DirichletMixture

variable {ω O M K : Type}

/-- If some entry has a property, there is a first one. -/
theorem exists_first {P : O → Prop} {xs : List O} (h : ∃ x ∈ xs, P x) :
    ∃ (j : Nat) (x : O), xs[j]? = some x ∧ P x ∧ ∀ y ∈ xs.take j, ¬ P y := by
  induction xs with
  | nil => simp at h
  | cons x xs ih =>
    by_cases hx : P x
    · exact ⟨0, x, rfl, hx, by simp⟩
    · obtain ⟨y, hy, hP⟩ := h
      have hy' : y ∈ xs := (List.mem_cons.1 hy).resolve_left (by rintro rfl; exact hx hP)
      obtain ⟨j, z, hz, hPz, hbefore⟩ := ih ⟨y, hy', hP⟩
      refine ⟨j + 1, z, hz, hPz, ?_⟩
      rw [List.take_succ_cons]
      exact List.forall_mem_cons.2 ⟨hx, hbefore⟩

/-! ## Texts -/

theorem Site.write_of_known (i j : Nat) :
    (⟨some (i : Int), some (j : Int)⟩ : Site).write =
      " (iteration=" ++ toString i ++ ", observation=" ++ toString j ++ ")" := by
  have hfirst : " (iteration=" = " (" ++ "iteration=" := rfl
  have hsecond : ", observation=" = ", " ++ "observation=" := rfl
  show " (" ++ (("iteration=" ++ toString i) ++ ", " ++ ("observation=" ++ toString j)) ++ ")" = _
  rw [hfirst, hsecond]
  simp only [String.append_assoc]

/-- Without a place, the text of a degeneracy is that of its cause. -/
theorem Fault.message?_of_unknown [Written K] (cause : Degeneracy K) :
    (Fault.degenerate cause .unknown).message? = some cause.message :=
  congrArg some String.append_empty

/-- The place of an observation comes after the text of the cause. -/
theorem Fault.message?_of_known [Written K] (cause : Degeneracy K) (i j : Nat) :
    (Fault.degenerate cause ⟨some (i : Int), some (j : Int)⟩).message? =
      some (cause.message ++ " (iteration=" ++ toString i ++ ", observation=" ++ toString j ++
        ")") := by
  rw [Fault.message?, Site.write_of_known]
  simp only [String.append_assoc]

/-! ## Hopeless observations -/

variable [Exact K]

namespace Mixture

/-- All scores of the point are zero. -/
def Hopeless (c : Component O M K) (m : Mixture M K) (w : List K) (x : O) : Prop :=
  ∃ ps, m.scoresFor c w x = .ok ps ∧ ∀ p ∈ ps, p = 0

variable {c : Component O M K} {g : Generator ω K} {m : Mixture M K} {w : List K} {x : O}

theorem normalized_of_hopeless (hx : m.Hopeless c w x) :
    (m.scoresFor c w x).bind normalizeByMax =
      .error (.degenerate (.badMaximum 0) .unknown) := by
  obtain ⟨ps, hps, hzero⟩ := hx
  rw [hps]
  exact normalizeByMax_of_zero hzero

/-- **A destination can be drawn for a point that is not hopeless.** -/
theorem drawable_of_not_hopeless (hw : ∀ weight ∈ w, 0 ≤ weight)
    (hdensity : ∀ model ∈ m.models, ∃ q, c.density model x = .ok q ∧ 0 ≤ q)
    (hx : ¬ m.Hopeless c w x) : m.Drawable c w x := by
  obtain ⟨ps, hps⟩ := exists_scoresFor w fun model hmodel =>
    (hdensity model hmodel).imp fun q hq => hq.1
  have hnonneg : ∀ p ∈ ps, 0 ≤ p := by
    intro p hp
    obtain ⟨k, hk⟩ := List.getElem?_of_mem hp
    obtain ⟨weight, model, q, hweight, hmodel, hq, rfl⟩ := exists_mul_of_scoresFor hps hk
    obtain ⟨q', hq', hpos⟩ := hdensity model (List.mem_of_getElem? hmodel)
    obtain rfl : q = q' := Except.ok.inj (hq.symm.trans hq')
    exact mul_nonneg (hw weight (List.mem_of_getElem? hweight)) hpos
  have hpos : ∃ p ∈ ps, p ≠ 0 := by
    by_contra hnone
    push Not at hnone
    exact hx ⟨ps, hps, hnone⟩
  obtain ⟨p, total, hp, htotal⟩ := exists_normalizeByMax hnonneg hpos
  exact ⟨p, total, by rw [hps]; exact hp, htotal⟩

/-- No destination can be drawn for a point that is hopeless. -/
theorem assign_of_hopeless {d : Draws ω K} (hw : ((m.weights g).runOn d).1 = .ok w)
    (hx : m.Hopeless c w x) (site : Site) :
    ∃ d', (m.assign c g x site).runOn d = (.error (.degenerate (.badMaximum 0) site), d') :=
  ⟨_, assign_eq_error.2 ⟨_, rfl, Or.inr ⟨w, _, Prod.ext hw rfl,
    Or.inl ⟨normalized_of_hopeless hx, rfl⟩⟩⟩⟩

theorem weights_withUniform (g : Generator ω K) (u : StateM ω K) (m : Mixture M K) :
    m.weights (g.withUniform u) = m.weights g := by
  unfold weights
  rw [breakStick_withUniform]

end Mixture

/-! ## Iterations -/

namespace Chain

variable {f : Family ω O M K} {g : Generator ω K} {c : Chain ω O M K} {w : List K}

/-- The weights of an iteration do not depend on its uniform draws. -/
theorem HasWeights.withUniform (h : HasWeights f g c w) (u : StateM ω K) :
    HasWeights f (g.withUniform u) c w := by
  obtain ⟨fresh, d, d', hrenew, hweights⟩ := h
  exact ⟨fresh, d, d', hrenew, by rw [Mixture.weights_withUniform]; exact hweights⟩

/-- There is a weight for each cluster, and none is negative. -/
theorem HasWeights.nonneg (h : HasWeights f g c w) (hc : c.state.Sound g) (hs : g.UnitShares) :
    w.length = c.state.mixture.size ∧ ∀ weight ∈ w, 0 ≤ weight := by
  obtain ⟨hlen, t, t', hdraw⟩ := h.exists_drawWeights hc
  exact ⟨hlen, nonneg_of_breakStick hs hdraw⟩

section
variable {Q : M → Prop} (hf : f.Receptive Q) (hQ : ∀ m ∈ c.state.mixture.models, Q m)
  (hpos : ∀ weight ∈ w, 0 ≤ weight)
  (hdensity : ∀ x ∈ c.data, ∀ m ∈ c.state.mixture.models, ∃ q, f.density m x = .ok q ∧ 0 ≤ q)
  (hw : HasWeights f g c w)
include hf hQ hpos hdensity hw

/-- **An iteration fails at the first hopeless observation.** -/
theorem iterate_of_hopeless {j : Nat} {x : O} (hx : c.data[j]? = some x)
    (hhopeless : c.state.mixture.Hopeless f.toComponent w x)
    (hbefore : ∀ y ∈ c.data.take j, ¬ c.state.mixture.Hopeless f.toComponent w y) :
    ∃ c', (iterate f g).runOn c =
      (.error (.degenerate (.badMaximum 0) ⟨some c.iteration, some j⟩), c') := by
  obtain ⟨ms, d, hcomes⟩ := exists_comesTo hf hQ hw hx fun y hy =>
    Mixture.drawable_of_not_hopeless hpos (hdensity y (List.mem_of_mem_take hy)) (hbefore y hy)
  obtain ⟨d', hassign⟩ := Mixture.assign_of_hopeless (hcomes.hasWeights_iff.1 hw) hhopeless
    ⟨some c.iteration, some j⟩
  exact ⟨_, iterate_eq_error_of_stopsAt (stopsAt_iff.2 ⟨x, ms, d, hcomes, hassign⟩)⟩

/-- **An iteration without hopeless observations ends well.** -/
theorem iterate_of_not_hopeless
    (hnone : ∀ x ∈ c.data, ¬ c.state.mixture.Hopeless f.toComponent w x) :
    ∃ c', (iterate f g).runOn c = (.ok (), c') :=
  exists_iterate hf hQ hw fun x hx =>
    Mixture.drawable_of_not_hopeless hpos (hdensity x hx) (hnone x hx)

end

/-- **Likelihoods decide where an iteration degenerates.**  In exact arithmetic, let beta
    draws lie between zero and one, and let components take what they can score; tallies and
    normal components do.  Consider any chain that is reached from a start, the weights of
    its next iteration, and likelihoods of the data under its live components that are
    defined and not negative.  The iteration degenerates exactly if some observation is
    hopeless.  Then it fails at the first of them: what makes its scores unusable is
    reported with the iteration and the position of the observation, once, after the text
    that it has by itself.  If no observation is hopeless, the iteration ends well.  All
    this stays so if other uniform draws are made. -/
theorem degeneracies_are_decided_by_likelihoods [Written K] {Q : M → Prop} (hf : f.Receptive Q)
    (hs : g.UnitShares) {plan : Plan K} {data : List O} {s s' : ω} {c₀ : Chain ω O M K}
    (h : start f plan data s = (.ok c₀, s')) (hc : Reachable f g c₀ c)
    (hdensity : ∀ x ∈ data, ∀ m ∈ c.state.mixture.models, ∃ q, f.density m x = .ok q ∧ 0 ≤ q)
    (hw : HasWeights f g c w) :
    w.length = plan.clusters ∧
      ((∃ cause site c', (iterate f g).runOn c = (.error (.degenerate cause site), c')) ↔
        ∃ x ∈ data, c.state.mixture.Hopeless f.toComponent w x) ∧
      (∀ (j : Nat) (x : O), data[j]? = some x →
        c.state.mixture.Hopeless f.toComponent w x →
        (∀ y ∈ data.take j, ¬ c.state.mixture.Hopeless f.toComponent w y) →
          ∃ cause text c',
            (c.state.mixture.scoresFor f.toComponent w x).bind normalizeByMax =
              .error (.degenerate cause .unknown) ∧
            (Fault.degenerate cause .unknown).message? = some text ∧
            (iterate f g).runOn c =
              (.error (.degenerate cause ⟨some c.iteration, some j⟩), c') ∧
            (Fault.degenerate cause ⟨some c.iteration, some j⟩).message? =
              some (text ++ " (iteration=" ++ toString c.iteration ++ ", observation=" ++
                toString j ++ ")")) ∧
      ((∀ x ∈ data, ¬ c.state.mixture.Hopeless f.toComponent w x) →
        ∃ c', (iterate f g).runOn c = (.ok (), c')) ∧
      ∀ u, ((iterate f (g.withUniform u)).runOn c).1 = ((iterate f g).runOn c).1 := by
  obtain ⟨rfl, hsize, -, hsound⟩ := hc.of_start h
  have hQ := hc.forall_models h hf.toMaintains
  obtain ⟨hlen, hpos⟩ := hw.nonneg hsound hs
  refine ⟨hlen.trans hsize, ⟨?_, ?_⟩, ?_, ?_, ?_⟩
  · rintro ⟨cause, site, c', hfails⟩
    by_contra hnone
    push Not at hnone
    obtain ⟨c'', hends⟩ := iterate_of_not_hopeless hf hQ hpos hdensity hw hnone
    rw [hfails] at hends
    cases hends
  · intro hsome
    obtain ⟨j, x, hx, hhopeless, hbefore⟩ := exists_first hsome
    obtain ⟨c', hfails⟩ := iterate_of_hopeless hf hQ hpos hdensity hw hx hhopeless hbefore
    exact ⟨_, _, c', hfails⟩
  · intro j x hx hhopeless hbefore
    obtain ⟨c', hfails⟩ := iterate_of_hopeless hf hQ hpos hdensity hw hx hhopeless hbefore
    exact ⟨.badMaximum 0, _, c', Mixture.normalized_of_hopeless hhopeless,
      Fault.message?_of_unknown _, hfails, Fault.message?_of_known _ _ _⟩
  · exact iterate_of_not_hopeless hf hQ hpos hdensity hw
  · intro u
    by_cases hsome : ∃ x ∈ c.data, c.state.mixture.Hopeless f.toComponent w x
    · obtain ⟨j, x, hx, hhopeless, hbefore⟩ := exists_first hsome
      obtain ⟨c', hfails⟩ := iterate_of_hopeless hf hQ hpos hdensity hw hx hhopeless hbefore
      obtain ⟨c'', hfails'⟩ :=
        iterate_of_hopeless hf hQ hpos hdensity (hw.withUniform u) hx hhopeless hbefore
      rw [hfails, hfails']
    · push Not at hsome
      obtain ⟨c', hends⟩ := iterate_of_not_hopeless hf hQ hpos hdensity hw hsome
      obtain ⟨c'', hends'⟩ :=
        iterate_of_not_hopeless hf hQ hpos hdensity (hw.withUniform u) hsome
      rw [hends, hends']

/-- A chain of two tallies with a number that is impossible for both. -/
def exactStray : Chain UInt64 Nat (Tally Nat) ℚ :=
  ofEvenTallies (Plan.exactPair 0 1 1 Nat.one_pos) [0, 3] 0

/-- After the weights were read, the iteration fails at the number 3, not at the number 0
    before it, and so it does with any other uniform draws. -/
theorem three_stops_the_iteration :
    ∃ w, HasWeights (evenTallies nearby) Script.seeded
        (after (evenTallies nearby) Script.seeded [.read .weights] exactStray) w ∧
      exactStray.state.mixture.Hopeless (evenTallies nearby).toComponent w 3 ∧
      ∃ cause text c',
        (iterate (evenTallies nearby) Script.seeded).runOn
          (after (evenTallies nearby) Script.seeded [.read .weights] exactStray) =
            (.error (.degenerate cause ⟨some (0 : Nat), some (1 : Nat)⟩), c') ∧
        (Fault.degenerate cause .unknown).message? = some text ∧
        (Fault.degenerate cause ⟨some (0 : Nat), some (1 : Nat)⟩).message? =
          some (text ++ " (iteration=" ++ toString 0 ++ ", observation=" ++ toString 1 ++ ")") ∧
        ∀ u, ((iterate (evenTallies nearby) (Script.seeded.withUniform u)).runOn
          (after (evenTallies nearby) Script.seeded [.read .weights] exactStray)).1 =
            .error (.degenerate cause ⟨some (0 : Nat), some (1 : Nat)⟩) := by
  have hdrawn : (after (evenTallies nearby) Script.seeded [.read .weights]
      exactStray).state.draws.weights.map (fun w => (w.length, w.all (0 < ·))) =
      some (2, true) := by
    decide +kernel
  obtain ⟨w, hw, hweights⟩ := Option.map_eq_some_iff.1 hdrawn
  obtain ⟨hlen, hall⟩ := Prod.mk.inj hweights
  obtain ⟨a, b, rfl⟩ := List.length_eq_two.1 hlen
  have hhas : HasWeights (evenTallies nearby) Script.seeded
      (after (evenTallies nearby) Script.seeded [.read .weights] exactStray) [a, b] :=
    ⟨_, _, _, rfl, Mixture.runOn_weights_of_some hw⟩
  have hhopeless : exactStray.state.mixture.Hopeless (evenTallies nearby).toComponent [a, b] 3 :=
    ⟨[a * 0, b * 0], rfl, by simp⟩
  have hzero : ¬ exactStray.state.mixture.Hopeless (evenTallies nearby).toComponent [a, b] 0 := by
    rintro ⟨ps, hps, hnone⟩
    obtain rfl : [a * 1, b * half] = ps := Except.ok.inj hps
    have ha : a * 1 = 0 := hnone _ List.mem_cons_self
    have hpos : 0 < a := by simpa using List.all_eq_true.1 hall a List.mem_cons_self
    rw [mul_one] at ha
    exact hpos.ne' ha
  obtain ⟨-, -, hfirst, -, huniform⟩ := degeneracies_are_decided_by_likelihoods
    ((tabulated_receptive nearby none).focus _ _) Script.unitShares_seeded
    (start_evenTallies nearby (Plan.exactPair 0 1 1 Nat.one_pos) [0, 3] 0)
    (reachable_after (evenTallies nearby) Script.seeded [.read .weights] exactStray)
    (fun x _ m _ => ⟨_, rfl, nearby_nonneg rfl⟩) hhas
  obtain ⟨cause, text, c', -, htext, hfails, hmessage⟩ := hfirst 1 3 rfl hhopeless (by
    intro y hy
    obtain rfl : y = 0 := by simpa using hy
    exact hzero)
  refine ⟨[a, b], hhas, hhopeless, cause, text, c', hfails, htext, hmessage, ?_⟩
  intro u
  exact (huniform u).trans (congrArg Prod.fst hfails)

end Chain

end DirichletMixture
