/-
  DirichletMixture: a run may be split anywhere.

  Calls act on a chain as the numbers of iterations that they ask for: two calls in a
  row do what one call for the sum does.  Only the reports tell them apart.

  * `Chain.Agree` says that two operations ended alike, and `Chain.Closes` that a call
    ended as its iterations did;
  * `cluster_closes`: every call ends as its iterations do when they are made one by
    one from a chain that is alike;
  * `splitting_changes_nothing`: a call that is split in two ends as the whole does, and
    fails, if it does, in the part that the failing iteration falls into.
-/
import DirichletMixture.Proofs.Chain.Likeness
import DirichletMixture.Proofs.Chain.Tallies

namespace DirichletMixture

namespace Chain

variable {ω O M α β : Type} [Scalar α]

/-- Two operations ended alike: with the same value or the same fault, and with chains
    that differ at most in their reports. -/
structure Agree (r r' : Except (Fault α) β × Chain ω O M α) : Prop where
  outcome : r.1 = r'.1
  chain : r.2.Alike r'.2
  phase : r.2.phase = r'.2.phase

/-- The phase in which iterations leave the call that asked for them. -/
def phaseAfter : Except (Fault α) Unit → Phase
  | .ok _ => .done
  | .error _ => .iterating

/-- A call ended as its iterations did: it returns their samples or their fault, and
    leaves their chain in the phase that goes with it. -/
structure Closes (r : Except (Fault α) (List (List M)) × Chain ω O M α)
    (r' : Except (Fault α) Unit × Chain ω O M α) : Prop where
  outcome : r.1 = r'.1.map fun _ => r'.2.samples
  chain : r.2.Alike r'.2
  phase : r.2.phase = phaseAfter r'.1

theorem Closes.agree {r r' : Except (Fault α) (List (List M)) × Chain ω O M α}
    {s : Except (Fault α) Unit × Chain ω O M α} (h : Closes r s) (h' : Closes r' s) :
    Agree r r' where
  outcome := h.outcome.trans h'.outcome.symm
  chain := h.chain.trans h'.chain.symm
  phase := h.phase.trans h'.phase.symm

section
variable (f : Family ω O M α) (g : Generator ω α) {c c' : Chain ω O M α} {a b : Nat}

theorem runOn_cluster_natCast_zero (c : Chain ω O M α) :
    (cluster f g (some (0 : Nat))).runOn c = (.ok c.samples, c) :=
  runOn_cluster_of_zero rfl

/-- **A call ends as its iterations do**, made one by one from a chain that is alike. -/
theorem cluster_closes (ha : 0 < a) (hc : c.Alike c') :
    Closes ((cluster f g (some a)).runOn c) ((iterateTimes f g a).runOn c') := by
  have hbegin : (c.begin a).Alike c' := (begin_alike a c).trans hc
  have hphase := iterateTimes_phase (f := f) (g := g) a (c.begin a)
  rw [runOn_cluster_of_pos (n := some a) (Int.natCast_pos.2 ha)]
  simp only [Option.getD_some, Int.toNat_natCast]
  rcases hrun : (iterateTimes f g a).runOn (c.begin a) with ⟨e | u, c₁⟩
  · obtain ⟨c₂, h₂, hc₂⟩ := (iterateTimes_matches_alike f g a).error hbegin hrun
    rw [hrun] at hphase
    rw [h₂]
    exact ⟨rfl, hc₂, hphase⟩
  · obtain ⟨u', c₂, h₂, -, hc₂⟩ := (iterateTimes_matches_alike f g a).ok hbegin hrun
    rw [h₂]
    refine ⟨?_, (finish_alike c₁).trans hc₂, rfl⟩
    simp only [Except.map, hc₂.samples]

/-- Two calls in a row end as the iterations of both do. -/
theorem cluster_bind_closes (ha : 0 < a) (hb : 0 < b) (c : Chain ω O M α) :
    Closes ((do let _ ← cluster f g (some a); cluster f g (some b)).runOn c)
      ((iterateTimes f g (a + b)).runOn c) := by
  have hfirst := cluster_closes f g ha (.refl c)
  rw [iterateTimes_add]
  rcases hcall : (cluster f g (some a)).runOn c with ⟨e | h, c₁⟩ <;>
    rcases hrun : (iterateTimes f g a).runOn c with ⟨e' | u, c₂⟩ <;>
    rw [hcall, hrun] at hfirst
  · rw [Attempt.runOn_bind_error hcall, Attempt.runOn_bind_error hrun]
    obtain ⟨hout, hchain, hphase⟩ := hfirst
    exact ⟨by cases hout; rfl, hchain, hphase⟩
  · cases hfirst.outcome
  · cases hfirst.outcome
  · rw [Attempt.runOn_bind_ok hcall, Attempt.runOn_bind_ok hrun]
    exact cluster_closes f g hb hfirst.chain

/-- A call returns the samples of the chain that it leaves behind. -/
theorem cluster_samples {h : List (List M)} (ha : 0 < a)
    (hcall : (cluster f g (some a)).runOn c = (.ok h, c')) : h = c'.samples := by
  have hclose := cluster_closes f g ha (.refl c)
  rcases hrun : (iterateTimes f g a).runOn c with ⟨e | u, c₂⟩ <;>
    rw [hcall, hrun] at hclose
  · cases hclose.outcome
  · exact (Except.ok.inj hclose.outcome).trans hclose.chain.samples.symm

/-- A call that ends well moves the counter on by its iterations. -/
theorem cluster_iteration {h : List (List M)}
    (hcall : (cluster f g (some a)).runOn c = (.ok h, c')) : c'.iteration = c.iteration + a := by
  rcases Nat.eq_zero_or_pos a with rfl | ha
  · rw [runOn_cluster_natCast_zero] at hcall
    obtain ⟨-, rfl⟩ := Prod.mk.inj hcall
    rfl
  have hclose := cluster_closes f g ha (.refl c)
  rcases hrun : (iterateTimes f g a).runOn c with ⟨e | u, c₂⟩ <;>
    rw [hcall, hrun] at hclose
  · cases hclose.outcome
  · exact hclose.chain.iteration.trans (iterateTimes_iteration hrun)

/-- A call that fails stops the counter at one of its iterations. -/
theorem cluster_iteration_of_error {e : Fault α}
    (hcall : (cluster f g (some a)).runOn c = (.error e, c')) :
    c.iteration ≤ c'.iteration ∧ c'.iteration < c.iteration + a := by
  rcases Nat.eq_zero_or_pos a with rfl | ha
  · rw [runOn_cluster_natCast_zero] at hcall; cases hcall
  have hclose := cluster_closes f g ha (.refl c)
  rcases hrun : (iterateTimes f g a).runOn c with ⟨e' | u, c₂⟩ <;>
    rw [hcall, hrun] at hclose
  · have hc₂ := iterateTimes_iteration_of_error hrun
    rwa [← hclose.chain.iteration] at hc₂
  · cases hclose.outcome

/-- Two calls in a row end as one call for the iterations of both. -/
theorem cluster_bind_agree (c : Chain ω O M α) (a b : Nat) :
    Agree ((do let _ ← cluster f g (some a); cluster f g (some b)).runOn c)
      ((cluster f g (some (a + b : Nat))).runOn c) := by
  -- a call for no iterations returns at once and leaves the phase alone
  rcases Nat.eq_zero_or_pos a with rfl | ha
  · rw [Nat.zero_add, Attempt.runOn_bind_ok (runOn_cluster_natCast_zero f g c)]
    exact ⟨rfl, .refl _, rfl⟩
  rcases Nat.eq_zero_or_pos b with rfl | hb
  · rw [Nat.add_zero]
    rcases hcall : (cluster f g (some a)).runOn c with ⟨e | h, c₁⟩
    · rw [Attempt.runOn_bind_error hcall]
      exact ⟨rfl, .refl _, rfl⟩
    · rw [Attempt.runOn_bind_ok hcall, runOn_cluster_natCast_zero, cluster_samples f g ha hcall]
      exact ⟨rfl, .refl _, rfl⟩
  · exact (cluster_bind_closes f g ha hb c).agree
      (cluster_closes f g (Nat.add_pos_left ha b) (.refl c))

/-- Where a call for the iterations of two fails, so does one of the two: the first if
    the failing iteration is among its own, and else the second. -/
theorem cluster_error_of_add {e : Fault α}
    (h : (cluster f g (some (a + b : Nat))).runOn c = (.error e, c')) :
    c'.iteration < c.iteration + a ∧ ((cluster f g (some a)).runOn c).1 = .error e ∨
      c.iteration + a ≤ c'.iteration ∧ ∃ h c₁, (cluster f g (some a)).runOn c = (.ok h, c₁) ∧
        ((cluster f g (some b)).runOn c₁).1 = .error e := by
  have hsplit := cluster_bind_agree f g c a b
  rw [h] at hsplit
  rcases hcall : (cluster f g (some a)).runOn c with ⟨e' | h₁, c₁⟩
  · rw [Attempt.runOn_bind_error hcall] at hsplit
    have hc₁ := cluster_iteration_of_error f g hcall
    have hc' : c₁.iteration = c'.iteration := hsplit.chain.iteration
    exact Or.inl ⟨by omega, hsplit.outcome⟩
  · rw [Attempt.runOn_bind_ok hcall] at hsplit
    rcases hrest : (cluster f g (some b)).runOn c₁ with ⟨e' | h₂, c₂⟩ <;> rw [hrest] at hsplit
    · have hc₁ := cluster_iteration f g hcall
      have hc₂ := cluster_iteration_of_error f g hrest
      have hc' : c₂.iteration = c'.iteration := hsplit.chain.iteration
      refine Or.inr ⟨by omega, h₁, c₁, rfl, ?_⟩
      rw [hrest]; exact hsplit.outcome
    · cases hsplit.outcome

/-- **Splitting a run changes nothing.**  Two calls in a row end as one call for all of
    their iterations does.  If that one fails, the same fault ends the part that the
    failing iteration falls into, and the counter of the chain left behind says which.
    Iterations made one by one end as the call for them does, but for the phase. -/
theorem splitting_changes_nothing (c : Chain ω O M α) (a b : Nat) :
    Agree ((do let _ ← cluster f g (some a); cluster f g (some b)).runOn c)
      ((cluster f g (some (a + b : Nat))).runOn c) ∧
    (∀ e c', (cluster f g (some (a + b : Nat))).runOn c = (.error e, c') →
      c'.iteration < c.iteration + a ∧ ((cluster f g (some a)).runOn c).1 = .error e ∨
        c.iteration + a ≤ c'.iteration ∧ ∃ h c₁, (cluster f g (some a)).runOn c = (.ok h, c₁) ∧
          ((cluster f g (some b)).runOn c₁).1 = .error e) ∧
    ((iterateTimes f g a).runOn c).1 = ((cluster f g (some a)).runOn c).1.map (fun _ => ()) ∧
    ((iterateTimes f g a).runOn c).2.Alike ((cluster f g (some a)).runOn c).2 := by
  refine ⟨cluster_bind_agree f g c a b, ?_, ?_⟩
  · intro e c' h
    exact cluster_error_of_add f g h
  rcases Nat.eq_zero_or_pos a with rfl | ha
  · exact ⟨rfl, .refl c⟩
  have hclose := cluster_closes f g ha (.refl c)
  refine ⟨?_, hclose.chain.symm⟩
  rw [hclose.outcome]
  rcases ((iterateTimes f g a).runOn c).1 with e | u <;> rfl

end

/-- A call for three iterations fails in the second, and so does a call for two of them
    after a call for one. -/
theorem faltering_run_splits :
    ∃ e c' h c₁,
      (cluster (tallies nearby) Script.besideSizes (some (1 + 2 : Nat))).runOn faltering =
        (.error e, c') ∧ c'.iteration = 1 ∧
      (cluster (tallies nearby) Script.besideSizes (some (1 : Nat))).runOn faltering =
        (.ok h, c₁) ∧
      ((cluster (tallies nearby) Script.besideSizes (some (2 : Nat))).runOn c₁).1 = .error e := by
  have hfails : ((cluster (tallies nearby) Script.besideSizes (some (1 + 2 : Nat))).runOn
      faltering).1.isOk = false := by decide +kernel
  have hstops : ((cluster (tallies nearby) Script.besideSizes (some (1 + 2 : Nat))).runOn
      faltering).2.iteration = 1 := by decide +kernel
  rcases hr : (cluster (tallies nearby) Script.besideSizes (some (1 + 2 : Nat))).runOn
    faltering with ⟨e | h, c'⟩ <;> rw [hr] at hfails hstops
  · obtain ⟨-, hsplit, -⟩ :=
      splitting_changes_nothing (tallies nearby) Script.besideSizes faltering 1 2
    rcases hsplit e c' hr with ⟨hbefore, -⟩ | ⟨-, h, c₁, hfirst, hsecond⟩
    · rw [hstops] at hbefore
      exact absurd hbefore (by decide +kernel)
    · exact ⟨e, c', h, c₁, rfl, hstops, hfirst, hsecond⟩
  · cases hfails

end Chain

end DirichletMixture
