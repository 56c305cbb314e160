/-
  DirichletMixture: the states that a chain can be in.

  A chain is reached by iterations, readings, and the beginnings and ends of calls, in any
  order; iterations may have failed.  So the states between the iterations of a call are
  among those that are reached.

  * `Chain.Reachable` says that a chain is reached from another one;
  * `reachable_after`: requests lead to such chains;
  * `Reachable.leads` and `Reachable.sound`: reaching a chain is a run, and on the way
    weights are drawn only for the mixture that is live;
  * `Reachable.of_start` and `Reachable.forall_models`: what stays from the start on.
-/
import DirichletMixture.Proofs.Chain.Conservation

namespace DirichletMixture

variable {ω O M α : Type} [Scalar α]

namespace Chain

/-- The chain `c₀` can get into the state of the chain `c`. -/
inductive Reachable (f : Family ω O M α) (g : Generator ω α) (c₀ : Chain ω O M α) :
    Chain ω O M α → Prop where
  | start : Reachable f g c₀ c₀
  | iterate {c : Chain ω O M α} :
    Reachable f g c₀ c → Reachable f g c₀ ((Chain.iterate f g).runOn c).2
  | begin {c : Chain ω O M α} (n : Nat) : Reachable f g c₀ c → Reachable f g c₀ (c.begin n)
  | finish {c : Chain ω O M α} : Reachable f g c₀ c → Reachable f g c₀ c.finish
  | read {c : Chain ω O M α} (r : Reading O) :
    Reachable f g c₀ c → Reachable f g c₀ (((Request.read r).perform f g).runOn c).2

namespace Reachable

variable {f : Family ω O M α} {g : Generator ω α} {c₀ c : Chain ω O M α}

theorem iterateTimes (h : Reachable f g c₀ c) (n : Nat) :
    Reachable f g c₀ ((Chain.iterateTimes f g n).runOn c).2 := by
  induction n generalizing c with
  | zero => exact h
  | succ n ih =>
    have hnext := h.iterate
    rw [iterateTimes_succ]
    rcases hr : (Chain.iterate f g).runOn c with ⟨e | u, c'⟩ <;> rw [hr] at hnext
    · rw [Attempt.runOn_bind_error hr]
      exact hnext
    · rw [Attempt.runOn_bind_ok hr]
      exact ih hnext

theorem cluster (h : Reachable f g c₀ c) (n : Option Int) :
    Reachable f g c₀ ((Chain.cluster f g n).runOn c).2 := by
  rcases Int.lt_trichotomy (n.getD c.plan.iterations) 0 with hn | hn | hn
  · rw [runOn_cluster_of_neg hn]
    exact h
  · rw [runOn_cluster_of_zero hn]
    exact h
  · have hrun := (h.begin (n.getD c.plan.iterations).toNat).iterateTimes
      (n.getD c.plan.iterations).toNat
    rw [runOn_cluster_of_pos hn]
    rcases hr : (Chain.iterateTimes f g (n.getD c.plan.iterations).toNat).runOn
      (c.begin (n.getD c.plan.iterations).toNat) with ⟨e | u, c'⟩ <;> rw [hr] at hrun
    · exact hrun
    · exact hrun.finish

theorem perform (h : Reachable f g c₀ c) (r : Request O) :
    Reachable f g c₀ ((r.perform f g).runOn c).2 := by
  cases r with
  | iterate => exact h.iterate
  | cluster n => exact h.cluster n
  | read r => exact h.read r

theorem after (h : Reachable f g c₀ c) (rs : List (Request O)) :
    Reachable f g c₀ (Chain.after f g rs c) := by
  induction rs generalizing c with
  | nil => exact h
  | cons r rs ih => exact ih (h.perform r)

end Reachable

/-- **Requests lead to chains that are reachable.** -/
theorem reachable_after (f : Family ω O M α) (g : Generator ω α) (rs : List (Request O))
    (c₀ : Chain ω O M α) : Reachable f g c₀ (after f g rs c₀) :=
  Reachable.start.after rs

namespace Reachable

variable {f : Family ω O M α} {g : Generator ω α} {c₀ c : Chain ω O M α}

/-- Reaching a chain is a run. -/
theorem leads (h : Reachable f g c₀ c) : ∃ ps, Leads f g c₀ ps c := by
  induction h with
  | start => exact ⟨[], .nil⟩
  | @iterate c _ ih =>
    obtain ⟨ps, hps⟩ := ih
    exact ⟨_, hps.perform .iterate⟩
  | begin n _ ih =>
    obtain ⟨ps, hps⟩ := ih
    exact ⟨ps, hps.idle (begin_sameRecord n _)⟩
  | finish _ ih =>
    obtain ⟨ps, hps⟩ := ih
    exact ⟨ps, hps.idle (finish_sameRecord _)⟩
  | read r _ ih =>
    obtain ⟨ps, hps⟩ := ih
    exact ⟨_, hps.perform (.read r)⟩

/-- **The weights of a reachable chain were drawn for its mixture.** -/
theorem sound (h : Reachable f g c₀ c) (h₀ : c₀.state.Sound g) : c.state.Sound g := by
  induction h with
  | start => exact h₀
  | @iterate c _ ih =>
    rcases hr : (Chain.iterate f g).runOn c with ⟨e | u, c'⟩
    · obtain ⟨d, hsweep, rfl⟩ := iterate_eq_error.1 hr
      have hfills := sweep_fills f g c.state.mixture c.iteration c.data c.state.draws
      rw [hsweep] at hfills
      exact ih.of_fills hfills
    · obtain ⟨⟨d, hc'⟩, fresh, s, z, -, hlen, hrouted⟩ := exists_routed_of_iterate hr
      show c'.state.Sound g
      rw [hc']
      exact State.sound_replace (hrouted.length.trans hlen)
  | begin n _ ih => exact ih
  | finish _ ih => exact ih
  | @read c r _ ih =>
    exact ih.of_fills (r.perform_fills f.toComponent g c.state.mixture c.state.draws)

end Reachable

theorem start_sound {f : Family ω O M α} {plan : Plan α} {data : List O} {s s' : ω}
    {c₀ : Chain ω O M α} (g : Generator ω α) (h : start f plan data s = (.ok c₀, s')) :
    c₀.state.Sound g := by
  obtain ⟨ms, -, -, rfl⟩ := start_eq_ok.1 h
  exact State.sound_ofMixture g plan.alpha0 ms s'

section
variable {f : Family ω O M α} {g : Generator ω α} {plan : Plan α} {data : List O} {s s' : ω}
  {c₀ c : Chain ω O M α} (h : Chain.start f plan data s = (.ok c₀, s'))
include h

/-- What a chain is started with stays. -/
theorem Reachable.of_start (hc : Reachable f g c₀ c) :
    c.data = data ∧ c.state.mixture.size = plan.clusters ∧
      c.state.mixture.alpha0 = plan.alpha0 ∧ c.state.Sound g := by
  obtain ⟨ps, hrun⟩ := hc.leads
  obtain ⟨-, hdata, -, -⟩ := start_blank h
  obtain ⟨hsize, -, -⟩ := start_mixture h
  obtain ⟨halpha0, -⟩ := start_occupancy h
  exact ⟨hrun.data.trans hdata, hrun.size.trans hsize, hrun.alpha0.trans halpha0,
    hc.sound (start_sound g h)⟩

/-- Live components keep to what the family maintains. -/
theorem Reachable.forall_models {Q : M → Prop} (hf : f.Maintains Q)
    (hc : Reachable f g c₀ c) : ∀ m ∈ c.state.mixture.models, Q m := by
  obtain ⟨ps, hrun⟩ := hc.leads
  exact hrun.forall_models hf (hf.prior _ _ _ _ (fromPrior_of_start h))

end

end Chain

end DirichletMixture
