/-
  DirichletMixture: everything that can be asked of a chain.

  Between its start and now, a chain was asked for iterations and calls, and its
  mixture was read, in any order; some of these failed.

  * `Request` is one of these, `Chain.after` is the chain after a list of them, and
    `Chain.outcomes` says how each of them ended;
  * `Pass` is a completed iteration, and `Chain.passes` lists those that requests
    made, in order;
  * `Chain.Leads` tells a run step by step: a step is a completed iteration or leaves
    the record of what was completed as it was;
  * `leads_after`: every list of requests is such a run.
-/
import DirichletMixture.Proofs.Chain.Iteration
import DirichletMixture.Proofs.Chain.Reading

namespace DirichletMixture

variable {ω O M α β : Type} [Scalar α]

/-! ## Requests -/

/-- What can be asked of a chain. -/
inductive Request (O : Type) where
  | iterate
  /-- A call for some iterations, or as many as the plan says. -/
  | cluster (n : Option Int)
  | read (r : Reading O)

/-- The request done, without the value that it returns. -/
def Request.perform (f : Family ω O M α) (g : Generator ω α) :
    Request O → Attempt (Chain ω O M α) α Unit
  | .iterate => Chain.iterate f g
  | .cluster n => (Chain.cluster f g n).ignore
  | .read r => Chain.onState (State.read (r.perform f.toComponent g))

namespace Chain

variable (f : Family ω O M α) (g : Generator ω α)

/-- The chain after some requests. -/
def after : List (Request O) → Chain ω O M α → Chain ω O M α
  | [], c => c
  | r :: rs, c => after rs ((r.perform f g).runOn c).2

/-- How each of some requests ended. -/
def outcomes : List (Request O) → Chain ω O M α → List (Except (Fault α) Unit)
  | [], _ => []
  | r :: rs, c => ((r.perform f g).runOn c).1 :: outcomes rs ((r.perform f g).runOn c).2

end Chain

/-! ## Completed iterations -/

/-- A completed iteration: the chain before and after it. -/
structure Pass (ω O M α : Type) [Scalar α] where
  before : Chain ω O M α
  after : Chain ω O M α

/-- The components that the iteration has left behind. -/
def Pass.models (p : Pass ω O M α) : List M := p.after.state.mixture.models

section
variable (f : Family ω O M α) (g : Generator ω α)

/-- The completed ones among some iterations, which end with the first that fails. -/
def Chain.passesIn : Nat → Chain ω O M α → List (Pass ω O M α)
  | 0, _ => []
  | n + 1, c =>
    match (iterate f g).runOn c with
    | (.ok _, c') => ⟨c, c'⟩ :: passesIn n c'
    | (.error _, _) => []

def Request.passes (c : Chain ω O M α) : Request O → List (Pass ω O M α)
  | .iterate => Chain.passesIn f g 1 c
  | .cluster n =>
    Chain.passesIn f g (n.getD c.plan.iterations).toNat (c.begin (n.getD c.plan.iterations).toNat)
  | .read _ => []

/-- The iterations that some requests complete. -/
def Chain.passes : List (Request O) → Chain ω O M α → List (Pass ω O M α)
  | [], _ => []
  | r :: rs, c => r.passes f g c ++ passes rs ((r.perform f g).runOn c).2

end

namespace Chain

theorem after_append (f : Family ω O M α) (g : Generator ω α) (rs rs' : List (Request O))
    (c : Chain ω O M α) : after f g (rs ++ rs') c = after f g rs' (after f g rs c) := by
  induction rs generalizing c with
  | nil => rfl
  | cons r rs ih => exact ih _

/-! ## The record of a chain -/

/-- Two chains with the same record of what was completed: they differ at most in
    their draws, their phase and their reports. -/
structure SameRecord (c c' : Chain ω O M α) : Prop where
  plan : c'.plan = c.plan
  data : c'.data = c.data
  mixture : c'.state.mixture = c.state.mixture
  samples : c'.samples = c.samples
  iteration : c'.iteration = c.iteration

theorem withDraws_sameRecord (c : Chain ω O M α) (d : Draws ω α) : c.SameRecord (c.withDraws d) :=
  ⟨rfl, rfl, rfl, rfl, rfl⟩

theorem begin_sameRecord (n : Nat) (c : Chain ω O M α) : c.SameRecord (c.begin n) :=
  ⟨rfl, rfl, rfl, rfl, rfl⟩

theorem finish_sameRecord (c : Chain ω O M α) : c.SameRecord c.finish :=
  ⟨rfl, rfl, rfl, rfl, rfl⟩

/-! ## Runs step by step -/

/-- A run from the chain `c₀` with the completed iterations `ps` ends with the chain
    `c`.  Each step completes an iteration or leaves the record as it was. -/
inductive Leads (f : Family ω O M α) (g : Generator ω α) (c₀ : Chain ω O M α) :
    List (Pass ω O M α) → Chain ω O M α → Prop where
  | nil : Leads f g c₀ [] c₀
  | idle {ps : List (Pass ω O M α)} {c c' : Chain ω O M α} :
    Leads f g c₀ ps c → c.SameRecord c' → Leads f g c₀ ps c'
  | pass {ps : List (Pass ω O M α)} {c c' : Chain ω O M α} :
    Leads f g c₀ ps c → (iterate f g).runOn c = (.ok (), c') →
      Leads f g c₀ (ps ++ [⟨c, c'⟩]) c'

namespace Leads

variable {f : Family ω O M α} {g : Generator ω α} {c₀ c : Chain ω O M α}
  {ps : List (Pass ω O M α)}

theorem iterateTimes (h : Leads f g c₀ ps c) (n : Nat) :
    Leads f g c₀ (ps ++ passesIn f g n c) ((Chain.iterateTimes f g n).runOn c).2 := by
  induction n generalizing ps c with
  | zero => rw [passesIn, List.append_nil]; exact h
  | succ n ih =>
    rw [passesIn, iterateTimes_succ]
    -- a failure ends the iterations and is an idle step
    rcases hr : (iterate f g).runOn c with ⟨e | u, c'⟩
    · obtain ⟨d, -, rfl⟩ := iterate_eq_error.1 hr
      rw [Attempt.runOn_bind_error hr, List.append_nil]
      exact h.idle (withDraws_sameRecord c d)
    · rw [Attempt.runOn_bind_ok hr, List.append_cons]
      exact ih (h.pass hr)

theorem cluster (h : Leads f g c₀ ps c) (n : Option Int) :
    Leads f g c₀ (ps ++ (Request.cluster n).passes f g c) ((Chain.cluster f g n).runOn c).2 := by
  rw [Request.passes]
  rcases Int.lt_trichotomy (n.getD c.plan.iterations) 0 with hn | hn | hn
  · rw [runOn_cluster_of_neg hn, Int.toNat_of_nonpos (Int.le_of_lt hn), passesIn, List.append_nil]
    exact h
  · rw [runOn_cluster_of_zero hn, hn, Int.toNat_zero, passesIn, List.append_nil]
    exact h
  · have hrun := (h.idle (begin_sameRecord (n.getD c.plan.iterations).toNat c)).iterateTimes
      (n.getD c.plan.iterations).toNat
    rw [runOn_cluster_of_pos hn]
    rcases hr : (Chain.iterateTimes f g (n.getD c.plan.iterations).toNat).runOn
      (c.begin (n.getD c.plan.iterations).toNat) with ⟨e | u, c'⟩ <;> rw [hr] at hrun
    · exact hrun
    · exact hrun.idle (finish_sameRecord c')

/-- A request goes on with a run. -/
theorem perform (h : Leads f g c₀ ps c) (r : Request O) :
    Leads f g c₀ (ps ++ r.passes f g c) ((r.perform f g).runOn c).2 := by
  cases r with
  | iterate =>
    have hrun := h.iterateTimes 1
    rw [iterateTimes_succ] at hrun
    rcases hr : (iterate f g).runOn c with ⟨e | u, c'⟩
    · rw [Attempt.runOn_bind_error hr] at hrun
      rw [Request.perform, hr]; exact hrun
    · rw [Attempt.runOn_bind_ok hr] at hrun
      rw [Request.perform, hr]; exact hrun
  | cluster n => exact h.cluster n
  | read r =>
    rw [Request.passes, List.append_nil]
    exact h.idle (withDraws_sameRecord c _)

theorem requests (h : Leads f g c₀ ps c) (rs : List (Request O)) :
    Leads f g c₀ (ps ++ passes f g rs c) (Chain.after f g rs c) := by
  induction rs generalizing ps c with
  | nil => rw [passes, List.append_nil]; exact h
  | cons r rs ih =>
    rw [passes, ← List.append_assoc]
    exact ih (h.perform r)

end Leads

/-- **Requests are a run.** -/
theorem leads_after (f : Family ω O M α) (g : Generator ω α) (rs : List (Request O))
    (c : Chain ω O M α) : Leads f g c (passes f g rs c) (after f g rs c) :=
  Leads.nil.requests rs

/-! ## What runs keep -/

namespace Leads

variable {f : Family ω O M α} {g : Generator ω α} {c₀ c : Chain ω O M α}
  {ps : List (Pass ω O M α)}

theorem plan (h : Leads f g c₀ ps c) : c.plan = c₀.plan := by
  induction h with
  | nil => rfl
  | idle _ hsame ih => exact hsame.plan.trans ih
  | pass _ hrun ih =>
    obtain ⟨ms, d, -, rfl⟩ := iterate_eq_ok.1 hrun
    exact ih

theorem data (h : Leads f g c₀ ps c) : c.data = c₀.data := by
  induction h with
  | nil => rfl
  | idle _ hsame ih => exact hsame.data.trans ih
  | pass _ hrun ih =>
    obtain ⟨ms, d, -, rfl⟩ := iterate_eq_ok.1 hrun
    exact ih

theorem iteration (h : Leads f g c₀ ps c) : c.iteration = c₀.iteration + ps.length := by
  induction h with
  | nil => rfl
  | idle _ hsame ih => exact hsame.iteration.trans ih
  | pass _ hrun ih =>
    obtain ⟨ms, d, -, rfl⟩ := iterate_eq_ok.1 hrun
    rw [List.length_append, List.length_singleton, ← Nat.add_assoc, ← ih]
    rfl

/-- Before a completed iteration, the run has got as far as the completed ones before it. -/
theorem take (h : Leads f g c₀ ps c) {i : Nat} {p : Pass ω O M α} (hp : ps[i]? = some p) :
    Leads f g c₀ (ps.take i) p.before ∧ (iterate f g).runOn p.before = (.ok (), p.after) := by
  induction h with
  | nil => cases hp
  | idle _ _ ih => exact ih hp
  | @pass qs b b' hb hrun ih =>
    rcases Nat.lt_trichotomy i qs.length with hi | rfl | hi
    · rw [List.getElem?_append_left hi] at hp
      rw [List.take_append_of_le_length (Nat.le_of_lt hi)]
      exact ih hp
    · obtain rfl : Pass.mk b b' = p := by simpa using hp
      rw [List.take_left]
      exact ⟨hb, hrun⟩
    · rw [List.getElem?_eq_none (by simp; omega)] at hp
      cases hp

/-- The completed iterations are numbered in order, and each belongs to the run. -/
theorem getElem? (h : Leads f g c₀ ps c) {i : Nat} {p : Pass ω O M α} (hp : ps[i]? = some p) :
    (∃ qs, Leads f g c₀ qs p.before) ∧ p.before.iteration = c₀.iteration + i ∧
      (iterate f g).runOn p.before = (.ok (), p.after) := by
  obtain ⟨hbefore, hrun⟩ := h.take hp
  have hi : i < ps.length := (List.getElem?_eq_some_iff.1 hp).1
  refine ⟨⟨_, hbefore⟩, ?_, hrun⟩
  rw [hbefore.iteration, List.length_take_of_le (Nat.le_of_lt hi)]

theorem of_mem (h : Leads f g c₀ ps c) {p : Pass ω O M α} (hp : p ∈ ps) :
    (∃ qs, Leads f g c₀ qs p.before) ∧ (iterate f g).runOn p.before = (.ok (), p.after) := by
  obtain ⟨i, hi⟩ := List.getElem?_of_mem hp
  exact ⟨(h.getElem? hi).1, (h.getElem? hi).2.2⟩

/-- The live mixture is the one that the last completed iteration left behind. -/
theorem mixture (h : Leads f g c₀ ps c) :
    c.state.mixture = (ps.getLast?.map (·.after.state.mixture)).getD c₀.state.mixture := by
  induction h with
  | nil => rfl
  | idle _ hsame ih => exact hsame.mixture.trans ih
  | pass _ _ _ => rw [List.getLast?_concat]; rfl

end Leads

end Chain

end DirichletMixture
