/-
  DirichletMixture: the schedule of a plan picks samples and does nothing else.

  A plan lets some iterations go, then keeps every so many of them.  Which ones it
  keeps has no influence on what happens.

  * `everyNth` picks entries of a list at a fixed distance;
  * `Leads.samples`: the samples of a run are picked from its completed iterations;
  * `Chain.Twin` says that two chains differ in their schedules at most, and
    `Request.perform_twin` that requests keep it so;
  * `schedule_only_selects` puts both together.
-/
import Mathlib.Algebra.Order.Floor.Div
import Mathlib.Data.List.Forall2
import DirichletMixture.Proofs.Chain.Likeness
import DirichletMixture.Proofs.Chain.Requests
import DirichletMixture.Proofs.Chain.Routing
import DirichletMixture.Proofs.Chain.Tallies

namespace DirichletMixture

variable {ω O M α β : Type}

/-! ## Entries at a fixed distance -/

/-- Every `n`-th entry of a list, the first of them after `k` others. -/
def everyNth (n : Nat) : Nat → List β → List β
  | _, [] => []
  | 0, x :: xs => x :: everyNth n (n - 1) xs
  | k + 1, _ :: xs => everyNth n k xs

section
variable {n : Nat} (hn : 0 < n)

@[simp] theorem everyNth_nil (n k : Nat) : everyNth n k ([] : List β) = [] := by
  cases k <;> rfl

theorem everyNth_drop (n k : Nat) (xs : List β) : everyNth n 0 (xs.drop k) = everyNth n k xs := by
  induction xs generalizing k with
  | nil => simp
  | cons x xs ih =>
    cases k with
    | zero => rfl
    | succ k => exact ih k

theorem everyNth_one (xs : List β) : everyNth 1 0 xs = xs := by
  induction xs with
  | nil => rfl
  | cons x xs ih => rw [everyNth, ih]

include hn

theorem getElem?_everyNth (k : Nat) (xs : List β) (j : Nat) :
    (everyNth n k xs)[j]? = xs[k + j * n]? := by
  induction xs generalizing k j with
  | nil => simp
  | cons x xs ih =>
    cases k with
    | zero =>
      cases j with
      | zero => simp [everyNth]
      | succ j =>
        have hpos : 0 + (j + 1) * n = (n - 1 + j * n) + 1 := by rw [Nat.succ_mul]; omega
        rw [everyNth, List.getElem?_cons_succ, ih, hpos, List.getElem?_cons_succ]
    | succ k => rw [everyNth, ih, Nat.succ_add, List.getElem?_cons_succ]

theorem length_everyNth (k : Nat) (xs : List β) :
    (everyNth n k xs).length = (xs.length - k) ⌈/⌉ n := by
  induction xs generalizing k with
  | nil => simp
  | cons x xs ih =>
    cases k with
    | zero =>
      rw [everyNth, List.length_cons, ih, List.length_cons, Nat.ceilDiv_eq_add_pred_div,
        Nat.ceilDiv_eq_add_pred_div]
      have hone : xs.length + 1 - 0 + n - 1 = xs.length + n := by omega
      rw [hone, Nat.add_div_right _ hn]
      rcases Nat.lt_or_ge xs.length (n - 1) with h | h
      · rw [Nat.div_eq_of_lt (by omega), Nat.div_eq_of_lt (by omega)]
      · rw [show xs.length - (n - 1) + n - 1 = xs.length by omega]
    | succ k => rw [everyNth, ih, List.length_cons, Nat.succ_sub_succ]

/-- One more entry is picked if it lies at the right distance. -/
theorem everyNth_concat (k : Nat) (xs : List β) (x : β) :
    everyNth n k (xs ++ [x]) =
      if k ≤ xs.length ∧ (xs.length - k) % n = 0 then everyNth n k xs ++ [x]
      else everyNth n k xs := by
  induction xs generalizing k with
  | nil => cases k <;> simp [everyNth]
  | cons y xs ih =>
    cases k with
    | zero =>
      -- after a picked entry, `n - 1` others are let go
      rw [List.cons_append, everyNth, ih, everyNth]
      have hcond : (n - 1 ≤ xs.length ∧ (xs.length - (n - 1)) % n = 0) ↔
          (0 ≤ (y :: xs).length ∧ ((y :: xs).length - 0) % n = 0) := by
        rw [List.length_cons, Nat.sub_zero]
        rcases Nat.lt_or_ge xs.length (n - 1) with h | h
        · rw [Nat.mod_eq_of_lt (show xs.length + 1 < n by omega)]; omega
        · rw [show xs.length + 1 = xs.length - (n - 1) + n by omega, Nat.add_mod_right]
          constructor
          · rintro ⟨-, h'⟩; exact ⟨Nat.zero_le _, h'⟩
          · rintro ⟨-, h'⟩; exact ⟨h, h'⟩
      simp only [hcond]
      split <;> rfl
    | succ k =>
      rw [List.cons_append, everyNth, ih, everyNth, List.length_cons, Nat.succ_sub_succ]
      simp only [Nat.succ_le_succ_iff]

end

/-! ## The samples of a run -/

variable [Scalar α] {f : Family ω O M α} {g : Generator ω α}

theorem Plan.keeps_iff {p : Plan α} {i : Nat} :
    p.keeps i = true ↔ p.burnin ≤ i ∧ (i - p.burnin) % p.thin = 0 := by
  simp [keeps]

/-- The number of samples that the schedule picks from the first `i` iterations. -/
def Plan.sampleCount (p : Plan α) (i : Nat) : Nat :=
  if p.burnin < i then (i - p.burnin) ⌈/⌉ p.thin else 0

theorem Plan.sampleCount_eq (p : Plan α) (i : Nat) :
    p.sampleCount i = (i - p.burnin) ⌈/⌉ p.thin := by
  rw [sampleCount]
  by_cases h : p.burnin < i
  · rw [if_pos h]
  · have hzero : i - p.burnin = 0 := by omega
    rw [if_neg h, hzero, zero_ceilDiv]

namespace Chain

/-- An iteration keeps its components if the schedule picks it. -/
theorem iterate_samples {c c' : Chain ω O M α} {u : Unit}
    (h : (iterate f g).runOn c = (.ok u, c')) :
    c'.samples =
      if c.plan.keeps c.iteration then c.samples ++ [c'.state.mixture.models] else c.samples := by
  obtain ⟨⟨d, hc'⟩, -⟩ := exists_routed_of_iterate h
  have hsamples := congrArg Chain.samples hc'
  exact hsamples

variable {c₀ c : Chain ω O M α} {ps : List (Pass ω O M α)}

/-- **The samples of a run** are picked from its completed iterations. -/
theorem Leads.samples (h : Leads f g c₀ ps c) (hi : c₀.iteration = 0) (hs : c₀.samples = []) :
    c.samples = everyNth c₀.plan.thin c₀.plan.burnin (ps.map Pass.models) := by
  induction h with
  | nil => rw [hs]; simp
  | idle _ hsame ih => exact hsame.samples.trans ih
  | @pass qs b b' hb hrun ih =>
    have hiter : b.iteration = (qs.map Pass.models).length := by
      rw [hb.iteration, hi, Nat.zero_add, List.length_map]
    rw [iterate_samples hrun, List.map_append, List.map_singleton,
      everyNth_concat c₀.plan.thin_pos, ← hiter, ← ih]
    simp only [Plan.keeps_iff, hb.plan]
    rfl

/-- Samples are never taken back. -/
theorem Leads.samples_grow (h : Leads f g c₀ ps c) : c₀.samples <+: c.samples := by
  induction h with
  | nil => exact List.prefix_refl _
  | idle _ hsame ih => rw [hsame.samples]; exact ih
  | pass _ hrun ih =>
    rw [iterate_samples hrun]
    split
    · exact ih.trans (List.prefix_append _ _)
    · exact ih

/-- The samples are those of the completed iterations that the schedule picks, counted
    and in order. -/
structure Scheduled (f : Family ω O M α) (g : Generator ω α) (plan : Plan α)
    (c₀ : Chain ω O M α) (ps : List (Pass ω O M α)) (c : Chain ω O M α) : Prop where
  /-- The completed iterations lead from the one chain to the other. -/
  run : Leads f g c₀ ps c
  /-- The counter counts the completed iterations. -/
  iteration : c.iteration = ps.length
  /-- They are numbered from zero. -/
  passes : ∀ (i : Nat) (p : Pass ω O M α), ps[i]? = some p →
    p.before.iteration = i ∧ (iterate f g).runOn p.before = (.ok (), p.after)
  /-- There are as many samples as the schedule picks. -/
  count : c.samples.length = plan.sampleCount c.iteration
  /-- Each of them is what the picked iteration has left behind. -/
  sample : ∀ j, c.samples[j]? = ps[plan.burnin + j * plan.thin]?.map Pass.models

theorem Leads.scheduled (h : Leads f g c₀ ps c) (hi : c₀.iteration = 0) (hs : c₀.samples = []) :
    Scheduled f g c₀.plan c₀ ps c where
  run := h
  iteration := by rw [h.iteration, hi, Nat.zero_add]
  passes i p hp := by
    obtain ⟨-, hnumber, hrun⟩ := h.getElem? hp
    rw [hi, Nat.zero_add] at hnumber
    exact ⟨hnumber, hrun⟩
  count := by
    rw [h.samples hi hs, length_everyNth c₀.plan.thin_pos, List.length_map, Plan.sampleCount_eq,
      h.iteration, hi, Nat.zero_add]
  sample j := by
    rw [h.samples hi hs, getElem?_everyNth c₀.plan.thin_pos, List.getElem?_map]

end Chain

/-! ## Two schedules -/

/-- The plan with another schedule. -/
def Plan.reschedule (p : Plan α) (burnin thin : Nat) (h : 0 < thin) : Plan α :=
  { p with burnin := burnin, thin := thin, thin_pos := h }

namespace Chain

/-- Two chains that differ at most in their schedules, in the samples that these have
    picked, and in their reports. -/
structure Twin (c c' : Chain ω O M α) : Prop extends InStep c c' where
  phase : c.phase = c'.phase
  plan : c'.plan = c.plan.reschedule c'.plan.burnin c'.plan.thin c'.plan.thin_pos

section
variable {c c' : Chain ω O M α}

theorem Twin.iterations (h : Twin c c') : c'.plan.iterations = c.plan.iterations := by
  have hplan := congrArg Plan.iterations h.plan
  exact hplan

theorem Twin.withDraws (h : Twin c c') (d : Draws ω α) : Twin (c.withDraws d) (c'.withDraws d) where
  toInStep := h.toInStep.withDraws d
  phase := h.phase
  plan := h.plan

theorem Twin.complete (h : Twin c c') (count : M → Nat) (ms : List M) :
    Twin (c.complete count ms) (c'.complete count ms) where
  toInStep := h.toInStep.complete count ms
  phase := h.phase
  plan := h.plan

theorem Twin.begin (h : Twin c c') (n : Nat) : Twin (c.begin n) (c'.begin n) where
  data := h.data
  state := h.state
  iteration := h.iteration
  phase := rfl
  plan := h.plan

theorem Twin.finish (h : Twin c c') : Twin c.finish c'.finish where
  data := h.data
  state := h.state
  iteration := h.iteration
  phase := rfl
  plan := h.plan

end

section
variable (f : Family ω O M α) (g : Generator ω α)

theorem iterate_matches_twin : Attempt.Matches Twin Eq (iterate f g) (iterate f g) :=
  iterate_matches f g (fun _ _ h => h.toInStep) (fun _ _ d h => h.withDraws d)
    (fun _ _ ms h => h.complete f.count ms)

theorem cluster_matches_twin (n : Option Int) :
    Attempt.Matches Twin Eq (cluster f g n).ignore (cluster f g n).ignore := by
  intro c c' h
  have hn : n.getD c'.plan.iterations = n.getD c.plan.iterations := by rw [h.iterations]
  rw [Attempt.runOn_ignore, Attempt.runOn_ignore, Attempt.agree_eq]
  rcases Int.lt_trichotomy (n.getD c.plan.iterations) 0 with hneg | hzero | hpos
  · rw [runOn_cluster_of_neg hneg, runOn_cluster_of_neg (hn ▸ hneg), hn]
    exact ⟨rfl, h⟩
  · rw [runOn_cluster_of_zero hzero, runOn_cluster_of_zero (hn.trans hzero)]
    exact ⟨rfl, h⟩
  · rw [runOn_cluster_of_pos hpos, runOn_cluster_of_pos (hn.symm ▸ hpos), hn]
    generalize (n.getD c.plan.iterations).toNat = k
    have hruns : Attempt.Matches Twin Eq (iterateTimes f g k) (iterateTimes f g k) :=
      (iterate_matches_twin f g).times k
    rcases hr : (iterateTimes f g k).runOn (c.begin k) with ⟨e | u, c₁⟩
    · obtain ⟨c₁', hr', htwin⟩ := hruns.error (h.begin k) hr
      rw [hr']
      exact ⟨rfl, htwin⟩
    · obtain ⟨u', c₁', hr', -, htwin⟩ := hruns.ok (h.begin k) hr
      rw [hr']
      exact ⟨rfl, htwin.finish⟩

theorem onState_matches_twin {β : Type} (a : Mixture M α → Attempt (Draws ω α) α β) :
    Attempt.Matches Twin Eq (onState (O := O) (State.read a)) (onState (State.read a)) := by
  intro c c' h
  have hstate := h.state
  constructor
  · simp only [onState, Attempt.runOn_focus, hstate, Attempt.agree_eq]
  · have htwin := h.withDraws ((a c.state.mixture).runOn c.state.draws).2
    simp only [onState, Attempt.runOn_focus, State.runOn_read, ← hstate]
    simpa only [Chain.withDraws, ← hstate] using htwin

/-- **Requests treat twins alike**, whether they fail or not. -/
theorem perform_matches_twin (r : Request O) :
    Attempt.Matches Twin Eq (r.perform f g) (r.perform f g) := by
  cases r with
  | iterate => exact iterate_matches_twin f g
  | cluster n => exact cluster_matches_twin f g n
  | read r => exact onState_matches_twin _

end

end Chain

/-- Two completed iterations of twins. -/
structure Pass.Twin (p p' : Pass ω O M α) : Prop where
  before : p.before.Twin p'.before
  after : p.after.Twin p'.after

namespace Chain

section
variable {c c' : Chain ω O M α}

theorem passesIn_twin (h : Twin c c') (n : Nat) :
    List.Forall₂ Pass.Twin (passesIn f g n c) (passesIn f g n c') := by
  induction n generalizing c c' with
  | zero => exact .nil
  | succ n ih =>
    have hmatch := iterate_matches_twin f g
    rcases hr : (iterate f g).runOn c with ⟨e | u, c₁⟩
    · obtain ⟨c₁', hr', -⟩ := hmatch.error h hr
      rw [passesIn, passesIn, hr, hr']
      exact .nil
    · obtain ⟨u', c₁', hr', -, htwin⟩ := hmatch.ok h hr
      rw [passesIn, passesIn, hr, hr']
      exact .cons ⟨h, htwin⟩ (ih htwin)

theorem request_passes_twin (h : Twin c c') (r : Request O) :
    List.Forall₂ Pass.Twin (r.passes f g c) (r.passes f g c') := by
  cases r with
  | iterate => exact passesIn_twin h 1
  | cluster n =>
    rw [Request.passes, Request.passes, h.iterations]
    exact passesIn_twin (h.begin _) _
  | read r => exact .nil

theorem passes_twin (h : Twin c c') (rs : List (Request O)) :
    List.Forall₂ Pass.Twin (passes f g rs c) (passes f g rs c') := by
  induction rs generalizing c c' with
  | nil => exact .nil
  | cons r rs ih =>
    have hrest := ih (perform_matches_twin f g r c c' h).2
    exact List.rel_append (request_passes_twin h r) hrest

theorem outcomes_twin (h : Twin c c') (rs : List (Request O)) :
    outcomes f g rs c' = outcomes f g rs c := by
  induction rs generalizing c c' with
  | nil => rfl
  | cons r rs ih =>
    obtain ⟨hout, htwin⟩ := perform_matches_twin f g r c c' h
    rw [outcomes, outcomes, Attempt.agree_eq.1 hout, ih htwin]

theorem after_twin (h : Twin c c') (rs : List (Request O)) :
    (after f g rs c).Twin (after f g rs c') := by
  induction rs generalizing c c' with
  | nil => exact h
  | cons r rs ih => exact ih (perform_matches_twin f g r c c' h).2

/-- Twins have completed iterations with the same components. -/
theorem map_models_twin {ps ps' : List (Pass ω O M α)} (h : List.Forall₂ Pass.Twin ps ps') :
    ps.map Pass.models = ps'.map Pass.models := by
  refine map_eq_map_iff_forall₂.2 (h.imp fun p p' hp => ?_)
  rw [Pass.models, Pass.models, hp.after.state]

end

variable {c₀ : Chain ω O M α}

/-- A chain starts with every schedule as it does with any other. -/
theorem exists_twin_of_start {plan : Plan α} {data : List O} {s s' : ω}
    (h : start f plan data s = (.ok c₀, s')) (burnin thin : Nat) (ht : 0 < thin) :
    ∃ c₁, start f (plan.reschedule burnin thin ht) data s = (.ok c₁, s') ∧ c₀.Twin c₁ ∧
      c₁.plan = plan.reschedule burnin thin ht := by
  obtain ⟨ms, hdraw, hlen, rfl⟩ := start_eq_ok.1 h
  exact ⟨_, start_eq_ok.2 ⟨ms, hdraw, hlen, rfl⟩, ⟨⟨rfl, rfl, rfl⟩, rfl, rfl⟩, rfl⟩

/-- A chain starts with its plan, and with nothing completed or kept. -/
theorem start_blank {plan : Plan α} {data : List O} {s s' : ω}
    (h : start f plan data s = (.ok c₀, s')) :
    c₀.plan = plan ∧ c₀.data = data ∧ c₀.iteration = 0 ∧ c₀.samples = [] := by
  obtain ⟨ms, -, -, rfl⟩ := start_eq_ok.1 h
  exact ⟨rfl, rfl, rfl, rfl⟩

/-- **The schedule only selects.**  After any requests to a chain, failing ones
    included, its samples are the components that the picked iterations have left
    behind, and there are as many as there should be; further requests only add to
    them.  With another schedule the same requests end in the same way and complete
    the same iterations, with the same state, draws and phase before, between and
    after them.  So the samples can be picked from those of a chain that keeps all. -/
theorem schedule_only_selects (f : Family ω O M α) (g : Generator ω α) {plan : Plan α}
    {data : List O} {s s' : ω} (h : start f plan data s = (.ok c₀, s'))
    (rs : List (Request O)) :
    Scheduled f g plan c₀ (passes f g rs c₀) (after f g rs c₀) ∧
    (∀ rs', (after f g rs c₀).samples <+: (after f g (rs ++ rs') c₀).samples) ∧
    (∀ burnin thin ht, ∃ c₁,
      start f (plan.reschedule burnin thin ht) data s = (.ok c₁, s') ∧
        outcomes f g rs c₁ = outcomes f g rs c₀ ∧
        List.Forall₂ Pass.Twin (passes f g rs c₀) (passes f g rs c₁) ∧
        (after f g rs c₀).Twin (after f g rs c₁)) ∧
    ∃ c₁, start f (plan.reschedule 0 1 Nat.one_pos) data s = (.ok c₁, s') ∧
      (after f g rs c₀).samples =
        everyNth plan.thin 0 ((after f g rs c₁).samples.drop plan.burnin) := by
  obtain ⟨hplan, -, hiter, hsamples⟩ := start_blank h
  have hrun := leads_after f g rs c₀
  refine ⟨?_, ?_, ?_, ?_⟩
  · rw [← hplan]
    exact hrun.scheduled hiter hsamples
  · intro rs'
    rw [after_append]
    exact (leads_after f g rs' _).samples_grow
  · intro burnin thin ht
    obtain ⟨c₁, hstart, htwin, -⟩ := exists_twin_of_start h burnin thin ht
    exact ⟨c₁, hstart, outcomes_twin htwin rs, passes_twin htwin rs, after_twin htwin rs⟩
  · obtain ⟨c₁, hstart, htwin, hplan₁⟩ := exists_twin_of_start h 0 1 Nat.one_pos
    obtain ⟨-, -, hiter₁, hsamples₁⟩ := start_blank hstart
    -- the other chain keeps everything that this one picks from
    have hall := (leads_after f g rs c₁).samples hiter₁ hsamples₁
    rw [hplan₁] at hall
    refine ⟨c₁, hstart, ?_⟩
    rw [hrun.samples hiter hsamples, hplan, hall, ← map_models_twin (passes_twin htwin rs)]
    simp only [Plan.reschedule, everyNth_one, everyNth_drop]

/-- A call that fails in its second iteration, and two iterations after it: the first
    and the last of the three that are completed are kept. -/
theorem faltering_run_is_scheduled :
    start (tallies nearby) (Plan.ofPair 0 2 3 Nat.two_pos) [0, 1, 1] (⟨[], 0, 0⟩, [2, 3]) =
      (.ok faltering, (⟨[], 0, 0⟩, [2, 3])) ∧
    (after (tallies nearby) Script.besideSizes [.cluster none, .iterate, .iterate]
      faltering).samples.length = 2 ∧
    (after (tallies nearby) Script.besideSizes [.cluster none, .iterate, .iterate]
      faltering).samples[1]? =
        (passes (tallies nearby) Script.besideSizes [.cluster none, .iterate, .iterate]
          faltering)[2]?.map Pass.models := by
  have hstart := start_tallies nearby (Plan.ofPair 0 2 3 Nat.two_pos) [0, 1, 1]
    (⟨[], 0, 0⟩, [2, 3])
  obtain ⟨hscheduled, -⟩ := schedule_only_selects (tallies nearby) Script.besideSizes hstart
    [.cluster none, .iterate, .iterate]
  have hiteration : (after (tallies nearby) Script.besideSizes
      [.cluster none, .iterate, .iterate] faltering).iteration = 3 := by decide +kernel
  refine ⟨hstart, ?_, hscheduled.sample 1⟩
  have hcount := hscheduled.count
  rw [faltering] at hiteration ⊢
  rw [hcount, hiteration]
  decide

end Chain

end DirichletMixture
