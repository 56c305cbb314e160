/-
  DirichletMixture: what the phase and the counter of a chain say.

  The phase tells how the last call for iterations has ended, and the counter how many
  iterations were completed.  Calls for no iterations, calls that are refused, iterations
  made one by one and readings leave the phase as it was.

  * `Request.asked` is the number of iterations that a request is a call for, and
    `IsLastCall` finds the last call among some requests;
  * `Request.perform_phase`: a call leaves the phase that goes with its ending, and every
    other request leaves the phase alone;
  * `Request.exists_ok_iff`: a call ends well exactly if it completes all its iterations;
  * `phase_of_isLastCall`: the phase of a run is that of its last call;
  * `phase_and_counter_are_true` puts this together for a chain from its start on.
-/
import DirichletMixture.Proofs.Chain.Schedule
import DirichletMixture.Proofs.Chain.Splitting

namespace DirichletMixture

variable {ω O M α : Type}

/-! ## Endings and phases -/

namespace Chain

theorem phaseAfter_ne_notStarted (r : Except (Fault α) Unit) : phaseAfter r ≠ .notStarted := by
  cases r <;> simp [phaseAfter]

theorem phaseAfter_eq_done_iff {r : Except (Fault α) Unit} :
    phaseAfter r = .done ↔ ∃ u, r = .ok u := by
  cases r <;> simp [phaseAfter]

theorem phaseAfter_eq_iterating_iff {r : Except (Fault α) Unit} :
    phaseAfter r = .iterating ↔ ∃ e, r = .error e := by
  cases r <;> simp [phaseAfter]

end Chain

variable [Scalar α]

/-! ## Calls -/

/-- The number of iterations that a request is a call for, none if it is no call. -/
def Request.asked (p : Plan α) : Request O → Nat
  | .cluster n => (n.getD p.iterations).toNat
  | _ => 0

/-- The request `r` is the last call for iterations among `rs`, and `before` are the
    requests before it. -/
structure IsLastCall (p : Plan α) (rs before : List (Request O)) (r : Request O) : Prop where
  call : 0 < r.asked p
  later : ∃ rest, rs = before ++ r :: rest ∧ ∀ q ∈ rest, q.asked p = 0

theorem exists_isLastCall {p : Plan α} {rs : List (Request O)} (h : ∃ r ∈ rs, 0 < r.asked p) :
    ∃ before r, IsLastCall p rs before r := by
  induction rs with
  | nil =>
    obtain ⟨r, hr, -⟩ := h
    cases hr
  | cons q rs ih =>
    by_cases hrs : ∃ r ∈ rs, 0 < r.asked p
    · obtain ⟨before, r, hcall, rest, rfl, hrest⟩ := ih hrs
      exact ⟨q :: before, r, hcall, rest, rfl, hrest⟩
    · obtain ⟨r, hr, hcall⟩ := h
      rcases List.mem_cons.1 hr with rfl | hr
      · refine ⟨[], r, hcall, rs, rfl, fun q hq => ?_⟩
        exact Nat.eq_zero_of_not_pos fun hpos => hrs ⟨q, hq, hpos⟩
      · exact absurd ⟨r, hr, hcall⟩ hrs

section
variable {f : Family ω O M α} {g : Generator ω α} {c c' : Chain ω O M α}

/-! ## Completed iterations of a call -/

namespace Chain

theorem length_passesIn_of_ok {u : Unit} {n : Nat}
    (h : (iterateTimes f g n).runOn c = (.ok u, c')) : (passesIn f g n c).length = n := by
  induction n generalizing c with
  | zero => rfl
  | succ n ih =>
    obtain ⟨u, c₁, h₁, hrest⟩ := Attempt.runOn_bind_eq_ok.1 h
    rw [passesIn, h₁, List.length_cons, ih hrest]

theorem length_passesIn_of_error {e : Fault α} {n : Nat}
    (h : (iterateTimes f g n).runOn c = (.error e, c')) : (passesIn f g n c).length < n := by
  induction n generalizing c with
  | zero => cases h
  | succ n ih =>
    rw [passesIn]
    rcases Attempt.runOn_bind_eq_error.1 h with h₁ | ⟨u, c₁, h₁, hrest⟩
    · rw [h₁]
      exact Nat.succ_pos n
    · rw [h₁, List.length_cons]
      exact Nat.succ_lt_succ (ih hrest)

end Chain

namespace Request

variable {r : Request O}

/-- A call does its iterations from where it begins, and finishes if they end well. -/
theorem perform_of_asked (h : 0 < r.asked c.plan) :
    r.passes f g c = Chain.passesIn f g (r.asked c.plan) (c.begin (r.asked c.plan)) ∧
      (r.perform f g).runOn c =
        match (Chain.iterateTimes f g (r.asked c.plan)).runOn (c.begin (r.asked c.plan)) with
        | (.ok _, c') => (.ok (), c'.finish)
        | (.error e, c') => (.error e, c') := by
  cases r with
  | iterate => cases h
  | read r => cases h
  | cluster n =>
    refine ⟨rfl, ?_⟩
    have hn : 0 < n.getD c.plan.iterations := Int.pos_iff_toNat_pos.2 h
    rw [perform, Attempt.runOn_ignore, Chain.runOn_cluster_of_pos hn, asked]
    rcases (Chain.iterateTimes f g (n.getD c.plan.iterations).toNat).runOn
      (c.begin (n.getD c.plan.iterations).toNat) with ⟨e | u, c'⟩ <;> rfl

/-- A request that is no call leaves the phase as it was. -/
theorem perform_phase_of_not_asked (h : r.asked c.plan = 0) :
    ((r.perform f g).runOn c).2.phase = c.phase := by
  cases r with
  | iterate => exact Chain.iterate_phase c
  | read r => rfl
  | cluster n =>
    rw [perform, Attempt.runOn_ignore]
    rcases (Int.toNat_eq_zero.1 h).lt_or_eq with hn | hn
    · rw [Chain.runOn_cluster_of_neg hn]
    · rw [Chain.runOn_cluster_of_zero hn]

/-- **A call leaves the phase that goes with its ending.** -/
theorem perform_phase (h : 0 < r.asked c.plan) :
    ((r.perform f g).runOn c).2.phase = Chain.phaseAfter ((r.perform f g).runOn c).1 := by
  have hphase := Chain.iterateTimes_phase (f := f) (g := g) (r.asked c.plan)
    (c.begin (r.asked c.plan))
  rw [(perform_of_asked h).2]
  rcases hrun : (Chain.iterateTimes f g (r.asked c.plan)).runOn (c.begin (r.asked c.plan)) with
    ⟨e | u, c'⟩
  · rw [hrun] at hphase
    exact hphase
  · rfl

/-- **A call ends well** exactly if it completes all the iterations that it asks for. -/
theorem exists_ok_iff (h : 0 < r.asked c.plan) :
    (∃ u, ((r.perform f g).runOn c).1 = .ok u) ↔
      (r.passes f g c).length = r.asked c.plan := by
  obtain ⟨hpasses, hperform⟩ := perform_of_asked (f := f) (g := g) h
  rw [hpasses, hperform]
  rcases hrun : (Chain.iterateTimes f g (r.asked c.plan)).runOn (c.begin (r.asked c.plan)) with
    ⟨e | u, c'⟩
  · refine iff_of_false (fun ⟨u, hu⟩ => by cases hu) ?_
    exact (Chain.length_passesIn_of_error hrun).ne
  · exact iff_of_true ⟨u, rfl⟩ (Chain.length_passesIn_of_ok hrun)

end Request

/-! ## The phase of a run -/

namespace Chain

theorem start_phase {plan : Plan α} {data : List O} {s s' : ω}
    (h : start f plan data s = (.ok c, s')) : c.phase = .notStarted := by
  obtain ⟨ms, -, -, rfl⟩ := start_eq_ok.1 h
  rfl

theorem plan_after (f : Family ω O M α) (g : Generator ω α) (rs : List (Request O))
    (c : Chain ω O M α) : (after f g rs c).plan = c.plan :=
  (leads_after f g rs c).plan

/-- Without a call the phase stays. -/
theorem phase_of_no_call {rs : List (Request O)} (h : ∀ r ∈ rs, r.asked c.plan = 0) :
    (after f g rs c).phase = c.phase := by
  induction rs generalizing c with
  | nil => rfl
  | cons r rs ih =>
    obtain ⟨hr, hrs⟩ := List.forall_mem_cons.1 h
    have hplan : ((r.perform f g).runOn c).2.plan = c.plan := plan_after f g [r] c
    rw [after, ih (by rwa [hplan]), Request.perform_phase_of_not_asked hr]

/-- **The phase is that of the last call.** -/
theorem phase_of_isLastCall {rs before : List (Request O)} {r : Request O}
    (h : IsLastCall c.plan rs before r) :
    (after f g rs c).phase = phaseAfter ((r.perform f g).runOn (after f g before c)).1 := by
  obtain ⟨hcall, rest, rfl, hrest⟩ := h
  have hplan := plan_after f g before c
  have hnext : ((r.perform f g).runOn (after f g before c)).2.plan = c.plan :=
    (plan_after f g [r] _).trans hplan
  rw [after_append, after, phase_of_no_call (by rwa [hnext]),
    Request.perform_phase (by rwa [hplan])]

/-- Among some requests there is no call, or there is a last one that the phase goes with. -/
theorem phase_cases (f : Family ω O M α) (g : Generator ω α) (rs : List (Request O))
    (c : Chain ω O M α) :
    (∀ r ∈ rs, r.asked c.plan = 0) ∧ (after f g rs c).phase = c.phase ∨
      ∃ before r, IsLastCall c.plan rs before r ∧
        (after f g rs c).phase = phaseAfter ((r.perform f g).runOn (after f g before c)).1 := by
  by_cases hcall : ∃ r ∈ rs, 0 < r.asked c.plan
  · obtain ⟨before, r, hlast⟩ := exists_isLastCall hcall
    exact .inr ⟨before, r, hlast, phase_of_isLastCall hlast⟩
  · have hnone : ∀ r ∈ rs, r.asked c.plan = 0 := fun r hr =>
      Nat.eq_zero_of_not_pos fun hpos => hcall ⟨r, hr, hpos⟩
    exact .inl ⟨hnone, phase_of_no_call hnone⟩

/-- The phase of a chain that had not been called before is one of a call exactly if there is
    a last call that it goes with. -/
theorem phase_eq_iff {rs : List (Request O)} {q : Phase} (hc : c.phase = .notStarted)
    (hq : q ≠ .notStarted) :
    (after f g rs c).phase = q ↔ ∃ before r, IsLastCall c.plan rs before r ∧
      phaseAfter ((r.perform f g).runOn (after f g before c)).1 = q := by
  constructor
  · intro h
    rcases phase_cases f g rs c with ⟨-, hsame⟩ | ⟨before, r, hlast, hphase⟩
    · exact absurd (h.symm.trans (hsame.trans hc)) hq
    · exact ⟨before, r, hlast, hphase.symm.trans h⟩
  · rintro ⟨before, r, hlast, hphase⟩
    exact (phase_of_isLastCall hlast).trans hphase

theorem phase_eq_notStarted_iff {rs : List (Request O)} (hc : c.phase = .notStarted) :
    (after f g rs c).phase = .notStarted ↔ ∀ r ∈ rs, r.asked c.plan = 0 := by
  constructor
  · intro h
    rcases phase_cases f g rs c with ⟨hnone, -⟩ | ⟨before, r, -, hphase⟩
    · exact hnone
    · exact absurd (hphase.symm.trans h) (phaseAfter_ne_notStarted _)
  · intro hnone
    exact (phase_of_no_call hnone).trans hc

end Chain

end

namespace Chain

/-- **The phase and the counter are true.**  After any requests to a chain, failing ones
    included, the counter is the number of iterations that were completed, and it never goes
    back.  The phase is the first one as long as there was no call for iterations; after
    that it is the last one if the last call has completed all that it asked for, and the
    one between if it has failed.  A call for fewer than no iterations is refused, in words
    if the number is not too long for them, and like one for none it changes nothing
    whatsoever.  Iterations made one by one leave the phase
    alone. -/
theorem phase_and_counter_are_true (f : Family ω O M α) (g : Generator ω α) {plan : Plan α}
    {data : List O} {s s' : ω} {c₀ : Chain ω O M α} (h : start f plan data s = (.ok c₀, s'))
    (rs : List (Request O)) :
    (after f g rs c₀).iteration = (passes f g rs c₀).length ∧
    (∀ rs', (after f g rs c₀).iteration ≤ (after f g (rs ++ rs') c₀).iteration) ∧
    ((after f g rs c₀).phase = .notStarted ↔ ∀ r ∈ rs, r.asked plan = 0) ∧
    ((after f g rs c₀).phase = .done ↔ ∃ before r, IsLastCall plan rs before r ∧
      (r.passes f g (after f g before c₀)).length = r.asked plan) ∧
    ((after f g rs c₀).phase = .iterating ↔ ∃ before r, IsLastCall plan rs before r ∧
      ∃ e, ((r.perform f g).runOn (after f g before c₀)).1 = .error e) ∧
    (∀ n : Int, n < 0 → (cluster f g (some n)).runOn (after f g rs c₀) =
      (.error (if Decimal.isWritable n then .refused (.negativeRun n) else .longNumber),
        after f g rs c₀)) ∧
    (∀ n : Option Int, n.getD plan.iterations = 0 →
      (cluster f g n).runOn (after f g rs c₀) =
        (.ok (after f g rs c₀).samples, after f g rs c₀)) ∧
    ((iterate f g).runOn (after f g rs c₀)).2.phase = (after f g rs c₀).phase := by
  obtain ⟨rfl, -, hiteration, -⟩ := start_blank h
  have hphase : c₀.phase = .notStarted := start_phase h
  have hplan := plan_after f g rs c₀
  refine ⟨?_, ?_, phase_eq_notStarted_iff hphase, ?_, ?_, ?_, ?_, iterate_phase _⟩
  · rw [(leads_after f g rs c₀).iteration, hiteration, Nat.zero_add]
  · intro rs'
    rw [after_append, (leads_after f g rs' _).iteration]
    exact Nat.le_add_right _ _
  · rw [phase_eq_iff hphase (by decide)]
    refine exists_congr fun before => exists_congr fun r => and_congr_right fun hlast => ?_
    have hcall : 0 < r.asked (after f g before c₀).plan := by
      rw [plan_after]
      exact hlast.call
    rw [phaseAfter_eq_done_iff, Request.exists_ok_iff hcall, plan_after]
  · rw [phase_eq_iff hphase (by decide)]
    simp only [phaseAfter_eq_iterating_iff]
  · intro n hn
    exact runOn_cluster_of_neg hn
  · intro n hn
    rw [← hplan] at hn
    exact runOn_cluster_of_zero hn

/-- A call for fewer than no iterations, by a number with too many digits, is refused without
    words, and the refusal is not told apart from a misuse of values. -/
theorem long_negative_run_is_no_configuration_error :
    Decimal.longNegative < 0 ∧
      (cluster (tallies nearby) Script.besideSizes (some Decimal.longNegative)).runOn faltering =
        (.error .longNumber, faltering) ∧
      (Fault.longNumber : Fault Float).kind ≠ .configuration := by
  refine ⟨Decimal.longNegative_neg, ?_, by decide⟩
  have hneg : (some Decimal.longNegative).getD faltering.plan.iterations < 0 :=
    Decimal.longNegative_neg
  have hlong : (Refusal.negativeRun Decimal.longNegative : Refusal Float).isWritable = false :=
    Decimal.isWritable_longNegative
  rw [runOn_cluster_of_neg hneg, Option.getD_some, Fault.refuse_of_not_isWritable hlong]

/-- A call fails, two more iterations are made, and a call with fewer than no iterations is
    refused: the last call is still the one that failed. -/
theorem faltering_call_leaves_its_phase :
    start (tallies nearby) (Plan.ofPair 0 2 3 Nat.two_pos) [0, 1, 1] (⟨[], 0, 0⟩, [2, 3]) =
      (.ok faltering, (⟨[], 0, 0⟩, [2, 3])) ∧
    (after (tallies nearby) Script.besideSizes
      [.cluster none, .iterate, .iterate, .cluster (some (-1))] faltering).phase = .iterating ∧
    (after (tallies nearby) Script.besideSizes
      [.cluster none, .iterate, .iterate, .cluster (some (-1)), .cluster (some 1)]
      faltering).phase = .done := by
  have hstart := start_tallies nearby (Plan.ofPair 0 2 3 Nat.two_pos) [0, 1, 1]
    (⟨[], 0, 0⟩, [2, 3])
  obtain ⟨-, -, -, -, hiterating, -⟩ := phase_and_counter_are_true (tallies nearby)
    Script.besideSizes hstart [.cluster none, .iterate, .iterate, .cluster (some (-1))]
  obtain ⟨-, -, -, hdone, -⟩ := phase_and_counter_are_true (tallies nearby)
    Script.besideSizes hstart
    [.cluster none, .iterate, .iterate, .cluster (some (-1)), .cluster (some 1)]
  refine ⟨hstart, hiterating.2 ⟨[], .cluster none, ⟨by decide, _, rfl, by decide⟩, ?_⟩,
    hdone.2 ⟨[.cluster none, .iterate, .iterate, .cluster (some (-1))], .cluster (some 1),
      ⟨by decide, _, rfl, by decide⟩, by decide +kernel⟩⟩
  have hfails : (((Request.cluster none).perform (tallies nearby) Script.besideSizes).runOn
      faltering).1.isOk = false := by decide +kernel
  rcases hr : (((Request.cluster none).perform (tallies nearby) Script.besideSizes).runOn
    faltering).1 with e | u
  · exact ⟨e, hr⟩
  · rw [hr] at hfails
    cases hfails

end Chain

end DirichletMixture
