/-
  DirichletMixture: what a list of points adds to a collection.

  A point is scored before anything of it is kept.  So a point that cannot be scored adds
  nothing, and a list of points adds what the points before the first such point add.

  * `Attempt.Appends` says how an attempt on a collection ends and what it adds to it,
    whatever was collected before, and `Appends.bind` says it of two attempts in a row;
  * `Scorable` are the points that can be scored, and `UnscorableWith` says why another one
    cannot be;
  * `collectPoint_appends` and `collectPoint_appends_error`: what one point adds;
  * `emission_stops_at_the_first_failure` puts this together for lists of points.
-/
import DirichletMixture.Emission.Collector
import DirichletMixture.Proofs.Attempt

namespace DirichletMixture

variable {O α β γ δ ι : Type}

/-! ## Adding to a collection -/

namespace Attempt

/-- The attempt ends with `r` and adds `es` to whatever was collected before. -/
def Appends (r : Except (Fault α) γ) (es : List β) (a : Attempt (List β) α γ) : Prop :=
  ∀ before, a.runOn before = (r, before ++ es)

variable {a : Attempt (List β) α γ} {f : γ → Attempt (List β) α δ} {es es' : List β}
  {r r' : Except (Fault α) γ}

theorem Appends.unique (h : a.Appends r es) (h' : a.Appends r' es') : r = r' ∧ es = es' :=
  Prod.mk.inj ((h []).symm.trans (h' []))

theorem appends_ofExcept (r : Except (Fault α) γ) :
    (ofExcept r : Attempt (List β) α γ).Appends r [] := by
  intro before
  rw [runOn_ofExcept, List.append_nil]

theorem Appends.bind {c : γ} {q : Except (Fault α) δ} (ha : a.Appends (.ok c) es)
    (hf : (f c).Appends q es') : (a >>= f).Appends q (es ++ es') := by
  intro before
  rw [runOn_bind_ok (ha before), hf, List.append_assoc]

theorem Appends.bind_error {e : Fault α} (ha : a.Appends (.error e) es) :
    (a >>= f).Appends (.error e) es := by
  intro before
  exact runOn_bind_error (ha before)

end Attempt

theorem keep_appends (e : Emitted O α ι) : (keep e).Appends (.ok ()) [e] := by
  intro before
  rfl

theorem forM_keep_appends (es : List (Emitted O α ι)) : (es.forM keep).Appends (.ok ()) es := by
  induction es with
  | nil => exact Attempt.appends_ofExcept (.ok ())
  | cons e es ih => exact (keep_appends e).bind ih

variable [Scalar α]

/-! ## Points that can be scored -/

/-- The point can be scored: all candidates have a likelihood for it, and the likelihoods
    add up to a positive number. -/
def Scorable (cs : List (Candidate O α)) (x : O) : Prop :=
  ∃ ps, cs.mapM (·.density x) = .ok ps ∧ isMeasure (pairwiseSum ps) = true

/-- Why a point cannot be scored: the first candidate without a likelihood for it says so,
    or the likelihoods do not add up to a positive number. -/
inductive UnscorableWith (cs : List (Candidate O α)) (x : O) : Fault α → Prop where
  | undefined {before after : List (Candidate O α)} {c : Candidate O α} {e : Fault α} :
    cs = before ++ c :: after → (∀ b ∈ before, ∃ q, b.density x = .ok q) →
      c.density x = .error e → UnscorableWith cs x e
  | unmeasured {ps : List α} :
    cs.mapM (·.density x) = .ok ps → isMeasure (pairwiseSum ps) = false →
      UnscorableWith cs x (.degenerate (.badSum (pairwiseSum ps)) .unknown)

variable {cs : List (Candidate O α)} {x : O} {p : Policy α}

theorem normalizeBySum_eq_ok {ps pi : List α} :
    normalizeBySum ps = .ok pi ↔
      isMeasure (pairwiseSum ps) = true ∧ ps.map (· / pairwiseSum ps) = pi := by
  by_cases h : isMeasure (pairwiseSum ps) = true
  · simp [normalizeBySum, h]
  · simp [normalizeBySum, h]

theorem normalizeBySum_eq_error {ps : List α} (h : isMeasure (pairwiseSum ps) = false) :
    normalizeBySum ps = .error (.degenerate (.badSum (pairwiseSum ps)) .unknown) := by
  simp [normalizeBySum, h]

theorem shares_of_mapM {ps : List α} (h : cs.mapM (·.density x) = .ok ps) :
    shares cs x = normalizeBySum ps := by
  rw [shares, h]
  rfl

theorem scorable_iff : Scorable cs x ↔ ∃ pi, shares cs x = .ok pi := by
  constructor
  · rintro ⟨ps, hps, hsum⟩
    exact ⟨_, (shares_of_mapM hps).trans (normalizeBySum_eq_ok.2 ⟨hsum, rfl⟩)⟩
  · rintro ⟨pi, hpi⟩
    obtain ⟨ps, hps, hnormalize⟩ := bind_eq_ok.1 hpi
    exact ⟨ps, hps, (normalizeBySum_eq_ok.1 hnormalize).1⟩

theorem unscorableWith_of_shares {e : Fault α} (h : shares cs x = .error e) :
    UnscorableWith cs x e := by
  rcases hps : cs.mapM (·.density x) with e' | ps
  · have he : shares cs x = .error e' := by
      rw [shares, hps]
      rfl
    obtain rfl := Except.error.inj (he.symm.trans h)
    obtain ⟨before, c, after, hcs, hbefore, hc⟩ := exists_of_mapM_eq_error hps
    exact .undefined hcs hbefore hc
  · rw [shares_of_mapM hps] at h
    rcases hsum : isMeasure (pairwiseSum ps) with _ | _
    · rw [normalizeBySum_eq_error hsum] at h
      obtain rfl := Except.error.inj h
      exact .unmeasured hps hsum
    · rw [normalizeBySum_eq_ok.2 ⟨hsum, rfl⟩] at h
      cases h

/-! ## One point -/

/-- A point with shares adds what the policy selects. -/
theorem collectPoint_appends {pi : List α} (h : shares cs x = .ok pi) :
    (collectPoint p cs x).Appends (.ok ()) (p.select cs x pi) := by
  rw [collectPoint, h]
  exact (Attempt.appends_ofExcept (.ok pi)).bind (forM_keep_appends _)

/-- A point without shares adds nothing. -/
theorem collectPoint_appends_error {e : Fault α} (h : shares cs x = .error e) :
    (collectPoint p cs x).Appends (.error e) [] := by
  rw [collectPoint, h]
  exact (Attempt.appends_ofExcept (.error e)).bind_error

/-- What a point adds to an empty collection. -/
def added (p : Policy α) (cs : List (Candidate O α)) (x : O) : List (Emitted O α) :=
  ((collectPoint p cs x).runOn []).2

theorem added_of_shares {pi : List α} (h : shares cs x = .ok pi) :
    added p cs x = p.select cs x pi :=
  congrArg Prod.snd (collectPoint_appends h [])

theorem Scorable.appends_added (h : Scorable cs x) :
    (collectPoint p cs x).Appends (.ok ()) (added p cs x) := by
  obtain ⟨pi, hpi⟩ := scorable_iff.1 h
  rw [added_of_shares hpi]
  exact collectPoint_appends hpi

theorem Scorable.emit_eq (h : Scorable cs x) : emit p cs x = .ok (added p cs x) := by
  obtain ⟨pi, hpi⟩ := scorable_iff.1 h
  rw [emit, hpi, added_of_shares hpi]
  rfl

theorem exists_appends_of_not_scorable (h : ¬ Scorable cs x) :
    ∃ e, UnscorableWith cs x e ∧ (collectPoint p cs x).Appends (.error e) [] := by
  rcases hshares : shares cs x with e | pi
  · exact ⟨e, unscorableWith_of_shares hshares, collectPoint_appends_error hshares⟩
  · exact absurd (scorable_iff.2 ⟨pi, hshares⟩) h

/-! ## Lists of points -/

theorem collect_appends {xs : List O} (h : ∀ x ∈ xs, Scorable cs x) :
    (collect p cs xs).Appends (.ok ()) (xs.flatMap (added p cs)) := by
  induction xs with
  | nil => exact Attempt.appends_ofExcept (.ok ())
  | cons x xs ih =>
    obtain ⟨hx, hxs⟩ := List.forall_mem_cons.1 h
    exact hx.appends_added.bind (ih hxs)

theorem collect_append (p : Policy α) (cs : List (Candidate O α)) (xs ys : List O) :
    collect p cs (xs ++ ys) = (do collect p cs xs; collect p cs ys) := by
  induction xs with
  | nil => rfl
  | cons x xs ih =>
    rw [List.cons_append, collect, collect, ih, bind_assoc]

/-- **Emission stops at the first failure.**  A point that can be scored adds the same to
    every collection.  A list of such points adds, in order, what its points add.  If a point
    cannot be scored and all points before it can, then the list fails as this point does,
    because a likelihood is missing or because of their sum; it has added what the points
    before it add, and nothing else.  What was collected before stays as it is.  And a list
    in two parts does what its first part does and then, unless that failed, its second. -/
theorem emission_stops_at_the_first_failure (p : Policy α) (cs : List (Candidate O α)) :
    (∀ x, Scorable cs x →
      (collectPoint p cs x).Appends (.ok ()) (added p cs x) ∧ emit p cs x = .ok (added p cs x)) ∧
    (∀ points, (∀ x ∈ points, Scorable cs x) →
      (collect p cs points).Appends (.ok ()) (points.flatMap (added p cs))) ∧
    (∀ before x after, (∀ y ∈ before, Scorable cs y) → ¬ Scorable cs x →
      ∃ e, UnscorableWith cs x e ∧ (collectPoint p cs x).Appends (.error e) [] ∧
        (collect p cs (before ++ x :: after)).Appends (.error e) (before.flatMap (added p cs))) ∧
    ∀ xs ys, collect p cs (xs ++ ys) = (do collect p cs xs; collect p cs ys) := by
  refine ⟨fun x hx => ⟨hx.appends_added, hx.emit_eq⟩, fun points h => collect_appends h, ?_,
    collect_append p cs⟩
  intro before x after hbefore hx
  obtain ⟨e, he, hadds⟩ := exists_appends_of_not_scorable (p := p) hx
  have hrest : (collect p cs (x :: after)).Appends (.error e) [] := hadds.bind_error
  refine ⟨e, he, hadds, ?_⟩
  rw [collect_append, ← List.append_nil (before.flatMap (added p cs))]
  exact (collect_appends hbefore).bind hrest

/-- Two clusters, in whose hands the numbers 0 and 1 are more or less likely, while the second
    cannot say how likely the number 3 is. -/
def halfInformed : List (Candidate Nat Float) :=
  [⟨fun x => .ok (if x = 0 then 0.75 else 0.25), 1⟩,
    ⟨fun x => if x = 3 then .error .noRow else .ok (if x = 0 then 0.25 else 0.75), 2⟩]

/-- Above one half: the number 3 ends the list, after the numbers 0 and 1 and before another 0,
    and what was collected before stays in front. -/
theorem third_point_ends_the_list :
    ∃ es, (collect ⟨.threshold, .real 0.5, 0.5, by decide, by decide⟩ halfInformed
        [0, 1, 3, 0]).runOn [⟨1, 0.5, 7⟩] = (.error .noRow, ⟨1, 0.5, 7⟩ :: es) ∧
      es.map Emitted.cluster = [0, 1] ∧ es.map Emitted.point = [0, 1] := by
  obtain ⟨-, -, hfails, -⟩ := emission_stops_at_the_first_failure
    ⟨.threshold, .real 0.5, 0.5, by decide, by decide⟩ halfInformed
  have hscorable : ∀ y ∈ [0, 1], Scorable halfInformed y := by
    rw [List.forall_mem_cons, List.forall_mem_singleton]
    exact ⟨⟨[0.75, 0.25], rfl, by decide +kernel⟩, ⟨[0.25, 0.75], rfl, by decide +kernel⟩⟩
  have hthree : ¬ Scorable halfInformed 3 := by
    rintro ⟨ps, hps, -⟩
    cases hps
  obtain ⟨e, -, hpoint, hlist⟩ := hfails [0, 1] 3 [0] hscorable hthree
  obtain rfl : Fault.noRow = e := Except.error.inj (congrArg Prod.fst (hpoint []))
  exact ⟨_, hlist [⟨1, 0.5, 7⟩], by decide +kernel, by decide +kernel⟩

end DirichletMixture
