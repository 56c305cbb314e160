/-
  DirichletMixture: the calls that weights and indices take.

  Drawing an index takes one uniform draw, if the weights can be drawn from at all.
  Breaking the stick takes one beta draw for each component: in exact arithmetic, with a
  positive concentration, both shapes are positive for the last component too, so that no
  share is taken without a draw.

  * `locate_lt`: the index that is located is one of the weights;
  * `drawIndex_eq_ok` and `drawIndex_eq_error`: what an index takes;
  * `exists_shares`: shares can be drawn with positive shapes, and
    `exists_recorded_shares`: each of them takes one call;
  * `shareCalls` are the calls for some counts of observations, and
    `exists_runOn_breakStick` says that the stick is broken with these.
-/
import Mathlib.Algebra.BigOperators.Ring.Finset
import DirichletMixture.Proofs.Exact.Basic
import DirichletMixture.Generator.Recorded
import DirichletMixture.Generator.Script
import DirichletMixture.Proofs.Attempt
import DirichletMixture.Proofs.Weights.Shares
import DirichletMixture.Weights.Draw

namespace DirichletMixture

variable {ω α K : Type}

/-! ## Indices -/

section
variable [Scalar α] {g : Generator ω α} {w : List α}

theorem lastPositive_lt (hw : w ≠ []) : lastPositive w < w.length := by
  induction w with
  | nil => exact absurd rfl hw
  | cons x xs ih =>
    rw [lastPositive]
    split_ifs with hany
    · have hne : xs ≠ [] := by
        rintro rfl
        simp at hany
      exact Nat.succ_lt_succ (ih hne)
    · exact Nat.succ_pos _

theorem locate_lt (hw : w ≠ []) (u : α) : locate w u < w.length := by
  unfold locate
  by_cases hk : insertionPoint u (cumulative w) < w.length
  · simp only [hk, if_true]
  · simp only [hk, if_false]
    exact lastPositive_lt hw

theorem length_normalizeByMax {p : List α} (h : normalizeByMax w = .ok p) :
    p.length = w.length := by
  unfold normalizeByMax at h
  by_cases hm : isMeasure ((maximum? w).getD 0) = true
  · simp only [hm, if_true] at h
    obtain rfl := Except.ok.inj h
    exact List.length_map _
  · simp only [hm] at h
    cases h

theorem normalizeByMax_eq_error {e : Fault α} (h : normalizeByMax w = .error e) :
    ∃ cause, e = .degenerate cause .unknown := by
  unfold normalizeByMax at h
  by_cases hm : isMeasure ((maximum? w).getD 0) = true
  · simp only [hm, if_true] at h
    cases h
  · simp only [hm] at h
    exact ⟨_, (Except.error.inj h).symm⟩

/-- Drawing an index fails without a call, and only for unusable weights. -/
theorem drawIndex_eq_error {e : Fault α} {s s' : ω}
    (h : (drawIndex g w).runOn s = (.error e, s')) :
    s' = s ∧ ∃ cause, e = .degenerate cause .unknown := by
  unfold drawIndex at h
  split at h
  · obtain ⟨he, rfl⟩ := Prod.mk.inj h
    exact ⟨rfl, _, (Except.error.inj he).symm⟩
  · cases h

/-- An index is located with one uniform draw. -/
theorem drawIndex_eq_ok {k : Nat} {s s' : ω} :
    (drawIndex g w).runOn s = (.ok k, s') ↔
      ∃ total, checkWeights w = .ok total ∧
        k = locate w ((1 - (g.uniform s).1) * total) ∧ s' = (g.uniform s).2 := by
  unfold drawIndex
  rcases checkWeights w with e | total
  · simp
  · rw [Attempt.runOn_bind_ok (Attempt.runOn_lift _ _)]
    simp [eq_comm]

theorem lt_length_of_drawIndex {k : Nat} {s s' : ω}
    (h : (drawIndex g w).runOn s = (.ok k, s')) : k < w.length := by
  obtain ⟨total, hcheck, rfl, -⟩ := drawIndex_eq_ok.1 h
  have hne : w ≠ [] := by
    rintro rfl
    cases hcheck
  exact locate_lt hne _

theorem calls_of_drawIndex {k : Nat} {r r' : Recorded ω α}
    (h : (drawIndex g.recorded w).runOn r = (.ok k, r')) : r'.calls = r.calls ++ [.uniform] := by
  obtain ⟨total, -, -, rfl⟩ := drawIndex_eq_ok.1 h
  exact Recorded.calls_note _ _ _

end

/-! ## Shares -/

variable {g : Generator ω K}

/-- Shares that can be drawn are drawn alike with a record, which shows one beta call for
    each of them. -/
theorem exists_recorded_shares {shapes : List (K × K)} {shares : List K} {s' : ω}
    {r : Recorded ω K} (h : (g.shares shapes).runOn r.source = (.ok shares, s')) :
    ∃ r', (g.recorded.shares shapes).runOn r = (.ok shares, r') ∧ r'.source = s' ∧
      r'.calls = r.calls ++ shapes.map fun p => .beta p.1 p.2 := by
  induction shapes generalizing shares r with
  | nil =>
    cases h
    exact ⟨r, rfl, rfl, (List.append_nil _).symm⟩
  | cons p shapes ih =>
    rw [Generator.shares_cons] at h
    obtain ⟨b, s₁, hb, h₁⟩ := Attempt.runOn_bind_eq_ok.1 h
    obtain ⟨bs, s₂, hbs, h₂⟩ := Attempt.runOn_bind_eq_ok.1 h₁
    cases h₂
    have hnoted : (g.recorded.beta p.1 p.2).runOn r = (.ok b, r.note (.beta p.1 p.2) s₁) := by
      simp [Generator.recorded, Recorded.attempt, hb]
    obtain ⟨r', hrest, hsource, hcalls⟩ := ih (r := r.note (.beta p.1 p.2) s₁) hbs
    refine ⟨r', ?_, hsource, ?_⟩
    · rw [Generator.shares_cons, Attempt.runOn_bind_ok hnoted, Attempt.runOn_bind_ok hrest,
        Attempt.runOn_pure]
    · rw [hcalls, Recorded.calls_note, List.append_assoc, List.map_cons, List.singleton_append]

variable [Exact K]

/-- Beta draws with positive shapes succeed. -/
def Generator.ServesShares (g : Generator ω K) : Prop :=
  ∀ a b s, 0 < a → 0 < b → ∃ x s', (g.beta a b).runOn s = (.ok x, s')

theorem Generator.ServesShares.focus {τ : Type} (hg : g.ServesShares) (get : τ → ω)
    (put : ω → τ → τ) : (g.focus get put).ServesShares := by
  intro a b t ha hb
  obtain ⟨x, s', hx⟩ := hg a b (get t) ha hb
  refine ⟨x, put s' t, ?_⟩
  simp only [Generator.focus, Attempt.runOn_focus, hx]

theorem servesShares_script : (Script.generator : Generator (Script K) K).ServesShares := by
  intro a b s ha hb
  show ∃ x s', (Script.beta a b).runOn s = (.ok x, s')
  rw [Script.beta, if_pos ha, if_pos hb, Attempt.runOn_bind_ok (Attempt.runOn_lift _ _)]
  exact ⟨_, _, rfl⟩

/-- Shares can be drawn with positive shapes. -/
theorem exists_shares (hg : g.ServesShares) {shapes : List (K × K)}
    (hshapes : ∀ p ∈ shapes, 0 < p.1 ∧ 0 < p.2) (s : ω) :
    ∃ shares s', (g.shares shapes).runOn s = (.ok shares, s') := by
  induction shapes generalizing s with
  | nil => exact ⟨[], s, rfl⟩
  | cons p shapes ih =>
    obtain ⟨⟨ha, hb⟩, hrest⟩ := List.forall_mem_cons.1 hshapes
    obtain ⟨b, s₁, hdraw⟩ := hg p.1 p.2 s ha hb
    obtain ⟨bs, s₂, hdraws⟩ := ih hrest s₁
    refine ⟨b :: bs, s₂, ?_⟩
    rw [Generator.shares_cons, Attempt.runOn_bind_ok hdraw, Attempt.runOn_bind_ok hdraws,
      Attempt.runOn_pure]

/-! ## Weights -/

/-- The calls for the shares of components with these counts: the shapes of component `k`
    are one more than its count, and the concentration plus the counts of all components
    after it. -/
def shareCalls (alpha0 : K) (ns : List Nat) : List (Call K) :=
  ns.mapIdx fun k (n : Nat) => .beta (1 + n) (alpha0 + ((ns.drop (k + 1)).sum : Nat))

@[simp] theorem length_shareCalls (alpha0 : K) (ns : List Nat) :
    (shareCalls alpha0 ns).length = ns.length := by
  rw [shareCalls, List.length_mapIdx]

/-- They are the calls for shares with the shapes of these components. -/
theorem shareCalls_eq (alpha0 : K) (ns : List Nat) :
    shareCalls alpha0 ns =
      (shareShapes alpha0 (ns.map Nat.cast)).map fun p => .beta p.1 p.2 := by
  rw [shareCalls, shareShapes, map_mapIdx]
  refine List.ext_getElem (by simp) ?_
  intro k h₁ h₂
  simp [Nat.cast_list_sum, List.map_drop]

theorem second_shape_pos {alpha0 : K} (h : 0 < alpha0) (ns : List Nat) :
    0 < alpha0 + (ns.sum : K) :=
  add_pos_of_pos_of_nonneg h (Nat.cast_nonneg _)

/-- **Breaking the stick** takes the beta draws for all components, and succeeds. -/
theorem exists_runOn_breakStick (hg : g.ServesShares) {alpha0 : K} (h : 0 < alpha0)
    (ns : List Nat) (r : Recorded ω K) :
    ∃ w r', (breakStick g.recorded alpha0 (ns.map Nat.cast)).runOn r = (.ok w, r') ∧
      r'.calls = r.calls ++ shareCalls alpha0 ns := by
  have hcounts := natCast_counts_nonneg (K := K) ns
  obtain ⟨shares, s', hshares⟩ := exists_shares hg (shareShapes_pos h hcounts) r.source
  obtain ⟨r', hrecorded, -, hcalls⟩ := exists_recorded_shares hshares
  refine ⟨pieces shares, r', runOn_breakStick h hcounts hrecorded, ?_⟩
  rw [hcalls, shareCalls_eq]

end DirichletMixture
