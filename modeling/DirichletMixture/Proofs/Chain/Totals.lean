/-
  DirichletMixture: what components hold, and how often they were chosen.

  A component holds as many observations as were routed to it.  The totals of a mixture
  add these numbers up over all completed iterations, the samples show them for some of
  the iterations only.

  * `Pass.count_eq`: the count of a component that an iteration leaves behind is the number
    of observations that the iteration has routed there;
  * `Leads.totals`: the totals are sums over the completed iterations, and
    `Leads.samples_sublist` that the samples are some of these;
  * `totals_cover_samples` compares the two, and says what this means for points that are
    emitted above a threshold.
-/
import Mathlib.Algebra.Order.BigOperators.Group.List
import DirichletMixture.Proofs.Exact.Basic
import DirichletMixture.Proofs.Chain.Conservation
import DirichletMixture.Proofs.Chain.Destinations
import DirichletMixture.Proofs.Chain.Tallies
import DirichletMixture.Proofs.Emission.Selection
import DirichletMixture.Proofs.Generator.Seeded

namespace DirichletMixture

variable {ω O M α β : Type}

/-! ## Counts -/

/-- A share has an entry for every time that its component was chosen. -/
theorem length_share {k : Nat} {z : List Nat} {xs : List β} (h : z.length = xs.length) :
    (share k z xs).length = z.count k := by
  induction z generalizing xs with
  | nil => rfl
  | cons i z ih =>
    cases xs with
    | nil => cases h
    | cons x xs =>
      have hrest := ih (Nat.succ.inj h)
      by_cases hik : i = k
      · subst hik
        rw [share_cons_self, List.length_cons, hrest, List.count_cons_self]
      · rw [share_cons_of_ne hik, hrest, List.count_cons_of_ne hik]

/-- The counts after an iteration are how often each component was chosen. -/
theorem Routed.map_count {c : Component O M α} (hc : c.Counts) {data : List O} {z : List Nat}
    {fresh ms : List M} (hfresh : ∀ m ∈ fresh, c.count m = 0) (h : Routed c data z fresh ms) :
    ms.map c.count = (List.range fresh.length).map fun k => z.count k := by
  have hshares : ms.map c.count =
      (List.range fresh.length).map fun k => (share k z data).length := by
    refine h.map_eq c.count List.length ?_
    intro m hm m' m'' xs hobs hfin
    rw [hc.finalize m' m'' hfin, hc.observeAll hobs, hfresh m hm, Nat.zero_add]
  rw [hshares]
  exact List.map_congr_left fun k _ => length_share h.positions

/-- The count of the component at a place; zero if there is none. -/
def Component.countAt (c : Component O M α) (ms : List M) (k : Nat) : Nat :=
  (ms.map c.count).getD k 0

section
variable [Scalar α] {f : Family ω O M α} {g : Generator ω α}

/-- The counts that a completed iteration leaves behind. -/
theorem Pass.map_count (hf : f.Counts) {p : Pass ω O M α} {u : Unit}
    (h : (Chain.iterate f g).runOn p.before = (.ok u, p.after)) :
    p.models.map f.count =
      (List.range p.before.state.mixture.size).map fun k => (p.destinations f g).count k := by
  obtain ⟨fresh, s, hdraw, hlen, hrouted⟩ := Pass.routed h
  rw [← hlen]
  exact hrouted.map_count hf.toCounts (hf.fresh _ _ _ _ hdraw)

theorem Pass.destinations_lt {p : Pass ω O M α} {u : Unit}
    (h : (Chain.iterate f g).runOn p.before = (.ok u, p.after)) :
    ∀ k ∈ p.destinations f g, k < p.before.state.mixture.size := by
  obtain ⟨fresh, s, -, hlen, hrouted⟩ := Pass.routed h
  rw [← hlen]
  exact hrouted.places

/-- **A component counts the observations that were routed to it.** -/
theorem Pass.count_eq (hf : f.Counts) {p : Pass ω O M α} {u : Unit}
    (h : (Chain.iterate f g).runOn p.before = (.ok u, p.after)) (k : Nat) :
    f.countAt p.models k = (p.destinations f g).count k := by
  rw [Component.countAt, Pass.map_count hf h, List.getD_eq_getElem?_getD, List.getElem?_map]
  by_cases hk : k < p.before.state.mixture.size
  · rw [List.getElem?_range hk]
    rfl
  · rw [List.getElem?_eq_none (by rw [List.length_range]; omega)]
    exact (List.count_eq_zero.2 fun hmem => hk (Pass.destinations_lt h k hmem)).symm

end

/-! ## Totals -/

namespace Mixture

theorem totals_replace (count : M → Nat) (m : Mixture M α) (ms : List M) :
    (m.replace count ms).totals = List.zipWith (· + ·) m.totals (ms.map count) := by
  rw [totals, totals, replace, List.zipWith_map]
  exact List.map_zipWith

/-- An iteration adds to the total of a cluster what its component has absorbed. -/
theorem getD_totals_replace (c : Component O M α) {m : Mixture M α} {ms : List M}
    (h : ms.length = m.size) (k : Nat) :
    (m.replace c.count ms).totals.getD k 0 = m.totals.getD k 0 + c.countAt ms k := by
  have hlen : m.totals.length = (ms.map c.count).length := by
    rw [totals, List.length_map, List.length_map, h, size]
  rw [totals_replace, Component.countAt]
  by_cases hk : k < m.totals.length
  · have hk' : k < (ms.map c.count).length := hlen ▸ hk
    simp only [List.getD_eq_getElem?_getD, List.getElem?_zipWith, List.getElem?_eq_getElem hk,
      List.getElem?_eq_getElem hk', Option.getD_some]
  · have hk' : ¬ k < (ms.map c.count).length := hlen ▸ hk
    simp only [List.getD_eq_getElem?_getD, List.getElem?_zipWith,
      List.getElem?_eq_none (not_lt.1 hk), Option.getD_none, Nat.zero_add,
      List.getElem?_eq_none (not_lt.1 hk')]

end Mixture

/-! ## Whole runs -/

theorem everyNth_sublist (n k : Nat) (xs : List β) : (everyNth n k xs).Sublist xs := by
  induction xs generalizing k with
  | nil => rw [everyNth_nil]
  | cons x xs ih =>
    cases k with
    | zero => exact (ih (n - 1)).cons_cons x
    | succ k => exact (ih k).cons x

namespace Chain

variable [Scalar α] {f : Family ω O M α} {g : Generator ω α} {c₀ c : Chain ω O M α}
  {ps : List (Pass ω O M α)}

/-- **The totals of a run** are what the components of its completed iterations hold
    together. -/
theorem Leads.totals (h : Leads f g c₀ ps c) (k : Nat) :
    c.state.mixture.totals.getD k 0 =
      c₀.state.mixture.totals.getD k 0 + (ps.map fun p => f.countAt p.models k).sum := by
  induction h with
  | nil => rfl
  | idle _ hsame ih => rw [hsame.mixture]; exact ih
  | @pass qs b b' hb hrun ih =>
    have hlen : b'.state.mixture.models.length = b.state.mixture.size := by
      rw [Mixture.length_models, (hb.pass hrun).size, hb.size]
    rw [iterate_mixture hrun, Mixture.getD_totals_replace f.toComponent hlen, ih, List.map_append,
      List.sum_append, List.map_singleton, List.sum_singleton, Nat.add_assoc]
    rfl

/-- The samples are what some of the completed iterations leave behind. -/
theorem Leads.samples_sublist (h : Leads f g c₀ ps c) (hi : c₀.iteration = 0)
    (hs : c₀.samples = []) : c.samples.Sublist (ps.map Pass.models) := by
  rw [h.samples hi hs]
  exact everyNth_sublist _ _ _

theorem start_totals {plan : Plan α} {data : List O} {s s' : ω}
    (h : start f plan data s = (.ok c₀, s')) (k : Nat) :
    c₀.state.mixture.totals.getD k 0 = 0 := by
  obtain ⟨-, hsum, -⟩ := start_mixture h
  rw [List.getD_eq_getElem?_getD]
  rcases hk : c₀.state.mixture.totals[k]? with _ | n
  · rfl
  · exact List.sum_eq_zero_iff.1 hsum n (List.mem_of_getElem? hk)

section
variable {plan : Plan α} {data : List O} {s s' : ω} (h : start f plan data s = (.ok c₀, s'))
include h

theorem Leads.totals_of_start (hrun : Leads f g c₀ ps c) (k : Nat) :
    c.state.mixture.totals.getD k 0 = (ps.map fun p => f.countAt p.models k).sum := by
  rw [hrun.totals k, start_totals h k, Nat.zero_add]

/-- Together, the components of the samples hold no more than the totals. -/
theorem Leads.sum_samples_le (hrun : Leads f g c₀ ps c) (k : Nat) :
    (c.samples.map fun ms => f.countAt ms k).sum ≤ c.state.mixture.totals.getD k 0 := by
  obtain ⟨-, -, hi, hs⟩ := start_blank h
  rw [hrun.totals_of_start h k]
  have hsub := (hrun.samples_sublist hi hs).map fun ms => f.countAt ms k
  rw [List.map_map] at hsub
  exact hsub.sum_le_sum fun _ _ => Nat.zero_le _

/-- If every iteration is kept, they hold exactly the totals. -/
theorem Leads.sum_samples_eq (hrun : Leads f g c₀ ps c) (hburnin : plan.burnin = 0)
    (hthin : plan.thin = 1) (k : Nat) :
    (c.samples.map fun ms => f.countAt ms k).sum = c.state.mixture.totals.getD k 0 := by
  obtain ⟨hplan, -, hi, hs⟩ := start_blank h
  rw [hrun.totals_of_start h k, hrun.samples hi hs, hplan, hburnin, hthin, everyNth_one,
    List.map_map]
  rfl

/-- **A cluster has a total** exactly if a completed iteration has routed something there. -/
theorem Leads.total_pos_iff (hf : f.Counts) (hrun : Leads f g c₀ ps c) (k : Nat) :
    0 < c.state.mixture.totals.getD k 0 ↔ ∃ p ∈ ps, k ∈ p.destinations f g := by
  have hcounts : ∀ p ∈ ps, f.countAt p.models k = (p.destinations f g).count k := by
    intro p hp
    obtain ⟨-, hiterate⟩ := hrun.of_mem hp
    exact Pass.count_eq hf hiterate k
  rw [hrun.totals_of_start h k, List.map_congr_left hcounts, Nat.pos_iff_ne_zero, ne_eq,
    List.sum_eq_zero_iff]
  simp only [List.mem_map, forall_exists_index, and_imp, forall_apply_eq_imp_iff₂, not_forall,
    exists_prop, ← ne_eq, ← Nat.pos_iff_ne_zero, List.count_pos_iff]

/-- A component that is occupied in a sample has a total. -/
theorem Leads.total_pos_of_sample (hrun : Leads f g c₀ ps c) {ms : List M} (hms : ms ∈ c.samples)
    {k : Nat} (hk : 0 < f.countAt ms k) : 0 < c.state.mixture.totals.getD k 0 := by
  have hle := List.single_le_sum (fun _ _ => Nat.zero_le _) _
    (List.mem_map_of_mem (f := fun ms => f.countAt ms k) hms)
  exact hk.trans_le (hle.trans (hrun.sum_samples_le h k))

end

/-- **The totals cover the samples.**  In every run from the start of a chain, whatever its
    requests and whether they fail, the total of a cluster is at least what its components
    hold in all samples together, and no more than that if every iteration is kept.  If
    components count, a cluster has a total exactly if a completed iteration has routed an
    observation there.  So a component that is occupied in some sample is never kept from
    points for want of a total: above a threshold, its cluster gets every point of which it
    has a large enough share. -/
theorem totals_cover_samples (f : Family ω O M α) (g : Generator ω α) {plan : Plan α}
    {data : List O} {s s' : ω} (h : start f plan data s = (.ok c₀, s'))
    (hrun : Leads f g c₀ ps c) (k : Nat) :
    (c.samples.map fun ms => f.countAt ms k).sum ≤ c.state.mixture.totals.getD k 0 ∧
    (plan.burnin = 0 → plan.thin = 1 →
      (c.samples.map fun ms => f.countAt ms k).sum = c.state.mixture.totals.getD k 0) ∧
    (f.Counts → (0 < c.state.mixture.totals.getD k 0 ↔ ∃ p ∈ ps, k ∈ p.destinations f g)) ∧
    ∀ ms ∈ c.samples, 0 < f.countAt ms k → ∀ (policy : Policy α) x pi, policy.mode = .threshold →
      shares (c.state.mixture.candidates f.toComponent) x = .ok pi →
      ∃ es, emit policy (c.state.mixture.candidates f.toComponent) x = .ok es ∧
        ∀ weight, (⟨k, weight, x⟩ : Emitted O α) ∈ es ↔
          pi[k]? = some weight ∧ policy.threshold < weight := by
  refine ⟨hrun.sum_samples_le h k, fun hburnin hthin => hrun.sum_samples_eq h hburnin hthin k,
    fun hf => hrun.total_pos_iff h hf k, ?_⟩
  intro ms hms hk policy x pi hmode hshares
  obtain ⟨es, hemit, hmem⟩ := exists_emit_of_threshold hmode hshares
  refine ⟨es, hemit, fun weight => (hmem k weight).trans ⟨?_, ?_⟩⟩
  · rintro ⟨-, -, hweight, hlt, -⟩
    exact ⟨hweight, hlt⟩
  · rintro ⟨hweight, hlt⟩
    have htotal := hrun.total_pos_of_sample h hms hk
    rw [Mixture.totals, List.getD_eq_getElem?_getD, List.getElem?_map] at htotal
    rcases hcluster : c.state.mixture.clusters[k]? with _ | cluster <;> rw [hcluster] at htotal
    · cases htotal
    · exact ⟨⟨f.density cluster.model, cluster.total⟩, by simp [Mixture.candidates, hcluster],
        hweight, hlt, htotal⟩

/-- Exact tallies of which every second iteration is kept. -/
def thinnedTallies : Chain (Recorded (ScriptAndSizes ℚ) ℚ) Nat (Tally Nat) ℚ :=
  ofRecordedTallies (Plan.exactPair 0 2 3 Nat.two_pos) [0, 1, 1] (⟨[], 0, 0⟩, [2, 3])

/-- A call that fails in its second iteration, and two iterations after it.  The second
    cluster is empty in the end.  It was occupied in the first sample, so it gets the
    number 1, of which it has two thirds. -/
theorem empty_cluster_gets_its_point :
    ∃ c, after (recordedTallies nearby) Script.besideSizes.recorded
        [.cluster none, .iterate, .iterate] thinnedTallies = c ∧
      c.state.mixture.occupancy = [3, 0] ∧
      ∃ es, emit ⟨.threshold, .real (1 / 2), 1 / 2, by norm_num, by norm_num⟩
          (c.state.mixture.candidates (recordedTallies nearby).toComponent) 1 = .ok es ∧
        (⟨1, 2 / 3, 1⟩ : Emitted Nat ℚ) ∈ es := by
  obtain ⟨-, -, -, hemit⟩ := totals_cover_samples (recordedTallies nearby)
    Script.besideSizes.recorded (start_recordedTallies nearby (Plan.exactPair 0 2 3 Nat.two_pos)
      [0, 1, 1] (⟨[], 0, 0⟩, [2, 3]))
    (leads_after (recordedTallies nearby) Script.besideSizes.recorded
      [.cluster none, .iterate, .iterate] thinnedTallies) 1
  generalize hc : after (recordedTallies nearby) Script.besideSizes.recorded
    [.cluster none, .iterate, .iterate] thinnedTallies = c at hemit
  have hsample : ∃ ms ∈ c.samples, 0 < (recordedTallies (α := ℚ) nearby).countAt ms 1 := by
    rw [← hc]
    decide +kernel
  have hoccupancy : c.state.mixture.occupancy = [3, 0] := by
    rw [← hc]
    decide +kernel
  have hscored : (shares (c.state.mixture.candidates (recordedTallies nearby).toComponent)
      1).toOption = some [1 / 3, 2 / 3] := by
    rw [← hc]
    decide +kernel
  obtain ⟨ms, hms, hcount⟩ := hsample
  rcases hshares : shares (c.state.mixture.candidates (recordedTallies nearby).toComponent) 1
    with e | pi <;> rw [hshares] at hscored
  · cases hscored
  obtain rfl := Option.some.inj hscored
  obtain ⟨es, hes, hmem⟩ := hemit ms hms hcount
    ⟨.threshold, .real (1 / 2), 1 / 2, by norm_num, by norm_num⟩ 1 _ rfl hshares
  exact ⟨c, rfl, hoccupancy, es, hes, (hmem (2 / 3)).2 ⟨rfl, by norm_num⟩⟩

end Chain

end DirichletMixture
