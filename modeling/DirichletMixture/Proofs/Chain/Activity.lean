/-
  DirichletMixture: how many components are occupied.

  The observations of an iteration go to at least one component, if there are any, and to
  no more components than there are observations.  So much is known of every sample, and
  of what a summary says of the samples.

  * `Pass.activeCount`: the occupied components of an iteration are those that it has
    routed something to, and `Pass.activeCount_mem` says how many these can be;
  * `Leads.activeCount_mem` says the same of the samples of a run;
  * `occupied_components_are_bounded` says what this means for the summary of a run.
-/
import Mathlib.Data.Finset.Card
import Mathlib.Data.Finset.Range
import Mathlib.Data.List.Dedup
import DirichletMixture.Proofs.Exact.Basic
import DirichletMixture.Proofs.Chain.Totals
import DirichletMixture.Proofs.Generator.Seeded
import DirichletMixture.Proofs.Summary.Counts

namespace DirichletMixture

variable {ω O M α : Type}

/-! ## The range -/

/-- The numbers that are possible for the occupied ones among some components with some
    observations: from one to the lesser of the two numbers, and zero only if there are no
    observations. -/
def activeRange (R : Type) [Semiring R] [PartialOrder R] (components observations : Nat) : Set R :=
  if observations = 0 then {0} else Set.Icc 1 ((min components observations : Nat) : R)

theorem activeRange_eq_Icc (R : Type) [Semiring R] [PartialOrder R] (components observations : Nat) :
    activeRange R components observations =
      Set.Icc ((min 1 observations : Nat) : R) ((min components observations : Nat) : R) := by
  rw [activeRange]
  by_cases h : observations = 0
  · simp [h]
  · rw [if_neg h, Nat.min_eq_left (Nat.pos_of_ne_zero h), Nat.cast_one]

/-! ## One iteration -/

/-- The places below `n` that a list holds are as many as its distinct entries. -/
theorem length_filter_count_pos {n : Nat} {z : List Nat} (hz : ∀ k ∈ z, k < n) :
    (((List.range n).map fun k => z.count k).filter fun m => decide (0 < m)).length =
      z.toFinset.card := by
  rw [List.filter_map, List.length_map,
    ← List.toFinset_card_of_nodup (List.nodup_range.filter _)]
  congr 1
  ext k
  simp only [List.mem_toFinset, List.mem_filter, List.mem_range, decide_eq_true_eq,
    List.count_pos_iff, Function.comp_apply]
  exact ⟨fun h => h.2, fun h => ⟨hz k h, h⟩⟩

/-- The distinct entries of a list are no more than its entries, and no more than there
    are numbers to choose from. -/
theorem card_toFinset_mem_activeRange {n : Nat} {z : List Nat} (hz : ∀ k ∈ z, k < n) :
    z.toFinset.card ∈ activeRange Nat n z.length := by
  rw [activeRange_eq_Icc]
  refine ⟨?_, le_min ?_ z.toFinset_card_le⟩
  · cases z with
    | nil => simp
    | cons k z =>
      have hmem : k ∈ (k :: z).toFinset := List.mem_toFinset.2 List.mem_cons_self
      exact (Nat.min_le_left _ _).trans (Finset.card_pos.2 ⟨k, hmem⟩)
  · have hsub : z.toFinset ⊆ Finset.range n := fun k hk =>
      Finset.mem_range.2 (hz k (List.mem_toFinset.1 hk))
    simpa using Finset.card_le_card hsub

section
variable [Scalar α] {f : Family ω O M α} {g : Generator ω α} {p : Pass ω O M α} {u : Unit}
  (hf : f.Counts) (h : (Chain.iterate f g).runOn p.before = (.ok u, p.after))
include hf h

/-- **The occupied components of an iteration** are those that it has routed something to. -/
theorem Pass.activeCount :
    DirichletMixture.activeCount (p.models.map f.candidate) =
      (p.destinations f g).toFinset.card := by
  rw [activeCount_map_candidate, Pass.map_count hf h]
  exact length_filter_count_pos (Pass.destinations_lt h)

/-- There is one at least if there are observations, and there are no more than
    observations or clusters. -/
theorem Pass.activeCount_mem :
    DirichletMixture.activeCount (p.models.map f.candidate) ∈
      activeRange Nat p.before.state.mixture.size p.before.data.length := by
  obtain ⟨fresh, s, -, -, hrouted⟩ := Pass.routed h
  rw [Pass.activeCount hf h, ← hrouted.positions]
  exact card_toFinset_mem_activeRange (Pass.destinations_lt h)

end

/-! ## Whole runs -/

namespace Chain

section
variable [Scalar α] {f : Family ω O M α} {g : Generator ω α} {c₀ c : Chain ω O M α}
  {ps : List (Pass ω O M α)} {plan : Plan α} {data : List O} {s s' : ω}

/-- The summary of the samples. -/
def summary (f : Family ω O M α) (c : Chain ω O M α) : Summary α :=
  summarize (c.samples.map fun ms => ms.map f.candidate)

theorem counts_summary (f : Family ω O M α) (c : Chain ω O M α) :
    (c.summary f).counts = c.samples.map fun ms => activeCount (ms.map f.candidate) := by
  rw [summary, summarize, counts_ofCounts, List.map_map]
  rfl

variable (h : start f plan data s = (.ok c₀, s')) (hrun : Leads f g c₀ ps c)
include h hrun

/-- A sample has as many components as there are clusters. -/
theorem Leads.length_sample {ms : List M} (hms : ms ∈ c.samples) : ms.length = plan.clusters := by
  obtain ⟨p, hp, rfl⟩ := hrun.exists_pass_of_sample h hms
  obtain ⟨fresh, s, z, -, hlen, hrouted⟩ := hrun.exists_routed hp
  rw [hrouted.length, hlen, (start_mixture h).1]

variable (hf : f.Counts)
include hf

/-- **The occupied components of a sample** are those that its iteration has routed
    something to. -/
theorem Leads.exists_activeCount {ms : List M} (hms : ms ∈ c.samples) :
    ∃ p ∈ ps, p.models = ms ∧
      activeCount (ms.map f.candidate) = (p.destinations f g).toFinset.card := by
  obtain ⟨p, hp, rfl⟩ := hrun.exists_pass_of_sample h hms
  obtain ⟨-, hiterate⟩ := hrun.of_mem hp
  exact ⟨p, hp, rfl, Pass.activeCount hf hiterate⟩

/-- **A sample has occupied components**, if there are observations, and no more than
    observations or clusters. -/
theorem Leads.activeCount_mem {ms : List M} (hms : ms ∈ c.samples) :
    activeCount (ms.map f.candidate) ∈ activeRange Nat plan.clusters data.length := by
  obtain ⟨-, hdata, -, -⟩ := start_blank h
  obtain ⟨p, hp, rfl⟩ := hrun.exists_pass_of_sample h hms
  obtain ⟨⟨qs, hbefore⟩, hiterate⟩ := hrun.of_mem hp
  have hrange := Pass.activeCount_mem hf hiterate
  rwa [hbefore.data, hbefore.size, hdata, (start_mixture h).1] at hrange

theorem Leads.mem_activeRange {n : Nat} (hn : n ∈ (c.summary f).counts) :
    n ∈ activeRange Nat plan.clusters data.length := by
  rw [counts_summary] at hn
  obtain ⟨ms, hms, rfl⟩ := List.mem_map.1 hn
  exact hrun.activeCount_mem h hf hms

omit hf in
/-- With samples, the summary is that of their counts. -/
theorem Leads.summary_eq (hne : c.samples ≠ []) :
    c.summary f = Summary.ofCounts plan.clusters (c.summary f).counts := by
  have hclusters : ((c.samples.map fun ms => ms.map f.candidate).head?.map List.length).getD 0 =
      plan.clusters := by
    obtain ⟨ms, rest, hsamples⟩ := List.exists_cons_of_ne_nil hne
    have hms : ms ∈ c.samples := hsamples ▸ List.mem_cons_self
    simp [hsamples, hrun.length_sample h hms]
  rw [counts_summary, summary, summarize, hclusters, List.map_map]
  rfl

/-- The mean of the samples, taken exactly, is in the range of their counts. -/
theorem Leads.mean_mem_activeRange (K : Type) [Exact K] (hne : c.samples ≠ []) :
    (Summary.ofCounts plan.clusters (c.summary f).counts : Summary K).mean ∈
      activeRange K plan.clusters data.length := by
  have hcounts : (c.summary f).counts ≠ [] := by
    rw [counts_summary]
    simpa using hne
  rw [activeRange_eq_Icc]
  refine mean_ofCounts_mem_Icc hcounts fun n hn => ?_
  have hrange := hrun.mem_activeRange h hf hn
  rwa [activeRange_eq_Icc, Nat.cast_id, Nat.cast_id] at hrange

end

/-- **The numbers of occupied components are bounded.**  In every run from the start of a
    chain, whatever its requests and whether they fail, let components count.  The number
    of occupied components of a sample is the number of distinct destinations that its
    iteration has drawn.  All these numbers, the keys of the histogram and, if there are
    samples, their mean in exact arithmetic lie between one and the lesser of the numbers
    of clusters and of observations, or are zero if there are no observations.  With
    samples, the summary is that of their counts and gives the number of the clusters and of
    the samples; without any, the mean is zero. -/
theorem occupied_components_are_bounded [Scalar α] (f : Family ω O M α) (g : Generator ω α)
    (hf : f.Counts) {plan : Plan α} {data : List O} {s s' : ω} {c₀ c : Chain ω O M α}
    {ps : List (Pass ω O M α)} (h : start f plan data s = (.ok c₀, s'))
    (hrun : Leads f g c₀ ps c) :
    (∀ n ∈ (c.summary f).counts, n ∈ activeRange Nat plan.clusters data.length) ∧
    (∀ bin ∈ (c.summary f).histogram, bin.1 ∈ activeRange Nat plan.clusters data.length) ∧
    (c.samples ≠ [] →
      (c.summary f).clusters = plan.clusters ∧ (c.summary f).samples = c.samples.length ∧
      c.summary f = Summary.ofCounts plan.clusters (c.summary f).counts ∧
      ∀ (K : Type) [Exact K],
        (Summary.ofCounts plan.clusters (c.summary f).counts : Summary K).mean ∈
          activeRange K plan.clusters data.length) ∧
    (c.samples = [] → (c.summary f).mean = 0) ∧
    (c.summary f).counts = (c.samples.map fun ms => activeCount (ms.map f.candidate)) ∧
    ∀ ms ∈ c.samples, ∃ p ∈ ps, p.models = ms ∧
      activeCount (ms.map f.candidate) = (p.destinations f g).toFinset.card := by
  refine ⟨fun n hn => hrun.mem_activeRange h hf hn, ?_, ?_, ?_, counts_summary f c,
    fun ms hms => hrun.exists_activeCount h hf hms⟩
  · intro bin hbin
    refine hrun.mem_activeRange h hf ?_
    rw [summary, summarize] at hbin ⊢
    rw [counts_ofCounts]
    exact mem_counts_of_mem_histogram hbin
  · intro hne
    have hsummary := hrun.summary_eq h hne
    refine ⟨?_, ?_, hsummary, fun K _ => hrun.mean_mem_activeRange h hf K hne⟩
    · rw [hsummary, clusters_ofCounts]
    · rw [hsummary, samples_ofCounts, counts_summary, List.length_map]
  · intro hnil
    rw [summary, hnil]
    rfl

/-- A call that fails in its second iteration, and two iterations after it: three numbers
    go to both tallies first, and all to one of them in the end. -/
theorem faltering_run_is_summarized :
    ∃ c, after (tallies nearby) Script.besideSizes [.cluster none, .iterate, .iterate]
        faltering = c ∧
      (c.summary (tallies nearby)).counts = [2, 1] ∧
      (c.summary (tallies nearby)).clusters = 2 ∧ (c.summary (tallies nearby)).samples = 2 ∧
      (Summary.ofCounts 2 [2, 1] : Summary ℚ).mean ∈ activeRange ℚ 2 3 := by
  obtain ⟨-, -, hsamples, -⟩ := occupied_components_are_bounded (tallies nearby)
    Script.besideSizes (tabulated_counts nearby none _ _)
    (start_tallies nearby (Plan.ofPair 0 2 3 Nat.two_pos) [0, 1, 1] (⟨[], 0, 0⟩, [2, 3]))
    (leads_after (tallies nearby) Script.besideSizes [.cluster none, .iterate, .iterate] faltering)
  generalize hc : after (tallies nearby) Script.besideSizes [.cluster none, .iterate, .iterate]
    faltering = c at hsamples
  have hcounts : (c.summary (tallies nearby)).counts = [2, 1] := by
    rw [← hc]
    decide +kernel
  have hlength : c.samples.length = 2 := by
    rw [← hc]
    decide +kernel
  have hne : c.samples ≠ [] := List.ne_nil_of_length_eq_add_one hlength
  obtain ⟨hclusters, hnumber, -, hmean⟩ := hsamples hne
  rw [hcounts] at hmean
  exact ⟨c, rfl, hcounts, hclusters, hnumber.trans hlength, hmean ℚ⟩

/-- Before its first iteration, a chain with one observation has no samples, and their mean
    is out of the range. -/
theorem fresh_chain_has_no_mean :
    start (evenTallies nearby) (Plan.exactPair (K := ℚ) 0 1 1 Nat.one_pos) [0] 0 =
        (.ok (ofEvenTallies (Plan.exactPair 0 1 1 Nat.one_pos) [0] 0), 0) ∧
      ((ofEvenTallies (Plan.exactPair (K := ℚ) 0 1 1 Nat.one_pos) [0] 0).summary
        (evenTallies nearby)).mean = 0 ∧
      (0 : ℚ) ∉ activeRange ℚ 2 1 := by
  refine ⟨start_evenTallies nearby _ _ _, rfl, ?_⟩
  simp [activeRange]

end Chain

end DirichletMixture
