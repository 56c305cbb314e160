/-
  DirichletMixture: the parts of a summary agree.

  The histogram of a summary says how often each count occurs, the mean and the deviation are
  taken over all samples.  Both ways lead to the same numbers: an average over the samples is
  an average over the counts that occur, weighted with their fractions.

  * `pairwise_occurring`: the counts that occur come in ascending order;
  * `average_map_eq`: averages over the samples and over the histogram;
  * `Summary.Consistent` says what the parts of a summary have to do with each other, and
    `consistent_ofCounts` that they do;
  * `Summary.occurrences` is read off a histogram, and `occurrences_ofCounts` says that it is
    the number of samples;
  * `parts_of_a_summary_agree` puts this together.
-/
import Mathlib.Algebra.BigOperators.Group.Finset.Basic
import Mathlib.Algebra.BigOperators.Ring.List
import Mathlib.Algebra.Order.BigOperators.Group.List
import Mathlib.Data.List.Forall2
import Mathlib.Tactic.Ring
import DirichletMixture.Proofs.Exact.Basic
import DirichletMixture.Proofs.Exact.Elementary
import DirichletMixture.Proofs.Summary.Counts

namespace DirichletMixture

variable {O α β K : Type}

/-! ## The histogram -/

theorem pairwise_occurring (counts : List Nat) : (occurring counts).Pairwise (· < ·) :=
  List.pairwise_lt_range.filter _

theorem nodup_occurring (counts : List Nat) : (occurring counts).Nodup :=
  (pairwise_occurring counts).imp Nat.ne_of_lt

theorem keys_histogram [Scalar α] (clusters : Nat) (counts : List Nat) :
    (Summary.ofCounts clusters counts : Summary α).histogram.map Prod.fst = occurring counts := by
  rw [histogram_ofCounts, List.map_map]
  exact List.map_id _

theorem lookup_map_mk (f : Nat → β) (ks : List Nat) (k : Nat) :
    (ks.map fun k => (k, f k)).lookup k = if k ∈ ks then some (f k) else none := by
  induction ks with
  | nil => rfl
  | cons j ks ih =>
    rw [List.map_cons, List.lookup_cons, ih]
    by_cases hjk : k = j
    · simp [hjk]
    · simp [hjk, beq_eq_false_iff_ne.2 hjk]

/-! ## Averages -/

section
variable [Exact K] (clusters : Nat) (counts : List Nat) (f : Nat → K)

/-- A sum over all counts, sorted by the counts that occur. -/
theorem sum_map_eq_sum_occurring :
    (counts.map f).sum = ((occurring counts).map fun k => (counts.count k : K) * f k).sum := by
  have hsame : (occurring counts).toFinset = counts.toFinset := by
    ext k
    simp
  rw [Finset.sum_list_map_count, ← hsame, List.sum_toFinset _ (nodup_occurring counts)]
  simp only [nsmul_eq_mul]

/-- **An average over the samples** is the average over the counts that occur, weighted with
    their fractions. -/
theorem average_map_eq :
    average (counts.map f) = ((occurring counts).map fun k => frequency counts k * f k).sum := by
  rw [average, pairwiseSum_eq_sum, List.length_map, sum_map_eq_sum_occurring, div_eq_mul_inv,
    ← List.sum_map_mul_right]
  refine congrArg List.sum (List.map_congr_left fun k _ => ?_)
  rw [frequency]
  ring

/-- So is a sum over the histogram. -/
theorem sum_histogram :
    ((Summary.ofCounts clusters counts : Summary K).histogram.map fun bin => bin.2 * f bin.1).sum =
      average (counts.map f) := by
  rw [average_map_eq, histogram_ofCounts, List.map_map]
  rfl

theorem average_nonneg {xs : List K} (h : ∀ x ∈ xs, 0 ≤ x) : 0 ≤ average xs := by
  rw [average, pairwiseSum_eq_sum]
  exact div_nonneg (List.sum_nonneg h) (Nat.cast_nonneg _)

end

/-! ## The parts of a summary -/

/-- What a histogram says of the number of samples with `k` occupied components. -/
def Summary.occurrences [Scalar α] (s : Summary α) (k : Nat) : α :=
  (s.histogram.lookup k).getD 0 * (s.samples : α)

variable [Exact K]

/-- The keys of the histogram are the counts, each once and in ascending order, and the
    fractions are positive parts of one that say how often each key occurs.  The mean and the
    square of the deviation are averages that are weighted with these fractions. -/
structure Summary.Consistent (s : Summary K) : Prop where
  ascending : (s.histogram.map Prod.fst).Pairwise (· < ·)
  mem_keys : ∀ k, k ∈ s.histogram.map Prod.fst ↔ k ∈ s.counts
  fraction_pos : ∀ bin ∈ s.histogram, 0 < bin.2
  sum_fractions : (s.histogram.map Prod.snd).sum = 1
  multiplicity : ∀ bin ∈ s.histogram, bin.2 * s.samples = s.counts.count bin.1
  mean_eq : s.mean = (s.histogram.map fun bin => (bin.1 : K) * bin.2).sum
  deviation_eq :
    square s.deviation = (s.histogram.map fun bin => bin.2 * square ((bin.1 : K) - s.mean)).sum

/-- The number of samples with `k` occupied components is read off the histogram. -/
theorem occurrences_ofCounts (clusters : Nat) (counts : List Nat) (k : Nat) :
    (Summary.ofCounts clusters counts : Summary K).occurrences k = counts.count k := by
  rw [Summary.occurrences, samples_ofCounts, histogram_ofCounts, lookup_map_mk]
  by_cases hk : k ∈ occurring counts
  · have hne : (counts.length : K) ≠ 0 :=
      Nat.cast_ne_zero.2 (List.length_pos_of_mem (mem_occurring.1 hk)).ne'
    rw [if_pos hk, Option.getD_some, frequency, div_mul_cancel₀ _ hne]
  · rw [if_neg hk, Option.getD_none, zero_mul, List.count_eq_zero.2 (mt mem_occurring.2 hk),
      Nat.cast_zero]

section
variable {clusters : Nat} {counts : List Nat} (hne : counts ≠ [])
include hne

/-- **The parts of a summary agree**, if there are samples and square roots. -/
theorem consistent_ofCounts (hsqrt : ∀ x : K, 0 ≤ x → square (Scalar.sqrt x) = x) :
    (Summary.ofCounts clusters counts : Summary K).Consistent := by
  have hlen : (0 : K) < counts.length := Nat.cast_pos.2 (List.length_pos_of_ne_nil hne)
  have hpos : ∀ k ∈ occurring counts, (0 : K) < frequency counts k := fun k hk =>
    div_pos (Nat.cast_pos.2 (List.count_pos_iff.2 (mem_occurring.1 hk))) hlen
  refine ⟨?_, ?_, ?_, ?_, ?_, ?_, ?_⟩
  · rw [keys_histogram]
    exact pairwise_occurring counts
  · intro k
    rw [keys_histogram, mem_occurring, counts_ofCounts]
  · rw [histogram_ofCounts, List.forall_mem_map]
    exact hpos
  · have hone := sum_histogram clusters counts fun _ => (1 : K)
    simp only [mul_one] at hone
    rw [hone, average, pairwiseSum_eq_sum, List.map_const', List.sum_replicate, List.length_replicate,
      nsmul_one, div_self hlen.ne']
  · rw [histogram_ofCounts, List.forall_mem_map]
    intro k _
    rw [samples_ofCounts, counts_ofCounts]
    exact div_mul_cancel₀ _ hlen.ne'
  · rw [mean_ofCounts hne, ← sum_histogram clusters]
    simp only [mul_comm]
  · have hspread := sum_histogram clusters counts fun k =>
      square ((k : K) - (Summary.ofCounts clusters counts : Summary K).mean)
    rw [hspread, deviation_ofCounts hne, standardDeviation, List.map_map, mean_ofCounts hne]
    refine hsqrt _ (average_nonneg ?_)
    rw [List.forall_mem_map]
    exact fun k _ => mul_self_nonneg _

end

/-- **The parts of a summary agree.**  In exact arithmetic with square roots, samples have a
    consistent summary: its histogram has for keys the counts that occur, each once and in
    ascending order, with positive fractions that add up to one and say how often they occur,
    and the mean and the squared deviation are the averages that are weighted with these
    fractions.  The counts are the numbers of occupied components, sample by sample, and no
    more than there are components.  Samples in two parts have the counts of both, one after
    the other, and every count occurs as often as in both parts together.  Without samples
    everything is zero or empty. -/
theorem parts_of_a_summary_agree (hsqrt : ∀ x : K, 0 ≤ x → square (Scalar.sqrt x) = x) :
    (∀ samples : List (List (Candidate O K)),
      (samples ≠ [] → (summarize samples).Consistent) ∧
      (summarize samples).samples = samples.length ∧
      List.Forall₂ (fun s n => n = s.countP (fun c => 0 < c.count) ∧ n ≤ s.length) samples
        (summarize samples).counts) ∧
    (∀ parts parts' : List (List (Candidate O K)),
      (summarize (parts ++ parts')).counts =
        (summarize parts).counts ++ (summarize parts').counts ∧
      (∀ k, k ∈ (summarize (parts ++ parts')).histogram.map Prod.fst ↔
        k ∈ (summarize parts).histogram.map Prod.fst ∨
          k ∈ (summarize parts').histogram.map Prod.fst) ∧
      ∀ k, (summarize (parts ++ parts')).occurrences k =
        (summarize parts).occurrences k + (summarize parts').occurrences k) ∧
    summarize ([] : List (List (Candidate O K))) = ⟨0, 0, 0, 0, [], []⟩ := by
  refine ⟨fun samples => ⟨?_, ?_, ?_⟩, fun parts parts' => ⟨?_, ?_, ?_⟩, rfl⟩
  · intro hne
    exact consistent_ofCounts (by simpa using hne) hsqrt
  · rw [summarize, samples_ofCounts, List.length_map]
  · rw [summarize, counts_ofCounts, List.forall₂_map_right_iff, List.forall₂_same]
    intro s _
    rw [activeCount, ← List.countP_eq_length_filter]
    exact ⟨rfl, List.countP_le_length⟩
  · simp only [summarize, counts_ofCounts, List.map_append]
  · intro k
    simp only [summarize, keys_histogram, mem_occurring, List.map_append, List.mem_append]
  · intro k
    simp only [summarize, occurrences_ofCounts, List.map_append, List.count_append, Nat.cast_add]

/-- Three samples, two of which have two occupied components and one has one. -/
noncomputable def twoTwoOne : List (List (Candidate Nat ℝ)) :=
  [[⟨fun _ => .ok 1, 1⟩, ⟨fun _ => .ok 1, 2⟩], [⟨fun _ => .ok 1, 2⟩, ⟨fun _ => .ok 1, 1⟩],
    [⟨fun _ => .ok 1, 3⟩, ⟨fun _ => .ok 1, 0⟩]]

theorem histogram_twoTwoOne :
    (summarize twoTwoOne).histogram = [(1, (1 : ℝ) / 3), (2, (2 : ℝ) / 3)] := by
  have hcounts : twoTwoOne.map activeCount = [2, 2, 1] := rfl
  have hkeys : occurring [2, 2, 1] = [1, 2] := rfl
  rw [summarize, histogram_ofCounts, hcounts, hkeys]
  simp [frequency]

/-- The mean and the deviation of their summary are read off its histogram. -/
theorem two_of_three_have_two :
    (summarize twoTwoOne).histogram = [(1, (1 : ℝ) / 3), (2, (2 : ℝ) / 3)] ∧
      (summarize twoTwoOne).mean = 5 / 3 ∧ square (summarize twoTwoOne).deviation = 2 / 9 := by
  obtain ⟨hall, -, -⟩ := parts_of_a_summary_agree (O := Nat) square_sqrt_real
  have hconsistent := (hall twoTwoOne).1 (List.cons_ne_nil _ _)
  have hmean : (summarize twoTwoOne).mean = 5 / 3 := by
    rw [hconsistent.mean_eq, histogram_twoTwoOne]
    norm_num
  refine ⟨histogram_twoTwoOne, hmean, ?_⟩
  rw [hconsistent.deviation_eq, histogram_twoTwoOne, hmean]
  norm_num [square]

end DirichletMixture
