/-
  DirichletMixture: what a summary says of the counts that it is made of.

  * `counts_ofCounts` and its neighbours: the parts of a summary;
  * `mem_occurring`: the counts that occur are the counts;
  * `average_mem_Icc`: in exact arithmetic, the average of some numbers lies between any
    bounds for all of them, and `mean_ofCounts_mem_Icc` says so of the mean of a summary.
-/
import Mathlib.Algebra.Order.BigOperators.Group.List
import Mathlib.Data.Nat.Cast.Order.Ring
import Mathlib.Order.Interval.Set.Defs
import DirichletMixture.Proofs.Exact.Basic
import DirichletMixture.Summary.Activity

namespace DirichletMixture

variable {O M α K : Type}

/-! ## The parts of a summary -/

theorem activeCount_map_candidate (c : Component O M α) (ms : List M) :
    activeCount (ms.map c.candidate) = ((ms.map c.count).filter fun n => decide (0 < n)).length := by
  rw [activeCount, List.filter_map, List.filter_map, List.length_map, List.length_map]
  rfl

section
variable [Scalar α]

@[simp] theorem counts_ofCounts (clusters : Nat) (counts : List Nat) :
    (Summary.ofCounts clusters counts : Summary α).counts = counts := by
  cases counts <;> rfl

@[simp] theorem samples_ofCounts (clusters : Nat) (counts : List Nat) :
    (Summary.ofCounts clusters counts : Summary α).samples = counts.length := by
  cases counts <;> rfl

@[simp] theorem clusters_ofCounts (clusters : Nat) (counts : List Nat) :
    (Summary.ofCounts clusters counts : Summary α).clusters = clusters := by
  cases counts <;> rfl

@[simp] theorem mean_ofCounts_nil (clusters : Nat) :
    (Summary.ofCounts clusters [] : Summary α).mean = 0 := rfl

theorem le_foldl_max (counts : List Nat) (n : Nat) :
    n ≤ counts.foldl max n ∧ ∀ k ∈ counts, k ≤ counts.foldl max n := by
  induction counts generalizing n with
  | nil => simp
  | cons m counts ih =>
    obtain ⟨hstart, hall⟩ := ih (max n m)
    rw [List.foldl_cons, List.forall_mem_cons]
    exact ⟨(Nat.le_max_left n m).trans hstart, (Nat.le_max_right n m).trans hstart, hall⟩

/-- **The counts that occur** are the counts. -/
@[simp] theorem mem_occurring {counts : List Nat} {k : Nat} : k ∈ occurring counts ↔ k ∈ counts := by
  rw [occurring, List.mem_filter, List.mem_range, Nat.lt_succ_iff, List.contains_iff_mem]
  exact and_iff_right_of_imp ((le_foldl_max counts 0).2 k)

theorem histogram_ofCounts (clusters : Nat) (counts : List Nat) :
    (Summary.ofCounts clusters counts : Summary α).histogram =
      (occurring counts).map fun k => (k, frequency counts k) := by
  cases counts <;> rfl

/-- The keys of the histogram are counts. -/
theorem mem_counts_of_mem_histogram {clusters : Nat} {counts : List Nat} {bin : Nat × α}
    (h : bin ∈ (Summary.ofCounts clusters counts : Summary α).histogram) : bin.1 ∈ counts := by
  rw [histogram_ofCounts] at h
  obtain ⟨k, hk, rfl⟩ := List.mem_map.1 h
  exact mem_occurring.1 hk

section
variable {clusters : Nat} {counts : List Nat} (hne : counts ≠ [])
include hne

theorem mean_ofCounts :
    (Summary.ofCounts clusters counts : Summary α).mean =
      average (counts.map (Nat.cast : Nat → α)) := by
  rw [Summary.ofCounts, if_neg (mt List.isEmpty_iff.1 hne)]

theorem deviation_ofCounts :
    (Summary.ofCounts clusters counts : Summary α).deviation =
      standardDeviation (counts.map (Nat.cast : Nat → α)) := by
  rw [Summary.ofCounts, if_neg (mt List.isEmpty_iff.1 hne)]

end

end

/-! ## Averages -/

variable [Exact K]

/-- **An average lies between the bounds** of what it is an average of. -/
theorem average_mem_Icc {xs : List K} {lo hi : K} (hne : xs ≠ [])
    (h : ∀ x ∈ xs, x ∈ Set.Icc lo hi) : average xs ∈ Set.Icc lo hi := by
  have hpos : (0 : K) < xs.length := Nat.cast_pos.2 (List.length_pos_of_ne_nil hne)
  rw [average, pairwiseSum_eq_sum, Set.mem_Icc, le_div_iff₀ hpos, div_le_iff₀ hpos]
  constructor
  · calc lo * xs.length = xs.length • lo := by rw [nsmul_eq_mul, mul_comm]
      _ ≤ xs.sum := List.card_nsmul_le_sum xs lo fun x hx => (h x hx).1
  · calc xs.sum ≤ xs.length • hi := List.sum_le_card_nsmul xs hi fun x hx => (h x hx).2
      _ = hi * xs.length := by rw [nsmul_eq_mul, mul_comm]

/-- The mean of a summary lies between the bounds of its counts, if there are any. -/
theorem mean_ofCounts_mem_Icc {clusters lo hi : Nat} {counts : List Nat} (hne : counts ≠ [])
    (h : ∀ n ∈ counts, n ∈ Set.Icc lo hi) :
    (Summary.ofCounts clusters counts : Summary K).mean ∈ Set.Icc (lo : K) hi := by
  rw [mean_ofCounts hne]
  refine average_mem_Icc (by simpa using hne) fun x hx => ?_
  obtain ⟨n, hn, rfl⟩ := List.mem_map.1 hx
  exact ⟨Nat.cast_le.2 (h n hn).1, Nat.cast_le.2 (h n hn).2⟩

end DirichletMixture
