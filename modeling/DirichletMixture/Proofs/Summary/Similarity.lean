/-
  DirichletMixture: how often two points belong together.

  Points that a sample places alike fall into classes, so the fraction of samples that place
  two points alike is a similarity: it is symmetric, one for a point and itself, and one minus
  it obeys the triangle inequality.

  * `alike` says whether a sample places two points at the same component, and
    `countP_alike_triangle` counts the samples that do;
  * `rows` is a matrix as the list of its rows, and `addSamples_rows` says what is added to it;
  * `similarity` is the fraction of samples, and `coAssignment_eq_rows` says that this is what
    is computed;
  * `co_assignment_is_a_similarity` puts this together.
-/
import Mathlib.Algebra.Order.Field.Basic
import Mathlib.Data.List.OfFn
import Mathlib.Tactic.Linarith
import DirichletMixture.Proofs.Exact.Basic
import DirichletMixture.Proofs.Summary.Places

namespace DirichletMixture

variable {O α K : Type}

/-! ## Points placed alike -/

section
variable [Scalar α] {s : List (Candidate O α)} {x y z : O} {j k : Nat}

/-- Whether a sample places two points at the same component. -/
def alike (x y : O) (s : List (Candidate O α)) : Bool :=
  match mostLikely s x, mostLikely s y with
  | .ok j, .ok k => j == k
  | _, _ => false

theorem alike_eq (hx : mostLikely s x = .ok j) (hy : mostLikely s y = .ok k) :
    alike x y s = (j == k) := by
  rw [alike, hx, hy]

theorem alike_iff : alike x y s = true ↔ ∃ k, mostLikely s x = .ok k ∧ mostLikely s y = .ok k := by
  constructor
  · intro h
    rcases hx : mostLikely s x with e | j <;> rcases hy : mostLikely s y with e' | k <;>
      rw [alike, hx, hy] at h
    · cases h
    · cases h
    · cases h
    · exact ⟨k, congrArg Except.ok (beq_iff_eq.1 h), rfl⟩
  · rintro ⟨k, hx, hy⟩
    rw [alike_eq hx hy, beq_self_eq_true]

theorem alike_comm (x y : O) : alike (α := α) x y = alike y x := by
  funext s
  rw [Bool.eq_iff_iff, alike_iff, alike_iff]
  simp only [and_comm]

theorem alike_trans (hxy : alike x y s = true) (hyz : alike y z s = true) :
    alike x z s = true := by
  obtain ⟨j, hx, hy⟩ := alike_iff.1 hxy
  obtain ⟨k, hy', hz⟩ := alike_iff.1 hyz
  obtain rfl := Except.ok.inj (hy.symm.trans hy')
  exact alike_iff.2 ⟨j, hx, hz⟩

/-- Few samples tell two points apart if few tell them from a third one. -/
theorem countP_alike_triangle (x y z : O) (samples : List (List (Candidate O α))) :
    samples.countP (alike x y) + samples.countP (alike y z) ≤
      samples.countP (alike x z) + samples.length := by
  induction samples with
  | nil => exact Nat.le_refl 0
  | cons s samples ih =>
    -- a sample that places both pairs alike places the ends alike
    have hs : (if alike x y s = true then 1 else 0) + (if alike y z s = true then 1 else 0) ≤
        (if alike x z s = true then 1 else 0) + 1 := by
      by_cases hxz : alike x z s = true
      · rw [if_pos hxz]
        split <;> split <;> omega
      · by_cases hxy : alike x y s = true
        · rw [if_neg hxz, if_pos hxy, if_neg fun hyz => hxz (alike_trans hxy hyz)]
        · rw [if_neg hxy]
          split <;> omega
    simp only [List.countP_cons, List.length_cons]
    omega

end

/-! ## Matrices -/

section
variable {β γ δ : Type} {n : Nat}

/-- A matrix as the list of its rows. -/
def rows (A : Fin n → Fin n → β) : List (List β) :=
  List.ofFn fun i => List.ofFn (A i)

theorem map_rows (f : β → γ) (A : Fin n → Fin n → β) :
    (rows A).map (List.map f) = rows fun i j => f (A i j) := by
  simp only [rows, List.map_ofFn, Function.comp_def]

theorem replicate_eq_rows (n : Nat) (b : β) :
    List.replicate n (List.replicate n b) = rows fun _ _ : Fin n => b := by
  simp only [rows, List.ofFn_const]

theorem zipWith_ofFn (f : β → γ → δ) (v : Fin n → β) (w : Fin n → γ) :
    List.zipWith f (List.ofFn v) (List.ofFn w) = List.ofFn fun i => f (v i) (w i) :=
  List.ext_getElem (by simp) fun i _ _ => by simp

end

section
variable [Scalar α] {n : Nat}

theorem addEntries_rows (A B : Fin n → Fin n → α) :
    addEntries (rows A) (rows B) = rows fun i j => A i j + B i j := by
  simp only [addEntries, rows, zipWith_ofFn]

theorem coincidences_ofFn (k : Fin n → Nat) :
    coincidences (List.ofFn k) = rows fun i j => (if k i = k j then 1 else 0 : α) := by
  simp only [coincidences, rows, List.map_ofFn, Function.comp_def]

/-- The places of some points, as a function of their numbers. -/
theorem exists_ofFn_of_assignments {points : List O} {s : List (Candidate O α)} {ks : List Nat}
    (h : assignments points s = .ok ks) :
    ∃ k : Fin points.length → Nat, ks = List.ofFn k ∧ ∀ i, mostLikely s points[i] = .ok (k i) := by
  obtain ⟨hlen, hks⟩ := List.forall₂_iff_get.1 (mapM_eq_ok_iff_forall₂.1 h)
  refine ⟨fun i => ks.get ⟨i, hlen ▸ i.isLt⟩, ?_, fun i => hks i i.isLt (hlen ▸ i.isLt)⟩
  exact List.ext_getElem (by simp [hlen]) fun i _ _ => by simp

/-- The coincidences of some points are those that the sample places alike. -/
theorem coincidences_eq_rows {points : List O} {s : List (Candidate O α)} {ks : List Nat}
    (h : assignments points s = .ok ks) :
    coincidences ks = rows fun i j : Fin points.length =>
      (if alike points[i] points[j] s = true then 1 else 0 : α) := by
  obtain ⟨k, rfl, hk⟩ := exists_ofFn_of_assignments h
  rw [coincidences_ofFn]
  simp only [alike_eq (hk _) (hk _), beq_iff_eq]

end

/-! ## Fractions of samples -/

variable [Exact K] {points : List O} {samples : List (List (Candidate O K))} {x y z : O}

/-- The fraction of samples that place two points alike. -/
def similarity (samples : List (List (Candidate O K))) (x y : O) : K :=
  samples.countP (alike x y) / samples.length

/-- **What is added up** is the number of samples that place two points alike. -/
theorem addSamples_rows (A : Fin points.length → Fin points.length → K)
    (h : ∀ s ∈ samples, ∀ x ∈ points, Placeable s x) :
    addSamples points (rows A) samples =
      .ok (rows fun i j => A i j + (samples.countP (alike points[i] points[j]) : K)) := by
  induction samples generalizing A with
  | nil =>
    simp only [List.countP_nil, Nat.cast_zero, add_zero]
    rfl
  | cons s samples ih =>
    obtain ⟨hs, hsamples⟩ := List.forall_mem_cons.1 h
    obtain ⟨ks, hks⟩ := exists_assignments hs
    rw [addSamples_cons hks, coincidences_eq_rows hks, addEntries_rows, ih _ hsamples]
    simp only [List.countP_cons, Nat.cast_add, Nat.cast_ite, Nat.cast_one, Nat.cast_zero,
      add_assoc, add_comm]

/-- **The matrix that is computed** holds these fractions. -/
theorem coAssignment_eq_rows (h : ∀ s ∈ samples, ∀ x ∈ points, Placeable s x) :
    coAssignment points samples =
      .ok (rows fun i j : Fin points.length => similarity samples points[i] points[j]) := by
  rw [coAssignment, replicate_eq_rows]
  by_cases hnil : samples = []
  · simp only [hnil, similarity, List.isEmpty_nil, if_true, List.countP_nil, Nat.cast_zero,
      zero_div]
    rfl
  · rw [if_neg (mt List.isEmpty_iff.1 hnil), addSamples_rows _ h]
    simp only [zero_add, similarity]
    exact congrArg Except.ok (map_rows (· / (samples.length : K)) _)

theorem similarity_comm : similarity samples x y = similarity samples y x := by
  rw [similarity, similarity, alike_comm]

theorem length_mul_similarity (samples : List (List (Candidate O K))) (x y : O) :
    samples.length * similarity samples x y = samples.countP (alike x y) := by
  by_cases hnil : samples = []
  · rw [hnil]
    simp
  · exact mul_div_cancel₀ _ (Nat.cast_ne_zero.2 (mt List.length_eq_zero_iff.1 hnil))

theorem similarity_self (hne : samples ≠ []) (h : ∀ s ∈ samples, Placeable s x) :
    similarity samples x x = 1 := by
  have hall : samples.countP (alike x x) = samples.length := by
    refine List.countP_eq_length.2 fun s hs => alike_iff.2 ?_
    obtain ⟨k, -, hk, -⟩ := exists_isPlace (h s hs)
    exact ⟨k, hk, hk⟩
  rw [similarity, hall]
  exact div_self (Nat.cast_ne_zero.2 (mt List.length_eq_zero_iff.1 hne))

theorem similarity_mem_Icc : similarity samples x y ∈ Set.Icc 0 1 :=
  ⟨div_nonneg (Nat.cast_nonneg _) (Nat.cast_nonneg _),
    div_le_one_of_le₀ (Nat.cast_le.2 List.countP_le_length) (Nat.cast_nonneg _)⟩

/-- **The triangle inequality.** -/
theorem similarity_triangle (samples : List (List (Candidate O K))) (x y z : O) :
    1 - similarity samples x z ≤ (1 - similarity samples x y) + (1 - similarity samples y z) := by
  have hsum : similarity samples x y + similarity samples y z ≤ similarity samples x z + 1 := by
    have hcount : ((samples.countP (alike x y) + samples.countP (alike y z) : Nat) : K) ≤
        ((samples.countP (alike x z) + samples.length : Nat) : K) :=
      Nat.cast_le.2 (countP_alike_triangle x y z samples)
    rw [Nat.cast_add, Nat.cast_add] at hcount
    calc similarity samples x y + similarity samples y z
        = (samples.countP (alike x y) + samples.countP (alike y z)) / samples.length :=
          (add_div _ _ _).symm
      _ ≤ (samples.countP (alike x z) + samples.length) / samples.length :=
          div_le_div_of_nonneg_right hcount (Nat.cast_nonneg _)
      _ = similarity samples x z + samples.length / samples.length := add_div _ _ _
      _ ≤ similarity samples x z + 1 := by
          gcongr
          exact div_self_le_one _
  linarith

theorem similarity_perm {samples' : List (List (Candidate O K))} (h : samples.Perm samples') :
    similarity samples x y = similarity samples' x y := by
  rw [similarity, similarity, h.countP_eq, h.length_eq]

theorem similarity_append (samples samples' : List (List (Candidate O K))) (x y : O) :
    similarity (samples ++ samples') x y =
      (samples.length * similarity samples x y + samples'.length * similarity samples' x y) /
        (samples.length + samples'.length) := by
  rw [length_mul_similarity, length_mul_similarity, similarity, List.countP_append,
    List.length_append, Nat.cast_add, Nat.cast_add]

/-- **Co-assignment is a similarity.**  In exact arithmetic, let some samples place all of some
    points.  If there are samples, they give a matrix with a row and a column for each point.
    Its entries, times the number of samples, are the numbers of samples that place two points
    alike.  It is symmetric, it is one on the diagonal and between zero and one elsewhere, and
    one minus it obeys the triangle inequality.  Equal points have one in common and the same
    rows.  The samples may come in any order, and the matrix of samples in two parts is the
    average of those of the parts, weighted with their numbers of samples.  Without samples the
    matrix is zero. -/
theorem co_assignment_is_a_similarity {points : List O} {samples : List (List (Candidate O K))}
    (h : ∀ s ∈ samples, ∀ x ∈ points, Placeable s x) :
    (samples ≠ [] → ∃ A : Fin points.length → Fin points.length → K,
      coAssignment points samples = .ok (rows A) ∧
      (∀ i j, A i j * samples.length = samples.countP (alike points[i] points[j])) ∧
      (∀ i j, A i j = A j i) ∧ (∀ i, A i i = 1) ∧ (∀ i j, A i j ∈ Set.Icc 0 1) ∧
      (∀ i j k, 1 - A i k ≤ (1 - A i j) + (1 - A j k)) ∧
      ∀ i j, points[i] = points[j] → A i j = 1 ∧ A i = A j) ∧
    (∀ samples', samples.Perm samples' →
      coAssignment points samples = coAssignment points samples') ∧
    (∀ parts parts', samples = parts ++ parts' →
      ∃ A B C : Fin points.length → Fin points.length → K,
        coAssignment points parts = .ok (rows A) ∧ coAssignment points parts' = .ok (rows B) ∧
        coAssignment points samples = .ok (rows C) ∧
        ∀ i j, C i j =
          (parts.length * A i j + parts'.length * B i j) / (parts.length + parts'.length)) ∧
    (samples = [] → coAssignment points samples = .ok (rows fun _ _ : Fin points.length => 0)) := by
  refine ⟨?_, ?_, ?_, ?_⟩
  · intro hne
    have hself : ∀ i : Fin points.length, similarity samples points[i] points[i] = 1 := fun i =>
      similarity_self hne fun s hs => h s hs _ (List.getElem_mem i.isLt)
    refine ⟨_, coAssignment_eq_rows h, fun i j => ?_, fun i j => similarity_comm, hself,
      fun i j => similarity_mem_Icc, fun i j k => similarity_triangle samples _ _ _, ?_⟩
    · rw [mul_comm, length_mul_similarity]
    · intro i j hij
      exact ⟨by rw [← hij, hself], by simp only [hij]⟩
  · intro samples' hperm
    rw [coAssignment_eq_rows h, coAssignment_eq_rows fun s hs => h s (hperm.mem_iff.2 hs)]
    simp only [similarity_perm hperm]
  · rintro parts parts' rfl
    obtain ⟨hparts, hparts'⟩ := List.forall_mem_append.1 h
    exact ⟨_, _, _, coAssignment_eq_rows hparts, coAssignment_eq_rows hparts',
      coAssignment_eq_rows h, fun i j => similarity_append _ _ _ _⟩
  · rintro rfl
    rw [← replicate_eq_rows]
    rfl

/-- Two components that share the numbers below three and from three on. -/
def splitAtThree : List (Candidate Nat ℚ) :=
  [⟨fun x => .ok (if x < 3 then 2 else 1), 2⟩, ⟨fun x => .ok (if x < 3 then 1 else 2), 1⟩]

/-- One component with all numbers, and an empty one. -/
def allInOne : List (Candidate Nat ℚ) := [⟨fun _ => .ok 1, 3⟩, ⟨fun _ => .ok 2, 0⟩]

/-- Of the numbers 0, 1 and 5, the first two are always together, and both are with the third
    in one of two samples. -/
theorem five_is_apart_in_one_of_two :
    ∃ A : Fin 3 → Fin 3 → ℚ, coAssignment [0, 1, 5] [splitAtThree, allInOne] = .ok (rows A) ∧
      coAssignment [0, 1, 5] [allInOne, splitAtThree] = .ok (rows A) ∧
      A 0 1 = 1 ∧ A 0 2 = 1 / 2 ∧ 1 - A 1 2 ≤ (1 - A 1 0) + (1 - A 0 2) := by
  have hplaceable : ∀ s ∈ [splitAtThree, allInOne], ∀ x ∈ [0, 1, 5], Placeable s x := by
    rw [List.forall_mem_cons, List.forall_mem_singleton, splitAtThree, allInOne]
    constructor <;> intro x _ <;> refine placeable_of_forall (List.cons_ne_nil _ _) ?_ <;>
      rw [List.forall_mem_cons, List.forall_mem_singleton] <;> exact ⟨⟨_, rfl⟩, ⟨_, rfl⟩⟩
  obtain ⟨hmatrix, hperm, -, -⟩ := co_assignment_is_a_similarity hplaceable
  obtain ⟨A, hA, hcount, -, -, -, htriangle, -⟩ := hmatrix (List.cons_ne_nil _ _)
  have hnear : A 0 1 * 2 = 2 := (hcount 0 1).trans (by decide +kernel)
  have hfar : A 0 2 * 2 = 1 := (hcount 0 2).trans (by decide +kernel)
  exact ⟨A, hA, (hperm _ (List.Perm.swap _ _ _)).symm.trans hA, by linarith, by linarith,
    htriangle 1 0 2⟩

end DirichletMixture
