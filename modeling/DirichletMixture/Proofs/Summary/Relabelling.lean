/-
  DirichletMixture: samples whose components are numbered otherwise.

  The numbers of components mean nothing: nothing that is said of samples depends on the order
  in which their components come, except for the numbers themselves, and these go along.  Only
  where a point is equally likely under several components does it matter which comes first.

  * `Relabels` says where components went, and `exists_relabels_of_perm` that every
    rearrangement is of this kind;
  * `IsUniquePlace` is a place that no other competes for, and `IsUniquePlace.relabel` says
    where it went;
  * `addSamples_eq_of_perm`: what is added up for points stays the same;
  * `labels_mean_nothing` puts this together.
-/
import Mathlib.Logic.Equiv.Basic
import DirichletMixture.Proofs.Exact.Basic
import DirichletMixture.Proofs.Summary.Places
import DirichletMixture.Summary.Activity

namespace DirichletMixture

variable {O α β K : Type}

/-! ## Rearrangements -/

/-- What stands at place `k` of the first list stands at place `σ k` of the second. -/
def Relabels (σ : Equiv.Perm Nat) (s s' : List β) : Prop := ∀ k, s'[σ k]? = s[k]?

/-- The permutation that leaves zero alone and does with the other numbers what `σ` does. -/
def onTail (σ : Equiv.Perm Nat) : Equiv.Perm Nat where
  toFun
    | 0 => 0
    | k + 1 => σ k + 1
  invFun
    | 0 => 0
    | k + 1 => σ.symm k + 1
  left_inv k := by cases k <;> simp
  right_inv k := by cases k <;> simp

/-- The first two entries may change places. -/
theorem relabels_swap (b c : β) (s : List β) :
    Relabels (Equiv.swap 0 1) (b :: c :: s) (c :: b :: s) := by
  intro k
  match k with
  | 0 => rfl
  | 1 => rfl
  | k + 2 =>
    rw [Equiv.swap_apply_of_ne_of_ne (by omega) (by omega)]
    rfl

theorem exists_relabels_of_perm {s s' : List β} (h : s.Perm s') : ∃ σ, Relabels σ s s' := by
  induction h with
  | nil => exact ⟨Equiv.refl _, fun _ => rfl⟩
  | cons b _ ih =>
    obtain ⟨σ, hσ⟩ := ih
    refine ⟨onTail σ, fun k => ?_⟩
    cases k with
    | zero => rfl
    | succ k => exact hσ k
  | swap b c s => exact ⟨_, relabels_swap c b s⟩
  | trans _ _ ih ih' =>
    obtain ⟨σ, hσ⟩ := ih
    obtain ⟨σ', hσ'⟩ := ih'
    exact ⟨σ.trans σ', fun k => (hσ' (σ k)).trans (hσ k)⟩

section
variable {σ : Equiv.Perm Nat} {s s' : List β}

theorem Relabels.mem_iff (h : Relabels σ s s') {b : β} : b ∈ s' ↔ b ∈ s := by
  rw [List.mem_iff_getElem?, List.mem_iff_getElem?, σ.surjective.exists]
  exact exists_congr fun k => by rw [h k]

end

/-! ## Counts -/

theorem activeCount_eq_of_perm {s s' : List (Candidate O α)} (h : s.Perm s') :
    activeCount s = activeCount s' :=
  (h.filter _).length_eq

section
variable {samples samples' : List (List (Candidate O α))}
  (h : List.Forall₂ List.Perm samples samples')
include h

theorem map_activeCount_eq_of_perm : samples.map activeCount = samples'.map activeCount :=
  map_eq_map_iff_forall₂.2 (h.imp fun _ _ => activeCount_eq_of_perm)

/-- **The summary stays the same**, the number of components included. -/
theorem summarize_eq_of_perm [Scalar α] : summarize samples = summarize samples' := by
  have hlengths : samples.map List.length = samples'.map List.length :=
    map_eq_map_iff_forall₂.2 (h.imp fun _ _ => List.Perm.length_eq)
  rw [summarize, summarize, ← List.head?_map, ← List.head?_map, hlengths,
    map_activeCount_eq_of_perm h]

end

/-! ## Places -/

section
variable {σ : Equiv.Perm Nat} {cs cs' : List (Candidate O α)} {c : Candidate O α}

theorem Relabels.competes_iff (h : Relabels σ cs cs') : Competes cs' c ↔ Competes cs c := by
  simp only [Competes, h.mem_iff]

/-- Relabelled places coincide where they did before. -/
theorem coincidences_map [Scalar α] {f : Nat → Nat} (hf : Function.Injective f) (ks : List Nat) :
    (coincidences (ks.map f) : List (List α)) = coincidences ks := by
  simp only [coincidences, List.map_map, Function.comp_def, hf.eq_iff]

end

variable [Exact K] {cs cs' : List (Candidate O K)} {x : O} {k : Nat} {q : K}

/-- The candidate at place `k` competes and has the likelihood `q` for the point, and all other
    competitors have smaller ones. -/
structure IsUniquePlace (cs : List (Candidate O K)) (x : O) (k : Nat) (q : K) : Prop where
  entry : ∃ c, cs[k]? = some c ∧ Competes cs c ∧ c.density x = .ok q
  others : ∀ j c, cs[j]? = some c → Competes cs c → j ≠ k → ∃ r, c.density x = .ok r ∧ r < q

theorem IsUniquePlace.isPlace (h : IsUniquePlace cs x k q) : IsPlace cs x k q := by
  obtain ⟨c, hc, hcompetes, hq⟩ := h.entry
  refine ⟨⟨c, hc, hcompetes, hq⟩, ?_, ?_⟩
  · intro c' hc' hcompetes'
    obtain ⟨j, hj⟩ := List.mem_iff_getElem?.1 hc'
    by_cases hjk : j = k
    · rw [hjk, hc] at hj
      exact ⟨q, Option.some.inj hj ▸ hq, le_rfl⟩
    · obtain ⟨r, hr, hlt⟩ := h.others j c' hj hcompetes' hjk
      exact ⟨r, hr, hlt.le⟩
  · intro j c' hj hcompetes' hq'
    by_cases hjk : j = k
    · exact hjk.ge
    · obtain ⟨r, hr, hlt⟩ := h.others j c' hj hcompetes' hjk
      exact absurd (Except.ok.inj (hr.symm.trans hq')) hlt.ne

/-- **A unique place goes along** when the components are numbered otherwise. -/
theorem IsUniquePlace.relabel {σ : Equiv.Perm Nat} (h : IsUniquePlace cs x k q)
    (hσ : Relabels σ cs cs') : IsUniquePlace cs' x (σ k) q := by
  refine ⟨?_, ?_⟩
  · obtain ⟨c, hc, hcompetes, hq⟩ := h.entry
    exact ⟨c, (hσ k).trans hc, hσ.competes_iff.2 hcompetes, hq⟩
  · intro j c hj hcompetes hne
    obtain ⟨m, rfl⟩ := σ.surjective j
    exact h.others m c ((hσ m).symm.trans hj) (hσ.competes_iff.1 hcompetes)
      fun hmk => hne (congrArg σ hmk)

/-- So do the places of several points. -/
theorem assignments_relabel {σ : Equiv.Perm Nat} {points : List O}
    (hunique : ∀ x ∈ points, ∃ k q, IsUniquePlace cs x k q) (hσ : Relabels σ cs cs') :
    ∃ ks, assignments points cs = .ok ks ∧ assignments points cs' = .ok (ks.map σ) := by
  obtain ⟨ks, hks⟩ := exists_assignments fun x hx =>
    (hunique x hx).elim fun _ ⟨_, h⟩ => h.isPlace.placeable
  refine ⟨ks, hks, assignments_map hks fun x hx k hk => ?_⟩
  obtain ⟨k', q, hplace⟩ := hunique x hx
  obtain ⟨q', hk⟩ := mostLikely_eq_ok_iff.1 hk
  rw [hk.unique hplace.isPlace]
  exact mostLikely_eq_ok_iff.2 ⟨q, (hplace.relabel hσ).isPlace⟩

/-! ## Co-assignment -/

section
variable {points : List O} {samples samples' : List (List (Candidate O K))}
  (h : List.Forall₂ List.Perm samples samples')
  (hunique : ∀ s ∈ samples, ∀ x ∈ points, ∃ k q, IsUniquePlace s x k q)
include h hunique

/-- **What is added up for points stays the same** if all their places are unique. -/
theorem addSamples_eq_of_perm (co : List (List K)) :
    addSamples points co samples = addSamples points co samples' := by
  induction h generalizing co with
  | nil => rfl
  | cons hs hsamples ih =>
    obtain ⟨hunique, hrest⟩ := List.forall_mem_cons.1 hunique
    obtain ⟨σ, hσ⟩ := exists_relabels_of_perm hs
    obtain ⟨ks, hks, hks'⟩ := assignments_relabel hunique hσ
    rw [addSamples_cons hks, addSamples_cons hks', coincidences_map σ.injective, ih hrest]

theorem coAssignment_eq_of_perm : coAssignment points samples = coAssignment points samples' := by
  have hempty : samples.isEmpty = samples'.isEmpty := by cases h <;> rfl
  rw [coAssignment, coAssignment, hempty, h.length_eq, addSamples_eq_of_perm h hunique]

end

/-- **Labels mean nothing.**  In exact arithmetic, let the components of each of some samples be
    rearranged in any way.  Then the numbers of occupied components and the summary of the
    samples stay the same.  So does the matrix of co-assignment, provided that in each sample
    every point has one likelihood that is larger than all others that compete.  In each sample
    the rearrangement says where each component went, and the places of such points go
    along. -/
theorem labels_mean_nothing {points : List O} {samples samples' : List (List (Candidate O K))}
    (h : List.Forall₂ List.Perm samples samples') :
    samples.map activeCount = samples'.map activeCount ∧
    (summarize samples : Summary K) = summarize samples' ∧
    ((∀ s ∈ samples, ∀ x ∈ points, ∃ k q, IsUniquePlace s x k q) →
      coAssignment points samples = coAssignment points samples') ∧
    List.Forall₂ (fun s s' => (∃ σ, Relabels σ s s') ∧ ∀ σ, Relabels σ s s' →
      (∀ x ∈ points, ∃ k q, IsUniquePlace s x k q) →
      ∃ ks, assignments points s = .ok ks ∧ assignments points s' = .ok (ks.map σ))
      samples samples' := by
  refine ⟨map_activeCount_eq_of_perm h, summarize_eq_of_perm h, coAssignment_eq_of_perm h,
    h.imp fun s s' hs => ⟨exists_relabels_of_perm hs, ?_⟩⟩
  intro σ hσ hunique
  exact assignments_relabel hunique hσ

/-- The number 0 is more likely under the first of two components and other numbers under the
    second; there is an empty one too. -/
def zeroFirst : List (Candidate Nat ℚ) :=
  [⟨fun x => .ok (if x = 0 then 2 else 1), 1⟩, ⟨fun x => .ok (if x = 0 then 1 else 2), 1⟩,
    ⟨fun _ => .ok 3, 0⟩]

/-- The same with the first two components in the other order. -/
def zeroSecond : List (Candidate Nat ℚ) :=
  [⟨fun x => .ok (if x = 0 then 1 else 2), 1⟩, ⟨fun x => .ok (if x = 0 then 2 else 1), 1⟩,
    ⟨fun _ => .ok 3, 0⟩]

theorem isUniquePlace_zeroFirst : ∀ x ∈ [0, 1], ∃ k q, IsUniquePlace zeroFirst x k q := by
  have hocc : ∃ c ∈ zeroFirst, 0 < c.count := ⟨_, List.mem_cons_self, Nat.one_pos⟩
  rw [List.forall_mem_cons, List.forall_mem_singleton]
  refine ⟨⟨0, 2, ⟨_, rfl, .inl Nat.one_pos, rfl⟩, ?_⟩, ⟨1, 2, ⟨_, rfl, .inl Nat.one_pos, rfl⟩, ?_⟩⟩
  · rintro (_ | _ | _ | j) c hj hcompetes hne
    · exact absurd rfl hne
    · cases hj
      exact ⟨1, rfl, one_lt_two⟩
    · cases hj
      exact absurd ((competes_iff_of_occupied hocc).1 hcompetes) (lt_irrefl 0)
    · cases hj
  · rintro (_ | _ | _ | j) c hj hcompetes hne
    · cases hj
      exact ⟨1, rfl, one_lt_two⟩
    · exact absurd rfl hne
    · cases hj
      exact absurd ((competes_iff_of_occupied hocc).1 hcompetes) (lt_irrefl 0)
    · cases hj

/-- One of two samples is rearranged.  The numbers have other places in it, and nothing else
    changes. -/
theorem one_of_two_samples_is_rearranged :
    (summarize [zeroFirst, zeroFirst] : Summary ℚ) = summarize [zeroFirst, zeroSecond] ∧
      coAssignment [0, 1] [zeroFirst, zeroFirst] = coAssignment [0, 1] [zeroFirst, zeroSecond] ∧
      ∃ ks, assignments [0, 1] zeroFirst = .ok ks ∧ ks = [0, 1] ∧
        assignments [0, 1] zeroSecond = .ok [1, 0] := by
  have hsamples : List.Forall₂ List.Perm [zeroFirst, zeroFirst] [zeroFirst, zeroSecond] :=
    .cons (List.Perm.refl _) (.cons (List.Perm.swap _ _ _) .nil)
  obtain ⟨-, hsummary, hco, hplaces⟩ := @labels_mean_nothing Nat ℚ _ [0, 1] _ _ hsamples
  have hsecond := (List.forall₂_cons.1 (List.forall₂_cons.1 hplaces).2).1.2
  obtain ⟨ks, hks, hks'⟩ := hsecond _ (relabels_swap _ _ _) isUniquePlace_zeroFirst
  have hone : (assignments [0, 1] zeroFirst).toOption = some [0, 1] := by decide +kernel
  rw [hks] at hone
  obtain rfl := Option.some.inj hone
  refine ⟨hsummary, hco ?_, _, hks, rfl, hks'⟩
  rw [List.forall_mem_cons, List.forall_mem_singleton]
  exact ⟨isUniquePlace_zeroFirst, isUniquePlace_zeroFirst⟩

end DirichletMixture
