/-
  DirichletMixture: the most likely component of a point.

  A sample places a point at the first of its largest likelihoods among the components that
  compete: the occupied ones or, if none is occupied, all.  The places of the others do not
  count, so that empty components can be added without moving a point to another one.  The
  most likely mode of emission lets all components compete; if it chooses an occupied one, the
  point has its place there.

  * `Competes` says which components compete, and `IsPlace` where a point has its place;
  * `mostLikely_eq_ok_iff`: the place that is computed is this one, and `exists_isPlace` says
    when there is one;
  * `Widens` adds empty components, and `IsPlace.widen` says where places go;
  * `IsPlace.of_isPeak`: a peak among all is the place if it competes;
  * `most_likely_places_agree` puts this together for lists of points.
-/
import Mathlib.Order.Monotone.Defs
import DirichletMixture.Proofs.Exact.Basic
import DirichletMixture.Proofs.Emission.Modes
import DirichletMixture.Proofs.Exact.Peak
import DirichletMixture.Summary.Assignment

namespace DirichletMixture

variable {O α K : Type}

/-! ## Competitors -/

/-- The candidate competes for points: it is occupied, or none of all is. -/
def Competes (cs : List (Candidate O α)) (c : Candidate O α) : Prop :=
  0 < c.count ∨ ∀ c' ∈ cs, c'.count = 0

section
variable {cs : List (Candidate O α)} {c : Candidate O α} {k : Nat}

theorem mem_placed_iff : (k, c) ∈ placed cs ↔ cs[k]? = some c := by
  rw [placed, List.mem_iff_getElem?]
  constructor
  · rintro ⟨i, hi⟩
    obtain ⟨hk, hc⟩ := List.getElem?_zip_eq_some.1 hi
    obtain ⟨hlt, rfl⟩ := List.getElem?_eq_some_iff.1 hk
    rwa [List.getElem_range]
  · intro hc
    have hlt : k < cs.length := (List.getElem?_eq_some_iff.1 hc).1
    exact ⟨k, List.getElem?_zip_eq_some.2 ⟨List.getElem?_range hlt, hc⟩⟩

theorem pairwise_placed (cs : List (Candidate O α)) :
    (placed cs).Pairwise fun p p' => p.1 < p'.1 := by
  have hplaces : (placed cs).map Prod.fst = List.range cs.length :=
    List.map_fst_zip (by simp)
  rw [← List.pairwise_map, hplaces]
  exact List.pairwise_lt_range

/-- With an occupied candidate, the occupied ones compete. -/
theorem competes_iff_of_occupied (h : ∃ c' ∈ cs, 0 < c'.count) : Competes cs c ↔ 0 < c.count := by
  obtain ⟨c', hc', hcount⟩ := h
  exact or_iff_left fun hall => hcount.ne' (hall c' hc')

theorem competes_of_empty (h : ∀ c' ∈ cs, c'.count = 0) : Competes cs c := .inr h

/-- **The competitors** are the candidates that compete, with their places. -/
theorem mem_competitors_iff : (k, c) ∈ competitors cs ↔ cs[k]? = some c ∧ Competes cs c := by
  rw [competitors]
  by_cases hocc : ∃ c' ∈ cs, 0 < c'.count
  · have hne : ((placed cs).filter fun p => decide (0 < p.2.count)) ≠ [] := by
      obtain ⟨c', hc', hcount⟩ := hocc
      obtain ⟨j, hj⟩ := List.mem_iff_getElem?.1 hc'
      exact List.ne_nil_of_mem
        (List.mem_filter.2 ⟨mem_placed_iff.2 hj, decide_eq_true hcount⟩)
    rw [if_neg (mt List.isEmpty_iff.1 hne), List.mem_filter, mem_placed_iff,
      competes_iff_of_occupied hocc, decide_eq_true_eq]
  · have hempty : ∀ c' ∈ cs, c'.count = 0 := fun c' hc' =>
      Nat.eq_zero_of_not_pos fun hcount => hocc ⟨c', hc', hcount⟩
    have hnil : ((placed cs).filter fun p => decide (0 < p.2.count)) = [] := by
      rw [List.filter_eq_nil_iff]
      rintro ⟨j, c'⟩ hmem
      simp [hempty c' (List.mem_of_getElem? (mem_placed_iff.1 hmem))]
    rw [hnil, List.isEmpty_nil, if_pos rfl, mem_placed_iff]
    exact (and_iff_left (competes_of_empty hempty)).symm

/-- They come in the order of their places. -/
theorem pairwise_competitors (cs : List (Candidate O α)) :
    (competitors cs).Pairwise fun p p' => p.1 < p'.1 := by
  rw [competitors]
  split
  · exact pairwise_placed cs
  · exact (pairwise_placed cs).filter _

theorem competitors_ne_nil (h : cs ≠ []) : competitors cs ≠ [] := by
  rw [competitors]
  split
  · rw [← List.length_pos_iff, placed, List.length_zip, List.length_range, Nat.min_self]
    exact List.length_pos_of_ne_nil h
  · rename_i hne
    exact mt List.isEmpty_iff.2 hne

end

/-! ## The place of a point -/

/-- The point can be placed: there are candidates, and all that compete have a likelihood for
    it. -/
def Placeable (cs : List (Candidate O α)) (x : O) : Prop :=
  cs ≠ [] ∧ ∀ c ∈ cs, Competes cs c → ∃ q, c.density x = .ok q

theorem placeable_of_forall {cs : List (Candidate O α)} {x : O} (hne : cs ≠ [])
    (h : ∀ c ∈ cs, ∃ q, c.density x = .ok q) : Placeable cs x :=
  ⟨hne, fun c hc _ => h c hc⟩

variable [Exact K]

/-- The candidate at place `k` competes and has the likelihood `q` for the point, no competitor
    has a larger one, and none before it has the same. -/
structure IsPlace (cs : List (Candidate O K)) (x : O) (k : Nat) (q : K) : Prop where
  entry : ∃ c, cs[k]? = some c ∧ Competes cs c ∧ c.density x = .ok q
  largest : ∀ c ∈ cs, Competes cs c → ∃ r, c.density x = .ok r ∧ r ≤ q
  first : ∀ j c, cs[j]? = some c → Competes cs c → c.density x = .ok q → k ≤ j

variable {cs cs' : List (Candidate O K)} {x : O} {k k' : Nat} {q q' : K}

theorem IsPlace.placeable (h : IsPlace cs x k q) : Placeable cs x := by
  obtain ⟨c, hc, -, -⟩ := h.entry
  refine ⟨List.ne_nil_of_mem (List.mem_of_getElem? hc), ?_⟩
  intro c' hc' hcompetes
  obtain ⟨r, hr, -⟩ := h.largest c' hc' hcompetes
  exact ⟨r, hr⟩

theorem IsPlace.le_of (h : IsPlace cs x k q) (h' : IsPlace cs x k' q') : q' ≤ q := by
  obtain ⟨c, hc, hcompetes, hq'⟩ := h'.entry
  obtain ⟨r, hr, hle⟩ := h.largest c (List.mem_of_getElem? hc) hcompetes
  rwa [Except.ok.inj (hr.symm.trans hq')] at hle

theorem IsPlace.unique (h : IsPlace cs x k q) (h' : IsPlace cs x k' q') : k = k' := by
  obtain rfl : q = q' := le_antisymm (h'.le_of h) (h.le_of h')
  obtain ⟨c, hc, hcompetes, hq⟩ := h.entry
  obtain ⟨c', hc', hcompetes', hq'⟩ := h'.entry
  exact Nat.le_antisymm (h.first k' c' hc' hcompetes' hq') (h'.first k c hc hcompetes hq)

/-- Among candidates in the order of their places, with all competitors among them, a peak of
    the likelihoods is the place of the point if it competes. -/
theorem isPlace_of_isPeak {scored : List (Nat × Candidate O K)} {ps : List K} {i : Nat}
    {c : Candidate O K} (horder : scored.Pairwise fun p p' => p.1 < p'.1)
    (hplaces : ∀ j c, (j, c) ∈ scored → cs[j]? = some c)
    (hall : ∀ j c, cs[j]? = some c → Competes cs c → (j, c) ∈ scored)
    (hps : scored.mapM (·.2.density x) = .ok ps) (hi : scored[i]? = some (k, c))
    (hc : Competes cs c) (h : IsPeak ps i q) : IsPlace cs x k q := by
  -- competitors have likelihoods, at the same number in the list of these
  have hscored : ∀ (j : Nat) c', cs[j]? = some c' → Competes cs c' →
      ∃ (m : Nat) (r : K), scored[m]? = some (j, c') ∧ ps[m]? = some r ∧ c'.density x = .ok r := by
    intro j c' hj hc'
    obtain ⟨m, hm⟩ := List.mem_iff_getElem?.1 (hall j c' hj hc')
    obtain ⟨r, hr, hdensity⟩ := getElem?_of_mapM_eq_ok hps hm
    exact ⟨m, r, hm, hr, hdensity⟩
  refine ⟨?_, ?_, ?_⟩
  · obtain ⟨r, hr, hdensity⟩ := getElem?_of_mapM_eq_ok hps hi
    obtain rfl := Option.some.inj (h.entry.symm.trans hr)
    exact ⟨c, hplaces k c (List.mem_of_getElem? hi), hc, hdensity⟩
  · intro c' hmem hc'
    obtain ⟨j, hj⟩ := List.mem_iff_getElem?.1 hmem
    obtain ⟨m, r, -, hr, hdensity⟩ := hscored j c' hj hc'
    exact ⟨r, hdensity, h.largest r (List.mem_of_getElem? hr)⟩
  · intro j c' hj hc' hq
    obtain ⟨m, r, hm, hr, hdensity⟩ := hscored j c' hj hc'
    obtain rfl := Except.ok.inj (hdensity.symm.trans hq)
    rcases (h.first m hr).eq_or_lt with rfl | hlt
    · exact (Prod.mk.inj (Option.some.inj (hi.symm.trans hm))).1.le
    · obtain ⟨hi', hik⟩ := List.getElem?_eq_some_iff.1 hi
      obtain ⟨hm', hmj⟩ := List.getElem?_eq_some_iff.1 hm
      have hkj := List.pairwise_iff_getElem.1 horder i m hi' hm' hlt
      rw [hik, hmj] at hkj
      exact hkj.le

/-- **A point that can be placed has a place**, and it is computed. -/
theorem exists_isPlace (h : Placeable cs x) : ∃ k q, mostLikely cs x = .ok k ∧ IsPlace cs x k q := by
  obtain ⟨hne, hdefined⟩ := h
  have hdensities : ∀ p ∈ competitors cs, ∃ q, p.2.density x = .ok q := by
    rintro ⟨j, c⟩ hp
    obtain ⟨hc, hcompetes⟩ := mem_competitors_iff.1 hp
    exact hdefined c (List.mem_of_getElem? hc) hcompetes
  obtain ⟨ps, hps⟩ := exists_mapM_eq_ok hdensities
  have hlen : (competitors cs).length = ps.length := length_of_mapM_eq_ok hps
  have hps_ne : ps ≠ [] := by
    rw [← List.length_pos_iff, ← hlen]
    exact List.length_pos_of_ne_nil (competitors_ne_nil hne)
  obtain ⟨i, q, hi, hpeak⟩ := exists_argmax? hps_ne
  have hlt : i < (competitors cs).length := hlen ▸ (List.getElem?_eq_some_iff.1 hpeak.entry).1
  obtain ⟨⟨k, c⟩, hkc⟩ : ∃ p, (competitors cs)[i]? = some p := ⟨_, List.getElem?_eq_getElem hlt⟩
  have hmem : ∀ {j c}, (j, c) ∈ competitors cs → cs[j]? = some c ∧ Competes cs c :=
    mem_competitors_iff.1
  refine ⟨k, q, ?_, isPlace_of_isPeak (pairwise_competitors cs) (fun j c h => (hmem h).1)
    (fun j c hj hc => mem_competitors_iff.2 ⟨hj, hc⟩) hps hkc (hmem (List.mem_of_getElem? hkc)).2
    hpeak⟩
  rw [mostLikely, hps]
  simp only [bind, Except.bind, hi, Option.bind, hkc]
  rfl

/-- **The place that is computed** is the first of the largest likelihoods that compete. -/
theorem mostLikely_eq_ok_iff : mostLikely cs x = .ok k ↔ ∃ q, IsPlace cs x k q := by
  constructor
  · intro h
    have hplaceable : Placeable cs x := by
      obtain ⟨ps, hps, hchoice⟩ := bind_eq_ok.1 h
      refine ⟨?_, ?_⟩
      · rintro rfl
        obtain rfl : [] = ps := Except.ok.inj hps
        cases hchoice
      · intro c hc hcompetes
        obtain ⟨j, hj⟩ := List.mem_iff_getElem?.1 hc
        obtain ⟨i, hi⟩ := List.mem_iff_getElem?.1 (mem_competitors_iff.2 ⟨hj, hcompetes⟩)
        obtain ⟨r, -, hdensity⟩ := getElem?_of_mapM_eq_ok hps hi
        exact ⟨r, hdensity⟩
    obtain ⟨k', q, hk', hplace⟩ := exists_isPlace hplaceable
    rw [h] at hk'
    exact ⟨q, Except.ok.inj hk' ▸ hplace⟩
  · rintro ⟨q, hplace⟩
    obtain ⟨k', q', hk', hplace'⟩ := exists_isPlace hplace.placeable
    rw [hk', hplace'.unique hplace]

/-- So have several points. -/
theorem exists_assignments {points : List O} (h : ∀ x ∈ points, Placeable cs x) :
    ∃ ks, assignments points cs = .ok ks :=
  exists_mapM_eq_ok fun x hx => (exists_isPlace (h x hx)).imp fun _ ⟨_, hk, _⟩ => hk

/-- If the place of each point goes along with a function, so do all of them. -/
theorem assignments_map {points : List O} {ks : List Nat} {f : Nat → Nat}
    (hks : assignments points cs = .ok ks)
    (h : ∀ x ∈ points, ∀ k, mostLikely cs x = .ok k → mostLikely cs' x = .ok (f k)) :
    assignments points cs' = .ok (ks.map f) := by
  rw [assignments, mapM_eq_ok_iff_forall₂, List.forall₂_map_right_iff]
  exact ((List.forall₂_and_left _ _).2 ⟨h, mapM_eq_ok_iff_forall₂.1 hks⟩).imp
    fun x k ⟨hx, hk⟩ => hx k hk

/-! ## More components -/

/-- The candidates `cs` stand among `cs'`, the one at place `k` at place `f k` and in the same
    order, and all others there are empty. -/
structure Widens (f : Nat → Nat) (cs cs' : List (Candidate O α)) : Prop where
  mono : StrictMono f
  entry : ∀ k c, cs[k]? = some c → cs'[f k]? = some c
  others : ∀ j c, cs'[j]? = some c → 0 < c.count → ∃ k, f k = j ∧ cs[k]? = some c

/-- The place that the one at place `k` has after one more has come in at place `i`. -/
def makeRoom (i k : Nat) : Nat := if k < i then k else k + 1

theorem makeRoom_strictMono (i : Nat) : StrictMono (makeRoom i) := by
  intro j k hjk
  unfold makeRoom
  split <;> split <;> omega

/-- One more candidate, anywhere. -/
theorem widens_insertIdx (cs : List (Candidate O α)) {i : Nat} (hi : i ≤ cs.length)
    {c : Candidate O α} (hc : c.count = 0) : Widens (makeRoom i) cs (cs.insertIdx i c) where
  mono := makeRoom_strictMono i
  entry k c' hk := by
    unfold makeRoom
    split
    · rename_i hlt
      rwa [List.getElem?_insertIdx_of_lt hlt]
    · rename_i hge
      rwa [List.getElem?_insertIdx_of_gt (by omega), Nat.add_sub_cancel]
  others j c' hj hcount := by
    rcases Nat.lt_trichotomy j i with hlt | rfl | hgt
    · rw [List.getElem?_insertIdx_of_lt hlt] at hj
      exact ⟨j, if_pos hlt, hj⟩
    · rw [List.getElem?_insertIdx_self, if_pos hi] at hj
      rw [← Option.some.inj hj, hc] at hcount
      exact absurd hcount (lt_irrefl 0)
    · rw [List.getElem?_insertIdx_of_gt hgt] at hj
      refine ⟨j - 1, ?_, hj⟩
      unfold makeRoom
      rw [if_neg (by omega), Nat.sub_add_cancel (by omega)]

/-- **Empty components do not move a point**: its component is the same, wherever it stands
    now. -/
theorem IsPlace.widen {f : Nat → Nat} (h : IsPlace cs x k q) (hf : Widens f cs cs')
    (hocc : ∃ c ∈ cs, 0 < c.count) : IsPlace cs' x (f k) q := by
  have hocc' : ∃ c ∈ cs', 0 < c.count := by
    obtain ⟨c, hc, hcount⟩ := hocc
    obtain ⟨j, hj⟩ := List.mem_iff_getElem?.1 hc
    exact ⟨c, List.mem_of_getElem? (hf.entry j c hj), hcount⟩
  have hcompetes : ∀ c, Competes cs' c ↔ Competes cs c := fun c => by
    rw [competes_iff_of_occupied hocc, competes_iff_of_occupied hocc']
  have hother : ∀ j c, cs'[j]? = some c → Competes cs' c → ∃ k, f k = j ∧ cs[k]? = some c :=
    fun j c hj hc => hf.others j c hj ((competes_iff_of_occupied hocc').1 hc)
  refine ⟨?_, ?_, ?_⟩
  · obtain ⟨c, hc, hcomp, hq⟩ := h.entry
    exact ⟨c, hf.entry k c hc, (hcompetes c).2 hcomp, hq⟩
  · intro c hc hcomp
    obtain ⟨j, hj⟩ := List.mem_iff_getElem?.1 hc
    obtain ⟨m, -, hm⟩ := hother j c hj hcomp
    exact h.largest c (List.mem_of_getElem? hm) ((hcompetes c).1 hcomp)
  · intro j c hj hcomp hq
    obtain ⟨m, rfl, hm⟩ := hother j c hj hcomp
    exact hf.mono.monotone (h.first m c hm ((hcompetes c).1 hcomp) hq)

/-! ## Emission -/

/-- **A peak among all is the place** of the point if it competes. -/
theorem IsPlace.of_isPeak {ps : List K} {c : Candidate O K}
    (hps : cs.mapM (·.density x) = .ok ps) (h : IsPeak ps k q) (hk : cs[k]? = some c)
    (hc : Competes cs c) : IsPlace cs x k q := by
  have hplaced : (placed cs).mapM (·.2.density x) = .ok ps := by
    have hsnd : (placed cs).map Prod.snd = cs := List.map_snd_zip (by simp)
    rw [← hps, ← congrArg (List.mapM fun c : Candidate O K => c.density x) hsnd, List.mapM_map]
    rfl
  have hlt : k < cs.length := (List.getElem?_eq_some_iff.1 hk).1
  exact isPlace_of_isPeak (pairwise_placed cs) (fun j c => mem_placed_iff.1)
    (fun j c hj _ => mem_placed_iff.2 hj) hplaced
    (List.getElem?_zip_eq_some.2 ⟨List.getElem?_range hlt, hk⟩) hc h

/-- **Most likely places agree.**  In exact arithmetic, let there be a likelihood under every
    component that competes for each of some points.  Then each point is placed at the first of
    the largest likelihoods that compete.  Empty components that are added anywhere do not move
    it to another component, as long as one is occupied.  And whenever the most likely mode of
    emission, to clusters with these components and any totals, hands a point with likelihoods
    of a positive sum to an occupied component, or to any if none is occupied, then to the one
    where the point is placed. -/
theorem most_likely_places_agree {points : List O} {cs : List (Candidate O K)}
    (h : ∀ x ∈ points, Placeable cs x) :
    ∃ ks, assignments points cs = .ok ks ∧
      List.Forall₂ (fun x k => ∃ q, IsPlace cs x k q) points ks ∧
      (∀ f wider, Widens f cs wider → (∃ c ∈ cs, 0 < c.count) →
        assignments points wider = .ok (ks.map f)) ∧
      ∀ (p : Policy K) (clusters : List (Candidate O K)) (i : Nat) (x : O) (k : Nat) (ps : List K),
        p.mode = .mostLikely → clusters.map Candidate.density = cs.map Candidate.density →
        points[i]? = some x → ks[i]? = some k → cs.mapM (·.density x) = .ok ps → 0 < ps.sum →
        ∃ j weight, (collectPoint p clusters x).Appends (.ok ()) [⟨j, weight, x⟩] ∧
          ((∃ c, cs[j]? = some c ∧ 0 < c.count) ∨ (∀ c ∈ cs, c.count = 0) → j = k) := by
  obtain ⟨ks, hks⟩ := exists_assignments h
  have hplaces : List.Forall₂ (fun x k => ∃ q, IsPlace cs x k q) points ks :=
    (mapM_eq_ok_iff_forall₂.1 hks).imp fun x k => mostLikely_eq_ok_iff.1
  refine ⟨ks, hks, hplaces, ?_, ?_⟩
  · intro f wider hf hocc
    refine assignments_map hks fun x _ k hk => ?_
    obtain ⟨q, hk⟩ := mostLikely_eq_ok_iff.1 hk
    exact mostLikely_eq_ok_iff.2 ⟨q, hk.widen hf hocc⟩
  · intro p clusters i x k ps hp hclusters hx hk hps hsum
    have hps' : clusters.mapM (·.density x) = .ok ps := by
      have hdensities := congrArg (List.mapM fun d => d x) hclusters
      rw [List.mapM_map, List.mapM_map] at hdensities
      exact hdensities.trans hps
    have hne : ps ≠ [] := by
      rintro rfl
      exact lt_irrefl 0 hsum
    obtain ⟨j, q, -, hpeak⟩ := exists_argmax? hne
    refine ⟨j, _, collectPoint_appends_mostLikely hps' hsum hp hpeak, ?_⟩
    intro hj
    obtain ⟨c, hc, hcompetes⟩ : ∃ c, cs[j]? = some c ∧ Competes cs c := by
      rcases hj with ⟨c, hc, hcount⟩ | hempty
      · exact ⟨c, hc, .inl hcount⟩
      · have hlt : j < cs.length := by
          rw [length_of_mapM_eq_ok hps]
          exact (List.getElem?_eq_some_iff.1 hpeak.entry).1
        exact ⟨cs[j], List.getElem?_eq_getElem hlt, .inr hempty⟩
    obtain ⟨k', hk', hmostLikely⟩ := getElem?_of_mapM_eq_ok hks hx
    obtain rfl := Option.some.inj (hk.symm.trans hk')
    obtain ⟨q', hplace⟩ := mostLikely_eq_ok_iff.1 hmostLikely
    exact (IsPlace.of_isPeak hps hpeak hc hcompetes).unique hplace

/-- The number 0 is placed with the second of three components, and emission hands it to this
    cluster.  With an empty component in front, under which the number is more likely, the same
    component is the third. -/
theorem zero_is_placed_with_the_second :
    ∃ weight, assignments [0] oneSixThree = .ok [1] ∧
      assignments [0] (oneSixThree.insertIdx 0 ⟨fun _ => .ok 9, 0⟩) = .ok [2] ∧
      (collectPoint ⟨.mostLikely, .real 0, 0, le_rfl, zero_le_one⟩ oneSixThree 0).Appends (.ok ())
        [⟨1, weight, 0⟩] := by
  have hplaceable : ∀ x ∈ [0], Placeable oneSixThree x := by
    intro x _
    refine placeable_of_forall (List.cons_ne_nil _ _) ?_
    rw [oneSixThree, List.forall_mem_cons, List.forall_mem_cons, List.forall_mem_singleton]
    exact ⟨⟨1, rfl⟩, ⟨6, rfl⟩, ⟨3, rfl⟩⟩
  obtain ⟨ks, hks, -, hwiden, hemit⟩ := most_likely_places_agree hplaceable
  have hplaces : (assignments [0] oneSixThree).toOption = some [1] := by decide +kernel
  rw [hks] at hplaces
  obtain rfl := Option.some.inj hplaces
  have hwider : Widens (makeRoom 0) oneSixThree (oneSixThree.insertIdx 0 ⟨fun _ => .ok 9, 0⟩) :=
    widens_insertIdx oneSixThree (Nat.zero_le 3) rfl
  obtain ⟨j, weight, hadds, hj⟩ := hemit ⟨.mostLikely, .real 0, 0, le_rfl, zero_le_one⟩
    oneSixThree 0 0 1 [1, 6, 3] rfl rfl rfl rfl rfl (by decide +kernel)
  -- the cluster that gets the number is occupied
  have hcount : [oneSixThree[j]?.map Candidate.count] = [some 1] :=
    (congrArg (fun r => r.2.map fun e => oneSixThree[e.cluster]?.map Candidate.count)
      (hadds [])).symm.trans (by decide +kernel)
  obtain ⟨c, hc, hone⟩ := Option.map_eq_some_iff.1 (List.singleton_inj.1 hcount)
  obtain rfl : j = 1 := hj (.inl ⟨c, hc, hone ▸ Nat.one_pos⟩)
  exact ⟨weight, hks, hwiden _ _ hwider ⟨_, List.mem_cons_self, Nat.two_pos⟩, hadds⟩

end DirichletMixture
