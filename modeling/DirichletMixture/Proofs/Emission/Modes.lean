/-
  DirichletMixture: what the two modes of emission write.

  A point is handed out by its shares, which add up to one.  The most likely cluster is the
  peak of the shares; above a threshold a cluster needs a larger share and must not be empty.
  More than one half can belong to one cluster only, and then this is the most likely one.

  * `emitAbove_sublist`, `pairwise_cluster_emitAbove` and `weights_emitAbove_sublist`: what is
    handed out above a threshold is a part of what is handed out above a lower one, in the
    order of the clusters, and its weights are a part of the shares;
  * `isPeak_of_half_lt`: an entry of more than half the sum is the peak, and
    `length_lt_one_div`: few entries can exceed a threshold;
  * `length_emitAbove_lt` and `emitAbove_sublist_peak`: so few clusters are above a threshold,
    and none but the peak above one half;
  * `modes_of_emission` puts this together.
-/
import Mathlib.Algebra.BigOperators.Ring.List
import Mathlib.Algebra.Order.BigOperators.Group.List
import Mathlib.Algebra.Order.Field.Basic
import Mathlib.Tactic.Linarith
import DirichletMixture.Proofs.Exact.Basic
import DirichletMixture.Proofs.Emission.Collecting
import DirichletMixture.Proofs.Emission.Selection
import DirichletMixture.Proofs.Exact.Peak

namespace DirichletMixture

variable {O K : Type} [Exact K]

/-! ## Few entries are large -/

/-- An entry that is more than half the sum is the only one as large. -/
theorem isPeak_of_half_lt {w : List K} (hw : ∀ y ∈ w, 0 ≤ y) {k : Nat} {x : K}
    (hk : w[k]? = some x) (hx : w.sum < 2 * x) : IsPeak w k x := by
  obtain ⟨hlt, hxk⟩ := List.getElem?_eq_some_iff.1 hk
  have hsum : x + (w.eraseIdx k).sum = w.sum := by
    rw [← hxk]
    exact List.add_sum_eraseIdx hlt (fun _ _ => AddCommute.all _ _)
  -- every other entry is at most what the entry leaves of the sum
  have hother : ∀ j y, w[j]? = some y → j ≠ k → y < x := by
    intro j y hj hne
    have hmem : y ∈ w.eraseIdx k := List.mem_eraseIdx_iff_getElem?.2 ⟨j, hne, hj⟩
    have hle : y ≤ (w.eraseIdx k).sum :=
      List.single_le_sum (fun z hz => hw z (List.mem_of_mem_eraseIdx hz)) y hmem
    linarith
  refine ⟨hk, ?_, ?_⟩
  · intro y hy
    obtain ⟨j, hj⟩ := List.mem_iff_getElem?.1 hy
    by_cases hne : j = k
    · rw [hne, hk] at hj
      exact (Option.some.inj hj).ge
    · exact (hother j y hj hne).le
  · intro j hj
    by_contra hne
    exact lt_irrefl x (hother j x hj (fun h => hne h.ge))

/-- Fewer than `1 / t` entries exceed `t` if they add up to one at most. -/
theorem length_lt_one_div {w : List K} {t : K} (ht : 0 < t) (hw : ∀ x ∈ w, t < x)
    (hsum : w.sum ≤ 1) : (w.length : K) < 1 / t := by
  rw [lt_div_iff₀ ht]
  by_cases hnil : w = []
  · rw [hnil]
    simp
  · have hlt := List.sum_lt_sum_of_ne_nil hnil (fun _ => t) id hw
    rw [List.map_const', List.sum_replicate, nsmul_eq_mul, List.map_id] at hlt
    exact hlt.trans_le hsum

section
variable {w : List K} {k : Nat} {x : K} (h : IsPeak w k x)
include h

theorem IsPeak.sum_le : w.sum ≤ w.length * x := by
  rw [← nsmul_eq_mul]
  exact List.sum_le_card_nsmul w x h.largest

theorem IsPeak.pos (hsum : 0 < w.sum) : 0 < x :=
  pos_of_mul_pos_right (hsum.trans_le h.sum_le) (Nat.cast_nonneg _)

/-- The peak of some numbers is at least their average. -/
theorem IsPeak.one_div_le (hsum : 0 < w.sum) : 1 / (w.length : K) ≤ x / w.sum := by
  have hlen : (0 : K) < w.length :=
    Nat.cast_pos.2 ((Nat.zero_le k).trans_lt (List.getElem?_eq_some_iff.1 h.entry).1)
  rw [div_le_div_iff₀ hlen hsum, one_mul, mul_comm]
  exact h.sum_le

end

/-! ## The two modes -/

theorem emitMostLikely_of_isPeak {pi : List K} {k : Nat} {weight : K} (h : IsPeak pi k weight)
    (x : O) : emitMostLikely x pi = [⟨k, weight, x⟩] := by
  simp only [emitMostLikely, h.argmax?_eq, h.entry]

section
variable (t : K) (x : O) (start : Nat) (cs : List (Candidate O K)) (pi : List K)

/-- The clusters come in order, each at most once. -/
theorem pairwise_cluster_emitAbove :
    (emitAbove t x start cs pi).Pairwise fun e e' => e.cluster < e'.cluster := by
  fun_induction emitAbove t x start cs pi with
  | case1 start c cs weight pi h ih =>
    refine List.pairwise_cons.2 ⟨?_, ih⟩
    intro e he
    obtain ⟨j, -, -, -, -, -, -, rfl⟩ := mem_emitAbove_iff.1 he
    exact Nat.lt_of_lt_of_le (Nat.lt_succ_self start) (Nat.le_add_right _ j)
  | case2 start c cs weight pi h ih => exact ih
  | case3 => exact List.Pairwise.nil

/-- The weights are some of the shares. -/
theorem weights_emitAbove_sublist :
    ((emitAbove t x start cs pi).map Emitted.weight).Sublist pi := by
  fun_induction emitAbove t x start cs pi with
  | case1 start c cs weight pi h ih => exact ih.cons_cons weight
  | case2 start c cs weight pi h ih => exact ih.cons weight
  | case3 => exact List.nil_sublist _

/-- What is above a threshold is above any lower one. -/
theorem emitAbove_sublist {t' : K} (ht : t ≤ t') :
    (emitAbove t' x start cs pi).Sublist (emitAbove t x start cs pi) := by
  induction cs generalizing start pi with
  | nil => exact List.Sublist.refl _
  | cons c cs ih =>
    cases pi with
    | nil => exact List.Sublist.refl _
    | cons weight pi =>
      rw [emitAbove, emitAbove]
      by_cases h : t' < weight ∧ 0 < c.count
      · rw [if_pos h, if_pos ⟨ht.trans_lt h.1, h.2⟩]
        exact (ih _ _).cons_cons _
      · rw [if_neg h]
        split
        · exact (ih _ _).cons _
        · exact ih _ _

end

/-! ## Writing a point -/

theorem sum_map_div_sum {ps : List K} (hsum : 0 < ps.sum) : (ps.map (· / ps.sum)).sum = 1 := by
  simp only [div_eq_mul_inv, List.sum_map_mul_right, List.map_id']
  exact mul_inv_cancel₀ hsum.ne'

section
variable {cs : List (Candidate O K)} {x : O} {ps : List K}
  (hps : cs.mapM (·.density x) = .ok ps) (hsum : 0 < ps.sum)
include hps hsum

/-- A point whose likelihoods have a positive sum is handed out by its shares. -/
theorem collectPoint_appends_select (p : Policy K) :
    (collectPoint p cs x).Appends (.ok ()) (p.select cs x (ps.map (· / ps.sum))) := by
  refine collectPoint_appends ?_
  rw [shares_of_mapM hps, normalizeBySum_eq_ok, pairwiseSum_eq_sum]
  exact ⟨isMeasure_iff.2 hsum, rfl⟩

/-- The most likely cluster gets the point. -/
theorem collectPoint_appends_mostLikely {p : Policy K} (hp : p.mode = .mostLikely) {k : Nat} {q : K}
    (h : IsPeak ps k q) : (collectPoint p cs x).Appends (.ok ()) [⟨k, q / ps.sum, x⟩] := by
  have hmono : StrictMono (· / ps.sum) := fun a b hab => div_lt_div_of_pos_right hab hsum
  have hadds := collectPoint_appends_select hps hsum p
  rw [Policy.select, hp] at hadds
  simp only [emitMostLikely_of_isPeak (h.map hmono)] at hadds
  exact hadds

/-- The clusters above the threshold get the point. -/
theorem collectPoint_appends_above {p : Policy K} (hp : p.mode = .threshold) :
    (collectPoint p cs x).Appends (.ok ())
      (emitAbove p.threshold x 0 cs (ps.map (· / ps.sum))) := by
  have hadds := collectPoint_appends_select hps hsum p
  rw [Policy.select, hp] at hadds
  exact hadds

end

theorem mem_emitAbove_shares_iff {t : K} {x : O} {cs : List (Candidate O K)} {ps : List K}
    (hsum : 0 < ps.sum) {e : Emitted O K} :
    e ∈ emitAbove t x 0 cs (ps.map (· / ps.sum)) ↔
      ∃ k c q, cs[k]? = some c ∧ ps[k]? = some q ∧ t * ps.sum < q ∧ 0 < c.count ∧
        e = ⟨k, q / ps.sum, x⟩ := by
  rw [mem_emitAbove_iff]
  constructor
  · rintro ⟨k, c, weight, hc, hweight, hlt, hcount, rfl⟩
    rw [List.getElem?_map] at hweight
    obtain ⟨q, hq, rfl⟩ := Option.map_eq_some_iff.1 hweight
    exact ⟨k, c, q, hc, hq, (lt_div_iff₀ hsum).1 hlt, hcount, by rw [Nat.zero_add]⟩
  · rintro ⟨k, c, q, hc, hq, hlt, hcount, rfl⟩
    exact ⟨k, c, q / ps.sum, hc, by rw [List.getElem?_map, hq, Option.map_some],
      (lt_div_iff₀ hsum).2 hlt, hcount, by rw [Nat.zero_add]⟩

/-- Points in the hands of clusters, in order and all the same, are one at most. -/
theorem sublist_singleton_of_pairwise {α : Type} {es : List (Emitted O α)} {e : Emitted O α}
    (h : es.Pairwise fun e e' => e.cluster < e'.cluster) (hall : ∀ e' ∈ es, e' = e) :
    es.Sublist [e] := by
  rcases es with _ | ⟨a, _ | ⟨b, es⟩⟩
  · exact List.nil_sublist _
  · rw [hall a List.mem_cons_self]
  · have hab := (List.pairwise_cons.1 h).1 b List.mem_cons_self
    rw [hall a List.mem_cons_self, hall b (by simp)] at hab
    exact absurd hab (lt_irrefl _)

section
variable {ps : List K} (hnonneg : ∀ q ∈ ps, 0 ≤ q) (hsum : 0 < ps.sum)
include hnonneg hsum

theorem shares_nonneg : ∀ weight ∈ ps.map (· / ps.sum), 0 ≤ weight := by
  intro weight hweight
  obtain ⟨q, hq, rfl⟩ := List.mem_map.1 hweight
  exact div_nonneg (hnonneg q hq) hsum.le

variable {t : K} {x : O} {cs : List (Candidate O K)}

/-- No more than the whole point is handed out. -/
theorem sum_weights_emitAbove_le_one :
    ((emitAbove t x 0 cs (ps.map (· / ps.sum))).map Emitted.weight).sum ≤ 1 :=
  ((weights_emitAbove_sublist t x 0 cs _).sum_le_sum (shares_nonneg hnonneg hsum)).trans
    (sum_map_div_sum hsum).le

/-- Few clusters are above a threshold. -/
theorem length_emitAbove_lt (ht : 0 < t) :
    ((emitAbove t x 0 cs (ps.map (· / ps.sum))).length : K) < 1 / t := by
  have hlarge : ∀ weight ∈ (emitAbove t x 0 cs (ps.map (· / ps.sum))).map Emitted.weight,
      t < weight := by
    intro weight hweight
    obtain ⟨e, he, rfl⟩ := List.mem_map.1 hweight
    obtain ⟨k, c, q, -, -, hlt, -, rfl⟩ := (mem_emitAbove_shares_iff hsum).1 he
    exact (lt_div_iff₀ hsum).2 hlt
  have hlen := length_lt_one_div ht hlarge (sum_weights_emitAbove_le_one hnonneg hsum)
  rwa [List.length_map] at hlen

/-- Above one half there is room for the peak only. -/
theorem emitAbove_sublist_peak (ht : 1 / 2 ≤ t) {k : Nat} {q : K} (hpeak : IsPeak ps k q) :
    (emitAbove t x 0 cs (ps.map (· / ps.sum))).Sublist [⟨k, q / ps.sum, x⟩] := by
  refine sublist_singleton_of_pairwise (pairwise_cluster_emitAbove _ _ _ _ _) ?_
  intro e he
  obtain ⟨j, c, r, -, hr, hlt, -, rfl⟩ := (mem_emitAbove_shares_iff hsum).1 he
  have hhalf : ps.sum < 2 * r := by
    have hle := mul_le_mul_of_nonneg_right ht hsum.le
    linarith
  obtain ⟨rfl, rfl⟩ := (isPeak_of_half_lt hnonneg hr hhalf).unique hpeak
  rfl

end

/-- **The two modes of emission.**  In exact arithmetic, let a point have likelihoods that are
    not negative and have a positive sum.  The most likely mode writes one line, for the first
    cluster with the largest likelihood, and its weight is at least one part in as many as there
    are clusters.  Above a threshold, the lines come in the order of the clusters, one for each
    cluster whose likelihood is above that part of the sum and which is not empty, with its share
    for a weight.  The weights add up to one at most, so that there are fewer lines than the
    inverse of the threshold.  Neither mode writes a cluster without likelihood.  With one half
    or more for the threshold nothing is written but what the most likely mode writes, and a
    higher threshold writes no more than a lower one. -/
theorem modes_of_emission {cs : List (Candidate O K)} {x : O} {ps : List K}
    (hps : cs.mapM (·.density x) = .ok ps) (hnonneg : ∀ q ∈ ps, 0 ≤ q) (hsum : 0 < ps.sum) :
    (∀ p : Policy K, p.mode = .mostLikely → ∃ k q, IsPeak ps k q ∧
      (collectPoint p cs x).Appends (.ok ()) [⟨k, q / ps.sum, x⟩] ∧
      1 / (cs.length : K) ≤ q / ps.sum) ∧
    (∀ p : Policy K, p.mode = .threshold → ∃ es, (collectPoint p cs x).Appends (.ok ()) es ∧
      es.Pairwise (fun e e' => e.cluster < e'.cluster) ∧
      (∀ e, e ∈ es ↔ ∃ k c q, cs[k]? = some c ∧ ps[k]? = some q ∧ p.threshold * ps.sum < q ∧
        0 < c.count ∧ e = ⟨k, q / ps.sum, x⟩) ∧
      (es.map Emitted.weight).sum ≤ 1 ∧
      (0 < p.threshold → (es.length : K) < 1 / p.threshold)) ∧
    (∀ (p : Policy K) es, (collectPoint p cs x).Appends (.ok ()) es →
      ∀ e ∈ es, ∃ q, ps[e.cluster]? = some q ∧ 0 < q) ∧
    (∀ (p p' : Policy K) es es', p.mode = .mostLikely → p'.mode = .threshold →
      1 / 2 ≤ p'.threshold → (collectPoint p cs x).Appends (.ok ()) es →
      (collectPoint p' cs x).Appends (.ok ()) es' → es'.Sublist es) ∧
    ∀ (p p' : Policy K) es es', p.mode = .threshold → p'.mode = .threshold →
      p.threshold ≤ p'.threshold → (collectPoint p cs x).Appends (.ok ()) es →
      (collectPoint p' cs x).Appends (.ok ()) es' → es'.Sublist es := by
  have hne : ps ≠ [] := by
    rintro rfl
    exact lt_irrefl 0 hsum
  obtain ⟨k, q, -, hpeak⟩ := exists_argmax? hne
  have hlength : ps.length = cs.length := by
    simpa using congrArg List.length (mapM_eq_ok.1 hps).symm
  refine ⟨?_, ?_, ?_, ?_, ?_⟩
  · intro p hp
    refine ⟨k, q, hpeak, collectPoint_appends_mostLikely hps hsum hp hpeak, ?_⟩
    rw [← hlength]
    exact hpeak.one_div_le hsum
  · intro p hp
    exact ⟨_, collectPoint_appends_above hps hsum hp, pairwise_cluster_emitAbove _ _ _ _ _,
      fun e => mem_emitAbove_shares_iff hsum, sum_weights_emitAbove_le_one hnonneg hsum,
      length_emitAbove_lt hnonneg hsum⟩
  · intro p es hes e he
    rcases hp : p.mode with _ | _
    · obtain ⟨-, rfl⟩ := hes.unique (collectPoint_appends_mostLikely hps hsum hp hpeak)
      rw [List.mem_singleton.1 he]
      exact ⟨q, hpeak.entry, hpeak.pos hsum⟩
    · obtain ⟨-, rfl⟩ := hes.unique (collectPoint_appends_above hps hsum hp)
      obtain ⟨j, c, r, -, hr, hlt, -, rfl⟩ := (mem_emitAbove_shares_iff hsum).1 he
      exact ⟨r, hr, (mul_nonneg p.threshold_nonneg hsum.le).trans_lt hlt⟩
  · intro p p' es es' hp hp' hhalf hes hes'
    obtain ⟨-, rfl⟩ := hes.unique (collectPoint_appends_mostLikely hps hsum hp hpeak)
    obtain ⟨-, rfl⟩ := hes'.unique (collectPoint_appends_above hps hsum hp')
    exact emitAbove_sublist_peak hnonneg hsum hhalf hpeak
  · intro p p' es es' hp hp' hle hes hes'
    obtain ⟨-, rfl⟩ := hes.unique (collectPoint_appends_above hps hsum hp)
    obtain ⟨-, rfl⟩ := hes'.unique (collectPoint_appends_above hps hsum hp')
    exact emitAbove_sublist _ _ _ _ _ hle

/-- Three clusters that share every number as one to six to three, the last of them empty. -/
def oneSixThree : List (Candidate Nat ℚ) :=
  [⟨fun _ => .ok 1, 2⟩, ⟨fun _ => .ok 6, 1⟩, ⟨fun _ => .ok 3, 0⟩]

/-- The second cluster gets the number 0 with three fifths in either mode, with one half for the
    threshold, while one tenth would not let the others in: the first has just as much, and the
    last is empty. -/
theorem second_of_three_gets_the_point :
    ∃ es es' es'',
      (collectPoint ⟨.mostLikely, .real 0, 0, le_rfl, zero_le_one⟩ oneSixThree 0).Appends (.ok ())
        es ∧
      (collectPoint ⟨.threshold, .real (1 / 2), 1 / 2, by norm_num, by norm_num⟩ oneSixThree
        0).Appends (.ok ()) es' ∧
      (collectPoint ⟨.threshold, .real (1 / 10), 1 / 10, by norm_num, by norm_num⟩ oneSixThree
        0).Appends (.ok ()) es'' ∧
      es'.Sublist es ∧ es'.Sublist es'' ∧ (es''.length : ℚ) < 1 / (1 / 10) ∧
      es.map Emitted.weight = [3 / 5] ∧ es''.map Emitted.cluster = [1] := by
  have hps : oneSixThree.mapM (·.density 0) = .ok [1, 6, 3] := rfl
  obtain ⟨hmost, habove, -, hhalf, hraise⟩ :=
    modes_of_emission hps (by decide +kernel) (by decide +kernel)
  obtain ⟨k, q, -, hes, -⟩ := hmost ⟨.mostLikely, .real 0, 0, le_rfl, zero_le_one⟩ rfl
  obtain ⟨es', hes', -⟩ := habove ⟨.threshold, .real (1 / 2), 1 / 2, by norm_num, by norm_num⟩ rfl
  obtain ⟨es'', hes'', -, -, -, hlen⟩ :=
    habove ⟨.threshold, .real (1 / 10), 1 / 10, by norm_num, by norm_num⟩ rfl
  refine ⟨_, es', es'', hes, hes', hes'', hhalf _ _ _ _ rfl rfl le_rfl hes hes',
    hraise _ _ _ _ rfl rfl (by norm_num) hes'' hes', hlen (by norm_num), ?_, ?_⟩
  · have hweights := congrArg (fun r => r.2.map Emitted.weight) (hes [])
    exact hweights.symm.trans (by decide +kernel)
  · have hclusters := congrArg (fun r => r.2.map Emitted.cluster) (hes'' [])
    exact hclusters.symm.trans (by decide +kernel)

end DirichletMixture
