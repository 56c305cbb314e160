/-
  DirichletMixture: the uniform draws that lead to an index.

  In exact arithmetic the uniform draws that lead to one index are an interval.  Its length
  is the part that the weight of the index has in the total, and the intervals of all
  indices make up the numbers from zero, included, to one.  What holds at the bounds hangs
  on every comparison being the right one: equal cumulative sums come from weights that are
  zero, and the interval of such a weight is empty.

  * `partBefore` is the part of the total that lies before an index, and `drawInterval` the
    interval of an index;
  * `insertionPoint_eq_iff`: a threshold belongs at the index between whose cumulative sums
    it lies, and `insertionPoint_lt`: it never exceeds all of them;
  * `locate_eq_iff`: an index is located exactly on its interval;
  * `RefusedWeights` says why weights that are no such vector are refused;
  * `indices_are_drawn_in_proportion` says what weights of any nesting lead to.
-/
import Mathlib.Algebra.Order.BigOperators.Group.List
import Mathlib.Data.Set.Lattice
import Mathlib.Order.Interval.Set.Defs
import DirichletMixture.Proofs.Nested
import DirichletMixture.Proofs.Weights.Location

namespace DirichletMixture

variable {ω α K : Type}

/-! ## Intervals -/

variable [Exact K]

/-- Weights that an index can be drawn with: none is negative, and their sum is positive. -/
structure UsableWeights (w : List K) : Prop where
  nonneg : ∀ x ∈ w, 0 ≤ x
  sum_pos : 0 < w.sum

/-- The part of the total weight that lies before the index `k`. -/
def partBefore (w : List K) (k : Nat) : K := (w.take k).sum / w.sum

/-- The uniform draws that lead to the index `k`. -/
def drawInterval (w : List K) (k : Nat) : Set K :=
  Set.Ico (1 - partBefore w (k + 1)) (1 - partBefore w k)

section
variable {w : List K}

theorem sum_take_succ_getD (w : List K) (k : Nat) :
    (w.take (k + 1)).sum = (w.take k).sum + w.getD k 0 := by
  rw [List.take_add_one, List.sum_append, List.getD_eq_getElem?_getD]
  cases w[k]? <;> simp

theorem getD_nonneg (hw : ∀ x ∈ w, 0 ≤ x) (k : Nat) : 0 ≤ w.getD k 0 := by
  rw [List.getD_eq_getElem?_getD]
  rcases hk : w[k]? with _ | x
  · exact le_rfl
  · exact hw x (List.mem_of_getElem? hk)

/-- The length of the interval of an index is the part of its weight in the total. -/
theorem length_drawInterval (w : List K) (k : Nat) :
    (1 - partBefore w k) - (1 - partBefore w (k + 1)) = w.getD k 0 / w.sum := by
  rw [partBefore, partBefore, sum_take_succ_getD, add_div]
  abel

/-- A uniform draw leads to `k` if its threshold lies between the cumulative sums there. -/
theorem mem_drawInterval (hw : 0 < w.sum) {k : Nat} {r : K} :
    r ∈ drawInterval w k ↔
      (w.take k).sum < (1 - r) * w.sum ∧ (1 - r) * w.sum ≤ (w.take (k + 1)).sum := by
  rw [drawInterval, Set.mem_Ico, partBefore, partBefore, sub_le_comm, lt_sub_comm,
    div_lt_iff₀ hw, le_div_iff₀ hw]
  exact and_comm

/-- **The interval of an index is empty** exactly if it has no weight. -/
theorem drawInterval_eq_empty_iff (hw : UsableWeights w) {k : Nat} :
    drawInterval w k = ∅ ↔ w.getD k 0 = 0 := by
  have hlength := length_drawInterval w k
  have hpart : 0 ≤ w.getD k 0 / w.sum := div_nonneg (getD_nonneg hw.nonneg k) hw.sum_pos.le
  rw [drawInterval, Set.Ico_eq_empty_iff, not_lt, ← sub_nonpos, hlength]
  refine ⟨fun h => ?_, fun h => by rw [h, zero_div]⟩
  exact (div_eq_zero_iff.1 (le_antisymm h hpart)).resolve_right hw.sum_pos.ne'

/-! ## Thresholds among cumulative sums -/

/-- A threshold belongs at `k` if it lies above the sum before `k` and at most at the one
    with `k`. -/
theorem insertionPoint_eq_iff (hw : ∀ x ∈ w, 0 ≤ x) {u : K} (hu : 0 < u) {k : Nat}
    (hk : k < w.length) :
    insertionPoint u (cumulative w) = k ↔ (w.take k).sum < u ∧ u ≤ (w.take (k + 1)).sum := by
  have hwith := lt_insertionPoint_cumulative_iff (u := u) hw hk
  cases k with
  | zero =>
    rw [List.take_zero, List.sum_nil, and_iff_right hu, ← not_lt, ← hwith, Nat.pos_iff_ne_zero,
      not_not]
  | succ k =>
    have hbefore := lt_insertionPoint_cumulative_iff (u := u) hw (Nat.lt_of_succ_lt hk)
    rw [← hbefore, ← not_lt, ← hwith]
    omega

/-- **A threshold never exceeds all cumulative sums.** -/
theorem insertionPoint_lt {r : K} (hw : UsableWeights w) (hr : r ∈ Set.Ico (0 : K) 1) :
    insertionPoint ((1 - r) * w.sum) (cumulative w) < w.length := by
  have hlength : 0 < w.length :=
    List.length_pos_iff.2 fun hnil => hw.sum_pos.ne' (by rw [hnil, List.sum_nil])
  have hlast : ¬ w.length - 1 < insertionPoint ((1 - r) * w.sum) (cumulative w) := by
    rw [lt_insertionPoint_cumulative_iff hw.nonneg (Nat.sub_lt hlength Nat.one_pos),
      Nat.sub_add_cancel hlength, List.take_length, not_lt]
    exact mul_le_of_le_one_left hw.sum_pos.le (sub_le_self 1 hr.1)
  omega

/-- The index that is located is the insertion point, and there is no other way. -/
theorem locate_eq_insertionPoint {r : K} (hw : UsableWeights w) (hr : r ∈ Set.Ico (0 : K) 1) :
    locate w ((1 - r) * w.sum) = insertionPoint ((1 - r) * w.sum) (cumulative w) :=
  locate_of_lt (insertionPoint_lt hw hr)

/-- **An index is located exactly on its interval.** -/
theorem locate_eq_iff (hw : UsableWeights w) {r : K} (hr : r ∈ Set.Ico (0 : K) 1) {k : Nat} :
    locate w ((1 - r) * w.sum) = k ↔ r ∈ drawInterval w k := by
  by_cases hk : k < w.length
  · have hu : 0 < (1 - r) * w.sum := mul_pos (sub_pos.2 hr.2) hw.sum_pos
    rw [locate_eq_insertionPoint hw hr, mem_drawInterval hw.sum_pos,
      insertionPoint_eq_iff hw.nonneg hu hk]
  · -- beyond the last index there is nothing to locate, and nothing in the interval
    have hempty : drawInterval w k = ∅ := by
      rw [drawInterval_eq_empty_iff hw, List.getD_eq_getElem?_getD,
        List.getElem?_eq_none (not_lt.1 hk), Option.getD_none]
    have hlt := insertionPoint_lt hw hr
    rw [locate_eq_insertionPoint hw hr, hempty]
    refine iff_of_false ?_ (Set.notMem_empty r)
    rintro rfl
    exact hk hlt

/-! ## All intervals together -/

theorem drawInterval_subset (hw : UsableWeights w) (k : Nat) :
    drawInterval w k ⊆ Set.Ico (0 : K) 1 := by
  intro r hr
  obtain ⟨hbefore, hwith⟩ := (mem_drawInterval hw.sum_pos).1 hr
  have hnonneg : 0 ≤ (w.take k).sum :=
    List.sum_nonneg fun x hx => hw.nonneg x (List.mem_of_mem_take hx)
  have hle : (w.take (k + 1)).sum ≤ 1 * w.sum := by
    rw [one_mul, ← List.sum_take_add_sum_drop w (k + 1)]
    refine le_add_of_nonneg_right (List.sum_nonneg fun x hx => ?_)
    exact hw.nonneg x (List.mem_of_mem_drop hx)
  refine ⟨?_, sub_pos.1 (pos_of_mul_pos_left (hnonneg.trans_lt hbefore) hw.sum_pos.le)⟩
  exact sub_le_self_iff 1 |>.1 (le_of_mul_le_mul_right (hwith.trans hle) hw.sum_pos)

/-- **The intervals make up the numbers from zero, included, to one.** -/
theorem iUnion_drawInterval (hw : UsableWeights w) :
    ⋃ k, drawInterval w k = Set.Ico (0 : K) 1 := by
  refine Set.Subset.antisymm (Set.iUnion_subset (drawInterval_subset hw)) ?_
  intro r hr
  exact Set.mem_iUnion.2 ⟨_, (locate_eq_iff hw hr).1 rfl⟩

/-- **Different indices have disjoint intervals.** -/
theorem drawInterval_inter_eq_empty (hw : UsableWeights w) {j k : Nat} (hjk : j ≠ k) :
    drawInterval w j ∩ drawInterval w k = ∅ := by
  refine Set.eq_empty_iff_forall_notMem.2 ?_
  rintro r ⟨hj, hk⟩
  refine hjk ?_
  have hr := drawInterval_subset hw j hj
  exact ((locate_eq_iff hw hr).2 hj).symm.trans ((locate_eq_iff hw hr).2 hk)

end

/-! ## Drawing -/

section
variable {g : Generator ω K} {w : List K} {s : ω}

theorem drawIndexOf_ofList (g : Generator ω K) (w : List K) :
    drawIndexOf g (.ofList w) = drawIndex g w := by
  rw [drawIndexOf, Nested.shape?_ofList, Nested.flatten_ofList]

/-- **An index is drawn** with the uniform draws of its interval, and with no others. -/
theorem exists_drawIndex (hw : UsableWeights w) (hr : (g.uniform s).1 ∈ Set.Ico (0 : K) 1) :
    ∃ k, (drawIndex g w).runOn s = (.ok k, (g.uniform s).2) ∧ k < w.length ∧
      insertionPoint ((1 - (g.uniform s).1) * pairwiseSum w) (cumulative w) = k ∧
      ∀ j, k = j ↔ (g.uniform s).1 ∈ drawInterval w j := by
  have hcheck : checkWeights w = .ok w.sum := checkWeights_eq_ok.2 ⟨hw.nonneg, hw.sum_pos, rfl⟩
  have hlocate := locate_eq_insertionPoint hw hr
  refine ⟨_, drawIndex_eq_ok.2 ⟨_, hcheck, rfl, rfl⟩, ?_, ?_, fun j => locate_eq_iff hw hr⟩
  · rw [hlocate]
    exact insertionPoint_lt hw hr
  · rw [hlocate, pairwiseSum_eq_sum]

/-- Why a vector cannot be drawn from. -/
theorem checkWeights_eq_error {cause : Degeneracy K} (h : checkWeights w = .error cause) :
    (w = [] ∧ cause = .notVector [0]) ∨ ((∃ x ∈ w, x < 0) ∧ cause = .badWeight) ∨
      (w ≠ [] ∧ (∀ x ∈ w, 0 ≤ x) ∧ w.sum = 0 ∧ cause = .badTotal 0) := by
  rw [checkWeights] at h
  by_cases hnil : w = []
  · rw [if_pos (List.isEmpty_iff.2 hnil)] at h
    exact .inl ⟨hnil, (Except.error.inj h).symm⟩
  rw [if_neg (mt List.isEmpty_iff.1 hnil)] at h
  by_cases hneg : ∃ x ∈ w, x < 0
  · rw [if_pos (by simpa using hneg)] at h
    exact .inr (.inl ⟨hneg, (Except.error.inj h).symm⟩)
  rw [if_neg (by simpa using hneg), pairwiseSum_eq_sum] at h
  have hnonneg : ∀ x ∈ w, 0 ≤ x := fun x hx => not_lt.1 fun hlt => hneg ⟨x, hx, hlt⟩
  by_cases hsum : 0 < w.sum
  · rw [if_pos (isMeasure_iff.2 hsum)] at h
    cases h
  · rw [if_neg (mt isMeasure_iff.1 hsum)] at h
    have hzero : w.sum = 0 := le_antisymm (not_lt.1 hsum) (List.sum_nonneg hnonneg)
    rw [hzero] at h
    exact .inr (.inr ⟨hnil, hnonneg, hzero, (Except.error.inj h).symm⟩)

/-- Weights of any nesting that an index cannot be drawn with, each with the fault that says
    why. -/
inductive RefusedWeights : Nested K → Fault K → Prop
  | noArray {x : Nested K} : x.shape? = none → RefusedWeights x .notArray
  /-- The weights are an array, but no vector, or an empty one. -/
  | noVector {x : Nested K} {shape : List Nat} : x.shape? = some shape →
    (∀ n, shape = [n] → n = 0) → RefusedWeights x (.degenerate (.notVector shape) .unknown)
  | negative {w : List K} : (∃ x ∈ w, x < 0) →
    RefusedWeights (.ofList w) (.degenerate .badWeight .unknown)
  | noTotal {w : List K} : w ≠ [] → (∀ x ∈ w, 0 ≤ x) → w.sum = 0 →
    RefusedWeights (.ofList w) (.degenerate (.badTotal 0) .unknown)

/-- Refused weights are degenerate, unless they are no array. -/
theorem RefusedWeights.kind_eq_iff {x : Nested K} {e : Fault K} (h : RefusedWeights x e) :
    e.kind = .degeneracy ↔ x.shape? ≠ none := by
  cases h with
  | noArray hshape => exact iff_of_false (by simp [Fault.kind]) (not_not.2 hshape)
  | noVector hshape _ => simp [Fault.kind, hshape]
  | negative _ => simp [Fault.kind]
  | noTotal _ _ _ => simp [Fault.kind]

/-- **Weights that are no usable vector are refused** before anything is drawn. -/
theorem exists_refusedWeights {weights : Nested K}
    (h : ∀ w, UsableWeights w → weights ≠ .ofList w) (g : Generator ω K) (s : ω) :
    ∃ e, (drawIndexOf g weights).runOn s = (.error e, s) ∧ RefusedWeights weights e := by
  rcases hshape : weights.shape? with _ | shape
  · exact ⟨.notArray, by rw [drawIndexOf, hshape]; rfl, .noArray hshape⟩
  by_cases hvector : ∃ n, shape = [n]
  · obtain ⟨n, rfl⟩ := hvector
    obtain ⟨w, rfl, -⟩ := Nested.eq_ofList_of_shape? hshape
    rcases hcheck : checkWeights w with cause | total
    · refine ⟨.degenerate cause .unknown, by rw [drawIndexOf_ofList, drawIndex, hcheck]; rfl, ?_⟩
      rcases checkWeights_eq_error hcheck with ⟨rfl, rfl⟩ | ⟨hneg, rfl⟩ | ⟨hne, hnonneg, hzero, rfl⟩
      · exact .noVector (Nested.shape?_ofList []) fun n hn => (List.cons.inj hn).1.symm
      · exact .negative hneg
      · exact .noTotal hne hnonneg hzero
    · obtain ⟨hnonneg, hpos, -⟩ := checkWeights_eq_ok.1 hcheck
      exact absurd rfl (h w ⟨hnonneg, hpos⟩)
  · refine ⟨.degenerate (.notVector shape) .unknown, ?_,
      .noVector hshape fun n hn => absurd ⟨n, hn⟩ hvector⟩
    rw [drawIndexOf, hshape]
    split
    · contradiction
    · rename_i n hn
      exact absurd ⟨n, Option.some.inj hn⟩ hvector
    · rename_i shape' hs
      rw [Option.some.inj hs]
      rfl

/-- **An index is drawn in proportion to its weight.**  A usable vector takes one uniform
    draw and leads to the index with that draw in its interval; the index is found among the
    cumulative sums, never by falling back.  The interval of an index is as long as the part
    of its weight in the total, and empty if there is no weight; all intervals together make
    up the numbers from zero, included, to one, and no two have a number in common.
    Everything else is refused before anything is drawn: an array for being degenerate, and
    what is no array for that. -/
theorem indices_are_drawn_in_proportion (g : Generator ω K) (r : Recorded ω K) :
    (∀ w : List K, UsableWeights w →
      ((g.uniform r.source).1 ∈ Set.Ico (0 : K) 1 → ∃ k,
        (drawIndexOf g.recorded (.ofList w)).runOn r =
          (.ok k, r.note .uniform (g.uniform r.source).2) ∧
        k < w.length ∧
        insertionPoint ((1 - (g.uniform r.source).1) * pairwiseSum w) (cumulative w) = k ∧
        ∀ j, k = j ↔ (g.uniform r.source).1 ∈ drawInterval w j) ∧
      (∀ k, (1 - partBefore w k) - (1 - partBefore w (k + 1)) = w.getD k 0 / w.sum) ∧
      (∀ k, drawInterval w k = ∅ ↔ w.getD k 0 = 0) ∧
      ⋃ k, drawInterval w k = Set.Ico (0 : K) 1 ∧
      ∀ j k, j ≠ k → drawInterval w j ∩ drawInterval w k = ∅) ∧
    ∀ weights : Nested K, (∀ w, UsableWeights w → weights ≠ .ofList w) →
      ∃ e, (drawIndexOf g.recorded weights).runOn r = (.error e, r) ∧
        RefusedWeights weights e ∧ (e.kind = .degeneracy ↔ weights.shape? ≠ none) := by
  constructor
  · intro w hw
    refine ⟨?_, length_drawInterval w, fun k => drawInterval_eq_empty_iff hw,
      iUnion_drawInterval hw, fun _ _ => drawInterval_inter_eq_empty hw⟩
    intro hr
    have hdraw := exists_drawIndex (g := g.recorded) (s := r) hw hr
    rwa [← drawIndexOf_ofList] at hdraw
  · intro weights hother
    obtain ⟨e, hrun, hrefused⟩ := exists_refusedWeights hother g.recorded r
    exact ⟨e, hrun, hrefused, hrefused.kind_eq_iff⟩

/-- Of five weights only two are not zero.  The uniform draw at the lower end of the first
    interval leads to the index of the first. -/
theorem third_leads_to_second_weight :
    UsableWeights [0, 2, 0, 1, (0 : ℚ)] ∧ (1 / 3 : ℚ) ∈ Set.Ico (0 : ℚ) 1 ∧
      (drawIndexOf Script.generator.recorded (.ofList [0, 2, 0, 1, (0 : ℚ)])).runOn
          (Recorded.fresh ⟨[1 / 3], 0, 0⟩) =
        (.ok 1, (Recorded.fresh ⟨[1 / 3], 0, 0⟩).note .uniform ⟨[], 0, 1⟩) := by
  have hw : UsableWeights [0, 2, 0, 1, (0 : ℚ)] := ⟨by decide +kernel, by decide +kernel⟩
  have hr : (1 / 3 : ℚ) ∈ Set.Ico (0 : ℚ) 1 := by constructor <;> norm_num
  have hmem : (1 / 3 : ℚ) ∈ drawInterval [0, 2, 0, 1, (0 : ℚ)] 1 := by
    refine (mem_drawInterval hw.sum_pos).2 ⟨?_, ?_⟩ <;> norm_num
  obtain ⟨k, hrun, -, -, hk⟩ := ((indices_are_drawn_in_proportion Script.generator
    (Recorded.fresh ⟨[1 / 3], 0, 0⟩)).1 _ hw).1 hr
  obtain rfl : k = 1 := (hk 1).2 hmem
  exact ⟨hw, hr, hrun⟩

/-- Two rows of different lengths. -/
def Nested.ragged : Nested ℚ := .list [.list [.scalar 1, .scalar 2], .list [.scalar 3]]

/-- Rows of different lengths are no vector, and the fault is not one of degenerate weights. -/
theorem ragged_weights_are_no_array :
    (∀ w, UsableWeights w → Nested.ragged ≠ .ofList w) ∧
      (drawIndexOf Script.generator Nested.ragged).runOn ⟨[], 0, 0⟩ =
        (.error .notArray, ⟨[], 0, 0⟩) ∧
      (Fault.notArray : Fault ℚ).kind ≠ .degeneracy := by
  refine ⟨?_, rfl, by decide⟩
  intro w _ heq
  have hshape : Nested.ragged.shape? = none := rfl
  rw [heq, Nested.shape?_ofList] at hshape
  cases hshape

end

end DirichletMixture
