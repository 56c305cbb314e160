/-
  DirichletMixture: the stick and the shares it is broken by.

  Every component takes its share of what the earlier ones have left of the stick.  So its
  weight is this share times what every earlier share has left over, and what is lost to a
  stick of length one is what all shares leave over together.

  * `shareShapes` are the shapes of the shares for given counts, `Generator.shares` asks
    for beta draws with given shapes, and `pieces` are the weights that given shares lead
    to;
  * `sum_pieces`, `pieces_mem` and `sum_pieces_eq_one_iff`: the weights lie between zero and
    one, and so does their sum;
  * `breakStick_eq`: the loop that breaks the stick asks for these draws and returns these
    weights.
-/
import Mathlib.Algebra.BigOperators.Ring.List
import Mathlib.Algebra.Order.BigOperators.Group.List
import Mathlib.Algebra.Order.BigOperators.GroupWithZero.List
import Mathlib.Algebra.Order.BigOperators.Ring.List
import Mathlib.Tactic.Ring
import DirichletMixture.Proofs.Exact.Basic
import DirichletMixture.Proofs.Simulation
import DirichletMixture.Weights.Stick

namespace DirichletMixture

variable {ω K : Type} {g : Generator ω K}

/-! ## Shares -/

/-- Beta draws with the given shapes, one after the other. -/
def Generator.shares (g : Generator ω K) (shapes : List (K × K)) : Attempt ω K (List K) :=
  shapes.mapM fun p => g.beta p.1 p.2

theorem Generator.shares_cons (g : Generator ω K) (p : K × K) (shapes : List (K × K)) :
    g.shares (p :: shapes) =
      (do let b ← g.beta p.1 p.2
          let bs ← g.shares shapes
          pure (b :: bs)) :=
  List.mapM_cons

theorem length_of_shares {shapes : List (K × K)} {shares : List K} {s s' : ω}
    (h : (g.shares shapes).runOn s = (.ok shares, s')) : shares.length = shapes.length := by
  induction shapes generalizing shares s with
  | nil =>
    cases h
    rfl
  | cons p shapes ih =>
    rw [Generator.shares_cons] at h
    obtain ⟨b, s₁, -, h₁⟩ := Attempt.runOn_bind_eq_ok.1 h
    obtain ⟨bs, s₂, hbs, h₂⟩ := Attempt.runOn_bind_eq_ok.1 h₁
    cases h₂
    rw [List.length_cons, List.length_cons, ih hbs]

variable [Exact K]

theorem map_mapIdx {α β γ : Type} (f : Nat → α → β) (f' : β → γ) (xs : List α) :
    (xs.mapIdx f).map f' = xs.mapIdx fun k x => f' (f k x) :=
  List.ext_getElem (by simp) (by simp)

/-- The shapes of the shares of components with these counts: one more than the count of
    the component, and the concentration plus the counts of all later ones. -/
def shareShapes (alpha0 : K) (counts : List K) : List (K × K) :=
  counts.mapIdx fun k n => (1 + n, alpha0 + (counts.drop (k + 1)).sum)

theorem shareShapes_cons (alpha0 n : K) (counts : List K) :
    shareShapes alpha0 (n :: counts) =
      (1 + n, alpha0 + counts.sum) :: shareShapes alpha0 counts := by
  simp [shareShapes, List.mapIdx_cons]

theorem shareShapes_pos {alpha0 : K} (h : 0 < alpha0) {counts : List K}
    (hcounts : ∀ n ∈ counts, 0 ≤ n) : ∀ p ∈ shareShapes alpha0 counts, 0 < p.1 ∧ 0 < p.2 := by
  induction counts with
  | nil => simp [shareShapes]
  | cons n counts ih =>
    obtain ⟨hn, hrest⟩ := List.forall_mem_cons.1 hcounts
    rw [shareShapes_cons, List.forall_mem_cons]
    refine ⟨⟨add_pos_of_pos_of_nonneg one_pos hn, ?_⟩, ih hrest⟩
    exact add_pos_of_pos_of_nonneg h (List.sum_nonneg hrest)

theorem natCast_counts_nonneg (ns : List Nat) : ∀ n ∈ ns.map (Nat.cast : Nat → K), 0 ≤ n := by
  intro n hn
  obtain ⟨k, -, rfl⟩ := List.mem_map.1 hn
  exact Nat.cast_nonneg k

/-! ## Pieces -/

/-- The weights that some shares lead to: each share is one of what the earlier ones have
    left over. -/
def pieces (shares : List K) : List K :=
  shares.mapIdx fun k b => b * ((shares.take k).map (1 - ·)).prod

@[simp] theorem length_pieces (shares : List K) : (pieces shares).length = shares.length := by
  rw [pieces, List.length_mapIdx]

theorem pieces_cons (b : K) (bs : List K) :
    pieces (b :: bs) = b :: (pieces bs).map ((1 - b) * ·) := by
  simp [pieces, List.mapIdx_cons, map_mapIdx, mul_left_comm]

/-- What is lost to the stick is what all shares leave over together. -/
theorem sum_pieces (shares : List K) :
    (pieces shares).sum = 1 - (shares.map (1 - ·)).prod := by
  induction shares with
  | nil => simp [pieces]
  | cons b bs ih =>
    rw [pieces_cons, List.sum_cons, List.sum_map_mul_left, List.map_id', ih, List.map_cons,
      List.prod_cons]
    ring

section
variable {shares : List K} (h : ∀ b ∈ shares, 0 ≤ b ∧ b ≤ 1)
include h

theorem prod_leftovers_nonneg : 0 ≤ (shares.map (1 - ·)).prod := by
  refine List.prod_nonneg ?_
  intro y hy
  obtain ⟨b, hb, rfl⟩ := List.mem_map.1 hy
  exact sub_nonneg.2 (h b hb).2

/-- Shares of a stick of length one lead to weights between zero and one. -/
theorem pieces_mem : ∀ x ∈ pieces shares, 0 ≤ x ∧ x ≤ 1 := by
  induction shares with
  | nil => simp [pieces]
  | cons b bs ih =>
    obtain ⟨⟨hlow, hhigh⟩, hrest⟩ := List.forall_mem_cons.1 h
    have hleft : 0 ≤ 1 - b := sub_nonneg.2 hhigh
    rw [pieces_cons, List.forall_mem_cons]
    refine ⟨⟨hlow, hhigh⟩, ?_⟩
    intro y hy
    obtain ⟨x, hx, rfl⟩ := List.mem_map.1 hy
    obtain ⟨hx₀, hx₁⟩ := ih hrest x hx
    exact ⟨mul_nonneg hleft hx₀, mul_le_one₀ (sub_le_self 1 hlow) hx₀ hx₁⟩

theorem sum_pieces_le_one : (pieces shares).sum ≤ 1 := by
  rw [sum_pieces]
  exact sub_le_self 1 (prod_leftovers_nonneg h)

end

/-- Nothing is left of the stick exactly if some component takes all there is. -/
theorem sum_pieces_eq_one_iff (shares : List K) : (pieces shares).sum = 1 ↔ 1 ∈ shares := by
  rw [sum_pieces, sub_eq_self, List.prod_eq_zero_iff, List.mem_map]
  constructor
  · rintro ⟨b, hb, hzero⟩
    rwa [sub_eq_zero.1 hzero]
  · intro hone
    exact ⟨1, hone, sub_self 1⟩

/-- Once a component has taken all there is, the later ones get nothing. -/
theorem pieces_of_lt {shares : List K} {k j : Nat} (hk : shares[k]? = some 1) (hkj : k < j)
    (hj : j < shares.length) : (pieces shares)[j]? = some 0 := by
  have hone : (1 : K) ∈ shares.take j := by
    refine List.mem_of_getElem? (i := k) ?_
    rw [List.getElem?_take_of_lt hkj, hk]
  have hzero : ((shares.take j).map (1 - ·)).prod = 0 :=
    List.prod_eq_zero (List.mem_map.2 ⟨1, hone, sub_self 1⟩)
  rw [pieces, List.getElem?_mapIdx, List.getElem?_eq_getElem hj, Option.map_some, hzero, mul_zero]

/-! ## Breaking the stick -/

/-- What is broken off a stick of some length: the counts that the loop keeps are those of
    the components that are left, and so is the length. -/
theorem breakFrom_eq (g : Generator ω K) {alpha0 : K} (h : 0 < alpha0) {counts : List K}
    (hcounts : ∀ n ∈ counts, 0 ≤ n) (remainder : K) :
    breakFrom g alpha0 counts.sum remainder counts =
      (fun bs => (pieces bs).map (remainder * ·)) <$> g.shares (shareShapes alpha0 counts) := by
  induction counts generalizing remainder with
  | nil => rfl
  | cons n counts ih =>
    obtain ⟨-, hrest⟩ := List.forall_mem_cons.1 hcounts
    have hb : 0 < alpha0 + counts.sum := add_pos_of_pos_of_nonneg h (List.sum_nonneg hrest)
    -- without this component, the total is what the later ones have observed
    have htotal : (n :: counts).sum - n = counts.sum := by
      rw [List.sum_cons, add_sub_cancel_left]
    rw [breakFrom, htotal, positivePart_of_pos hb, drawShare, if_pos hb, shareShapes_cons,
      Generator.shares_cons]
    -- the later pieces come from a shorter stick
    have hpieces : ∀ (b : K) (bs : List K), b * remainder ::
        (pieces bs).map ((remainder - b * remainder) * ·) =
          (pieces (b :: bs)).map (remainder * ·) := by
      intro b bs
      rw [pieces_cons, List.map_cons, List.map_map, mul_comm b]
      refine congrArg _ (List.map_congr_left fun x _ => ?_)
      rw [Function.comp_apply]
      ring
    simp only [ih hrest, map_eq_pure_bind, bind_assoc, pure_bind, hpieces]

/-- **Breaking the stick** is drawing the shares and taking the pieces. -/
theorem breakStick_eq (g : Generator ω K) {alpha0 : K} (h : 0 < alpha0) {counts : List K}
    (hcounts : ∀ n ∈ counts, 0 ≤ n) :
    breakStick g alpha0 counts = pieces <$> g.shares (shareShapes alpha0 counts) := by
  have hone : (fun bs : List K => (pieces bs).map (1 * ·)) = pieces := by
    funext bs
    simp
  rw [breakStick, pairwiseSum_eq_sum, breakFrom_eq g h hcounts, hone]

/-- Shares that can be drawn are all that it takes to break the stick. -/
theorem runOn_breakStick {alpha0 : K} (h : 0 < alpha0) {counts : List K}
    (hcounts : ∀ n ∈ counts, 0 ≤ n) {shares : List K} {s s' : ω}
    (hshares : (g.shares (shareShapes alpha0 counts)).runOn s = (.ok shares, s')) :
    (breakStick g alpha0 counts).runOn s = (.ok (pieces shares), s') := by
  rw [breakStick_eq g h hcounts, Attempt.runOn_map, hshares]
  rfl

end DirichletMixture
