/-
  DirichletMixture: the pieces of the stick.

  Breaking the stick asks for beta draws only.  If these are parts of one, no weight is
  negative, and together the weights are no more than one.

  * `breakStick_withUniform`: uniform draws have no part in the weights;
  * `exists_breakStick`: beta draws that succeed are enough;
  * `nonneg_of_breakStick`: the weights are not negative;
  * `stick_follows_its_formula` says which draws are made, and what the weights are in terms
    of them.
-/
import DirichletMixture.Proofs.Exact.Basic
import DirichletMixture.Proofs.Weights.Calls
import DirichletMixture.Proofs.Weights.Shares

namespace DirichletMixture

variable {ω α K : Type}

section
variable [Scalar α]

/-- The generator with other uniform draws. -/
def Generator.withUniform (g : Generator ω α) (u : StateM ω α) : Generator ω α :=
  { g with uniform := u }

theorem breakFrom_withUniform (g : Generator ω α) (u : StateM ω α) (alpha0 : α)
    (counts : List α) :
    ∀ total remainder, breakFrom (g.withUniform u) alpha0 total remainder counts =
      breakFrom g alpha0 total remainder counts := by
  induction counts with
  | nil =>
    intro total remainder
    rfl
  | cons n counts ih =>
    intro total remainder
    simp only [breakFrom, ih]
    rfl

/-- Uniform draws have no part in the weights. -/
theorem breakStick_withUniform (g : Generator ω α) (u : StateM ω α) (alpha0 : α)
    (counts : List α) :
    breakStick (g.withUniform u) alpha0 counts = breakStick g alpha0 counts :=
  breakFrom_withUniform g u alpha0 counts _ _

end

variable [Exact K] {g : Generator ω K}

/-! ## Beta draws that succeed -/

/-- **The stick can be broken** if beta draws with positive shapes succeed. -/
theorem exists_breakStick (hg : g.ServesShares) {alpha0 : K} (h : 0 < alpha0) (ns : List Nat)
    (s : ω) : ∃ w s', (breakStick g alpha0 (ns.map Nat.cast)).runOn s = (.ok w, s') := by
  have hcounts := natCast_counts_nonneg (K := K) ns
  obtain ⟨shares, s', hshares⟩ := exists_shares hg (shareShapes_pos h hcounts) s
  exact ⟨pieces shares, s', runOn_breakStick h hcounts hshares⟩

/-! ## Beta draws that are parts of one -/

/-- Beta draws with positive shapes lie between zero and one. -/
def Generator.UnitShares (g : Generator ω K) : Prop :=
  ∀ a b s x s', 0 < a → 0 < b → (g.beta a b).runOn s = (.ok x, s') → 0 ≤ x ∧ x ≤ 1

theorem unit_of_drawShare (hg : g.UnitShares) {a b x : K} {s s' : ω} (ha : 0 < a)
    (h : (drawShare g a b).runOn s = (.ok x, s')) : 0 ≤ x ∧ x ≤ 1 := by
  rw [drawShare] at h
  by_cases hb : 0 < b
  · rw [if_pos hb] at h
    exact hg a b s x s' ha hb h
  · rw [if_neg hb] at h
    cases h
    exact ⟨zero_le_one, le_rfl⟩

theorem nonneg_of_breakFrom (hg : g.UnitShares) {alpha0 total remainder : K}
    (hr : 0 ≤ remainder) {ns : List Nat} {w : List K} {s s' : ω}
    (h : (breakFrom g alpha0 total remainder (ns.map Nat.cast)).runOn s = (.ok w, s')) :
    ∀ x ∈ w, 0 ≤ x := by
  induction ns generalizing total remainder w s with
  | nil =>
    cases h
    simp
  | cons n ns ih =>
    obtain ⟨share, s₁, hshare, hrest⟩ := Attempt.runOn_bind_eq_ok.1 h
    obtain ⟨later, s₂, hlater, hlast⟩ := Attempt.runOn_bind_eq_ok.1 hrest
    cases hlast
    have ha : (0 : K) < 1 + n := add_pos_of_pos_of_nonneg one_pos (Nat.cast_nonneg _)
    obtain ⟨hlow, hhigh⟩ := unit_of_drawShare hg ha hshare
    -- what is left of the stick is a part of what there was
    have hleft : 0 ≤ remainder - share * remainder :=
      sub_nonneg.2 (mul_le_of_le_one_left hr hhigh)
    exact List.forall_mem_cons.2 ⟨mul_nonneg hlow hr, ih hleft hlater⟩

/-- **No weight is negative.** -/
theorem nonneg_of_breakStick (hg : g.UnitShares) {alpha0 : K} {ns : List Nat} {w : List K}
    {s s' : ω} (h : (breakStick g alpha0 (ns.map Nat.cast)).runOn s = (.ok w, s')) :
    ∀ x ∈ w, 0 ≤ x :=
  nonneg_of_breakFrom hg zero_le_one h

/-! ## The formula -/

/-- **The stick follows its formula.**  In exact arithmetic, with a positive concentration
    and counts that are not negative, all shapes are positive, and breaking the stick is
    drawing a share with each of them in order and taking the pieces; these draws succeed
    if beta draws with positive shapes do.  If the shares are drawn and lie between zero and
    one, then a record of the calls shows one beta call for each component, with the shapes
    that the formula says.  Each weight is the share of the component times what every
    earlier share leaves over.  The weights lie between zero and one, and add up to what the
    shares do not leave over together.  So their sum is at most one, and it is one exactly
    if a share is one, after which the weights are zero. -/
theorem stick_follows_its_formula (g : Generator ω K) {alpha0 : K} (h : 0 < alpha0)
    {counts : List K} (hcounts : ∀ n ∈ counts, 0 ≤ n) :
    (∀ p ∈ shareShapes alpha0 counts, 0 < p.1 ∧ 0 < p.2) ∧
    breakStick g alpha0 counts = pieces <$> g.shares (shareShapes alpha0 counts) ∧
    (g.ServesShares → ∀ s, ∃ shares s',
      (g.shares (shareShapes alpha0 counts)).runOn s = (.ok shares, s')) ∧
    ∀ (r : Recorded ω K) (shares : List K) (s' : ω),
      (g.shares (shareShapes alpha0 counts)).runOn r.source = (.ok shares, s') →
      (∀ b ∈ shares, 0 ≤ b ∧ b ≤ 1) →
      ∃ w r', (breakStick g.recorded alpha0 counts).runOn r = (.ok w, r') ∧ r'.source = s' ∧
        r'.calls = r.calls ++ counts.mapIdx (fun k n =>
          .beta (1 + n) (alpha0 + (counts.drop (k + 1)).sum)) ∧
        shares.length = counts.length ∧
        w = shares.mapIdx (fun k b => b * ((shares.take k).map (1 - ·)).prod) ∧
        (∀ x ∈ w, 0 ≤ x ∧ x ≤ 1) ∧
        w.sum = 1 - (shares.map (1 - ·)).prod ∧ w.sum ≤ 1 ∧ (w.sum = 1 ↔ 1 ∈ shares) ∧
        ∀ k j : Nat, shares[k]? = some 1 → k < j → j < w.length → w[j]? = some 0 := by
  have hpos := shareShapes_pos h hcounts
  refine ⟨hpos, breakStick_eq g h hcounts, fun hg s => exists_shares hg hpos s, ?_⟩
  intro r shares s' hshares hunit
  obtain ⟨r', hrun, hsource, hcalls⟩ := exists_recorded_shares hshares
  refine ⟨pieces shares, r', runOn_breakStick h hcounts hrun, hsource, ?_, ?_, rfl,
    pieces_mem hunit, sum_pieces shares, sum_pieces_le_one hunit, sum_pieces_eq_one_iff shares, ?_⟩
  · rw [hcalls, shareShapes, map_mapIdx]
  · rw [length_of_shares hshares, shareShapes, List.length_mapIdx]
  · intro k j hk hkj hj
    exact pieces_of_lt hk hkj (by rwa [length_pieces] at hj)

/-- The second of three components takes all that the first one has left, and the third
    one gets nothing. -/
theorem second_share_takes_the_rest :
    ∃ w r, (breakStick Script.generator.recorded (1 : ℚ) [2, 0, 1]).runOn
        (Recorded.fresh ⟨[1 / 2, 1, 1 / 4], 0, 0⟩) = (.ok w, r) ∧
      r.calls = [.beta 3 2, .beta 1 2, .beta 2 1] ∧ w = [3 / 5, 2 / 5, 0] ∧ w.sum = 1 := by
  have hshares : ((Script.generator.shares (shareShapes (1 : ℚ) [2, 0, 1])).runOn
      ⟨[1 / 2, 1, 1 / 4], 0, 0⟩).1.toOption = some [3 / 5, 1, 2 / 5] := by
    decide +kernel
  obtain ⟨-, -, -, hformula⟩ := stick_follows_its_formula Script.generator (one_pos : 0 < (1 : ℚ))
    (show ∀ n ∈ [(2 : ℚ), 0, 1], 0 ≤ n by decide +kernel)
  rcases hdraw : (Script.generator.shares (shareShapes (1 : ℚ) [2, 0, 1])).runOn
    ⟨[1 / 2, 1, 1 / 4], 0, 0⟩ with ⟨e | shares, s'⟩ <;> rw [hdraw] at hshares
  · cases hshares
  obtain rfl := Option.some.inj hshares
  obtain ⟨w, r, hrun, -, hcalls, -, hw, -, -, -, hsum, -⟩ := hformula
    (Recorded.fresh ⟨[1 / 2, 1, 1 / 4], 0, 0⟩) _ s' hdraw (by decide +kernel)
  refine ⟨w, r, hrun, ?_, ?_, hsum.2 (by decide +kernel)⟩
  · rw [hcalls]
    norm_num [Recorded.fresh, Recorded.calls]
  · rw [hw]
    norm_num [List.mapIdx_cons]

end DirichletMixture
