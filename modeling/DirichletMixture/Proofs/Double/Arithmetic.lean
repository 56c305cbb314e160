/-
  DirichletMixture: the arithmetic of doubles.

  * `Rounds q x` says that a double is a number rounded: the order is kept to everything
    that can be represented, and only the smallest numbers become zero;
  * `Rounds.value_eq`: what can be represented is not changed;
  * `IsOutcome.rounds`: a float is stored without being rounded anew, or it is too large and
    becomes infinite;
  * `rounds_add`, `rounds_mul`, `rounds_sub`, `rounds_ofNat`: sums, products, differences
    and casts are the exact ones, rounded;
  * `zero_le_ofInt_iff` and its neighbours compare casts of whole numbers of any size.
-/
import Mathlib.Data.Int.Cast.Lemmas
import Mathlib.Tactic.Linarith
import Mathlib.Tactic.NormNum
import DirichletMixture.Proofs.Double.Value

namespace DirichletMixture.Double

open Float.Model Float.Model.UnpackedFloat

/-- The double is what a number that is not negative is rounded to; numbers that are too
    large become infinite. -/
structure Rounds (q : ℚ) (x : Float) : Prop where
  isNaN : x.isNaN = false
  le : ∀ c, Representable c → c ≤ limit → c ≤ q → c ≤ value x
  ge : ∀ c, Representable c → q ≤ c → value x ≤ c
  eq_zero_iff : value x = 0 ↔ q ≤ 2 ^ (-1075 : ℤ)

theorem representable_zero : Representable 0 := by
  simpa using representable_natCast (n := 0) (by norm_num)

theorem representable_limit : Representable limit := by
  rw [limit_eq]
  exact representable_twoPow (by decide)

theorem twoPow_le_limit {k : ℕ} (hk : k ≤ 1024) : ((2 ^ k : ℕ) : ℚ) ≤ limit := by
  rw [limit_eq, Nat.cast_pow, Nat.cast_two, ← zpow_natCast]
  exact zpow_le_zpow_right₀ one_le_two (by omega)

/-- Whatever is rounded to zero is far below the limit. -/
theorem smallest_lt_limit : (2 : ℚ) ^ (-1075 : ℤ) < limit := by
  rw [limit_eq]
  exact zpow_lt_zpow_right₀ one_lt_two (by decide)

/-- **What can be represented** is not changed by rounding. -/
theorem Rounds.value_eq {q : ℚ} {x : Float} (h : Rounds q x) (hq : Representable q)
    (hlimit : q ≤ limit) : value x = q :=
  le_antisymm (h.ge q hq le_rfl) (h.le q hq hlimit le_rfl)

theorem Rounds.nonneg {q : ℚ} {x : Float} (h : Rounds q x) (hq : 0 ≤ q) : Nonneg x :=
  nonneg_iff.2 ⟨h.isNaN, h.le 0 representable_zero limit_pos.le hq⟩

/-! ## From floats to doubles -/

section
variable {q : ℚ} {f : UnpackedFloat}

theorem Unsigned.representable (h : Unsigned f) : Representable (rawValue f) := by
  cases h with
  | zero s => exact representable_zero
  | finite hfits he =>
    rw [rawValue_positive]
    exact ⟨_, _, hfits.mantissa_lt, hfits.le_exponent, rfl⟩
  | infinity =>
    rw [rawValue_infinity]
    exact representable_limit

theorem Unsigned.rawValue_eq_zero_iff (h : Unsigned f) :
    rawValue f = 0 ↔ rawValue f ≤ 2 ^ (-1075 : ℤ) := by
  cases h with
  | zero s => exact iff_of_true rfl (twoPow_pos (-1075)).le
  | @finite m e hm hfits he =>
    rw [rawValue_positive]
    refine iff_of_false (Fits.pos hm).ne' (not_le.2 ?_)
    calc (2 : ℚ) ^ (-1075 : ℤ) < 2 ^ e :=
          zpow_lt_zpow_right₀ one_lt_two (by have := hfits.le_exponent; omega)
      _ = ((1 : ℕ) : ℚ) * 2 ^ e := by rw [Nat.cast_one, one_mul]
      _ ≤ m * 2 ^ e := mul_twoPow_le_iff.2 hm
  | infinity =>
    rw [rawValue_infinity]
    exact iff_of_false limit_pos.ne' (not_le.2 smallest_lt_limit)

theorem value_ofModel_pack (h : Canonical f) :
    value (.ofModel (Float.Model.pack f)) = rawValue (stored f) := by
  rw [value, unpack_ofModel_pack h]

theorem isNaN_ofModel_pack (h : Canonical f) (hnan : f ≠ .notANumber) :
    (Float.ofModel (Float.Model.pack f)).isNaN = false := by
  rw [isNaN_eq_false_iff, unpack_ofModel_pack h]
  cases f with
  | notANumber => exact absurd rfl hnan
  | zero s => exact UnpackedFloat.noConfusion
  | infinity s => exact UnpackedFloat.noConfusion
  | finite s m e hm =>
    rw [stored]
    split_ifs <;> exact UnpackedFloat.noConfusion

/-- The value of a double is a number rounded. -/
theorem IsRounded.rounds {x : Float} (h : IsRounded q (value x)) (hnan : x.isNaN = false) :
    Rounds q x :=
  ⟨hnan, fun c hc _ => h.le c hc, h.ge, h.eq_zero_iff⟩

/-- A double is infinite, and what it is rounded from is too large. -/
theorem rounds_of_value_eq_limit {x : Float} (hnan : x.isNaN = false) (hvalue : value x = limit)
    (hge : ∀ c, Representable c → q ≤ c → limit ≤ c) (hq : 2 ^ (-1075 : ℤ) < q) :
    Rounds q x := by
  rw [← hvalue] at hge
  refine ⟨hnan, fun c _ hc _ => hc.trans hvalue.ge, hge, ?_⟩
  exact iff_of_false (hvalue ▸ limit_pos.ne') (not_le.2 hq)

/-- A float that can be stored is not changed. -/
theorem Unsigned.rounds (h : Unsigned f) :
    Rounds (rawValue f) (.ofModel (Float.Model.pack f)) := by
  have hcanonical := h.storable.canonical
  refine IsRounded.rounds ?_ (isNaN_ofModel_pack hcanonical h.ne_notANumber)
  rw [value_ofModel_pack hcanonical, h.storable.stored_eq]
  exact ⟨fun _ _ => id, fun _ _ => id, h.rawValue_eq_zero_iff⟩

/-- What is too large becomes infinite. -/
theorem rounds_infinity (hq : limit ≤ q) :
    Rounds q (.ofModel (Float.Model.pack (.infinity .positive))) := by
  have hcanonical := Unsigned.infinity.storable.canonical
  refine rounds_of_value_eq_limit (isNaN_ofModel_pack hcanonical Unsigned.infinity.ne_notANumber)
    ?_ (fun c _ => hq.trans) (smallest_lt_limit.trans_le hq)
  rw [value_ofModel_pack hcanonical]
  exact rawValue_infinity

/-- **A float that a number is rounded to** is stored as a double that it is rounded to. -/
theorem IsOutcome.rounds (h : IsOutcome q f) (hq : 0 ≤ q) :
    Rounds q (.ofModel (Float.Model.pack f)) := by
  obtain ⟨hcanonical, hfinite, hrounded⟩ := h
  have hnonneg : 0 ≤ rawValue f := hrounded.le 0 representable_zero hq
  cases f with
  | notANumber => cases hfinite
  | infinity s => cases hfinite
  | zero s =>
    refine IsRounded.rounds ?_ (isNaN_ofModel_pack hcanonical UnpackedFloat.noConfusion)
    rwa [value_ofModel_pack hcanonical]
  | finite s m e hm =>
    have hnan := isNaN_ofModel_pack hcanonical UnpackedFloat.noConfusion
    have hvalue := value_ofModel_pack hcanonical
    by_cases he : e ≤ 971
    · rw [stored, if_pos he] at hvalue
      exact IsRounded.rounds (hvalue ▸ hrounded) hnan
    · -- the exponent is too large, and only the sign is left
      rw [stored, if_neg he] at hvalue
      cases s with
      | negative =>
        rw [rawValue_negative] at hnonneg
        exact absurd hnonneg (not_le.2 (neg_lt_zero.2 (Fits.pos hm)))
      | positive =>
        have hlarge : limit ≤ rawValue (.finite .positive m e hm) := by
          rw [rawValue_positive]
          exact Fits.limit_le hcanonical (not_le.1 he)
        refine rounds_of_value_eq_limit hnan (hvalue.trans rawValue_infinity)
          (fun c hc hqc => hlarge.trans (hrounded.ge c hc hqc)) (not_le.1 fun hsmall => ?_)
        exact (limit_pos.trans_le hlarge).ne' (hrounded.eq_zero_iff.2 hsmall)

end

/-! ## Operations -/

/-- A float keeps its value when zeros are appended to its mantissa. -/
theorem rawValue_eq_decreased {m : ℕ} {d e : ℤ} (hm : 0 < m) (h : d ≤ e) :
    rawValue (.finite .positive m e hm) = (decreaseExponent m e d).1 * 2 ^ d := by
  rw [rawValue_positive, decreaseExponent, natCast_mul_twoPow h, Nat.shiftLeft_eq]

section
variable {f g : UnpackedFloat}

/-- **A sum is the exact one, rounded.** -/
theorem Unsigned.rounds_add (hf : Unsigned f) (hg : Unsigned g) :
    Rounds (rawValue f + rawValue g)
      (.ofModel (Float.Model.pack (UnpackedFloat.add Format.binary64 f g))) := by
  have hf' := hf.rawValue_nonneg
  have hg' := hg.rawValue_nonneg
  cases hf with
  | infinity =>
    have hadd : UnpackedFloat.add Format.binary64 (.infinity .positive) g =
        .infinity .positive := by
      cases hg <;> rfl
    rw [hadd, rawValue_infinity]
    exact rounds_infinity (le_add_of_nonneg_right hg')
  | zero s =>
    rw [rawValue_zero, zero_add]
    cases hg with
    | zero t =>
      rw [UnpackedFloat.add]
      split
      · exact (Unsigned.zero s).rounds
      · exact (Unsigned.zero .positive).rounds
    | finite hfits he => exact (Unsigned.finite hfits he).rounds
    | infinity => exact Unsigned.infinity.rounds
  | @finite m d hm hfits hd =>
    cases hg with
    | zero t =>
      rw [rawValue_zero, add_zero]
      exact (Unsigned.finite hfits hd).rounds
    | infinity =>
      rw [rawValue_infinity]
      exact rounds_infinity (le_add_of_nonneg_left hf')
    | @finite n e hn hfits' he =>
      -- both mantissas are brought to the smaller exponent
      set a := (decreaseExponent m d (min d e)).1
      set b := (decreaseExponent n e (min d e)).1
      have hleft : rawValue (.finite .positive m d hm) = a * 2 ^ min d e :=
        rawValue_eq_decreased hm (min_le_left d e)
      have hright : rawValue (.finite .positive n e hn) = b * 2 ^ min d e :=
        rawValue_eq_decreased hn (min_le_right d e)
      have hsum : rawValue (.finite .positive m d hm) + rawValue (.finite .positive n e hn) =
          ((a + b : ℤ) : ℚ) * 2 ^ min d e := by
        rw [hleft, hright]
        push_cast
        ring
      have hpos : (0 : ℤ) < a + b := by
        have hvalue : 0 < rawValue (.finite .positive m d hm) :=
          (Fits.pos hm).trans_eq rawValue_positive.symm
        rw [hleft, mul_pos_iff_of_pos_right (twoPow_pos _), Nat.cast_pos] at hvalue
        omega
      have hnonneg := add_nonneg hf' hg'
      rw [hsum] at hnonneg ⊢
      exact (normalize_outcome hpos .positive).rounds hnonneg

/-- **A difference is the exact one, rounded.** -/
theorem Unsigned.rounds_sub (hf : Unsigned f) (hg : Unsigned g)
    (hfinite : rawValue f < limit) (hle : rawValue g ≤ rawValue f) :
    Rounds (rawValue f - rawValue g)
      (.ofModel (Float.Model.pack (UnpackedFloat.sub Format.binary64 f g))) := by
  have hg' : rawValue g < limit := hle.trans_lt hfinite
  have hzero : ∀ s, Rounds 0 (.ofModel (Float.Model.pack (.zero s))) := fun s =>
    (Unsigned.zero s).rounds
  cases hg with
  | infinity => exact absurd rawValue_infinity hg'.ne
  | zero t =>
    rw [rawValue_zero, sub_zero]
    cases hf with
    | infinity => exact absurd rawValue_infinity hfinite.ne
    | zero s =>
      rw [UnpackedFloat.sub]
      split
      · exact hzero s
      · exact hzero .positive
    | finite hfits hd => exact (Unsigned.finite hfits hd).rounds
  | @finite n e hn hfits' he =>
    cases hf with
    | infinity => exact absurd rawValue_infinity hfinite.ne
    | zero s =>
      rw [rawValue_positive] at hle
      exact absurd hle (not_le.2 (Fits.pos hn))
    | @finite m d hm hfits hd =>
      set a := (decreaseExponent m d (min d e)).1
      set b := (decreaseExponent n e (min d e)).1
      have hleft : rawValue (.finite .positive m d hm) = a * 2 ^ min d e :=
        rawValue_eq_decreased hm (min_le_left d e)
      have hright : rawValue (.finite .positive n e hn) = b * 2 ^ min d e :=
        rawValue_eq_decreased hn (min_le_right d e)
      have hsub : rawValue (.finite .positive m d hm) - rawValue (.finite .positive n e hn) =
          ((a - b : ℤ) : ℚ) * 2 ^ min d e := by
        rw [hleft, hright]
        push_cast
        ring
      have hnonneg := sub_nonneg.2 hle
      rw [hsub] at hnonneg ⊢
      have hba : b ≤ a := by
        rw [mul_nonneg_iff_of_pos_right (twoPow_pos _), Int.cast_nonneg_iff] at hnonneg
        omega
      rcases hba.eq_or_lt with hba | hba
      · -- equal numbers leave a positive zero
        have hdiff : (a : ℤ) - b = 0 := by omega
        have hnormal : UnpackedFloat.sub Format.binary64 (.finite .positive m d hm)
            (.finite .positive n e hn) = .zero .positive := by
          show UnpackedFloat.normalize Format.binary64 ((a : ℤ) - b) (min d e) .positive = _
          rw [hdiff, normalize_zero]
        rw [hnormal, hdiff, Int.cast_zero, zero_mul]
        exact hzero .positive
      · exact (normalize_outcome (by omega) .positive).rounds hnonneg

/-- **A product is the exact one, rounded**, if both factors are finite. -/
theorem Unsigned.rounds_mul (hf : Unsigned f) (hg : Unsigned g) (hf' : f.isFinite = true)
    (hg' : g.isFinite = true) :
    Rounds (rawValue f * rawValue g)
      (.ofModel (Float.Model.pack (UnpackedFloat.mul Format.binary64 f g))) := by
  have hzero : ∀ s, Rounds 0 (.ofModel (Float.Model.pack (.zero s))) := fun s =>
    (Unsigned.zero s).rounds
  cases hf with
  | infinity => cases hf'
  | zero s =>
    rw [rawValue_zero, zero_mul]
    cases hg with
    | infinity => cases hg'
    | zero t => exact hzero _
    | finite hfits he => exact hzero _
  | @finite m d hm hfits hd =>
    cases hg with
    | infinity => cases hg'
    | zero t =>
      rw [rawValue_zero, mul_zero]
      exact hzero _
    | @finite n e hn hfits' he =>
      have hmul : rawValue (.finite .positive m d hm) * rawValue (.finite .positive n e hn) =
          ((m * n : ℕ) : ℚ) * 2 ^ (d + e) := by
        rw [rawValue_positive, rawValue_positive,
          zpow_add₀ two_ne_zero]
        push_cast
        ring
      rw [hmul]
      -- a factor has all its bits, unless the exponent is far too small
      have hplace : d + e ≤ lastPlace (m * n) (d + e) := by
        refine le_lastPlace ?_
        rcases hfits.normal with hlead | rfl
        · exact .inl (hlead.trans (Nat.le_mul_of_pos_right m hn))
        · rcases hfits'.normal with hlead | rfl
          · exact .inl (hlead.trans (Nat.le_mul_of_pos_left n hm))
          · exact .inr (by decide)
      exact (roundWithAccuracy_outcome (Nat.mul_pos hm hn) hplace).rounds
        (mul_nonneg (Nat.cast_nonneg _) (twoPow_pos _).le)

end

/-! ## Doubles -/

section
variable {x y : Float}

theorem isFinite_eq : x.isFinite = x.toModel.unpack.isFinite := rfl

theorem Nonneg.value_nonneg (hx : Nonneg x) : 0 ≤ value x := hx.rawValue_nonneg

theorem Nonneg.value_le_limit (hx : Nonneg x) : value x ≤ limit := hx.rawValue_le_limit

theorem Nonneg.representable (hx : Nonneg x) : Representable (value x) :=
  Unsigned.representable hx

theorem isNaN_of_isFinite (hx : x.isFinite = true) : x.isNaN = false := by
  rw [isFinite_eq] at hx
  refine isNaN_eq_false_iff.2 fun hnan => ?_
  rw [hnan] at hx
  cases hx

/-- A double that is finite stays below the limit. -/
theorem value_lt_limit (hx : x.isFinite = true) : value x < limit :=
  (rawValue_bounds (storable x) hx).2

theorem Nonneg.isFinite (hx : Nonneg x) (h : value x < limit) : x.isFinite = true :=
  Unsigned.isFinite hx h

theorem rounds_add (hx : Nonneg x) (hy : Nonneg y) : Rounds (value x + value y) (x + y) :=
  Unsigned.rounds_add hx hy

theorem rounds_sub (hx : Nonneg x) (hy : Nonneg y) (hfinite : x.isFinite = true)
    (hle : value y ≤ value x) : Rounds (value x - value y) (x - y) :=
  Unsigned.rounds_sub hx hy (value_lt_limit hfinite) hle

theorem rounds_mul (hx : Nonneg x) (hy : Nonneg y) (hx' : x.isFinite = true)
    (hy' : y.isFinite = true) : Rounds (value x * value y) (x * y) :=
  Unsigned.rounds_mul hx hy hx' hy'

/-! ## Casts -/

theorem unpack_one : (1.0 : Float).toModel.unpack = .finite .positive (2 ^ 52) (-52) (by decide) :=
  rfl

theorem value_one : value 1.0 = 1 := by
  rw [value, unpack_one, rawValue_positive]
  norm_num

theorem nonneg_one : Nonneg 1.0 := .finite ⟨by decide, by decide, .inl le_rfl⟩ (by decide)

theorem nonneg_zero : Nonneg 0.0 := .zero .positive

theorem value_zero : value 0.0 = 0 := rfl

theorem rounds_toFloat (n : UInt64) : Rounds n.toNat n.toFloat := by
  have hunfold : n.toFloat = .ofModel (Float.Model.pack
      (UnpackedFloat.normalize Format.binary64 n.toNat 0 .positive)) := rfl
  rw [hunfold]
  rcases Nat.eq_zero_or_pos n.toNat with hn | hn
  · rw [hn, Nat.cast_zero, Nat.cast_zero, normalize_zero]
    exact (Unsigned.zero .positive).rounds
  · have houtcome := normalize_outcome (e := 0) (Int.natCast_pos.2 hn) .positive
    rw [zpow_zero, mul_one, Int.cast_natCast] at houtcome
    exact houtcome.rounds (Nat.cast_nonneg _)

/-- **A cast is the number itself, rounded.** -/
theorem rounds_ofNat (n : ℕ) : Rounds n (Float.ofNat n) := by
  have hunfold : Float.ofNat n = Float.ofScientific n false 0 := rfl
  rw [hunfold, Float.ofScientific]
  by_cases hn : n < 2 ^ 53
  · -- a number of few bits is multiplied by one
    have hsize : n.toUInt64.toNat = n :=
      UInt64.toNat_ofNat_of_lt' (hn.trans (by decide))
    have hexact := rounds_toFloat n.toUInt64
    rw [hsize] at hexact
    have hlimit : (n : ℚ) < limit :=
      (Nat.cast_lt.2 hn).trans_le (twoPow_le_limit (by decide))
    have hvalue := hexact.value_eq (representable_natCast hn) hlimit.le
    have hnonneg := hexact.nonneg (Nat.cast_nonneg n)
    have hmul := rounds_mul hnonneg nonneg_one (hnonneg.isFinite (hvalue ▸ hlimit)) rfl
    rw [hvalue, value_one, mul_one] at hmul
    rw [dif_pos ⟨hn, by decide⟩]
    exact hmul
  · have hpos : n ≠ 0 := fun h => hn (h ▸ Nat.two_pow_pos 53)
    have hlarge : ¬ (0 : ℤ) < -((2 ^ 11 : ℤ) + n.log2) := by omega
    rw [dif_neg fun h => hn h.1]
    show Rounds n (.ofModel (Float.Model.pack (UnpackedFloat.ofScientific Format.binary64 n 0)))
    rw [UnpackedFloat.ofScientific, dif_neg hpos, if_neg (by decide), if_neg hlarge, if_pos le_rfl]
    -- a larger one is multiplied by the empty power of ten, with more bits than are kept
    have hbits : Format.binary64.mantissaBits = 53 := rfl
    have hsign : Sign.positive * Sign.positive = .positive := rfl
    rw [UnpackedFloat.mul]
    simp only [Int.toNat_zero, pow_zero, Nat.mul_one, add_zero, Nat.shiftLeft_eq, hbits, hsign,
      Nat.cast_ofNat]
    have hvalue : (n : ℚ) = ((n * 2 ^ 53 : ℕ) : ℚ) * 2 ^ (-53 : ℤ) := by
      have hback : (n : ℚ) * 2 ^ (0 : ℤ) = _ := natCast_mul_twoPow (e := -53) (by decide)
      rwa [zpow_zero, mul_one] at hback
    have hfull : 2 ^ 52 ≤ n * 2 ^ 53 := by omega
    generalize n * 2 ^ 53 = m at hvalue hfull ⊢
    have houtcome := roundWithAccuracy_outcome (by omega) (le_lastPlace (e := -53) (.inl hfull))
    rw [← hvalue] at houtcome
    exact houtcome.rounds (Nat.cast_nonneg n)

/-! ## Negation and whole numbers -/

theorem Storable.neg {f : UnpackedFloat} (h : Storable f) : Storable f.neg := by
  cases f <;> exact h

theorem factor_neg (s : Sign) : factor (-s) = -factor s := by
  cases s
  · exact (neg_neg 1).symm
  · rfl

theorem rawValue_neg (f : UnpackedFloat) : rawValue f.neg = -rawValue f := by
  cases f with
  | notANumber => exact neg_zero.symm
  | zero s => exact neg_zero.symm
  | infinity s => rw [UnpackedFloat.neg, rawValue, rawValue, factor_neg, neg_mul]
  | finite s m e hm => rw [UnpackedFloat.neg, rawValue, rawValue, factor_neg, neg_mul]

theorem value_neg (x : Float) : value (-x) = -value x := by
  have hneg : -x = .ofModel (Float.Model.pack x.toModel.unpack.neg) := rfl
  have hstorable := (storable x).neg
  rw [hneg, value_ofModel_pack hstorable.canonical, hstorable.stored_eq, rawValue_neg, value]

theorem isNaN_neg (x : Float) : (-x).isNaN = x.isNaN := by
  have hneg : -x = .ofModel (Float.Model.pack x.toModel.unpack.neg) := rfl
  have hstorable := (storable x).neg
  have hunpack : (-x).toModel.unpack = x.toModel.unpack.neg := by
    rw [hneg, unpack_ofModel_pack hstorable.canonical, hstorable.stored_eq]
  show (-x).toModel.unpack.isNaN = x.toModel.unpack.isNaN
  rw [hunpack]
  cases x.toModel.unpack <;> rfl

theorem ofInt_natCast (n : ℕ) : Float.ofInt n = Float.ofNat n := rfl

theorem ofInt_neg_natCast {n : ℕ} (hn : 0 < n) : Float.ofInt (-n) = -Float.ofNat n := by
  obtain ⟨k, rfl⟩ := Nat.exists_eq_succ_of_ne_zero hn.ne'
  rfl

theorem isNaN_ofInt (n : ℤ) : (Float.ofInt n).isNaN = false := by
  obtain ⟨k, rfl | rfl⟩ := n.eq_nat_or_neg
  · exact (rounds_ofNat k).isNaN
  · rcases Nat.eq_zero_or_pos k with rfl | hk
    · rfl
    · rw [ofInt_neg_natCast hk, isNaN_neg]
      exact (rounds_ofNat k).isNaN

/-- **Casts keep the order** to what has few bits. -/
theorem le_value_ofInt {k : ℕ} (hk : k < 2 ^ 53) {n : ℤ} (h : k ≤ n) :
    (k : ℚ) ≤ value (Float.ofInt n) := by
  obtain ⟨j, rfl⟩ := Int.eq_ofNat_of_zero_le ((Int.natCast_nonneg k).trans h)
  have hlimit : (k : ℚ) ≤ limit := (Nat.cast_le.2 hk.le).trans (twoPow_le_limit (by decide))
  exact (rounds_ofNat j).le k (representable_natCast hk) hlimit (Nat.cast_le.2 (Int.ofNat_le.1 h))

theorem value_ofInt_le {k : ℕ} (hk : k < 2 ^ 53) {n : ℤ} (h : n ≤ k) :
    value (Float.ofInt n) ≤ k := by
  obtain ⟨j, rfl | rfl⟩ := n.eq_nat_or_neg
  · exact (rounds_ofNat j).ge k (representable_natCast hk) (Nat.cast_le.2 (Int.ofNat_le.1 h))
  · rcases Nat.eq_zero_or_pos j with rfl | hj
    · exact Nat.cast_nonneg k
    · rw [ofInt_neg_natCast hj, value_neg]
      have hnonneg := ((rounds_ofNat j).nonneg (Nat.cast_nonneg j)).value_nonneg
      exact (neg_nonpos.2 hnonneg).trans (Nat.cast_nonneg k)

theorem value_ofInt_neg {n : ℤ} (hn : n < 0) : value (Float.ofInt n) < 0 := by
  obtain ⟨j, rfl⟩ := Int.exists_eq_neg_ofNat hn.le
  have hj : 0 < j := by omega
  have hone : ((1 : ℕ) : ℚ) ≤ value (Float.ofInt j) := le_value_ofInt (by decide) (by omega)
  rw [ofInt_natCast, Nat.cast_one] at hone
  rw [ofInt_neg_natCast hj, value_neg, neg_lt_zero]
  exact one_pos.trans_le hone

/-- A whole number of 64 bits is finite as a double. -/
theorem isFinite_ofInt {n : ℤ} (hn : 0 ≤ n) (h : n < 2 ^ 64) :
    (Float.ofInt n).isFinite = true := by
  obtain ⟨j, rfl⟩ := Int.eq_ofNat_of_zero_le hn
  have hrounds := rounds_ofNat j
  have hle : (j : ℚ) ≤ 2 ^ (64 : ℤ) := by
    rw [zpow_ofNat]
    exact_mod_cast h.le
  have hlimit : (2 : ℚ) ^ (64 : ℤ) < limit := by
    rw [limit_eq]
    exact zpow_lt_zpow_right₀ one_lt_two (by decide)
  exact (hrounds.nonneg (Nat.cast_nonneg j)).isFinite
    ((hrounds.ge _ (representable_twoPow (by decide)) hle).trans_lt hlimit)

/-- **A cast is compared** to zero and to one as the whole number itself is. -/
theorem zero_le_ofInt_iff {n : ℤ} : 0.0 ≤ Float.ofInt n ↔ 0 ≤ n := by
  rw [le_iff, value_zero, and_iff_right ⟨rfl, isNaN_ofInt n⟩]
  constructor
  · intro hvalue
    exact not_lt.1 fun hn => absurd hvalue (not_le.2 (value_ofInt_neg hn))
  · intro hn
    have hzero : ((0 : ℕ) : ℚ) ≤ value (Float.ofInt n) := le_value_ofInt (by decide) hn
    rwa [Nat.cast_zero] at hzero

theorem ofInt_le_one_iff {n : ℤ} : Float.ofInt n ≤ 1.0 ↔ n ≤ 1 := by
  rw [le_iff, value_one, and_iff_right ⟨isNaN_ofInt n, rfl⟩]
  constructor
  · intro hvalue
    by_contra hn
    have htwo : ((2 : ℕ) : ℚ) ≤ value (Float.ofInt n) := le_value_ofInt (by decide) (by omega)
    rw [Nat.cast_two] at htwo
    linarith
  · intro hn
    have hone : value (Float.ofInt n) ≤ ((1 : ℕ) : ℚ) := value_ofInt_le (by decide) hn
    rwa [Nat.cast_one] at hone

theorem zero_lt_ofInt_iff {n : ℤ} : 0.0 < Float.ofInt n ↔ 0 < n := by
  rw [lt_iff, value_zero, and_iff_right ⟨rfl, isNaN_ofInt n⟩]
  constructor
  · intro hpos
    by_contra hn
    have hzero : value (Float.ofInt n) ≤ ((0 : ℕ) : ℚ) := value_ofInt_le (by decide) (by omega)
    rw [Nat.cast_zero] at hzero
    exact absurd hpos (not_lt.2 hzero)
  · intro hn
    have hone : ((1 : ℕ) : ℚ) ≤ value (Float.ofInt n) := le_value_ofInt (by decide) (by omega)
    rw [Nat.cast_one] at hone
    exact one_pos.trans_le hone

end

end DirichletMixture.Double
