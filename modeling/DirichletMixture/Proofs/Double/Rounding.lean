/-
  DirichletMixture: how a double is rounded.

  The result of an operation on doubles is the exact one, brought to 53 bits with an
  exponent that is not below -1074.  Its last place is fixed first, by the leading bit of
  the exact result; then it is rounded to the nearest multiple of that place, and of two
  such multiples to the even one.

  * `nearest` is the rounded quotient of two natural numbers, and
    `roundedMantissa_shiftRight`: shifting out bits while keeping track of what was shifted
    out rounds a quotient;
  * `Representable` numbers are those that rounding leaves alone, and `IsRounded` is what
    anything else needs to know of rounding: it keeps the order, and gives zero for nothing
    but the smallest numbers (`isRounded_nearest`);
  * `Canonical` floats have the exponent that goes with their mantissa, and
    `roundWithAccuracy_outcome`, `normalize_outcome`: rounding leads to one of them.
-/
import Mathlib.Algebra.Order.Field.Basic
import Mathlib.Algebra.Order.Field.Rat
import Mathlib.Data.Nat.Log
import Mathlib.Tactic.NormNum
import Mathlib.Tactic.Ring

namespace DirichletMixture.Double

open Float.Model Float.Model.UnpackedFloat

/-! ## Rounded quotients -/

/-- The natural number nearest to a quotient; of two, the even one. -/
def nearest (n d : ℕ) : ℕ :=
  if 2 * (n % d) < d then n / d
  else if 2 * (n % d) = d then n / d + n / d % 2
  else n / d + 1

section
variable {c n d : ℕ}

theorem le_nearest (hd : 0 < d) (h : c * d ≤ n) : c ≤ nearest n d := by
  have hq : c ≤ n / d := (Nat.le_div_iff_mul_le hd).2 h
  unfold nearest
  split_ifs <;> omega

theorem nearest_le (hd : 0 < d) (h : n ≤ c * d) : nearest n d ≤ c := by
  have hn := Nat.div_add_mod n d
  by_cases hq : n / d < c
  · unfold nearest
    split_ifs <;> omega
  · -- the quotient has no remainder
    have hle : d * c ≤ d * (n / d) := Nat.mul_le_mul_left d (not_lt.1 hq)
    rw [Nat.mul_comm] at h
    have hr : n % d = 0 := by omega
    have hc : n / d = c := Nat.eq_of_mul_eq_mul_left hd (by omega)
    unfold nearest
    rw [hr, if_pos hd, hc]

theorem nearest_eq_zero_iff (hd : 0 < d) : nearest n d = 0 ↔ 2 * n ≤ d := by
  constructor
  · intro h
    unfold nearest at h
    have hq : n / d = 0 := by
      generalize n / d = q at h ⊢
      split_ifs at h <;> omega
    have hn := Nat.div_add_mod n d
    rw [hq] at h hn
    split_ifs at h <;> omega
  · intro h
    have hlt : n < d := by omega
    unfold nearest
    rw [Nat.mod_eq_of_lt hlt, Nat.div_eq_of_lt hlt]
    split_ifs <;> omega

end

/-! ## Shifting out bits -/

/-- After `k` bits were shifted out, the round bit says whether they were worth at least
    half, and the sticky bit whether anything is left besides. -/
theorem shiftRight_exact (m k : ℕ) :
    (⟨m, false, false⟩ : ExtendedMantissa) >>> k =
      ⟨m / 2 ^ k, decide (2 ^ k ≤ 2 * (m % 2 ^ k)), decide (2 * m % 2 ^ k ≠ 0)⟩ := by
  induction k with
  | zero => simp [HShiftRight.hShiftRight, Nat.repeat, Nat.mod_one]
  | succ k ih =>
    have hstep : (⟨m, false, false⟩ : ExtendedMantissa) >>> (k + 1) =
        ((⟨m, false, false⟩ : ExtendedMantissa) >>> k).shiftRightOne := rfl
    have hlt : m % 2 ^ k < 2 ^ k := Nat.mod_lt m (Nat.two_pow_pos k)
    have hmod : m % 2 ^ (k + 1) = m % 2 ^ k + 2 ^ k * (m / 2 ^ k % 2) := by
      rw [pow_succ, Nat.mod_mul]
    have hdouble : 2 * m % 2 ^ (k + 1) = 2 * (m % 2 ^ k) := by
      rw [pow_succ, Nat.mul_comm (2 ^ k) 2, Nat.mul_mod_mul_left]
    rw [hstep, ih, ExtendedMantissa.shiftRightOne]
    congr 1
    · rw [pow_succ, Nat.div_div_eq_div_mul]
    · -- the next bit decides about one half
      rw [hmod, pow_succ, Bool.eq_iff_iff, bne_iff_ne, decide_eq_true_iff]
      rcases Nat.mod_two_eq_zero_or_one (m / 2 ^ k) with h | h <;> rw [h] <;> omega
    · -- the bits so far were all zero if they were neither worth one half nor anything else
      have hrest : 2 * m % 2 ^ k = 2 * (m % 2 ^ k) % 2 ^ k := by
        rw [Nat.mul_mod, Nat.mul_mod 2 (m % 2 ^ k), Nat.mod_mod]
      rw [hdouble, hrest, Bool.eq_iff_iff, Bool.or_eq_true, decide_eq_true_iff, decide_eq_true_iff,
        decide_eq_true_iff]
      by_cases hhalf : 2 ^ k ≤ 2 * (m % 2 ^ k)
      · simp only [hhalf, true_or, true_iff]
        have := Nat.two_pow_pos k
        omega
      · rw [Nat.mod_eq_of_lt (not_le.1 hhalf)]
        simp only [hhalf, false_or]

/-- **Shifting out bits rounds a quotient.** -/
theorem roundedMantissa_shiftRight (m k : ℕ) :
    ((⟨m, false, false⟩ : ExtendedMantissa) >>> k).roundedMantissa = nearest m (2 ^ k) := by
  have hlt : m % 2 ^ k < 2 ^ k := Nat.mod_lt m (Nat.two_pow_pos k)
  have hrest : 2 * m % 2 ^ k = 2 * (m % 2 ^ k) % 2 ^ k := by
    rw [Nat.mul_mod, Nat.mul_mod 2 (m % 2 ^ k), Nat.mod_mod]
  rw [shiftRight_exact, nearest]
  by_cases hhalf : 2 * (m % 2 ^ k) < 2 ^ k
  · rw [if_pos hhalf, decide_eq_false (not_le.2 hhalf)]
    cases decide (2 * m % 2 ^ k ≠ 0) <;> rfl
  · have hover : 2 * (m % 2 ^ k) % 2 ^ k = 2 * (m % 2 ^ k) - 2 ^ k := by
      rw [Nat.mod_eq_sub_mod (not_lt.1 hhalf), Nat.mod_eq_of_lt (by omega)]
    rw [if_neg hhalf, decide_eq_true (not_lt.1 hhalf), hrest, hover]
    by_cases heq : 2 * (m % 2 ^ k) = 2 ^ k
    · rw [if_pos heq, heq, Nat.sub_self]
      rfl
    · rw [if_neg heq, decide_eq_true (by omega)]
      rfl

/-! ## Multiples of powers of two -/

theorem twoPow_pos (e : ℤ) : (0 : ℚ) < 2 ^ e := zpow_pos two_pos e

/-- The same multiple, of a smaller power. -/
theorem natCast_mul_twoPow {a : ℕ} {b e : ℤ} (h : e ≤ b) :
    (a : ℚ) * 2 ^ b = ((a * 2 ^ (b - e).toNat : ℕ) : ℚ) * 2 ^ e := by
  have hb : b = ((b - e).toNat : ℤ) + e := by omega
  conv_lhs => rw [hb, zpow_add₀ two_ne_zero, zpow_natCast]
  push_cast
  ring

theorem mul_twoPow_le_iff {a b : ℕ} {e : ℤ} : (a : ℚ) * 2 ^ e ≤ b * 2 ^ e ↔ a ≤ b := by
  rw [mul_le_mul_iff_left₀ (twoPow_pos e), Nat.cast_le]

theorem mul_twoPow_lt_iff {a b : ℕ} {e : ℤ} : (a : ℚ) * 2 ^ e < b * 2 ^ e ↔ a < b := by
  rw [mul_lt_mul_iff_left₀ (twoPow_pos e), Nat.cast_lt]

/-! ## What rounding leaves alone -/

/-- A number of at most 53 bits with an exponent that is not below -1074. -/
def Representable (c : ℚ) : Prop :=
  ∃ (a : ℕ) (b : ℤ), a < 2 ^ 53 ∧ -1074 ≤ b ∧ c = a * 2 ^ b

theorem representable_natCast {n : ℕ} (h : n < 2 ^ 53) : Representable n :=
  ⟨n, 0, h, by decide, by rw [zpow_zero, mul_one]⟩

theorem representable_twoPow {b : ℤ} (h : -1074 ≤ b) : Representable (2 ^ b) :=
  ⟨1, b, by norm_num, h, by rw [Nat.cast_one, one_mul]⟩

/-- `z` is a number rounded: rounding keeps the order to what it leaves alone, and gives
    zero up to half of the smallest positive number. -/
structure IsRounded (q z : ℚ) : Prop where
  le : ∀ c, Representable c → c ≤ q → c ≤ z
  ge : ∀ c, Representable c → q ≤ c → z ≤ c
  eq_zero_iff : z = 0 ↔ q ≤ 2 ^ (-1075 : ℤ)

/-- The exponent of the last place that is left of `m * 2 ^ e`. -/
def lastPlace (m : ℕ) (e : ℤ) : ℤ := max (m.log2 + e - 52) (-1074)

theorem targetExponent_eq (m : ℕ) (e : ℤ) :
    Format.binary64.targetExponent (totalExponent m e) = lastPlace m e := by
  have hmin : Format.binary64.minExponent = -1074 := rfl
  have hbits : (Format.binary64.mantissaBits : ℤ) = 53 := rfl
  rw [Format.targetExponent, totalExponent, hmin, hbits, lastPlace]
  congr 1
  ring

theorem neg_le_lastPlace (m : ℕ) (e : ℤ) : -1074 ≤ lastPlace m e := le_max_right _ _

section
variable {m : ℕ} {e : ℤ}

/-- A mantissa with all its bits has no place below the last. -/
theorem le_lastPlace (h : 2 ^ 52 ≤ m ∨ e ≤ -1074) : e ≤ lastPlace m e := by
  rcases h with h | h
  · have hlog : 52 ≤ m.log2 := (Nat.le_log2 (by omega)).2 h
    exact le_max_of_le_left (by omega)
  · exact le_max_of_le_right h

/-- Above the smallest numbers, 53 bits are left. -/
theorem twoPow_le_of_lastPlace (hm : 0 < m) (h : e ≤ lastPlace m e)
    (hlast : lastPlace m e ≠ -1074) : 2 ^ 52 * 2 ^ (lastPlace m e - e).toNat ≤ m := by
  have hlog : (52 + (lastPlace m e - e).toNat : ℤ) = m.log2 := by
    unfold lastPlace at *
    omega
  rw [← pow_add]
  exact (Nat.le_log2 hm.ne').1 (by omega)

/-- No more than 53 bits are left. -/
theorem le_twoPow_mul_lastPlace (h : e ≤ lastPlace m e) :
    m ≤ 2 ^ 53 * 2 ^ (lastPlace m e - e).toNat := by
  have hlog : m.log2 + 1 ≤ 53 + (lastPlace m e - e).toNat := by
    unfold lastPlace at *
    omega
  rw [← pow_add]
  exact (Nat.lt_log2_self.le).trans (Nat.pow_le_pow_right two_pos hlog)

/-- **Rounding to the last place** keeps the order to what it leaves alone. -/
theorem isRounded_nearest (hm : 0 < m) (h : e ≤ lastPlace m e) :
    IsRounded (m * 2 ^ e)
      (nearest m (2 ^ (lastPlace m e - e).toNat) * 2 ^ lastPlace m e) := by
  have hgrid : ∀ n : ℕ, (n : ℚ) * 2 ^ lastPlace m e =
      ((n * 2 ^ (lastPlace m e - e).toNat : ℕ) : ℚ) * 2 ^ e := fun n => natCast_mul_twoPow h
  have hpos := Nat.two_pow_pos (lastPlace m e - e).toNat
  -- what has a smaller last place lies below everything that is rounded there
  have hfine : ∀ (a : ℕ) (b : ℤ), a < 2 ^ 53 → -1074 ≤ b → b < lastPlace m e →
      (a : ℚ) * 2 ^ b < ((2 ^ 52 : ℕ) : ℚ) * 2 ^ lastPlace m e ∧
        2 ^ 52 * 2 ^ (lastPlace m e - e).toNat ≤ m := by
    intro a b ha hb hlt
    refine ⟨?_, twoPow_le_of_lastPlace hm h (by omega)⟩
    rw [natCast_mul_twoPow hlt.le, mul_twoPow_lt_iff]
    calc a < 2 ^ 52 * 2 ^ 1 := by simpa using ha
      _ ≤ 2 ^ 52 * 2 ^ (lastPlace m e - b).toNat :=
        Nat.mul_le_mul_left _ (Nat.pow_le_pow_right two_pos (by omega))
  refine ⟨?_, ?_, ?_⟩
  · rintro c ⟨a, b, ha, hb, rfl⟩ hle
    rcases lt_or_ge b (lastPlace m e) with hlt | hge
    · obtain ⟨hbelow, hm52⟩ := hfine a b ha hb hlt
      exact hbelow.le.trans (mul_twoPow_le_iff.2 (le_nearest hpos hm52))
    · rw [natCast_mul_twoPow hge] at hle ⊢
      rw [hgrid, mul_twoPow_le_iff] at hle
      exact mul_twoPow_le_iff.2 (le_nearest hpos hle)
  · rintro c ⟨a, b, ha, hb, rfl⟩ hle
    rcases lt_or_ge b (lastPlace m e) with hlt | hge
    · obtain ⟨hbelow, hm52⟩ := hfine a b ha hb hlt
      rw [hgrid] at hbelow
      exact absurd (hle.trans_lt hbelow) (not_lt.2 (mul_twoPow_le_iff.2 hm52))
    · rw [natCast_mul_twoPow hge] at hle ⊢
      rw [hgrid, mul_twoPow_le_iff] at hle
      exact mul_twoPow_le_iff.2 (nearest_le hpos hle)
  · rw [mul_eq_zero_iff_right (twoPow_pos _).ne', Nat.cast_eq_zero, nearest_eq_zero_iff hpos]
    by_cases hlast : lastPlace m e = -1074
    · have hhalf : (2 : ℚ) ^ (-1075 : ℤ) = ((1 : ℕ) : ℚ) * 2 ^ lastPlace m e / 2 := by
        rw [hlast, Nat.cast_one, one_mul, show (-1075 : ℤ) = -1074 - 1 from rfl,
          zpow_sub_one₀ two_ne_zero, div_eq_mul_inv]
      have hdouble : (m : ℚ) * 2 ^ e * 2 = ((2 * m : ℕ) : ℚ) * 2 ^ e := by
        push_cast
        ring
      rw [hhalf, hgrid, le_div_iff₀ two_pos, hdouble, mul_twoPow_le_iff, one_mul]
    · have hm52 := twoPow_le_of_lastPlace hm h hlast
      refine iff_of_false (by omega) (not_le.2 ?_)
      calc (2 : ℚ) ^ (-1075 : ℤ) < 2 ^ lastPlace m e :=
            zpow_lt_zpow_right₀ one_lt_two (by have := neg_le_lastPlace m e; omega)
        _ = ((1 : ℕ) : ℚ) * 2 ^ lastPlace m e := by rw [Nat.cast_one, one_mul]
        _ ≤ m * 2 ^ e := by
          rw [hgrid, mul_twoPow_le_iff]
          omega

end

/-! ## Floats that are unpacked -/

/-- The exponent is the one that goes with the mantissa. -/
structure Fits (m : ℕ) (e : ℤ) : Prop where
  mantissa_lt : m < 2 ^ 53
  le_exponent : -1074 ≤ e
  normal : 2 ^ 52 ≤ m ∨ e = -1074

def Canonical : UnpackedFloat → Prop
  | .finite _ m e _ => Fits m e
  | _ => True

def factor : Sign → ℚ
  | .negative => -1
  | .positive => 1

/-- The first power of two that is too large for a double. -/
@[irreducible]
def limit : ℚ := 2 ^ (1024 : ℤ)

theorem limit_eq : limit = 2 ^ (1024 : ℤ) := by
  rw [limit]

theorem limit_pos : 0 < limit := by
  rw [limit_eq]
  exact twoPow_pos 1024

/-- The number that a float stands for.  Infinity counts as the first power of two that is
    too large, and what is not a number counts as nothing. -/
def rawValue : UnpackedFloat → ℚ
  | .finite s m e _ => factor s * (m * 2 ^ e)
  | .infinity s => factor s * limit
  | .zero _ => 0
  | .notANumber => 0

section
variable {m : ℕ} {e : ℤ} {hm : 0 < m}

@[simp] theorem rawValue_zero (s : Sign) : rawValue (.zero s) = 0 := rfl

@[simp] theorem rawValue_positive : rawValue (.finite .positive m e hm) = m * 2 ^ e := one_mul _

@[simp] theorem rawValue_negative : rawValue (.finite .negative m e hm) = -(m * 2 ^ e) :=
  neg_one_mul _

@[simp] theorem rawValue_infinity : rawValue (.infinity .positive) = limit := one_mul _

@[simp] theorem rawValue_neg_infinity : rawValue (.infinity .negative) = -limit := neg_one_mul _

end

/-- A float is what a number that is not negative is rounded to. -/
structure IsOutcome (q : ℚ) (f : UnpackedFloat) : Prop where
  canonical : Canonical f
  finite : f.isFinite = true
  rounded : IsRounded q (rawValue f)

theorem shiftToTargetExponent_exact (m : ℕ) (e : ℤ) :
    shiftToTargetExponent Format.binary64 m e .exact =
      ((⟨m, false, false⟩ : ExtendedMantissa) >>> (lastPlace m e - e).toNat,
        e + (lastPlace m e - e).toNat) := by
  rw [shiftToTargetExponent, targetExponent_eq]
  rfl

/-- The float that is not negative with this mantissa, which may be zero, and this exponent. -/
def unsignedFloat (m : ℕ) (e : ℤ) : UnpackedFloat :=
  if h : m = 0 then .zero .positive else .finite .positive m e (Nat.pos_of_ne_zero h)

theorem unsignedFloat_of_pos {m : ℕ} (h : 0 < m) (e : ℤ) :
    unsignedFloat m e = .finite .positive m e h :=
  dif_neg h.ne'

/-- A rounded mantissa that has one bit too many is shifted once more. -/
def carried (r : ℕ) (t : ℤ) : UnpackedFloat :=
  let (em, e) := shiftToTargetExponent Format.binary64 r t .exact
  unsignedFloat em.mantissa e

theorem carried_eq (r : ℕ) (t : ℤ) :
    carried r t =
      unsignedFloat (r / 2 ^ (lastPlace r t - t).toNat) (t + (lastPlace r t - t).toNat) := by
  rw [carried, shiftToTargetExponent_exact, shiftRight_exact]

theorem carried_outcome {q : ℚ} {r : ℕ} {t : ℤ} (hle : r ≤ 2 ^ 53) (hlow : -1074 ≤ t)
    (hnormal : t ≠ -1074 → 2 ^ 52 ≤ r) (hrounded : IsRounded q (r * 2 ^ t)) :
    IsOutcome q (carried r t) := by
  rw [carried_eq]
  rcases hle.lt_or_eq with hlt | rfl
  · have hstay : (lastPlace r t - t).toNat = 0 := by
      have hlog : r.log2 ≤ 52 := by
        rcases Nat.eq_zero_or_pos r with rfl | hr
        · decide
        · exact Nat.le_of_lt_succ ((Nat.log2_lt hr.ne').2 hlt)
      unfold lastPlace
      omega
    rw [hstay, pow_zero, Nat.div_one, Nat.cast_zero, add_zero]
    rcases Nat.eq_zero_or_pos r with rfl | hr
    · refine ⟨trivial, rfl, ?_⟩
      rwa [Nat.cast_zero, zero_mul] at hrounded
    · rw [unsignedFloat_of_pos hr]
      refine ⟨⟨hlt, hlow, or_iff_not_imp_right.2 hnormal⟩, rfl, ?_⟩
      rwa [rawValue_positive]
  · -- the mantissa was rounded up to the next power of two
    have hshift : (lastPlace (2 ^ 53) t - t).toNat = 1 := by
      rw [lastPlace, Nat.log2_two_pow]
      omega
    have hvalue : ((2 ^ 53 / 2 ^ 1 : ℕ) : ℚ) * 2 ^ (t + (1 : ℕ)) = ((2 ^ 53 : ℕ) : ℚ) * 2 ^ t := by
      rw [natCast_mul_twoPow (by omega : t ≤ t + (1 : ℕ))]
      norm_num
    rw [hshift, unsignedFloat_of_pos (by decide)]
    refine ⟨⟨by decide, by omega, .inl (by decide)⟩, rfl, ?_⟩
    rwa [rawValue_positive, hvalue]

section
variable {m : ℕ} {e : ℤ}

/-- **Rounding gives a canonical float**, whose value is the number rounded. -/
theorem roundWithAccuracy_outcome (hm : 0 < m) (h : e ≤ lastPlace m e) :
    IsOutcome (m * 2 ^ e) (roundWithAccuracy Format.binary64 .positive m e .exact) := by
  have hpos := Nat.two_pow_pos (lastPlace m e - e).toNat
  have hplace : e + (lastPlace m e - e).toNat = lastPlace m e := by omega
  have hcarried : roundWithAccuracy Format.binary64 .positive m e .exact =
      carried (nearest m (2 ^ (lastPlace m e - e).toNat)) (lastPlace m e) := by
    rw [roundWithAccuracy, shiftToTargetExponent_exact, hplace, ← roundedMantissa_shiftRight]
    rfl
  rw [hcarried]
  exact carried_outcome (nearest_le hpos (le_twoPow_mul_lastPlace h)) (neg_le_lastPlace m e)
    (fun hlast => le_nearest hpos (twoPow_le_of_lastPlace hm h hlast)) (isRounded_nearest hm h)

theorem log2_mul_twoPow (hm : 0 < m) (k : ℕ) : (m * 2 ^ k).log2 = m.log2 + k := by
  induction k with
  | zero => rw [pow_zero, Nat.mul_one, Nat.add_zero]
  | succ k ih =>
    have hpos : 0 < m * 2 ^ k := Nat.mul_pos hm (Nat.two_pow_pos k)
    rw [pow_succ', Nat.mul_left_comm, Nat.log2_two_mul hpos.ne', ih, Nat.add_assoc]

theorem round_outcome (hm : 0 < m) :
    IsOutcome (m * 2 ^ e) (Float.Model.UnpackedFloat.round Format.binary64 .positive m e) := by
  -- zeros are appended as long as the last place is beyond them
  have hvalue : (m : ℚ) * 2 ^ e =
      ((m <<< (e - lastPlace m e).toNat : ℕ) : ℚ) * 2 ^ (e - (e - lastPlace m e).toNat) := by
    rw [natCast_mul_twoPow (by omega : e - (e - lastPlace m e).toNat ≤ e), Nat.shiftLeft_eq]
    congr 4
    omega
  have hpos : 0 < m <<< (e - lastPlace m e).toNat := by
    rw [Nat.shiftLeft_eq]
    exact Nat.mul_pos hm (Nat.two_pow_pos _)
  have hplace : lastPlace (m <<< (e - lastPlace m e).toNat) (e - (e - lastPlace m e).toNat) =
      lastPlace m e := by
    have hlog : (m <<< (e - lastPlace m e).toNat).log2 = m.log2 + (e - lastPlace m e).toNat := by
      rw [Nat.shiftLeft_eq, log2_mul_twoPow hm]
    rw [lastPlace, hlog, lastPlace]
    congr 1
    push_cast
    ring
  rw [hvalue, Float.Model.UnpackedFloat.round, targetExponent_eq]
  exact roundWithAccuracy_outcome hpos (by rw [hplace]; omega)

theorem normalize_outcome {n : ℤ} (hn : 0 < n) (s : Sign) :
    IsOutcome (n * 2 ^ e) (UnpackedFloat.normalize Format.binary64 n e s) := by
  obtain ⟨m, rfl⟩ := Int.eq_ofNat_of_zero_le hn.le
  have hcompare : compare (m : ℤ) 0 = .gt := compare_gt_iff_gt.2 hn
  rw [UnpackedFloat.normalize, hcompare, Int.cast_natCast]
  exact round_outcome (Int.natCast_pos.1 hn)

theorem normalize_zero (s : Sign) :
    UnpackedFloat.normalize Format.binary64 0 e s = .zero s := rfl

end

end DirichletMixture.Double
