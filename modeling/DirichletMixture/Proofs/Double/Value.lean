/-
  DirichletMixture: what a double stands for.

  * `value` is the number that a double stands for; infinity counts as `2 ^ 1024`, the
    first power of two that is too large, so that it comes after all finite doubles;
  * `storable_unpack` and `unpack_pack`: the bits of a double hold canonical floats of a
    limited exponent, and a float of a larger exponent becomes infinite;
  * `lt_iff` and `le_iff`: doubles are compared as their values are;
  * `Nonneg` doubles come in three forms, those of an `Unsigned` float.

  The lemmas on packed floats are in no part of the library that can be named here, so the
  library is imported whole.
-/
import Mathlib
import DirichletMixture.Proofs.Double.Rounding

namespace DirichletMixture.Double

open Float.Model Float.Model.UnpackedFloat

/-! ## Floats that fit into the bits of a double -/

/-- A canonical float whose exponent is not too large. -/
def Storable : UnpackedFloat → Prop
  | .finite _ m e _ => Fits m e ∧ e ≤ 971
  | _ => True

/-- What is left of a canonical float: if the exponent is too large, only the sign. -/
def stored : UnpackedFloat → UnpackedFloat
  | .finite s m e hm => if e ≤ 971 then .finite s m e hm else .infinity s
  | f => f

theorem Storable.canonical {f : UnpackedFloat} (h : Storable f) : Canonical f := by
  cases f with
  | finite s m e hm => exact h.1
  | _ => trivial

theorem Storable.stored_eq {f : UnpackedFloat} (h : Storable f) : stored f = f := by
  cases f with
  | finite s m e hm => exact if_pos h.2
  | _ => rfl

theorem toNat_implicit_append (v : BitVec 52) : (1#1 ++ v).toNat = 2 ^ 52 + v.toNat := by
  rw [BitVec.toNat_append, ← Nat.shiftLeft_add_eq_or_of_lt v.isLt]
  rfl

/-- **The bits of a double** hold a canonical float. -/
theorem storable_unpack (b : BitVec Format.binary64.numBits) :
    Storable (UnpackedFloat.unpack Format.binary64 b) := by
  fun_cases UnpackedFloat.unpack with
  | case1 => trivial
  | case2 => trivial
  | case3 => trivial
  | case4 mvec evec e svec s hne hzero hm =>
    have he : e = evec.toNat - 1075 := rfl
    have hev : evec.toNat = 0 := congrArg BitVec.toNat hzero
    have hlt : mvec.toNat < 2 ^ 52 := mvec.isLt
    have hexp : e + 1 = -1074 := by omega
    show Fits mvec.toNat (e + 1) ∧ e + 1 ≤ 971
    rw [hexp]
    exact ⟨⟨by omega, le_rfl, .inr rfl⟩, by decide⟩
  | case5 mvec evec e svec s hne hzero =>
    have he : e = evec.toNat - 1075 := rfl
    have hpos : evec.toNat ≠ 0 := fun h => hzero (BitVec.eq_of_toNat_eq h)
    have hmax : evec.toNat ≠ 2047 := fun h => hne (BitVec.eq_of_toNat_eq h)
    have htop : evec.toNat < 2048 := evec.isLt
    have hlt : mvec.toNat < 2 ^ 52 := mvec.isLt
    show Fits (1#1 ++ mvec).toNat e ∧ e ≤ 971
    rw [toNat_implicit_append]
    exact ⟨⟨by omega, by omega, .inl (by omega)⟩, by omega⟩

theorem unpack_packedInfinity (s : Sign) :
    UnpackedFloat.unpack Format.binary64 (packedInfinity Format.binary64 s) = .infinity s := by
  simp [UnpackedFloat.unpack, packedInfinity]

section
variable {s : Sign} {m : ℕ} {e : ℤ} {hm : 0 < m}

/-- The exponent with the offset that it is stored with. -/
theorem add_bias (e : ℤ) :
    e + Format.binary64.exponentBias + Format.binary64.mantissaBitsWithoutImplicit = e + 1075 := by
  rw [Int.add_assoc]
  rfl

/-- A float whose exponent is too large is packed as an infinite one. -/
theorem unpack_pack_of_overflow (he : 971 < e) :
    UnpackedFloat.unpack Format.binary64 (UnpackedFloat.pack Format.binary64 (.finite s m e hm)) =
      .infinity s := by
  have hover : 2 ^ 11 ≤ (e + 1075).toNat + 1 := by omega
  rw [UnpackedFloat.pack, add_bias, if_pos hover]
  exact unpack_packedInfinity s

/-- The leading bit of a normal number is left out, and put back again. -/
theorem unpack_pack_of_normal (h : Fits m e) (he : e ≤ 971) (hlead : 2 ^ 52 ≤ m) :
    UnpackedFloat.unpack Format.binary64 (UnpackedFloat.pack Format.binary64 (.finite s m e hm)) =
      .finite s m e hm := by
  obtain ⟨hlt, hlow, -⟩ := h
  have hfits : ¬ 2 ^ 11 ≤ (e + 1075).toNat + 1 := by omega
  have hbits : Format.binary64.mantissaBits = 53 := rfl
  have hlog : m.log2 + 1 = 53 := by
    rw [(Nat.log2_eq_iff hm.ne').2 ⟨hlead, hlt⟩]
  have hexp : (BitVec.ofNat 11 (e + 1075).toNat).toNat = (e + 1075).toNat := by
    rw [BitVec.toNat_ofNat, Nat.mod_eq_of_lt (by omega)]
  have htop : BitVec.ofNat 11 (e + 1075).toNat ≠ -1#11 := fun h => by
    have htoNat := hexp.symm.trans (congrArg BitVec.toNat h)
    have hmax : (-1#11).toNat = 2047 := rfl
    omega
  have hzero : BitVec.ofNat 11 (e + 1075).toNat ≠ 0#11 := fun h => by
    have htoNat := hexp.symm.trans (congrArg BitVec.toNat h)
    have hmin : (0#11).toNat = 0 := rfl
    omega
  have hmant : (1#1 ++ BitVec.ofNat 52 m).toNat = m := by
    rw [toNat_implicit_append, BitVec.toNat_ofNat]
    omega
  rw [UnpackedFloat.pack, add_bias, hbits, if_neg hfits, if_pos hlog, UnpackedFloat.unpack]
  simp only [unpackMantissa_packComponents, unpackExponent_packComponents,
    unpackSign_packComponents, Sign.ofBitVec_toBitVec, htop, hzero, if_false, hexp, hmant]
  congr 1
  show ((e + 1075).toNat : ℤ) - 1075 = e
  omega

/-- A small number keeps all its bits. -/
theorem unpack_pack_of_small (hlead : m < 2 ^ 52) :
    UnpackedFloat.unpack Format.binary64
        (UnpackedFloat.pack Format.binary64 (.finite s m (-1074) hm)) =
      .finite s m (-1074) hm := by
  have hfits : ¬ 2 ^ 11 ≤ ((-1074 : ℤ) + 1075).toNat + 1 := by decide
  have hbits : Format.binary64.mantissaBits = 53 := rfl
  have hlog : ¬ m.log2 + 1 = 53 := by
    have := (Nat.log2_lt hm.ne').2 hlead
    omega
  have hmant : (BitVec.ofNat 52 m).toNat = m := by
    rw [BitVec.toNat_ofNat, Nat.mod_eq_of_lt hlead]
  have hne : BitVec.ofNat 52 m ≠ 0#52 := fun h =>
    hm.ne' (hmant.symm.trans (congrArg BitVec.toNat h))
  have htop : 0#11 ≠ -1#11 := by decide
  rw [UnpackedFloat.pack, add_bias, hbits, if_neg hfits, if_neg hlog, UnpackedFloat.unpack]
  simp only [unpackMantissa_packComponents, unpackExponent_packComponents,
    unpackSign_packComponents, Sign.ofBitVec_toBitVec, htop, hne, if_false, if_true, hmant]
  rfl

end

/-- **Packing a canonical float** loses nothing as long as the exponent is not too large. -/
theorem unpack_pack {f : UnpackedFloat} (h : Canonical f) :
    UnpackedFloat.unpack Format.binary64 (UnpackedFloat.pack Format.binary64 f) = stored f := by
  cases f with
  | notANumber => exact unpack_packedNaN
  | infinity s => exact unpack_packedInfinity s
  | zero s => exact unpack_packedZero
  | finite s m e hm =>
    rw [stored]
    by_cases he : e ≤ 971
    · rw [if_pos he]
      by_cases hlead : 2 ^ 52 ≤ m
      · exact unpack_pack_of_normal h he hlead
      · obtain rfl := h.normal.resolve_left hlead
        exact unpack_pack_of_small (not_le.1 hlead)
    · rw [if_neg he]
      exact unpack_pack_of_overflow (not_le.1 he)

/-! ## Comparing canonical floats -/

section
variable {m n : ℕ} {d e : ℤ}

theorem Fits.pos (hm : 0 < m) : (0 : ℚ) < m * 2 ^ e :=
  mul_pos (Nat.cast_pos.2 hm) (twoPow_pos e)

theorem Fits.lt_limit (h : Fits m e) (he : e ≤ 971) : (m : ℚ) * 2 ^ e < limit := by
  have hlimit : limit = ((1 : ℕ) : ℚ) * 2 ^ (1024 : ℤ) := by
    rw [Nat.cast_one, one_mul, limit_eq]
  rw [hlimit, natCast_mul_twoPow (by omega : e ≤ 1024), mul_twoPow_lt_iff, one_mul]
  exact h.mantissa_lt.trans_le (Nat.pow_le_pow_right two_pos (by omega))

theorem Fits.limit_le (h : Fits m e) (he : 971 < e) : limit ≤ (m : ℚ) * 2 ^ e := by
  have hlead : 2 ^ 52 ≤ m := h.normal.resolve_right (by omega)
  have hlimit : limit = ((2 ^ 52 : ℕ) : ℚ) * 2 ^ (972 : ℤ) := by
    rw [limit_eq, Nat.cast_pow, Nat.cast_two, ← zpow_natCast, ← zpow_add₀ two_ne_zero]
    rfl
  rw [hlimit, natCast_mul_twoPow (by omega : (972 : ℤ) ≤ e), mul_twoPow_le_iff]
  exact hlead.trans (Nat.le_mul_of_pos_right m (Nat.two_pow_pos _))

/-- A larger exponent makes a larger number, whatever the mantissas. -/
theorem Fits.lt_of_lt (h : Fits m d) (h' : Fits n e) (hde : d < e) :
    (m : ℚ) * 2 ^ d < n * 2 ^ e := by
  have hlead : 2 ^ 52 ≤ n := h'.normal.resolve_right (by have := h.le_exponent; omega)
  rw [natCast_mul_twoPow hde.le, mul_twoPow_lt_iff]
  calc m < 2 ^ 52 * 2 ^ 1 := h.mantissa_lt
    _ ≤ n * 2 ^ (e - d).toNat :=
      Nat.mul_le_mul hlead (Nat.pow_le_pow_right two_pos (by omega))

theorem Fits.compare_eq (h : Fits m d) (h' : Fits n e) :
    (compare d e).then (compare m n) = compare ((m : ℚ) * 2 ^ d) (n * 2 ^ e) := by
  rcases lt_trichotomy d e with hde | rfl | hde
  · rw [compare_lt_iff_lt.2 hde, compare_lt_iff_lt.2 (h.lt_of_lt h' hde)]
    rfl
  · rw [compare_eq_iff_eq.2 rfl, Ordering.eq_then]
    rcases lt_trichotomy m n with hmn | rfl | hmn
    · rw [compare_lt_iff_lt.2 hmn, compare_lt_iff_lt.2 (mul_twoPow_lt_iff.2 hmn)]
    · rw [compare_eq_iff_eq.2 rfl, compare_eq_iff_eq.2 rfl]
    · rw [compare_gt_iff_gt.2 hmn, compare_gt_iff_gt.2 (mul_twoPow_lt_iff.2 hmn)]
  · rw [compare_gt_iff_gt.2 hde, compare_gt_iff_gt.2 (h'.lt_of_lt h hde)]
    rfl

end

theorem rawValue_bounds {f : UnpackedFloat} (hf : Storable f) (hfinite : f.isFinite = true) :
    -limit < rawValue f ∧ rawValue f < limit := by
  have hlimit := limit_pos
  cases f with
  | notANumber => cases hfinite
  | infinity s => cases hfinite
  | zero s => exact ⟨neg_lt_zero.2 hlimit, hlimit⟩
  | finite s m e hm =>
    have hpos := Fits.pos (e := e) hm
    have hlt := hf.1.lt_limit hf.2
    cases s <;> simp only [rawValue_negative, rawValue_positive] <;> constructor <;> linarith

theorem some_lt_eq {a b : ℚ} (h : a < b) : some Ordering.lt = some (compare a b) :=
  congrArg some (compare_lt_iff_lt.2 h).symm

theorem some_gt_eq {a b : ℚ} (h : b < a) : some Ordering.gt = some (compare a b) :=
  congrArg some (compare_gt_iff_gt.2 h).symm

theorem some_eq_eq {a b : ℚ} (h : a = b) : some Ordering.eq = some (compare a b) :=
  congrArg some (compare_eq_iff_eq.2 h).symm

theorem compare_neg_neg (a b : ℚ) : compare (-a) (-b) = (compare a b).swap := by
  rcases lt_trichotomy a b with h | rfl | h
  · rw [compare_gt_iff_gt.2 (neg_lt_neg h), compare_lt_iff_lt.2 h]
    rfl
  · rw [compare_eq_iff_eq.2 rfl, compare_eq_iff_eq.2 rfl]
    rfl
  · rw [compare_lt_iff_lt.2 (neg_lt_neg h), compare_gt_iff_gt.2 h]
    rfl

theorem compare_eq_of_finite {f g : UnpackedFloat} (hf : Storable f) (hg : Storable g)
    (hf' : f.isFinite = true) (hg' : g.isFinite = true) :
    f.compare g = some (compare (rawValue f) (rawValue g)) := by
  cases f with
  | notANumber => cases hf'
  | infinity s => cases hf'
  | zero s =>
    cases g with
    | notANumber => cases hg'
    | infinity t => cases hg'
    | zero t => exact some_eq_eq rfl
    | finite t n e hn =>
      have hpos := Fits.pos (e := e) hn
      cases t <;> simp only [rawValue_zero, rawValue_negative, rawValue_positive]
      · exact some_gt_eq (neg_lt_zero.2 hpos)
      · exact some_lt_eq hpos
  | finite s m d hm =>
    have hpos := Fits.pos (e := d) hm
    cases g with
    | notANumber => cases hg'
    | infinity t => cases hg'
    | zero t =>
      cases s <;> simp only [rawValue_zero, rawValue_negative, rawValue_positive]
      · exact some_lt_eq (neg_lt_zero.2 hpos)
      · exact some_gt_eq hpos
    | finite t n e hn =>
      have hpos' := Fits.pos (e := e) hn
      have hfits := hf.1.compare_eq hg.1
      cases s <;> cases t <;> simp only [rawValue_negative, rawValue_positive]
      · rw [compare_neg_neg, ← hfits]
        rfl
      · exact some_lt_eq ((neg_lt_zero.2 hpos).trans hpos')
      · exact some_gt_eq ((neg_lt_zero.2 hpos').trans hpos)
      · rw [← hfits]
        rfl

theorem compare_infinity {f : UnpackedFloat} (hf : f.isFinite = true) :
    (f.compare (.infinity .negative) = some .gt ∧ f.compare (.infinity .positive) = some .lt) ∧
      (UnpackedFloat.compare (.infinity .negative) f = some .lt ∧
        UnpackedFloat.compare (.infinity .positive) f = some .gt) := by
  cases f with
  | notANumber => cases hf
  | infinity s => cases hf
  | zero s => exact ⟨⟨rfl, rfl⟩, rfl, rfl⟩
  | finite s m e hm => cases s <;> exact ⟨⟨rfl, rfl⟩, rfl, rfl⟩

/-- **Floats are compared as their values are.** -/
theorem compare_eq {f g : UnpackedFloat} (hf : Storable f) (hg : Storable g)
    (hf' : f ≠ .notANumber) (hg' : g ≠ .notANumber) :
    f.compare g = some (compare (rawValue f) (rawValue g)) := by
  have hlimit := limit_pos
  by_cases hff : f.isFinite = true
  · by_cases hgf : g.isFinite = true
    · exact compare_eq_of_finite hf hg hff hgf
    · -- an infinite float lies beyond all finite ones
      obtain ⟨hlow, hhigh⟩ := rawValue_bounds hf hff
      cases g with
      | notANumber => exact absurd rfl hg'
      | zero t => exact absurd rfl hgf
      | finite t n e hn => exact absurd rfl hgf
      | infinity t =>
        cases t <;> simp only [compare_infinity hff, rawValue_infinity,
          rawValue_neg_infinity]
        · exact some_gt_eq hlow
        · exact some_lt_eq hhigh
  · cases f with
    | notANumber => exact absurd rfl hf'
    | zero s => exact absurd rfl hff
    | finite s m d hm => exact absurd rfl hff
    | infinity s =>
      by_cases hgf : g.isFinite = true
      · obtain ⟨hlow, hhigh⟩ := rawValue_bounds hg hgf
        cases s <;> simp only [compare_infinity hgf, rawValue_infinity,
          rawValue_neg_infinity]
        · exact some_lt_eq hlow
        · exact some_gt_eq hhigh
      · cases g with
        | notANumber => exact absurd rfl hg'
        | zero t => exact absurd rfl hgf
        | finite t n e hn => exact absurd rfl hgf
        | infinity t =>
          have hlt : -limit < limit := by linarith
          cases s <;> cases t <;> simp only [rawValue_infinity, rawValue_neg_infinity]
          · exact some_eq_eq rfl
          · exact some_lt_eq hlt
          · exact some_gt_eq hlt
          · exact some_eq_eq rfl

/-! ## Doubles -/

/-- **The number that a double stands for.** -/
def value (x : Float) : ℚ := rawValue x.toModel.unpack

theorem storable (x : Float) : Storable x.toModel.unpack := storable_unpack _

theorem isNaN_eq_false_iff {x : Float} : x.isNaN = false ↔ x.toModel.unpack ≠ .notANumber := by
  show x.toModel.unpack.isNaN = false ↔ _
  cases x.toModel.unpack <;> simp [UnpackedFloat.isNaN]

theorem unpack_ofModel_pack {f : UnpackedFloat} (h : Canonical f) :
    (Float.ofModel (Float.Model.pack f)).toModel.unpack = stored f :=
  unpack_pack h

section
variable {x y : Float}

theorem compare_of_isNaN (h : ¬ (x.isNaN = false ∧ y.isNaN = false)) :
    x.toModel.unpack.compare y.toModel.unpack = none := by
  simp only [isNaN_eq_false_iff] at h
  rcases hx : x.toModel.unpack <;> rcases hy : y.toModel.unpack <;> simp_all [UnpackedFloat.compare]

theorem lt_iff : x < y ↔ (x.isNaN = false ∧ y.isNaN = false) ∧ value x < value y := by
  have hlt : x < y ↔ x.toModel.unpack.compare y.toModel.unpack = some .lt := by
    refine (decide_eq_true_iff (p := x.toModel < y.toModel)).trans ?_
    show x.toModel.unpack.lt y.toModel.unpack = true ↔ _
    rw [UnpackedFloat.lt, beq_iff_eq]
  rw [hlt]
  by_cases h : x.isNaN = false ∧ y.isNaN = false
  · rw [compare_eq (storable x) (storable y) (isNaN_eq_false_iff.1 h.1) (isNaN_eq_false_iff.1 h.2),
      Option.some.injEq, compare_lt_iff_lt, and_iff_right h]
    rfl
  · rw [compare_of_isNaN h]
    exact iff_of_false (by simp) fun hlt => h hlt.1

theorem le_iff : x ≤ y ↔ (x.isNaN = false ∧ y.isNaN = false) ∧ value x ≤ value y := by
  have hle : x ≤ y ↔ (x.toModel.unpack.compare y.toModel.unpack).any (·.isLE) = true :=
    decide_eq_true_iff (p := x.toModel ≤ y.toModel)
  rw [hle]
  by_cases h : x.isNaN = false ∧ y.isNaN = false
  · rw [compare_eq (storable x) (storable y) (isNaN_eq_false_iff.1 h.1) (isNaN_eq_false_iff.1 h.2),
      Option.any_some, and_iff_right h]
    rw [Ordering.isLE_iff_ne_gt, compare_gt_iff_gt]
    exact not_lt
  · rw [compare_of_isNaN h]
    exact iff_of_false (by simp) fun hle => h hle.1

end

/-! ## Doubles that are not negative -/

/-- The forms of a float that is not negative; a zero may have either sign. -/
inductive Unsigned : UnpackedFloat → Prop
  | zero (s : Sign) : Unsigned (.zero s)
  | finite {m : ℕ} {e : ℤ} {hm : 0 < m} : Fits m e → e ≤ 971 →
    Unsigned (.finite .positive m e hm)
  | infinity : Unsigned (.infinity .positive)

section
variable {f : UnpackedFloat}

theorem Unsigned.storable (h : Unsigned f) : Storable f := by
  cases h with
  | zero s => trivial
  | finite hfits he => exact ⟨hfits, he⟩
  | infinity => trivial

theorem Unsigned.ne_notANumber (h : Unsigned f) : f ≠ .notANumber := by
  cases h <;> exact UnpackedFloat.noConfusion

theorem Unsigned.rawValue_nonneg (h : Unsigned f) : 0 ≤ rawValue f := by
  cases h with
  | zero s => exact le_rfl
  | @finite m e hm _ _ =>
    rw [rawValue_positive]
    exact (Fits.pos hm).le
  | infinity =>
    rw [rawValue_infinity]
    exact limit_pos.le

theorem Unsigned.rawValue_le_limit (h : Unsigned f) : rawValue f ≤ limit := by
  cases h with
  | zero s => exact limit_pos.le
  | finite hfits he =>
    rw [rawValue_positive]
    exact (hfits.lt_limit he).le
  | infinity => exact rawValue_infinity.le

theorem Unsigned.isFinite (h : Unsigned f) (hlt : rawValue f < limit) : f.isFinite = true := by
  cases h with
  | zero s => rfl
  | finite hfits he => rfl
  | infinity =>
    rw [rawValue_infinity] at hlt
    exact absurd hlt (lt_irrefl limit)

/-- **What is not negative has one of these forms.** -/
theorem unsigned_of_nonneg (hf : Storable f) (hnan : f ≠ .notANumber) (h : 0 ≤ rawValue f) :
    Unsigned f := by
  cases f with
  | notANumber => exact absurd rfl hnan
  | zero s => exact .zero s
  | infinity s =>
    cases s
    · rw [rawValue_neg_infinity] at h
      exact absurd h (not_le.2 (neg_lt_zero.2 limit_pos))
    · exact .infinity
  | finite s m e hm =>
    cases s
    · rw [rawValue_negative] at h
      exact absurd h (not_le.2 (neg_lt_zero.2 (Fits.pos hm)))
    · exact .finite hf.1 hf.2

end

/-- A double that is a number and not below zero; negative zero is one of them. -/
def Nonneg (x : Float) : Prop := Unsigned x.toModel.unpack

theorem nonneg_iff {x : Float} : Nonneg x ↔ x.isNaN = false ∧ 0 ≤ value x := by
  rw [isNaN_eq_false_iff]
  exact ⟨fun h => ⟨h.ne_notANumber, h.rawValue_nonneg⟩,
    fun h => unsigned_of_nonneg (storable x) h.1 h.2⟩

end DirichletMixture.Double
