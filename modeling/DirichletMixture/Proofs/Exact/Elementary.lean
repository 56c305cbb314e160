/-
  DirichletMixture: elementary functions of exact numbers.

  Exact numbers come with any functions in the place of the exponential and the square
  root.  Some results need functions that deserve the names.

  * `Elementary` says what is needed of the two functions, and of the ratio of a circle;
  * `instExactReal` makes exact numbers of the real ones, with the functions that they
    have, and `instReadableReal` gives them the values of numerals;
  * `elementary_real`: these are elementary functions;
  * `square_sqrt_real`: what is not negative is the square of its root, which the rational
    numbers cannot offer.
-/
import Mathlib.Analysis.SpecialFunctions.Trigonometric.Basic
import DirichletMixture.Proofs.Exact.Basic

namespace DirichletMixture

/-- The exponential of a sum is a product, and so is the root of a product; the ratio of a
    circle is positive. -/
structure Elementary (K : Type) [Exact K] : Prop where
  exp_add : ∀ a b : K, Exact.exp (a + b) = Exact.exp a * Exact.exp b
  sqrt_mul : ∀ a b : K, 0 ≤ a → 0 ≤ b → Exact.sqrt (a * b) = Exact.sqrt a * Exact.sqrt b
  pi_pos : 0 < (Exact.pi : K)

theorem Elementary.circles_nonneg {K : Type} [Exact K] (he : Elementary K) (n : Nat) :
    0 ≤ (two * Exact.pi : K) ^ n :=
  pow_nonneg (mul_nonneg scalarTwo_pos.le he.pi_pos.le) n

/-! ## The real numbers -/

/-- The real numbers with their exponential, their square root and their ratio of a circle. -/
noncomputable instance instExactReal : Exact ℝ where
  exp := Real.exp
  sqrt := Real.sqrt
  pi := Real.pi

/-- The value of a numeral is the rational one. -/
noncomputable instance instReadableReal : Readable ℝ where
  ofNumeral n := ((Readable.ofNumeral n : ℚ) : ℝ)

/-- The exponential and the square root of real numbers are as it takes. -/
theorem elementary_real : Elementary ℝ where
  exp_add := Real.exp_add
  sqrt_mul _ b ha _ := Real.sqrt_mul ha b
  pi_pos := Real.pi_pos

theorem square_sqrt_real (x : ℝ) (hx : 0 ≤ x) : square (Scalar.sqrt x) = x :=
  Real.mul_self_sqrt hx

end DirichletMixture
