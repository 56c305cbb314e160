/-
  DirichletMixture: exact arithmetic.

  In an ordered field, with any functions in the place of the exponential and the
  square root, nothing is rounded, every value is a number and every number is
  finite.  What the library says of such scalars it says of the real numbers.

  * `Exact` is the class of these fields, and `instScalarExact` makes scalars of their
    elements;
  * `exceeds_iff`, `isMeasure_iff` and their neighbours: the comparisons of scalars are
    those of the field;
  * `pairwiseSum_eq_sum`: the order of the summands makes no difference;
  * the rational numbers serve as an instance that can be computed with.
-/
import Mathlib.Algebra.BigOperators.Group.List.Basic
import Mathlib.Algebra.Order.Field.Basic
import Mathlib.Algebra.Order.Field.Rat
import Mathlib.Data.Rat.Sqrt
import Mathlib.Tactic.Abel
import Mathlib.Tactic.NormNum
import DirichletMixture.Decimal.Readable
import DirichletMixture.Vector.Sum
import DirichletMixture.Weights.Normalize

namespace DirichletMixture

/-- Ordered fields with functions that stand for the exponential and the square root,
    and a number that stands for the ratio of a circle. -/
class Exact (K : Type) extends Field K, LinearOrder K, IsStrictOrderedRing K where
  exp : K → K
  sqrt : K → K
  pi : K

/-- Exact numbers as scalars: all of them are numbers, and finite. -/
@[reducible]
instance instScalarExact {K : Type} [Exact K] : Scalar K where
  decLT := inferInstance
  decLE := inferInstance
  isNaN _ := false
  isFinite _ := true
  exp := Exact.exp
  sqrt := Exact.sqrt
  pi := Exact.pi
  power x n := x ^ n

/-- The rational numbers.  What leaves them is replaced by something nearby. -/
instance instExactRat : Exact ℚ where
  exp x := 1 / (1 + x * x)
  sqrt := Rat.sqrt
  pi := 22 / 7

/-- The value of a numeral; one that stands for no rational number is read as zero. -/
instance instReadableRat : Readable ℚ where
  ofNumeral
    | .undefined | .infinite _ => 0
    | .decimal negative size =>
      if negative then -(size.digits * 10 ^ size.scale) else size.digits * 10 ^ size.scale

/-- Rational numbers are written as fractions, without rounding. -/
instance instWrittenRat : Written ℚ where
  shortest := toString
  general := toString
  rounded := toString

variable {K : Type} [Exact K]

/-! ## Comparisons and constants -/

@[simp] theorem isFinite_exact (x : K) : Scalar.isFinite x = true := rfl

@[simp] theorem isNaN_exact (x : K) : Scalar.isNaN x = false := rfl

@[simp] theorem exceeds_iff {x m : K} : exceeds x m = true ↔ m < x := by
  simp [exceeds]

theorem larger_eq_max (m x : K) : larger m x = max m x := by
  unfold larger
  by_cases h : x < m
  · rw [if_pos (exceeds_iff.2 h), max_eq_left h.le]
  · rw [if_neg (mt exceeds_iff.1 h), max_eq_right (not_lt.1 h)]

theorem positivePart_of_pos {x : K} (h : 0 < x) : positivePart x = x := if_pos h

@[simp] theorem isMeasure_iff {m : K} : isMeasure m = true ↔ 0 < m := by
  simp [isMeasure]

theorem two_eq : (two : K) = 2 := by
  norm_num [two]

theorem scalarTwo_pos : 0 < (two : K) := by
  rw [two_eq]
  exact two_pos

theorem half_eq : (half : K) = 1 / 2 := by
  rw [half, two_eq]

/-! ## Sums -/

theorem foldl_add_eq (x : K) (xs : List K) : xs.foldl (· + ·) x = x + xs.sum := by
  induction xs generalizing x with
  | nil => simp
  | cons y ys ih => rw [List.foldl_cons, ih, List.sum_cons, add_assoc]

theorem sequentialSum_eq_sum (xs : List K) : sequentialSum xs = xs.sum := by
  cases xs with
  | nil => rfl
  | cons x xs => rw [sequentialSum, foldl_add_eq, List.sum_cons]

theorem Lanes.sum_eq (l : Lanes K) (xs : List K) : l.sum xs = l.join + xs.sum := by
  fun_induction Lanes.sum l xs with
  | case1 l x0 x1 x2 x3 x4 x5 x6 x7 xs ih =>
    rw [ih]
    simp only [Lanes.join, List.sum_cons]
    abel
  | case2 l xs => exact foldl_add_eq _ _

theorem blockSum_eq_sum (xs : List K) : blockSum xs = xs.sum := by
  unfold blockSum
  split
  · rw [Lanes.sum_eq]
    simp only [Lanes.join, List.sum_cons]
    abel
  · exact sequentialSum_eq_sum xs

theorem blockwiseSum_eq_sum (xs : List K) : blockwiseSum xs = xs.sum := by
  fun_induction blockwiseSum xs with
  | case1 xs h ih₁ ih₂ => rw [ih₁, ih₂, List.sum_take_add_sum_drop]
  | case2 xs h => exact blockSum_eq_sum xs

/-- **The sum of a vector** is the sum of its entries in whatever order. -/
@[simp] theorem pairwiseSum_eq_sum (xs : List K) : pairwiseSum xs = xs.sum := by
  rw [pairwiseSum, blockwiseSum_eq_sum, zero_add]

end DirichletMixture
