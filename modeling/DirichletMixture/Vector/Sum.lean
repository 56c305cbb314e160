/-
  DirichletMixture: sums of vectors.

  A vector is a list of scalars.  Its sum is taken in blocks, which keeps the
  rounding error of long sums small; in exact arithmetic the order makes no
  difference.  Running sums are taken from left to right.

  * `blockwiseSum` adds fewer than eight entries one by one, up to 128 entries in
    eight interleaved lanes, and a longer vector as two halves, the first of a
    length divisible by eight;
  * `pairwiseSum` adds that to zero, so that no sum is a negative zero;
  * `cumulative` lists the sums of the initial segments.
-/
import DirichletMixture.Scalar

namespace DirichletMixture

variable {α : Type} [Scalar α]

/-! ## Blockwise sums -/

/-- The entries added one by one, starting with the first. -/
def sequentialSum : List α → α
  | [] => 0
  | x :: xs => xs.foldl (· + ·) x

/-- Eight partial sums that run side by side. -/
structure Lanes (α : Type) where
  /-- Entries 0, 8, 16, … -/
  l0 : α
  l1 : α
  l2 : α
  l3 : α
  l4 : α
  l5 : α
  l6 : α
  /-- Entries 7, 15, 23, … -/
  l7 : α

/-- The lanes joined in a balanced way. -/
def Lanes.join (l : Lanes α) : α :=
  ((l.l0 + l.l1) + (l.l2 + l.l3)) + ((l.l4 + l.l5) + (l.l6 + l.l7))

/-- Adds every full block of eight entries to the lanes, joins them, and adds
    the entries that are left one by one. -/
def Lanes.sum (l : Lanes α) : List α → α
  | x0 :: x1 :: x2 :: x3 :: x4 :: x5 :: x6 :: x7 :: xs =>
    Lanes.sum ⟨l.l0 + x0, l.l1 + x1, l.l2 + x2, l.l3 + x3, l.l4 + x4, l.l5 + x5, l.l6 + x6,
      l.l7 + x7⟩ xs
  | xs => xs.foldl (· + ·) l.join

/-- The sum of one block: in lanes from eight entries on, one by one below. -/
def blockSum : List α → α
  | x0 :: x1 :: x2 :: x3 :: x4 :: x5 :: x6 :: x7 :: xs =>
    Lanes.sum ⟨x0, x1, x2, x3, x4, x5, x6, x7⟩ xs
  | xs => sequentialSum xs

/-- The length of the first half of a long vector: half of it, rounded down to a
    multiple of eight. -/
def firstHalf (n : Nat) : Nat := n / 2 - n / 2 % 8

theorem firstHalf_pos {n : Nat} (h : 128 < n) : 0 < firstHalf n := by
  unfold firstHalf; omega

theorem firstHalf_lt {n : Nat} (h : 128 < n) : firstHalf n < n := by
  unfold firstHalf; omega

/-- The entries added by halves, down to blocks of at most 128. -/
def blockwiseSum (xs : List α) : α :=
  if 128 < xs.length then
    blockwiseSum (xs.take (firstHalf xs.length)) + blockwiseSum (xs.drop (firstHalf xs.length))
  else
    blockSum xs
termination_by xs.length
decreasing_by
  · rename_i h
    have := firstHalf_lt h
    simp only [List.length_take]; omega
  · rename_i h
    have := firstHalf_pos h
    simp only [List.length_drop]; omega

/-- The sum of a vector.  It starts from zero, so it has no sign if all entries
    are negative zeros. -/
def pairwiseSum (xs : List α) : α := 0 + blockwiseSum xs

/-! ## Running sums -/

/-- The sums of `acc` and the non-empty initial segments. -/
def cumulativeFrom (acc : α) : List α → List α
  | [] => []
  | x :: xs => (acc + x) :: cumulativeFrom (acc + x) xs

/-- The sums of the non-empty initial segments, from left to right. -/
def cumulative (xs : List α) : List α := cumulativeFrom 0 xs

@[simp] theorem length_cumulativeFrom (acc : α) (xs : List α) :
    (cumulativeFrom acc xs).length = xs.length := by
  induction xs generalizing acc with
  | nil => rfl
  | cons x xs ih => simp [cumulativeFrom, ih]

@[simp] theorem length_cumulative (xs : List α) : (cumulative xs).length = xs.length :=
  length_cumulativeFrom 0 xs

end DirichletMixture
