/-
  DirichletMixture: drawing an index with given weights.

  The index `k` is drawn with probability proportional to its weight: a uniform
  draw from zero, excluded, to the total, included, is located among the
  cumulative sums, and the first index whose sum reaches it wins.  So an index of
  weight zero is never drawn.

  * `locate` finds the index for a given threshold; should rounding have pushed
    the threshold past the last sum, it takes the last index of positive weight;
  * `checkWeights` says whether a vector can be drawn from, and gives its total;
  * `drawIndex` makes one uniform draw and locates it, and `drawIndexOf` first
    makes sure that it is given a vector.
-/
import DirichletMixture.Generator.Basic
import DirichletMixture.Weights.Normalize

namespace DirichletMixture

variable {ω α : Type} [Scalar α]

/-! ## Locating a threshold -/

/-- The number of leading entries that `u` exceeds: where `u` belongs among
    ascending sums, before entries that equal it. -/
def insertionPoint (u : α) (sums : List α) : Nat :=
  (sums.takeWhile fun c => exceeds u c).length

/-- The last index of positive weight; zero if there is none. -/
def lastPositive : List α → Nat
  | [] => 0
  | _ :: xs => if xs.any (fun x => decide (0 < x)) then lastPositive xs + 1 else 0

/-- The first index whose cumulative weight reaches `u`, or else the last index
    of positive weight. -/
def locate (w : List α) (u : α) : Nat :=
  let k := insertionPoint u (cumulative w)
  if k < w.length then k else lastPositive w

/-! ## Drawing -/

/-- The total of a vector that can be drawn from: it is not empty, no weight is
    negative or undefined, and the total is a positive number. -/
def checkWeights (w : List α) : Except (Degeneracy α) α :=
  if w.isEmpty then .error (.notVector [0])
  else if w.any (fun x => Scalar.isNaN x) || w.any (fun x => decide (x < 0)) then
    .error .badWeight
  else if isMeasure (pairwiseSum w) then .ok (pairwiseSum w)
  else .error (.badTotal (pairwiseSum w))

/-- An index drawn with probability proportional to its weight. -/
def drawIndex (g : Generator ω α) (w : List α) : Attempt ω α Nat :=
  match checkWeights w with
  | .error cause => throw (.degenerate cause .unknown)
  | .ok total => do
    let r ← g.uniform
    pure (locate w ((1 - r) * total))

/-- The same for weights in any nesting, which have to be a vector. -/
def drawIndexOf (g : Generator ω α) (w : Nested α) : Attempt ω α Nat :=
  match w.shape? with
  | none => throw .notArray
  | some [_] => drawIndex g w.flatten
  | some shape => throw (.degenerate (.notVector shape) .unknown)

end DirichletMixture
