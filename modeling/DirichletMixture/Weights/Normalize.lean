/-
  DirichletMixture: vectors of weights brought to a common measure.

  Only the ratios of weights matter.  Before a draw they are divided by the
  largest, before emission by their sum; either has to be a positive number.

  * `normalizeByMax` and `normalizeBySum` divide, or say why they cannot.
-/
import DirichletMixture.Fault
import DirichletMixture.Vector.Basic
import DirichletMixture.Vector.Sum

namespace DirichletMixture

variable {α : Type} [Scalar α]

/-- Whether a value can serve as a measure: a positive number. -/
def isMeasure (m : α) : Bool := Scalar.isFinite m && !decide (m ≤ 0)

def normalizeByMax (p : List α) : Except (Fault α) (List α) :=
  let m := (maximum? p).getD 0
  if isMeasure m then .ok (p.map (· / m)) else .error (.degenerate (.badMaximum m) .unknown)

def normalizeBySum (p : List α) : Except (Fault α) (List α) :=
  let s := pairwiseSum p
  if isMeasure s then .ok (p.map (· / s)) else .error (.degenerate (.badSum s) .unknown)

end DirichletMixture
