/-
  DirichletMixture: how scored points are handed out to clusters.

  A policy is fixed once.  Either the most likely cluster gets a point, or every
  cluster does whose share of the likelihoods is above a threshold.

  * `Mode.ofName?` reads a mode;
  * `checkThreshold` checks that a threshold is a number between zero and one, and
    `Policy.make` makes a policy with it.
-/
import DirichletMixture.Fault

namespace DirichletMixture

variable {α : Type} [Scalar α]

/-- Which clusters get a point. -/
inductive Mode where
  | mostLikely
  /-- All that are likely enough. -/
  | threshold
deriving DecidableEq, Repr

namespace Mode

def name : Mode → String
  | mostLikely => "most_likely"
  | threshold => "threshold"

def ofName? (s : String) : Except (Fault α) Mode :=
  if s = mostLikely.name then .ok mostLikely
  else if s = threshold.name then .ok threshold
  else .error (.unknownMode s)

end Mode

/-- The number between zero and one that a threshold has to be. -/
def checkThreshold (given : Setting α) : Except (Fault α) { t : α // 0 ≤ t ∧ t ≤ 1 } :=
  match given.number? with
  | none => .error .wrongKind
  | some t => if h : 0 ≤ t ∧ t ≤ 1 then .ok ⟨t, h⟩ else .error (.refuse (.threshold given))

/-- A mode, and a threshold between zero and one. -/
structure Policy (α : Type) [Scalar α] where
  mode : Mode
  /-- The threshold as it was given. -/
  given : Setting α
  threshold : α
  threshold_nonneg : 0 ≤ threshold
  threshold_le_one : threshold ≤ 1

namespace Policy

/-- A policy with a threshold that may be any value. -/
def make (mode : Mode) (given : Setting α) : Except (Fault α) (Policy α) :=
  (checkThreshold given).map fun t => ⟨mode, given, t.1, t.2.1, t.2.2⟩

/-- The threshold of a policy for which none is named. -/
def defaultThreshold : Setting α := .real 0

end Policy

end DirichletMixture
