/-
  DirichletMixture: normal components.

  A normal component has a mean and a variance for each coordinate, which are
  independent of each other, and keeps the count, the sum and the sum of squares
  of what it observed.

  * `NormalModel.density` is the likelihood of a vector;
  * `NormalModel.observe` adds to the statistics and leaves the parameters alone;
  * `NormalModel.finalize` sets the parameters to their best guess in the light
    of the statistics, if there are any;
  * `NormalModel.text` shows a component.
-/
import DirichletMixture.Normal.Prior
import DirichletMixture.Observation
import DirichletMixture.Vector.Sum

namespace DirichletMixture

variable {α : Type} [Scalar α]

/-- A normal distribution with independent coordinates and the statistics of its
    observations. -/
structure NormalModel (α : Type) [Scalar α] where
  /-- The prior that the parameters come from. -/
  prior : NormalPrior α
  mean : List α
  variance : List α
  count : Nat
  sum : List α
  squares : List α

namespace NormalModel

/-! ## Making a component -/

/-- A component without observations. -/
def fresh (prior : NormalPrior α) (mean variance : List α) : NormalModel α where
  prior := prior
  mean := mean
  variance := variance
  count := 0
  sum := List.replicate prior.dimension 0
  squares := List.replicate prior.dimension 0

/-- Numbers as a vector with one entry for each coordinate. -/
def coordinates (prior : NormalPrior α) (xs : List α) : Except (Fault α) (List α) :=
  if xs.length = prior.dimension then .ok xs else .error .misshapen

/-- A component with a mean and a variance for each coordinate. -/
def ofVectors (prior : NormalPrior α) (mean variance : List α) :
    Except (Fault α) (NormalModel α) := do
  let mean ← coordinates prior mean
  let variance ← coordinates prior variance
  pure (fresh prior mean variance)

/-- The numbers of a nested value, which has to be an array. -/
def numbers (x : Nested α) : Except (Fault α) (List α) :=
  match x.entries? with
  | none => .error .notArray
  | some xs => .ok xs

/-- The same with parameters in any nesting. -/
def make (prior : NormalPrior α) (mean variance : Nested α) :
    Except (Fault α) (NormalModel α) := do
  let mean ← numbers mean >>= coordinates prior
  let variance ← numbers variance >>= coordinates prior
  pure (fresh prior mean variance)

/-! ## Observations -/

/-- The vector of an observation, which has to have an entry for each
    coordinate. -/
def vector [Readable α] (m : NormalModel α) (x : Observation α) : Except (Fault α) (List α) := do
  let v ← x.vector?
  if v.length = m.prior.dimension then .ok v
  else .error (.dimension v.length m.prior.dimension)

/-- The squared distance from the mean in each coordinate, in units of the
    variance. -/
def deviations (m : NormalModel α) (v : List α) : List α :=
  List.zipWith (fun d s => square d / s) (List.zipWith (· - ·) v m.mean) m.variance

/-- The share of the dimension in the normalizer, before the square root. -/
def circles (m : NormalModel α) : α := Scalar.power (two * Scalar.pi) m.prior.dimension

/-- What the exponential is divided by, so that the density integrates to one. -/
def normalizer (m : NormalModel α) : α :=
  Scalar.sqrt (m.circles * m.variance.foldl (· * ·) 1)

def densityAt (m : NormalModel α) (v : List α) : α :=
  Scalar.exp (-half * pairwiseSum (m.deviations v)) / m.normalizer

/-- The density at an observation.  It cannot be told if there are so many
    coordinates that the normalizer grows too large. -/
def density [Readable α] (m : NormalModel α) (x : Observation α) : Except (Fault α) α := do
  let v ← m.vector x
  if Scalar.isFinite m.circles then pure (m.densityAt v) else .error .overflow

def absorb (m : NormalModel α) (v : List α) : NormalModel α :=
  { m with
    count := m.count + 1
    sum := List.zipWith (· + ·) m.sum v
    squares := List.zipWith (· + ·) m.squares (v.map square) }

def observe [Readable α] (m : NormalModel α) (x : Observation α) :
    Except (Fault α) (NormalModel α) :=
  (m.vector x).map m.absorb

/-- What the component knows of its observations. -/
def statistics (m : NormalModel α) : Statistics α := ⟨m.count, m.sum, m.squares⟩

/-- The component with the most plausible parameters given its observations;
    without observations it keeps those it was drawn with. -/
def finalize (m : NormalModel α) : Except (Fault α) (NormalModel α) :=
  if m.count = 0 then .ok m
  else
    (m.prior.posterior m.statistics).map fun b =>
      { m with mean := b.mean, variance := b.scale.map (· / (b.shape + 1)) }

/-! ## Text -/

/-- Numbers in brackets, rounded to three places. -/
def writeVector [Written α] (xs : List α) : String :=
  "[" ++ ", ".intercalate (xs.map Written.rounded) ++ "]"

/-- The count, the mean and the standard deviation of a component. -/
def text [Written α] (m : NormalModel α) : String :=
  "NormalModel(n=" ++ toString m.count ++ ", mean=" ++ writeVector m.mean ++ ", sd=" ++
    writeVector (m.variance.map Scalar.sqrt) ++ ")"

end NormalModel

end DirichletMixture
