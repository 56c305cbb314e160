/-
  DirichletMixture: the family of normal components.

  A component is drawn from a belief in two steps, a gamma draw of the precision
  of each coordinate, then a normal draw of its mean.  A component drawn from the
  posterior of another one stands at the same place and shares no state with it.

  * `Belief.draw` draws a component from a belief;
  * `normalFamily` is the family for a given prior and generator.
-/
import DirichletMixture.Family.Basic
import DirichletMixture.Generator.Basic
import DirichletMixture.Normal.Model

namespace DirichletMixture

variable {ω α : Type} [Scalar α]

/-- The deviation of the mean when the variance is `v` and the centre is worth
    `precisionScale` observations. -/
def meanDeviation (precisionScale v : α) : α := Scalar.sqrt (v / precisionScale)

/-- A component drawn from a belief: the variance of each coordinate is one over
    a gamma draw, and then its mean is a normal draw. -/
def Belief.draw (g : Generator ω α) (prior : NormalPrior α) (b : Belief α) :
    Attempt ω α (NormalModel α) := do
  let precision ← g.gamma b.shape (b.scale.map (1 / ·))
  let variance := precision.map (1 / ·)
  let mean ← g.normal b.mean (variance.map (meanDeviation b.precisionScale))
  Attempt.ofExcept (NormalModel.ofVectors prior mean variance)

/-- One component for each belief, drawn in order. -/
def drawEach (g : Generator ω α) (prior : NormalPrior α) :
    List (Except (Fault α) (Belief α)) → Attempt ω α (List (NormalModel α))
  | [] => pure []
  | b :: bs => do
    let belief ← Attempt.ofExcept b
    let m ← belief.draw g prior
    let ms ← drawEach g prior bs
    pure (m :: ms)

/-- Normal components, drawn from a prior with a generator. -/
def normalFamily [Readable α] (g : Generator ω α) (prior : NormalPrior α) :
    Family ω (Observation α) (NormalModel α) α where
  count := NormalModel.count
  density := NormalModel.density
  observe := NormalModel.observe
  finalize := NormalModel.finalize
  fromPrior n := do
    Attempt.ofExcept prior.checkDimension
    drawEach g prior (List.replicate n prior.initial)
  fromPosterior ms := drawEach g prior (ms.map fun m => prior.posterior m.statistics)

end DirichletMixture
