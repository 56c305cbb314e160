/-
  DirichletMixture: mixture weights by stick-breaking.

  A stick of length one is broken piece by piece.  The share of component `k` in
  what is left of the stick is a beta draw, whose shapes are one more than the
  observations of the component, and the concentration plus the observations of
  the later components.  What is left after the last piece belongs to no
  component, so the weights need not add up to one.

  * `breakStick` is the draw of all weights, and `breakFrom` that of the weights
    from some component on.
-/
import DirichletMixture.Generator.Basic
import DirichletMixture.Vector.Sum

namespace DirichletMixture

variable {ω α : Type} [Scalar α]

/-- The share of a component: a beta draw, or everything if its second shape is
    not positive. -/
def drawShare (g : Generator ω α) (a b : α) : Attempt ω α α :=
  if 0 < b then g.beta a b else pure 1

/-- The weights of the components with these counts, where `total` counts the
    observations of these components and `remainder` is the length of the stick
    that is left. -/
def breakFrom (g : Generator ω α) (alpha0 total remainder : α) :
    List α → Attempt ω α (List α)
  | [] => pure []
  | n :: counts => do
    let share ← drawShare g (1 + n) (positivePart (alpha0 + (total - n)))
    let piece := share * remainder
    let pieces ← breakFrom g alpha0 (total - n) (remainder - piece) counts
    pure (piece :: pieces)

/-- The weights of a mixture whose components hold these counts of observations. -/
def breakStick (g : Generator ω α) (alpha0 : α) (counts : List α) : Attempt ω α (List α) :=
  breakFrom g alpha0 (pairwiseSum counts) 1 counts

end DirichletMixture
