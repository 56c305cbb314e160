/-
  DirichletMixture: sources of randomness.

  A generator turns the state of a source into draws.  The uniform draw always
  succeeds; the others may refuse their parameters, and what they consumed before
  they did is gone.

  * `Generator` is what the sampler and the component families draw from;
  * `Generator.focus` draws from a part of a larger state, so that two users may
    share one source or hold one each.
-/
import DirichletMixture.Attempt

namespace DirichletMixture

/-- The draws that can be made from a source with states `ω`. -/
structure Generator (ω α : Type) where
  /-- A uniform draw from zero, included, to one. -/
  uniform : StateM ω α
  /-- A beta draw with the two shapes. -/
  beta : α → α → Attempt ω α α
  /-- One gamma draw for every scale, all with the same shape. -/
  gamma : α → List α → Attempt ω α (List α)
  /-- One normal draw for every mean with the deviation at its place. -/
  normal : List α → List α → Attempt ω α (List α)

variable {ω τ α : Type}

/-- The generator that draws from a part of a larger state. -/
def Generator.focus (get : τ → ω) (put : ω → τ → τ) (g : Generator ω α) : Generator τ α where
  uniform t := ((g.uniform (get t)).1, put (g.uniform (get t)).2 t)
  beta a b := (g.beta a b).focus get put
  gamma shape scales := (g.gamma shape scales).focus get put
  normal means deviations := (g.normal means deviations).focus get put

end DirichletMixture
