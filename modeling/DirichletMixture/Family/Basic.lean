/-
  DirichletMixture: families of components.

  A component is a distribution of observations that also keeps track of what it
  observed.  It lives for one iteration: it is drawn from a family, fed
  observations one by one, and finalized once.

  * `Component` is what can be done with components of a type `M`;
  * `Family` adds how they are drawn, from the prior or from the posterior of
    older ones, from a source of randomness with states `ω`;
  * `Candidate` is what is left of a component once it is only scored: a density
    and a count.
-/
import DirichletMixture.Attempt

namespace DirichletMixture

variable {ω τ O M α : Type}

/-- What components of the type `M` do with observations of the type `O`. -/
structure Component (O M α : Type) where
  /-- The number of observations absorbed. -/
  count : M → Nat
  /-- The likelihood of an observation. -/
  density : M → O → Except (Fault α) α
  observe : M → O → Except (Fault α) M
  /-- The component with its parameters brought in line with what it observed. -/
  finalize : M → Except (Fault α) M

/-- A family of components that are drawn from a source with states `ω`. -/
structure Family (ω O M α : Type) extends Component O M α where
  /-- As many components as asked for, drawn from the prior. -/
  fromPrior : Nat → Attempt ω α (List M)
  /-- One component for each given one, drawn from its posterior. -/
  fromPosterior : List M → Attempt ω α (List M)

/-- The family that draws from a part of a larger state. -/
def Family.focus (get : τ → ω) (put : ω → τ → τ) (f : Family ω O M α) : Family τ O M α where
  toComponent := f.toComponent
  fromPrior n := (f.fromPrior n).focus get put
  fromPosterior ms := (f.fromPosterior ms).focus get put

/-- A component as it is seen when points are scored. -/
structure Candidate (O α : Type) where
  density : O → Except (Fault α) α
  /-- The number of observations that the candidate stands for. -/
  count : Nat

/-- A component as a candidate with its own count. -/
def Component.candidate (c : Component O M α) (m : M) : Candidate O α :=
  ⟨c.density m, c.count m⟩

end DirichletMixture
