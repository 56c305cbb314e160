/-
  DirichletMixture: what is observed.

  An observation is a label, or a number or nested list of numbers.  The sampler
  never looks inside one; component families do.

  * `Observation.vector?` is the vector that an observation stands for: its numbers
    row by row, or the number that a label says.
-/
import DirichletMixture.Decimal.Readable
import DirichletMixture.Fault

namespace DirichletMixture

/-- One observed point. -/
inductive Observation (α : Type) where
  | label (text : String)
  | value (x : Nested α)

/-- The numbers of an observation as one vector; a label has to say a number. -/
def Observation.vector? {α : Type} [Readable α] : Observation α → Except (Fault α) (List α)
  | .label text =>
    match readScalar? text with
    | none => .error .notNumeric
    | some x => .ok [x]
  | .value x =>
    match x.entries? with
    | none => .error .notArray
    | some xs => .ok xs

end DirichletMixture
