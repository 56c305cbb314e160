/-
  DirichletMixture: what is believed about the parameters of a normal component.

  The variance of each coordinate is inverse gamma with some shape and scale; the
  mean, given the variance, is normal around a centre, and worth as many
  observations as the precision scale says.  Coordinates are independent of each
  other.  Beliefs of this form stay of this form when observations come in.

  * `NormalPrior` is what a family starts from; its numbers are positive;
  * `NormalPrior.make` checks them;
  * `NormalPrior.checkDimension` says whether there are vectors of the dimension,
    and `NormalPrior.center` is the centre as such a vector, which is looked at
    only when it is needed;
  * `Belief` is the same with a vector of scales, and `NormalPrior.posterior` the
    belief after observations with some count, sum and sum of squares.
-/
import DirichletMixture.Fault
import DirichletMixture.Scalar
import DirichletMixture.Vector.Basic

namespace DirichletMixture

variable {α : Type} [Scalar α]

/-! ## Priors -/

/-- A belief before any observation, the same for every coordinate but for the
    centre. -/
structure NormalPrior (α : Type) [Scalar α] where
  /-- The centre, one number for all coordinates or one for each. -/
  mean : Nested α
  /-- How many observations the centre is worth. -/
  precisionScale : α
  shape : α
  scale : α
  dimension : Nat
  dimension_pos : 0 < dimension
  precisionScale_pos : 0 < precisionScale
  shape_pos : 0 < shape
  scale_pos : 0 < scale

namespace NormalPrior

/-- A prior with these numbers: the dimension is checked first, then the others
    in order. -/
def make (mean : Nested α) (precisionScale shape scale : α) (dimension : Int) :
    Except (Fault α) (NormalPrior α) :=
  if hd : 0 < dimension then
    if hp : 0 < precisionScale then
      if ha : 0 < shape then
        if hb : 0 < scale then
          .ok {
            mean, precisionScale, shape, scale
            dimension := dimension.toNat
            dimension_pos := by omega
            precisionScale_pos := hp
            shape_pos := ha
            scale_pos := hb }
        else .error (.notPositive .scale scale)
      else .error (.notPositive .shape shape)
    else .error (.notPositive .precisionScale precisionScale)
  else .error (Fault.noDimension dimension).worded

/-- The greatest number of coordinates that a vector has. -/
def maxDimension : Nat := Nat.pow 2 60 - 1

/-- Whether there are vectors with an entry for each coordinate. -/
def checkDimension (p : NormalPrior α) : Except (Fault α) Unit :=
  if p.dimension ≤ maxDimension then .ok () else .error .misshapen

/-- The centre: one number is repeated, and a list has to hold one number for
    each coordinate or a single one. -/
def center (p : NormalPrior α) : Except (Fault α) (List α) := do
  p.checkDimension
  match p.mean with
  | .scalar x => .ok (List.replicate p.dimension x)
  | .list xs =>
    match (Nested.list xs).shape? with
    | none => .error .notArray
    | some [n] =>
      if n = p.dimension ∨ n = 1 then .ok (stretch p.dimension (Nested.flattenAll xs))
      else .error .misshapen
    | some _ => .error .misshapen

end NormalPrior

/-! ## Beliefs after observations -/

/-- A belief with a centre and a scale for each coordinate. -/
structure Belief (α : Type) where
  mean : List α
  /-- How many observations the centre is worth. -/
  precisionScale : α
  shape : α
  scale : List α

/-- What a belief needs to know of the observations. -/
structure Statistics (α : Type) where
  count : Int
  sum : List α
  squares : List α

namespace NormalPrior

/-- The belief before any observation. -/
def initial (p : NormalPrior α) : Except (Fault α) (Belief α) :=
  p.center.map fun mean => ⟨mean, p.precisionScale, p.shape, List.replicate p.dimension p.scale⟩

/-- The centre of a coordinate after `n` observations with sum `s`, where it was
    `m` before: the mean of both, each with the number of observations that it is
    worth. -/
def updatedMean (p : NormalPrior α) (n m s : α) : α :=
  (p.precisionScale * m + s) / (p.precisionScale + n)

/-- The scale of a coordinate after `n` observations with sum `s` and sum of
    squares `q`: it grows by half of their spread, which rounding must not make
    negative, and by the distance of their mean from the centre. -/
def updatedScale (p : NormalPrior α) (n m s q : α) : α :=
  let average := s / n
  let spread := larger (q - n * square average) 0
  (p.scale + half * spread) +
    p.precisionScale * n * square (average - m) / (two * (p.precisionScale + n))

/-- The belief after observations with these statistics; without observations,
    the initial one.  The count has to fit into a scalar. -/
def posterior (p : NormalPrior α) (s : Statistics α) : Except (Fault α) (Belief α) :=
  p.initial.bind fun initial =>
    if s.count = 0 then .ok initial
    else if !Scalar.isFinite (s.count : α) then .error .overflow
    else
      let n : α := (s.count : α)
      let m := initial.mean
      match commonLength? [m.length, s.sum.length],
          commonLength? [m.length, s.sum.length, s.squares.length] with
      | some k, some l =>
        .ok {
          mean := List.zipWith (p.updatedMean n) (stretch k m) (stretch k s.sum)
          precisionScale := p.precisionScale + n
          shape := p.shape + n / two
          scale := List.zipWith (fun m sq => p.updatedScale n m sq.1 sq.2) (stretch l m)
            ((stretch l s.sum).zip (stretch l s.squares)) }
      | _, _ => .error .misshapen

end NormalPrior

end DirichletMixture
