/-
  DirichletMixture: the scalars that weights, likelihoods and parameters are
  made of.

  Everything numeric in the library is written once, over a type of scalars.
  The program runs on double precision numbers; the same definitions, read over
  an ordered field with some `exp` and `sqrt`, are what the laws "in exact
  arithmetic" speak about.

  * `Scalar` is what the definitions need: the four operations, the order,
    casts, a test for "not a number" and one for "finite" (constant in a field),
    and the few functions that the normal density uses;
  * `exceeds` and `larger` compare two scalars so that a number that is not one
    comes after all numbers, and `positivePart` cuts off everything else at zero.
-/

namespace DirichletMixture

/-- The numbers of a sampler: arithmetic, order and casts, the two tests that
    tell a double apart from a field element, and the functions of the normal
    density. -/
class Scalar (α : Type) extends Zero α, One α, Add α, Sub α, Mul α, Div α, Neg α, LT α, LE α,
    NatCast α, IntCast α where
  decLT : DecidableLT α
  decLE : DecidableLE α
  /-- Whether the value stands for an undefined result. -/
  isNaN : α → Bool
  /-- Whether the value is a proper number, neither undefined nor infinite. -/
  isFinite : α → Bool
  exp : α → α
  sqrt : α → α
  /-- The ratio of a circle's circumference to its diameter. -/
  pi : α
  /-- Powers with a natural exponent. -/
  power : α → Nat → α

instance instDecidableLTScalar {α : Type} [Scalar α] : DecidableLT α := Scalar.decLT

instance instDecidableLEScalar {α : Type} [Scalar α] : DecidableLE α := Scalar.decLE

/-- Double precision numbers, as the program runs them. -/
instance instScalarFloat : Scalar Float where
  zero := 0.0
  one := 1.0
  natCast := Float.ofNat
  intCast := Float.ofInt
  decLT := inferInstance
  decLE := inferInstance
  isNaN := Float.isNaN
  isFinite := Float.isFinite
  exp := Float.exp
  sqrt := Float.sqrt
  pi := 3.141592653589793
  power x n := Float.pow x (Float.ofNat n)

variable {α : Type} [Scalar α]

/-! ## Comparing two scalars -/

/-- Whether `x` comes strictly after `m`: a value that is not a number comes after
    every number, and none comes after it. -/
def exceeds (x m : α) : Bool :=
  !Scalar.isNaN m && (Scalar.isNaN x || decide (m < x))

/-- The larger of two values, the second one if neither exceeds the other; of two
    zeros that is the later, whatever their signs. -/
def larger (m x : α) : α :=
  if exceeds m x then m else x

/-- A positive value itself, and zero for everything else. -/
def positivePart (x : α) : α :=
  if 0 < x then x else 0

/-! ## A few constants and powers -/

def two : α := ((2 : Nat) : α)

def half : α := 1 / two

def square (x : α) : α := x * x

end DirichletMixture
