/-
  DirichletMixture: scalars that can be read from a text.

  * `Decimal.toFloat` is the double nearest to a decimal;
  * `Readable` is the class of scalars that a numeral has a value in, and
    `readScalar?` reads a text as such a scalar.
-/
import DirichletMixture.Decimal.Numeral

namespace DirichletMixture

/-- The double nearest to a decimal.  All doubles are below `10 ^ 309`, and what is
    below `10 ^ (-324)` is nearer to zero than to any other double. -/
def Decimal.toFloat (d : Decimal) : Float :=
  if d.digits = 0 ∨ d.exponent < -324 then 0.0
  else if 309 ≤ d.exponent then 1.0 / 0.0
  else Float.ofScientific d.digits (decide (d.scale < 0)) d.scale.natAbs

/-- Scalars in which a numeral has a value. -/
class Readable (α : Type) where
  /-- The value of a numeral. -/
  ofNumeral : Numeral → α

instance instReadableFloat : Readable Float where
  ofNumeral
    | .undefined => 0.0 / 0.0
    | .infinite negative => if negative then -1.0 / 0.0 else 1.0 / 0.0
    | .decimal negative size => if negative then -size.toFloat else size.toFloat

/-- The scalar that a text stands for, if it stands for a number. -/
def readScalar? {α : Type} [Readable α] (s : String) : Option α :=
  (Numeral.read? s).map Readable.ofNumeral

end DirichletMixture
