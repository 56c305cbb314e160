/-
  DirichletMixture: what the bits of a double stand for.

  A finite double is a whole number of at most 53 bits scaled by a power of two.
  Its neighbours are one unit away on either side, except below a power of two,
  where the next smaller double is only half a unit away.

  * `Binary.ofFloat` takes a double apart;
  * `Binary.num` and `Binary.den` give a finite magnitude as a quotient.
-/

namespace DirichletMixture

/-- The size of a double, its sign left out. -/
inductive Binary where
  | undefined
  | infinite
  /-- The number `mantissa · 2 ^ exponent`. -/
  | finite (mantissa : Nat) (exponent : Int)
deriving DecidableEq, Repr

namespace Binary

/-- Whether the sign bit is set, also of a zero. -/
def isNegative (x : Float) : Bool := x.toBits >>> 63 == 1

/-- The size that the bits encode: an exponent field of zero marks the numbers
    without the leading one, the greatest field infinity and the undefined. -/
def ofFloat (x : Float) : Binary :=
  let bits := x.toBits.toNat
  let fraction : Nat := bits % Nat.pow 2 52
  let field : Nat := bits / Nat.pow 2 52 % Nat.pow 2 11
  if field = Nat.pow 2 11 - 1 then (if fraction = 0 then .infinite else .undefined)
  else if field = 0 then .finite fraction (-1074)
  else .finite (Nat.pow 2 52 + fraction) ((field : Int) - 1075)

/-- The numerator of `mantissa · 2 ^ exponent`. -/
def num (mantissa : Nat) (exponent : Int) : Nat := mantissa * Nat.pow 2 exponent.toNat

/-- The denominator of `mantissa · 2 ^ exponent`. -/
def den (exponent : Int) : Nat := Nat.pow 2 (-exponent).toNat

/-- The distance to the point halfway to the next smaller double, in quarters of
    a unit: half as far at a power of two. -/
def quartersBelow (mantissa : Nat) (exponent : Int) : Nat :=
  if mantissa = Nat.pow 2 52 ∧ -1074 < exponent then 1 else 2

end Binary

end DirichletMixture
