/-
  DirichletMixture: decimals, and rounding a quotient to them.

  A decimal is a whole number of digits scaled by a power of ten.  It is written
  positionally (`0.0025`, `1200.0`) or with an exponent (`2.5e-03`); which of
  the two, a layout decides.

  * `roundDiv` rounds a quotient to the nearest whole number, a half to the even
    neighbour;
  * `leadingExponent` is the exponent of the leading digit of a quotient, and
    `roundToDigits` its nearest decimal with a given number of digits;
  * `Decimal.write` writes a decimal in a layout.
-/

namespace DirichletMixture

/-- The decimal `digits · 10 ^ scale`. -/
structure Decimal where
  digits : Nat
  /-- The exponent of the last digit. -/
  scale : Int
deriving DecidableEq, Repr

namespace Decimal

/-! ## Lengths and quotients -/

/-- The number of decimal digits, none for zero. -/
def length (n : Nat) : Nat :=
  if n = 0 then 0 else length (n / 10) + 1
termination_by n

/-- The nearest whole number to `num / den`, a half going to the even neighbour. -/
def roundDiv (num den : Nat) : Nat :=
  let q := num / den
  let r := num % den
  if 2 * r < den then q
  else if den < 2 * r then q + 1
  else if q % 2 = 0 then q else q + 1

/-- The exponent of the leading decimal digit of `num / den`, for positive
    arguments: the greatest `e` with `10 ^ e ≤ num / den`. -/
def leadingExponent (num den : Nat) : Int :=
  if den ≤ num then (length (num / den) : Int) - 1
  else -(length ((den + num - 1) / num - 1) : Int)

/-- The nearest decimal to `num / den` with `n + 1` digits, a half going to the
    even neighbour. -/
def roundToDigits (n num den : Nat) : Decimal :=
  let s := leadingExponent num den - n
  let d := roundDiv (num * Nat.pow 10 (-s).toNat) (den * Nat.pow 10 s.toNat)
  if d = Nat.pow 10 (n + 1) then ⟨Nat.pow 10 n, s + 1⟩ else ⟨d, s⟩

/-- The same decimal without trailing zeros. -/
def trim (d : Decimal) : Decimal :=
  if h : d.digits ≠ 0 ∧ d.digits % 10 = 0 then trim ⟨d.digits / 10, d.scale + 1⟩ else d
termination_by d.digits
decreasing_by omega

/-! ## Writing -/

/-- The exponent of the leading digit. -/
def exponent (d : Decimal) : Int := d.scale + length d.digits - 1

/-- Where decimals are written positionally, and whether a whole number keeps its
    point. -/
structure Layout where
  /-- The least exponent of a leading digit that is written positionally. -/
  low : Int
  /-- The least exponent above it that is not. -/
  high : Int
  /-- Whether a whole number in positional notation ends in `.0`. -/
  keepPoint : Bool

/-- An exponent with its sign and at least two digits. -/
def writeExponent (e : Int) : String :=
  let digits := toString e.natAbs
  "e" ++ (if e < 0 then "-" else "+") ++ (if digits.length < 2 then "0" ++ digits else digits)

/-- One digit, the other digits after a point, and the exponent. -/
def writeScientific (d : Decimal) : String :=
  match (toString d.digits).toList with
  | [] => ""
  | [c] => String.ofList [c] ++ writeExponent d.exponent
  | c :: cs => String.ofList (c :: '.' :: cs) ++ writeExponent d.exponent

/-- All digits with the point in its place, zeros filling the gap. -/
def writePositional (keepPoint : Bool) (d : Decimal) : String :=
  let cs := (toString d.digits).toList
  if 0 ≤ d.scale then
    String.ofList (cs ++ List.replicate d.scale.toNat '0') ++ (if keepPoint then ".0" else "")
  else
    let k := (-d.scale).toNat
    if k < cs.length then
      String.ofList (cs.take (cs.length - k) ++ '.' :: cs.drop (cs.length - k))
    else
      String.ofList ('0' :: '.' :: List.replicate (k - cs.length) '0' ++ cs)

/-- A decimal in the notation that the layout chooses for its size. -/
def write (l : Layout) (d : Decimal) : String :=
  if l.low ≤ d.exponent ∧ d.exponent < l.high then writePositional l.keepPoint d
  else writeScientific d

end Decimal

end DirichletMixture
