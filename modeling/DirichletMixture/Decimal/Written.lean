/-
  DirichletMixture: the written forms of a double, and which whole numbers have one.

  * `Decimal.isWritable` says whether a whole number is short enough to be written;
  * `Float.writeShortest` gives the shortest digits that read back, positionally
    between one ten-thousandth and ten to the sixteenth;
  * `Float.writeGeneral` gives six significant digits without trailing zeros,
    positionally up to a million;
  * `Float.writeTen` gives ten significant digits with an exponent, and a plain
    `0` for both zeros;
  * `Float.roundToThousandths` rounds to three places.

  `Written` is the class of scalars that have such forms; messages and log lines
  ask for no more.
-/
import DirichletMixture.Decimal.Shortest

namespace DirichletMixture

/-- Scalars that can be written in a message. -/
class Written (α : Type) where
  /-- The form that reads back as the same scalar. -/
  shortest : α → String
  /-- The form with six significant digits. -/
  general : α → String
  /-- The form of the scalar rounded to three decimal places. -/
  rounded : α → String

namespace Decimal

/-- The most digits with which a whole number is written.  Proofs do not compute with
    it. -/
@[irreducible] def maxDigits : Nat := 4300

def isWritable (n : Int) : Bool := decide (n.natAbs < Nat.pow 10 maxDigits)

/-- The first number below zero that has too many digits. -/
def longNegative : Int := -(Nat.pow 10 maxDigits : Nat)

theorem longNegative_neg : longNegative < 0 :=
  Int.neg_neg_of_pos (Int.natCast_pos.2 (Nat.pow_pos (Nat.succ_pos 9)))

theorem isWritable_longNegative : isWritable longNegative = false := by
  rw [isWritable, longNegative, Int.natAbs_neg, Int.natAbs_natCast]
  exact decide_eq_false (Nat.lt_irrefl _)

/-- Messages write a double with all digits it needs: positionally from `0.0001`
    up to below ten to the sixteenth, whole numbers with `.0`. -/
def fullLayout : Layout := ⟨-4, 16, true⟩

/-- Log lines write a double with six digits: positionally from `0.0001` up to
    below a million, whole numbers without a point. -/
def briefLayout : Layout := ⟨-4, 6, false⟩

/-- A sign, if there is one to show, in front of a text. -/
def signed (negative : Bool) (text : String) : String :=
  if negative then "-" ++ text else text

/-- The shortest form of a double that reads back. -/
def writeShortest (x : Float) : String :=
  match Binary.ofFloat x with
  | .undefined => "nan"
  | .infinite => signed (Binary.isNegative x) "inf"
  | .finite 0 _ => signed (Binary.isNegative x) "0.0"
  | .finite m q => signed (Binary.isNegative x) (write fullLayout (shortest m q))

/-- The form with six significant digits. -/
def writeGeneral (x : Float) : String :=
  match Binary.ofFloat x with
  | .undefined => "nan"
  | .infinite => signed (Binary.isNegative x) "inf"
  | .finite 0 _ => signed (Binary.isNegative x) "0"
  | .finite m q =>
    signed (Binary.isNegative x)
      (write briefLayout (roundToDigits 5 (Binary.num m q) (Binary.den q)).trim)

/-- The form with ten significant digits and an exponent; a zero has no sign. -/
def writeTen (x : Float) : String :=
  match Binary.ofFloat x with
  | .undefined => "nan"
  | .infinite => signed (Binary.isNegative x) "inf"
  | .finite 0 _ => "0"
  | .finite m q =>
    signed (Binary.isNegative x)
      (writeScientific (roundToDigits 9 (Binary.num m q) (Binary.den q)))

/-- The nearest whole number, a half going to the even neighbour; the sign of a
    zero stays.  Adding and taking away `2 ^ 52` leaves no bit for a fraction,
    and from there on every double is whole. -/
def roundToWhole (x : Float) : Float :=
  let y := x.abs
  if y < 4503599627370496.0 then
    let z := (y + 4503599627370496.0) - 4503599627370496.0
    if Binary.isNegative x then -z else z
  else x

/-- A double rounded to three decimal places. -/
def roundToThousandths (x : Float) : Float := roundToWhole (x * 1000.0) / 1000.0

end Decimal

instance instWrittenFloat : Written Float where
  shortest := Decimal.writeShortest
  general := Decimal.writeGeneral
  rounded x := Decimal.writeShortest (Decimal.roundToThousandths x)

end DirichletMixture
