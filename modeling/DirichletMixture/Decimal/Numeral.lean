/-
  DirichletMixture: numbers as they are written in a text.

  A number is written with or without a sign, as a word for infinity or for an
  undefined value, or as digits that may hold a point and may end in an exponent.
  Digits of any script count, single underscores may stand between two digits, and
  blanks around the number and the case of letters do not matter.

  * `Numeral` is what such a text says;
  * `Numeral.read?` reads a text, and `Numeral.readInt?` one that says a whole
    number with nothing but a sign and digits.
-/
import DirichletMixture.Decimal.Basic
import DirichletMixture.Text.Character

namespace DirichletMixture

/-- What a text says that stands for a number. -/
inductive Numeral where
  /-- No number in particular. -/
  | undefined
  | infinite (negative : Bool)
  | decimal (negative : Bool) (size : Decimal)
deriving DecidableEq, Repr

namespace Numeral

/-! ## Digits -/

/-- The whole number that decimal digits stand for. -/
def natOfDigits (cs : List Char) : Nat :=
  cs.foldl (fun n c => 10 * n + (c.toNat - '0'.toNat)) 0

/-- A text without the underscores that stand between two digits. -/
def joinDigits : List Char → List Char
  | a :: '_' :: b :: cs =>
    if a.isDigit && b.isDigit then a :: joinDigits (b :: cs) else a :: '_' :: joinDigits (b :: cs)
  | c :: cs => c :: joinDigits cs
  | [] => []

/-! ## Parts of a number -/

/-- Whether there is a minus sign, and what follows the sign, if there is one. -/
def splitSign : List Char → Bool × List Char
  | '-' :: cs => (true, cs)
  | '+' :: cs => (false, cs)
  | cs => (false, cs)

/-- The exponent of ten that ends a number: nothing, or the letter `e`, a sign or
    none, and at least one digit. -/
def readExponent? : List Char → Option Int
  | [] => some 0
  | c :: cs =>
    let (negative, digits) := splitSign cs
    if c = 'e' ∧ digits ≠ [] ∧ digits.all Char.isDigit then
      some (if negative then -natOfDigits digits else natOfDigits digits)
    else none

/-- The digits after a point and what follows them; no digits if there is no
    point. -/
def splitFraction : List Char → List Char × List Char
  | '.' :: cs => cs.span Char.isDigit
  | cs => ([], cs)

/-- A number without a sign: digits, among which a point may stand, and an
    exponent.  There has to be a digit before or after the point. -/
def readDecimal? (cs : List Char) : Option Decimal :=
  let (whole, rest) := cs.span Char.isDigit
  let (fraction, rest) := splitFraction rest
  if whole = [] ∧ fraction = [] then none
  else (readExponent? rest).map fun e =>
    ⟨natOfDigits (whole ++ fraction), e - fraction.length⟩

/-! ## Numbers -/

/-- What the characters of a number say, its letters being small. -/
def ofChars? (cs : List Char) : Option Numeral :=
  let (negative, size) := splitSign cs
  if size = "nan".toList then some .undefined
  else if size = "inf".toList ∨ size = "infinity".toList then some (.infinite negative)
  else (readDecimal? size).map (.decimal negative)

/-- A text as it is read: without blanks at its ends, with common digits and
    without underscores between them. -/
def plainChars (s : String) : List Char :=
  joinDigits ((trimBlanks s.toList).map Digit.plain)

/-- What a text says, if it stands for a number. -/
def read? (s : String) : Option Numeral := ofChars? ((plainChars s).map Char.toLower)

/-- The whole number that a text of digits says, which may have a sign. -/
def readInt? (s : String) : Option Int :=
  let (negative, digits) := splitSign (plainChars s)
  if digits ≠ [] ∧ digits.all Char.isDigit then
    some (if negative then -natOfDigits digits else natOfDigits digits)
  else none

end Numeral

end DirichletMixture
