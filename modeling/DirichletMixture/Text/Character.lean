/-
  DirichletMixture: sets of characters.

  A set of characters is a list of ranges of codes, each given by its first and its
  last code, in ascending order.  The sets are those of version 14 of the Unicode
  character database.

  * `CodeRange.contains` is the test for membership;
  * `isBlank` tests for the White_Space property, which 25 characters have, and
    `trimBlanks` takes the blanks off both ends of a text;
  * `Digit.value?` is the value of a decimal digit of any script, and `Digit.plain`
    puts the common digit in its place.
-/

namespace DirichletMixture

/-- Whether a code lies in one of some ascending ranges.  The search ends at the
    first range that starts above the code. -/
def CodeRange.contains (n : Nat) : List (Nat × Nat) → Bool
  | [] => false
  | (first, last) :: ranges =>
    if n < first then false
    else if n ≤ last then true
    else contains n ranges

/-! ## Blanks -/

/-- The codes of the blank characters. -/
def Blank.ranges : List (Nat × Nat) :=
  [(0x9, 0xd), (0x20, 0x20), (0x85, 0x85), (0xa0, 0xa0), (0x1680, 0x1680), (0x2000, 0x200a),
    (0x2028, 0x2029), (0x202f, 0x202f), (0x205f, 0x205f), (0x3000, 0x3000)]

def isBlank (c : Char) : Bool := CodeRange.contains c.toNat Blank.ranges

/-- A text without the blanks at its two ends. -/
def trimBlanks (cs : List Char) : List Char :=
  ((cs.dropWhile isBlank).reverse.dropWhile isBlank).reverse

/-! ## Decimal digits

Many scripts have ten digits of their own, whose codes follow each other from zero to
nine. -/

namespace Digit

/-- The codes of the zeros of all scripts. -/
def zeros : List Nat :=
  [0x30, 0x660, 0x6f0, 0x7c0, 0x966, 0x9e6, 0xa66, 0xae6, 0xb66, 0xbe6, 0xc66, 0xce6, 0xd66,
    0xde6, 0xe50, 0xed0, 0xf20, 0x1040, 0x1090, 0x17e0, 0x1810, 0x1946, 0x19d0, 0x1a80, 0x1a90,
    0x1b50, 0x1bb0, 0x1c40, 0x1c50, 0xa620, 0xa8d0, 0xa900, 0xa9d0, 0xa9f0, 0xaa50, 0xabf0,
    0xff10, 0x104a0, 0x10d30, 0x11066, 0x110f0, 0x11136, 0x111d0, 0x112f0, 0x11450, 0x114d0,
    0x11650, 0x116c0, 0x11730, 0x118e0, 0x11950, 0x11c50, 0x11d50, 0x11da0, 0x16a60, 0x16ac0,
    0x16b50, 0x1d7ce, 0x1d7d8, 0x1d7e2, 0x1d7ec, 0x1d7f6, 0x1e140, 0x1e2f0, 0x1e950, 0x1fbf0]

/-- The value of a decimal digit; none for any other character. -/
def value? (c : Char) : Option Nat :=
  (zeros.find? fun z => z ≤ c.toNat && c.toNat < z + 10).map (c.toNat - ·)

/-- A digit of any script as the common digit of the same value; any other
    character stays. -/
def plain (c : Char) : Char :=
  match value? c with
  | none => c
  | some d => Nat.digitChar d

end Digit

end DirichletMixture
