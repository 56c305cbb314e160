/-
  DirichletMixture: the shortest decimal that reads back as a given double.

  A decimal reads back as the double `v` when it lies no farther from `v` than
  halfway to its neighbours; the two halfway points count if the mantissa of `v`
  is even, since reading sends a tie to the even mantissa.

  * `readsBack` is that test, in whole numbers;
  * `nearestOnGrid` is the nearer of the two neighbours of `v` on the grid of
    decimals with `n + 1` digits, if it reads back, an exact tie going to the
    even digit;
  * `shortest` takes the coarsest grid on which there is one.  Seventeen digits
    are always enough.
-/
import DirichletMixture.Decimal.Basic
import DirichletMixture.Decimal.Binary

namespace DirichletMixture

namespace Decimal

/-- `c · 10 ^ s` and `b · 2 ^ q` brought to a common denominator. -/
def align (c : Nat) (s : Int) (b : Nat) (q : Int) : Nat × Nat :=
  (c * Nat.pow 10 s.toNat * Nat.pow 2 (-q).toNat, b * Nat.pow 2 q.toNat * Nat.pow 10 (-s).toNat)

/-- Whether the decimal `c · 10 ^ s` reads back as the double `m · 2 ^ q`. -/
def readsBack (m : Nat) (q : Int) (c : Nat) (s : Int) : Bool :=
  let low := align c s (4 * m - Binary.quartersBelow m q) (q - 2)
  let high := align c s (4 * m + 2) (q - 2)
  if m % 2 = 0 then low.2 ≤ low.1 && high.1 ≤ high.2
  else low.2 < low.1 && high.1 < high.2

/-- The neighbour of `m · 2 ^ q` on the grid with `n + 1` digits that reads back
    as it, the nearer one of two, an exact tie going to the even digit. -/
def nearestOnGrid (m : Nat) (q : Int) (n : Nat) : Option Decimal :=
  let num := Binary.num m q
  let den := Binary.den q
  let s := leadingExponent num den - n
  let scaled := num * Nat.pow 10 (-s).toNat
  let unit := den * Nat.pow 10 s.toNat
  let c := scaled / unit
  let r := scaled % unit
  match readsBack m q c s, readsBack m q (c + 1) s with
  | true, true =>
    if 2 * r < unit then some ⟨c, s⟩
    else if unit < 2 * r then some ⟨c + 1, s⟩
    else if c % 2 = 0 then some ⟨c, s⟩ else some ⟨c + 1, s⟩
  | true, false => some ⟨c, s⟩
  | false, true => some ⟨c + 1, s⟩
  | false, false => none

/-- The decimal with the fewest digits that reads back as `m · 2 ^ q`, of several
    such the nearest. -/
def shortest (m : Nat) (q : Int) : Decimal :=
  match (List.range 17).findSome? (nearestOnGrid m q) with
  | some d => d.trim
  | none => (roundToDigits 16 (Binary.num m q) (Binary.den q)).trim

end Decimal

end DirichletMixture
