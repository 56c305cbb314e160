/-
  DirichletMixture: entries and lengths of vectors.

  A vector is a list.  A place in it is counted from the front, starting with zero, or,
  if it is negative, from the back, starting with minus one.  A vector with one entry
  stands for a vector of any length with that entry throughout; vectors of other lengths
  go together only if the lengths agree.

  * `place?` is the position that a place stands for in a list of some length, and
    `atPlace?` the entry there;
  * `commonLength?` is the length that vectors of given lengths are brought to, and
    `stretch` repeats the entry of a vector that has only one;
  * `maximum?` is the largest entry, the last one of several, or an entry that is
    not a number if there is one;
  * `argmax?` is the place of the first entry that is not a number, or else of
    the first largest entry.
-/
import DirichletMixture.Scalar

namespace DirichletMixture

variable {α : Type}

/-! ## Places -/

/-- A place counted from the front. -/
def fromFront (length : Nat) (k : Int) : Int := if k < 0 then k + length else k

/-- The position that a place stands for, if the list is long enough. -/
def place? (length : Nat) (k : Int) : Option Nat :=
  if 0 ≤ fromFront length k ∧ fromFront length k < length then some (fromFront length k).toNat
  else none

/-- The entry at a place. -/
def atPlace? {β : Type} (xs : List β) (k : Int) : Option β :=
  (place? xs.length k).bind (xs[·]?)

theorem place?_natCast {length k : Nat} (h : k < length) : place? length (k : Int) = some k := by
  have h₀ : ¬ ((k : Int) < 0) := by omega
  simp [place?, fromFront, h₀, h]

/-! ## Lengths -/

/-- The length that all lengths but one agree on, and one if there is none. -/
def commonLength? (lengths : List Nat) : Option Nat :=
  match lengths.filter (· ≠ 1) with
  | [] => some 1
  | n :: rest => if rest.all (· = n) then some n else none

/-- A vector brought to the length `n`: a single entry is repeated. -/
def stretch (n : Nat) : List α → List α
  | [x] => List.replicate n x
  | xs => xs

theorem stretch_length (xs : List α) : stretch xs.length xs = xs := by
  match xs with
  | [] | [_] | _ :: _ :: _ => rfl

theorem commonLength?_replicate (k n : Nat) :
    commonLength? (List.replicate (k + 1) n) = some n := by
  by_cases h : n = 1
  · subst h; simp [commonLength?]
  · simp [commonLength?, h, List.replicate_succ]

/-! ## Peaks -/

variable [Scalar α]

/-- The last largest entry; none for the empty vector. -/
def maximum? : List α → Option α
  | [] => none
  | x :: xs => some (xs.foldl larger x)

/-- The place of the peak among `best`, found at `place`, and the entries from
    place `next` on. -/
def argmaxFrom (best : α) (place next : Nat) : List α → Nat
  | [] => place
  | x :: xs =>
    if exceeds x best then argmaxFrom x next (next + 1) xs
    else argmaxFrom best place (next + 1) xs

/-- The place of the peak; none for the empty vector. -/
def argmax? : List α → Option Nat
  | [] => none
  | x :: xs => some (argmaxFrom x 0 1 xs)

end DirichletMixture
