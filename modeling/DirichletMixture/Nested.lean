/-
  DirichletMixture: numbers in nested lists.

  Weights and observations may come as one number, a vector or lists of any
  depth.  They make sense as an array only if lists at the same depth agree in
  shape, and if there are not too many depths.

  * `Nested.lengths?` lists the length at every depth, none for a ragged value;
  * `Nested.shape?` is the shape of an array, none for a value that is no array;
  * `Nested.entries?` lists the numbers of an array row by row;
  * `Nested.writeShape` writes a shape.
-/

namespace DirichletMixture

/-- A number, or a list of such values. -/
inductive Nested (α : Type) where
  | scalar (x : α)
  | list (xs : List (Nested α))

namespace Nested

variable {α : Type}

mutual

/-- The numbers in the order in which they are written. -/
def flatten : Nested α → List α
  | .scalar x => [x]
  | .list xs => flattenAll xs

/-- The numbers of all members of a list. -/
def flattenAll : List (Nested α) → List α
  | [] => []
  | x :: xs => x.flatten ++ flattenAll xs

end

mutual

/-- The length at every depth, if lists at the same depth agree in shape. -/
def lengths? : Nested α → Option (List Nat)
  | .scalar _ => some []
  | .list xs => (commonLengths? xs).map (xs.length :: ·)

/-- The lengths that all members of a list share; an empty list has none below
    it. -/
def commonLengths? : List (Nested α) → Option (List Nat)
  | [] => some []
  | [x] => x.lengths?
  | x :: y :: ys =>
    match x.lengths?, commonLengths? (y :: ys) with
    | some s, some t => if s = t then some s else none
    | _, _ => none

end

/-- The greatest number of depths that an array has. -/
def maxDepth : Nat := 64

/-- The length at every depth, if the value is an array. -/
def shape? (x : Nested α) : Option (List Nat) :=
  x.lengths?.filter (·.length ≤ maxDepth)

/-- The numbers row by row, if the value is an array. -/
def entries? (x : Nested α) : Option (List α) :=
  x.shape?.map fun _ => x.flatten

/-- A vector as a nested value. -/
def ofList (xs : List α) : Nested α := .list (xs.map .scalar)

/-- A shape in parentheses; a single length keeps a comma after it. -/
def writeShape : List Nat → String
  | [] => "()"
  | [n] => "(" ++ toString n ++ ",)"
  | ns => "(" ++ ", ".intercalate (ns.map toString) ++ ")"

theorem flattenAll_map_scalar (xs : List α) : flattenAll (xs.map .scalar) = xs := by
  induction xs with
  | nil => rfl
  | cons x xs ih => simp [flattenAll, flatten, ih]

theorem commonLengths?_map_scalar (xs : List α) :
    commonLengths? (xs.map .scalar) = some [] := by
  induction xs with
  | nil => rfl
  | cons x xs ih =>
    cases xs with
    | nil => rfl
    | cons y ys => simp_all [commonLengths?, lengths?]

@[simp] theorem flatten_ofList (xs : List α) : (ofList xs).flatten = xs :=
  flattenAll_map_scalar xs

@[simp] theorem shape?_ofList (xs : List α) : (ofList xs).shape? = some [xs.length] := by
  simp [ofList, shape?, lengths?, commonLengths?_map_scalar, maxDepth]

@[simp] theorem entries?_ofList (xs : List α) : (ofList xs).entries? = some xs := by
  simp [entries?]

end Nested

end DirichletMixture
