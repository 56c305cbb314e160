/-
  DirichletMixture: the values that a configuration is made from.

  A configuration is checked field by field, and a field may be given anything:
  a truth value, a whole number of any size, a scalar, a text, nothing, a list,
  or a generator.  A message shows the value as it was given.

  * `Setting.number?` is the number that a value stands for, if any: a truth
    value counts as one or zero;
  * `Setting.isTrue` is its truth value;
  * `Setting.nested` takes lists apart;
  * `Setting.write` shows it, which is possible if `Setting.isWritable`: a whole
    number with too many digits cannot be shown;
  * `Setting.writeKind` names what kind it is of.
-/
import DirichletMixture.Decimal.Written
import DirichletMixture.Nested
import DirichletMixture.Scalar
import DirichletMixture.Text.Quoted

namespace DirichletMixture

/-- A value given for a field. -/
inductive Setting (α : Type) where
  | flag (b : Bool)
  | int (n : Int)
  | real (x : α)
  | text (s : String)
  /-- No value. -/
  | absent
  | list (xs : List (Setting α))
  /-- A source of randomness. -/
  | generator

namespace Setting

variable {α : Type}

/-- The number that a value stands for. -/
def number? [Scalar α] : Setting α → Option α
  | .flag b => some (if b then 1 else 0)
  | .int n => some (n : α)
  | .real x => some x
  | _ => none

/-- Whether a value counts as true: everything does but zero, the empty and the
    absent. -/
def isTrue [Scalar α] : Setting α → Bool
  | .flag b => b
  | .int n => n != 0
  | .real x => Scalar.isNaN x || decide (x < 0) || decide (0 < x)
  | .text s => s != ""
  | .absent => false
  | .list xs => !xs.isEmpty
  | .generator => true

mutual

/-- A value as a nested value whose members are no lists. -/
def nested : Setting α → Nested (Setting α)
  | .list xs => .list (nestedAll xs)
  | x => .scalar x

/-- All values of a list in the same form. -/
def nestedAll : List (Setting α) → List (Nested (Setting α))
  | [] => []
  | x :: xs => x.nested :: nestedAll xs

end

mutual

/-- Whether a value can be shown. -/
def isWritable : Setting α → Bool
  | .int n => Decimal.isWritable n
  | .list xs => allWritable xs
  | _ => true

/-- Whether all values of a list can be shown. -/
def allWritable : List (Setting α) → Bool
  | [] => true
  | x :: xs => x.isWritable && allWritable xs

end

mutual

/-- A value as it was given: texts in quotes, lists in brackets. -/
def write [Written α] : Setting α → String
  | .flag b => if b then "True" else "False"
  | .int n => toString n
  | .real x => Written.shortest x
  | .text s => Quoted.write s
  | .absent => "None"
  | .list xs => "[" ++ ", ".intercalate (writeAll xs) ++ "]"
  | .generator => "Generator(PCG64)"

/-- All values of a list as they were given. -/
def writeAll [Written α] : List (Setting α) → List String
  | [] => []
  | x :: xs => x.write :: writeAll xs

end

/-- The name of the kind of a value, as a message quotes it. -/
def writeKind : Setting α → String
  | .flag _ => "<class 'bool'>"
  | .int _ => "<class 'int'>"
  | .real _ => "<class 'float'>"
  | .text _ => "<class 'str'>"
  | .absent => "<class 'NoneType'>"
  | .list _ => "<class 'list'>"
  | .generator => "<class 'Generator'>"

end Setting

end DirichletMixture
