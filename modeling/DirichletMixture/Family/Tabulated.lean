/-
  DirichletMixture: components whose likelihoods are given by a table.

  A tally has a place among its siblings and remembers, in order, what it
  observed.  Its likelihoods do not depend on that: they are looked up by place
  and observation.  Looking one up changes nothing, and is not counted.

  * `Tally` is the component, and `tabulated` the family for a given likelihood;
  * a family of tallies may be told to draw a wrong number of components, once
    from the prior and for a list of posterior draws;
  * `Table.likelihood` looks up the likelihood of a label, with a row that
    serves all labels without one.
-/
import DirichletMixture.Family.Basic
import DirichletMixture.Observation

namespace DirichletMixture

variable {O α : Type}

/-- A component that remembers what happened to it. -/
structure Tally (O : Type) where
  /-- The place among the components drawn together. -/
  index : Nat
  /-- The observations, in order. -/
  observed : List O
  /-- How often the component was finalized. -/
  finalized : Nat

namespace Tally

def fresh (k : Nat) : Tally O := ⟨k, [], 0⟩

/-- As many such components, counted from zero. -/
def freshList (n : Nat) : List (Tally O) := (List.range n).map fresh

/-- Tallies with the likelihood `density` for a place and an observation. -/
def component (density : Nat → O → Except (Fault α) α) : Component O (Tally O) α where
  count t := t.observed.length
  density t x := density t.index x
  observe t x := .ok { t with observed := t.observed ++ [x] }
  finalize t := .ok { t with finalized := t.finalized + 1 }

@[simp] theorem length_freshList (n : Nat) : (freshList n : List (Tally O)).length = n := by
  simp [freshList]

end Tally

/-- The family of tallies.  A size given for the prior overrules the number that
    is asked for; the state lists the sizes of the next posterior draws, and when
    it has run out every draw has the right size. -/
def tabulated (density : Nat → O → Except (Fault α) α) (priorSize : Option Nat) :
    Family (List Nat) O (Tally O) α where
  toComponent := Tally.component density
  fromPrior n := pure (Tally.freshList (priorSize.getD n))
  fromPosterior ts := Attempt.of fun sizes =>
    match sizes with
    | [] => (.ok (Tally.freshList ts.length), [])
    | n :: sizes => (.ok (Tally.freshList n), sizes)

/-! ## Tables -/

/-- Rows of likelihoods, one entry for each place, under labels. -/
abbrev Table (α : Type) := List (String × List α)

namespace Table

/-- The label of the row that serves all labels without a row of their own. -/
def anyLabel : String := "*"

def row? (t : Table α) : Observation α → Option (List α)
  | .label s => (t.lookup s).or (t.lookup anyLabel)
  | .value _ => t.lookup anyLabel

/-- The likelihood of an observation at a place. -/
def likelihood (t : Table α) (k : Nat) (x : Observation α) : Except (Fault α) α :=
  match t.row? x with
  | none => .error .noRow
  | some row =>
    match row[k]? with
    | none => .error .outOfRange
    | some p => .ok p

end Table

end DirichletMixture
