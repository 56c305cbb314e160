/-
  DirichletMixture: a generator whose uniform draws are laid down beforehand.

  The script holds some uniform draws to be handed out in order; after them come
  those of a linear congruence modulo `2 ^ 64`, of which the upper 53 bits are
  used.  Every other draw is a fixed function of one uniform draw for each
  entry, so a run can be followed by hand.

  * `Script.next` hands out one uniform draw and counts it;
  * `Script.generator` is the generator on scripts.
-/
import DirichletMixture.Generator.Basic

namespace DirichletMixture

/-- Uniform draws to come. -/
structure Script (α : Type) where
  ahead : List α
  /-- The state of the congruence that follows them. -/
  seed : UInt64
  drawn : Nat

namespace Script

variable {α β : Type} [Scalar α]

/-- The state that follows `s` in the congruence. -/
def step (s : UInt64) : UInt64 := 6364136223846793005 * s + 1442695040888963407

/-- The upper 53 bits of a state as a fraction of one. -/
def fraction (s : UInt64) : α := (((s >>> 11).toNat : Nat) : α) / (Nat.pow 2 53 : α)

def next : StateM (Script α) α := fun s =>
  match s.ahead with
  | u :: us => (u, ⟨us, s.seed, s.drawn + 1⟩)
  | [] => (fraction (step s.seed), ⟨[], step s.seed, s.drawn + 1⟩)

/-- One uniform draw for every entry, in order, and what becomes of the two. -/
def nextFor (f : β → α → α) : List β → StateM (Script α) (List α)
  | [] => pure []
  | x :: xs => do
    let u ← next
    let ys ← nextFor f xs
    pure (f x u :: ys)

/-- The beta draw: its shapes have to be positive, the first one first. -/
def beta (a b : α) : Attempt (Script α) α α :=
  if 0 < a then
    if 0 < b then do
      let u ← (next : StateM (Script α) α)
      pure (a * u / (a * u + b * (1 - u)))
    else throw .secondShape
  else throw .firstShape

def generator : Generator (Script α) α where
  uniform := next
  beta := beta
  gamma shape scales := nextFor (fun scale u => shape * scale * (u + half)) scales
  normal means deviations :=
    nextFor (fun p u => p.1 + p.2 * (((4 : Nat) : α) * u - two)) (means.zip deviations)

end Script

end DirichletMixture
