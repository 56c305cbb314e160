/-
  DirichletMixture: a record of the draws that were asked for.

  The recorded generator makes the same draws as the one that it wraps and notes
  every call with its parameters, before the parameters are looked at.

  * `Call` is one entry of the record, and `Recorded.calls` lists the entries in
    the order in which they were made;
  * `Generator.recorded` is the recorded generator;
  * `runOn_attempt_eq_ok`: a call that ends well is the last one in the record.
-/
import DirichletMixture.Generator.Basic

namespace DirichletMixture

inductive Call (α : Type) where
  | uniform
  | beta (a b : α)
  | gamma (shape : α) (scales : List α)
  | normal (means deviations : List α)

/-- A source with the calls made to it so far. -/
structure Recorded (ω α : Type) where
  source : ω
  /-- The calls, the latest first. -/
  newestFirst : List (Call α)

namespace Recorded

variable {ω α : Type}

/-- The calls in the order in which they were made. -/
def calls (r : Recorded ω α) : List (Call α) := r.newestFirst.reverse

def fresh (s : ω) : Recorded ω α := ⟨s, []⟩

/-- The same source, its record emptied. -/
def forget (r : Recorded ω α) : Recorded ω α := fresh r.source

/-- The record after one more call, which left the source in the state `s`. -/
def note (c : Call α) (r : Recorded ω α) (s : ω) : Recorded ω α := ⟨s, c :: r.newestFirst⟩

/-- An attempt on the source, noted as the call `c`. -/
def attempt {β : Type} (c : Call α) (a : Attempt ω α β) : Attempt (Recorded ω α) α β :=
  Attempt.of fun r => ((a.runOn r.source).1, r.note c (a.runOn r.source).2)

@[simp] theorem calls_note (c : Call α) (r : Recorded ω α) (s : ω) :
    (r.note c s).calls = r.calls ++ [c] := by
  simp [note, calls]

theorem runOn_attempt_eq_ok {β : Type} {c : Call α} {a : Attempt ω α β} {r r' : Recorded ω α}
    {b : β} (h : (attempt c a).runOn r = (.ok b, r')) :
    a.runOn r.source = (.ok b, r'.source) ∧ r'.calls = r.calls ++ [c] := by
  obtain ⟨hb, rfl⟩ := Prod.mk.inj h
  exact ⟨Prod.ext hb rfl, calls_note _ _ _⟩

end Recorded

/-- The generator that also keeps the record. -/
def Generator.recorded {ω α : Type} (g : Generator ω α) : Generator (Recorded ω α) α where
  uniform r := ((g.uniform r.source).1, r.note .uniform (g.uniform r.source).2)
  beta a b := Recorded.attempt (.beta a b) (g.beta a b)
  gamma shape scales := Recorded.attempt (.gamma shape scales) (g.gamma shape scales)
  normal means deviations := Recorded.attempt (.normal means deviations) (g.normal means deviations)

end DirichletMixture
