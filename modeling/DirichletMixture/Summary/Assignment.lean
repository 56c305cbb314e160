/-
  DirichletMixture: which points belong together.

  In a sample, a point belongs to the component under which it is most likely.
  Only occupied components compete, unless none is occupied.

  * `competitors` are the places of the components that compete;
  * `mostLikely` is the component of a point, and `assignments` are those of a
    list of points;
  * `coAssignment` is the matrix of the fractions of samples in which two points
    belong to one component.
-/
import DirichletMixture.Family.Basic
import DirichletMixture.Vector.Basic

namespace DirichletMixture

variable {O α : Type} [Scalar α]

/-! ## Assignments -/

/-- The candidates with their places. -/
def placed (cs : List (Candidate O α)) : List (Nat × Candidate O α) :=
  (List.range cs.length).zip cs

/-- The occupied candidates with their places, or all if none is occupied. -/
def competitors (cs : List (Candidate O α)) : List (Nat × Candidate O α) :=
  let occupied := (placed cs).filter fun c => decide (0 < c.2.count)
  if occupied.isEmpty then placed cs else occupied

/-- The place of the competitor under which a point is most likely. -/
def mostLikely (cs : List (Candidate O α)) (x : O) : Except (Fault α) Nat := do
  let ps ← (competitors cs).mapM (·.2.density x)
  match argmax? ps >>= ((competitors cs)[·]?) with
  | some c => pure c.1
  | none => throw .noChoice

/-- The places for some points. -/
def assignments (points : List O) (cs : List (Candidate O α)) : Except (Fault α) (List Nat) :=
  points.mapM (mostLikely cs)

/-! ## Co-assignment -/

/-- Which points have one place: one for two that have, zero for two that have not. -/
def coincidences (z : List Nat) : List (List α) :=
  z.map fun j => z.map fun k => if j = k then 1 else 0

/-- Two matrices added entry by entry. -/
def addEntries (a b : List (List α)) : List (List α) :=
  List.zipWith (List.zipWith (· + ·)) a b

/-- Adds to a matrix which points have one place, sample by sample. -/
def addSamples (points : List O) (co : List (List α)) :
    List (List (Candidate O α)) → Except (Fault α) (List (List α))
  | [] => pure co
  | s :: samples => do
    let z ← assignments points s
    addSamples points (addEntries co (coincidences z)) samples

theorem addSamples_cons {points : List O} {s : List (Candidate O α)} {z : List Nat}
    (h : assignments points s = .ok z) (co : List (List α)) (samples : List (List (Candidate O α))) :
    addSamples points co (s :: samples) =
      addSamples points (addEntries co (coincidences z)) samples := by
  rw [addSamples, h]
  rfl

/-- The fractions of samples in which two points have the same most likely
    component, all of them zero if there is no sample. -/
def coAssignment (points : List O) (samples : List (List (Candidate O α))) :
    Except (Fault α) (List (List α)) :=
  let blank := List.replicate points.length (List.replicate points.length 0)
  if samples.isEmpty then pure blank
  else do
    let co ← addSamples points blank samples
    return co.map fun row => row.map (· / (samples.length : α))

end DirichletMixture
