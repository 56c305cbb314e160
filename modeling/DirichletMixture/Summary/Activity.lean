/-
  DirichletMixture: how many components of a sample are occupied.

  * `activeCount` counts the occupied components of a sample;
  * `Summary` holds the counts of all samples, their mean, their deviation and
    how often each count occurs;
  * `summarize` makes the summary.
-/
import DirichletMixture.Family.Basic
import DirichletMixture.Vector.Sum

namespace DirichletMixture

variable {O α : Type} [Scalar α]

/-- The number of components that absorbed an observation. -/
def activeCount (sample : List (Candidate O α)) : Nat :=
  (sample.filter fun c => decide (0 < c.count)).length

/-- What is known of the number of occupied components in some samples. -/
structure Summary (α : Type) where
  samples : Nat
  clusters : Nat
  mean : α
  deviation : α
  counts : List Nat
  /-- The counts that occur, in ascending order, with the fraction of samples that
      have them. -/
  histogram : List (Nat × α)

def average (xs : List α) : α := pairwiseSum xs / (xs.length : α)

/-- The square root of the average squared distance of the entries from their
    average. -/
def standardDeviation (xs : List α) : α :=
  Scalar.sqrt (average (xs.map fun x => square (x - average xs)))

/-- The counts that occur, in ascending order. -/
def occurring (counts : List Nat) : List Nat :=
  (List.range (counts.foldl max 0 + 1)).filter (counts.contains ·)

/-- The fraction of counts that equal `k`. -/
def frequency (counts : List Nat) (k : Nat) : α :=
  (counts.count k : α) / (counts.length : α)

/-- The summary of samples of `clusters` components with these counts. -/
def Summary.ofCounts (clusters : Nat) (counts : List Nat) : Summary α :=
  if counts.isEmpty then ⟨0, clusters, 0, 0, [], []⟩
  else {
    samples := counts.length
    clusters := clusters
    mean := average (counts.map (Nat.cast : Nat → α))
    deviation := standardDeviation (counts.map (Nat.cast : Nat → α))
    counts := counts
    histogram := (occurring counts).map fun k => (k, frequency counts k) }

def summarize (samples : List (List (Candidate O α))) : Summary α :=
  Summary.ofCounts ((samples.head?.map List.length).getD 0) (samples.map activeCount)

end DirichletMixture
