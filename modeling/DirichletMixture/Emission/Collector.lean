/-
  DirichletMixture: points handed out to clusters.

  A point is scored against all candidates, the likelihoods are divided by their
  sum, and the policy says which candidates get the point, each with its share.

  * `emit` is what one point gives rise to;
  * `collect` does so for a list of points and adds the results to a collection;
    a point that cannot be scored ends it, and what was collected before stays;
  * `groupByCluster` sorts a collection into clusters, in the order in which they
    first appear.
-/
import DirichletMixture.Emission.Policy
import DirichletMixture.Family.Basic
import DirichletMixture.Weights.Normalize

namespace DirichletMixture

variable {O α ι : Type} [Scalar α]

/-! ## Emission of a point -/

/-- A point in the hands of a cluster. -/
structure Emitted (O α : Type) (ι : Type := Nat) where
  /-- The place of the cluster among all candidates, or whatever else its name is to those
      who hand out points on their own. -/
  cluster : ι
  /-- The share of the cluster in the likelihoods of the point. -/
  weight : α
  point : O

/-- The share of every candidate in the likelihoods of a point. -/
def shares (cs : List (Candidate O α)) (x : O) : Except (Fault α) (List α) := do
  let ps ← cs.mapM (·.density x)
  normalizeBySum ps

/-- The candidate at the peak of the shares. -/
def emitMostLikely (x : O) (pi : List α) : List (Emitted O α) :=
  match argmax? pi with
  | none => []
  | some k =>
    match pi[k]? with
    | none => []
    | some weight => [⟨k, weight, x⟩]

/-- The candidates from place `k` on that ever absorbed an observation and have a
    share above a threshold. -/
def emitAbove (threshold : α) (x : O) : Nat → List (Candidate O α) → List α → List (Emitted O α)
  | k, c :: cs, weight :: pi =>
    if threshold < weight ∧ 0 < c.count then ⟨k, weight, x⟩ :: emitAbove threshold x (k + 1) cs pi
    else emitAbove threshold x (k + 1) cs pi
  | _, _, _ => []

/-- What a policy hands out when a point has these shares. -/
def Policy.select (p : Policy α) (cs : List (Candidate O α)) (x : O) (pi : List α) :
    List (Emitted O α) :=
  match p.mode with
  | .mostLikely => emitMostLikely x pi
  | .threshold => emitAbove p.threshold x 0 cs pi

/-- What one point gives rise to. -/
def emit (p : Policy α) (cs : List (Candidate O α)) (x : O) :
    Except (Fault α) (List (Emitted O α)) :=
  (shares cs x).map (p.select cs x)

/-! ## Collections -/

/-- Puts a point in the hands of a cluster at the end of a collection. -/
def keep (e : Emitted O α ι) : Attempt (List (Emitted O α ι)) α Unit := modify (· ++ [e])

/-- Scores a point and adds what it gives rise to, one after the other. -/
def collectPoint (p : Policy α) (cs : List (Candidate O α)) (x : O) :
    Attempt (List (Emitted O α)) α Unit := do
  let pi ← Attempt.ofExcept (shares cs x)
  (p.select cs x pi).forM keep

/-- Adds what a list of points gives rise to, up to the first that fails. -/
def collect (p : Policy α) (cs : List (Candidate O α)) :
    List O → Attempt (List (Emitted O α)) α Unit
  | [] => pure ()
  | x :: xs => do
    collectPoint p cs x
    collect p cs xs

variable [DecidableEq ι]

/-- Groups with one more point: it joins the group of its cluster, or founds one
    at the end. -/
def joinGroup (e : Emitted O α ι) :
    List (ι × List (Emitted O α ι)) → List (ι × List (Emitted O α ι))
  | [] => [(e.cluster, [e])]
  | (k, es) :: groups =>
    if k = e.cluster then (k, es ++ [e]) :: groups else (k, es) :: joinGroup e groups

/-- A collection by clusters. -/
def groupByCluster (es : List (Emitted O α ι)) : List (ι × List (Emitted O α ι)) :=
  es.foldl (fun groups e => joinGroup e groups) []

end DirichletMixture
