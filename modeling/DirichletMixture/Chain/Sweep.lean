/-
  DirichletMixture: the part of an iteration that may fail.

  A sweep draws new components from the posterior of the live ones, routes every
  observation to one of them and finalizes them.  It sees the mixture but can
  change no more than its draws, so a sweep that fails leaves no other trace.

  * `Mixture.normalized` are the scores of a point, divided by the largest;
  * `Mixture.assign` draws the cluster of a point;
  * `route` does so for all observations, in order, and `sweep` is the whole.
-/
import DirichletMixture.Mixture.State
import DirichletMixture.Weights.Draw

namespace DirichletMixture

variable {ω O M α : Type} [Scalar α]

/-! ## Assigning a point -/

namespace Mixture

/-- The scores of a point as parts of the largest one. -/
def normalized (c : Component O M α) (g : Generator ω α) (m : Mixture M α) (x : O) :
    Attempt (Draws ω α) α (List α) := do
  let scores ← m.scores c g x
  Attempt.ofExcept (normalizeByMax scores)

/-- A cluster for a point, drawn with probability proportional to its score; if
    there is none to draw, the site is noted. -/
def assign (c : Component O M α) (g : Generator ω α) (m : Mixture M α) (x : O) (site : Site) :
    Attempt (Draws ω α) α Nat :=
  Attempt.mapFault (Fault.locate site) do
    let p ← m.normalized c g x
    Draws.onSource (drawIndex g p)

end Mixture

/-! ## Routing -/

/-- The components after the one at position `k` has observed a point. -/
def observeIn (c : Component O M α) (ms : List M) (k : Nat) (x : O) :
    Except (Fault α) (List M) :=
  match ms[k]? with
  | none => .error .outOfRange
  | some m => (c.observe m x).map (ms.set k)

/-- The components `ms` after the observations from position `j` on were routed
    to them. -/
def route (c : Component O M α) (g : Generator ω α) (m : Mixture M α) (iteration : Nat) :
    List M → Nat → List O → Attempt (Draws ω α) α (List M)
  | ms, _, [] => pure ms
  | ms, j, x :: xs => do
    let k ← m.assign c g x ⟨some iteration, some j⟩
    let ms ← Attempt.ofExcept (observeIn c ms k x)
    route c g m iteration ms (j + 1) xs

/-- New components, one for each cluster. -/
def renew (f : Family ω O M α) (m : Mixture M α) (iteration : Nat) :
    Attempt (Draws ω α) α (List M) := do
  let ms ← Draws.onSource (f.fromPosterior m.models)
  if ms.length = m.size then pure ms
  else throw (.wrongCount m.size ms.length (some iteration))

/-- The components of an iteration. -/
def sweep (f : Family ω O M α) (g : Generator ω α) (m : Mixture M α) (iteration : Nat)
    (data : List O) : Attempt (Draws ω α) α (List M) := do
  let ms ← renew f m iteration
  let ms ← route f.toComponent g m iteration ms 0 data
  Attempt.ofExcept (ms.mapM f.finalize)

end DirichletMixture
