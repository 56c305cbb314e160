/-
  DirichletMixture: the mixture together with its weights.

  The weights of an iteration are drawn when they are first needed and kept until
  the mixture adopts new components.  Whatever reads them can change no more than
  the source of randomness and, once, the weights.

  * `Draws` is what a reading may change;
  * `Mixture.weights` draws the weights or finds them drawn, `Mixture.score` is
    the weight of one cluster times the likelihood of a point, and
    `Mixture.scores` are all of them;
  * `State` puts the mixture and the draws together, and `State.update` adopts
    components and drops the weights.
-/
import DirichletMixture.Mixture.Basic
import DirichletMixture.Weights.Stick

namespace DirichletMixture

variable {ω O M α β : Type}

/-- A source of randomness, and the weights of the current iteration once they
    are drawn. -/
structure Draws (ω α : Type) where
  source : ω
  weights : Option (List α)

namespace Draws

/-- An attempt on the source alone. -/
def onSource (a : Attempt ω α β) : Attempt (Draws ω α) α β :=
  a.focus Draws.source fun s d => { d with source := s }

end Draws

namespace Mixture

variable [Scalar α]

/-- The weights of the current iteration. -/
def weights (g : Generator ω α) (m : Mixture M α) : Attempt (Draws ω α) α (List α) :=
  Attempt.of fun d =>
    match d.weights with
    | some w => (.ok w, d)
    | none =>
      match (breakStick g m.alpha0 (m.occupancy.map (Nat.cast : Nat → α))).runOn d.source with
      | (.ok w, s) => (.ok w, ⟨s, some w⟩)
      | (.error e, s) => (.error e, ⟨s, none⟩)

/-- The weight of the cluster at a place times its likelihood of a point. -/
def score (c : Component O M α) (g : Generator ω α) (m : Mixture M α) (x : O) (k : Int) :
    Attempt (Draws ω α) α α := do
  let w ← m.weights g
  match atPlace? w k, atPlace? m.clusters k with
  | some weight, some cluster =>
    let p ← Attempt.ofExcept (c.density cluster.model x)
    pure (weight * p)
  | _, _ => throw .outOfRange

/-- A weight times the likelihood of a point under a cluster. -/
def weigh (c : Component O M α) (x : O) (weight : α) (cluster : Cluster M) :
    Except (Fault α) α :=
  (c.density cluster.model x).map (weight * ·)

/-- The weight of every cluster times its likelihood of a point. -/
def scores (c : Component O M α) (g : Generator ω α) (m : Mixture M α) (x : O) :
    Attempt (Draws ω α) α (List α) := do
  let w ← m.weights g
  Attempt.ofExcept ((w.zip m.clusters).mapM fun p => weigh c x p.1 p.2)

end Mixture

structure State (ω M α : Type) where
  mixture : Mixture M α
  draws : Draws ω α

namespace State

def ofMixture (m : Mixture M α) (s : ω) : State ω M α := ⟨m, ⟨s, none⟩⟩

/-- A reading: it sees the mixture and changes at most the draws. -/
def read (a : Mixture M α → Attempt (Draws ω α) α β) : Attempt (State ω M α) α β :=
  Attempt.of fun s => (((a s.mixture).runOn s.draws).1, ⟨s.mixture, ((a s.mixture).runOn s.draws).2⟩)

@[simp] theorem runOn_read (a : Mixture M α → Attempt (Draws ω α) α β) (s : State ω M α) :
    (read a).runOn s =
      (((a s.mixture).runOn s.draws).1, ⟨s.mixture, ((a s.mixture).runOn s.draws).2⟩) := rfl

/-- The state after an iteration that ended with these components: the weights
    are dropped. -/
def replace (count : M → Nat) (s : State ω M α) (ms : List M) : State ω M α :=
  ⟨s.mixture.replace count ms, ⟨s.draws.source, none⟩⟩

/-- The same, if there is one component for each cluster; otherwise nothing
    changes. -/
def update (count : M → Nat) (ms : List M) : Attempt (State ω M α) α Unit :=
  Attempt.of fun s =>
    match s.mixture.adopt count ms with
    | .ok m => (.ok (), ⟨m, ⟨s.draws.source, none⟩⟩)
    | .error e => (.error e, s)

theorem runOn_update_of_length {count : M → Nat} {ms : List M} {s : State ω M α}
    (h : ms.length = s.mixture.size) :
    (update count ms).runOn s = (.ok (), s.replace count ms) := by
  simp [update, Mixture.adopt_of_length h, replace]

theorem runOn_update_of_ne {count : M → Nat} {ms : List M} {s : State ω M α}
    (h : ms.length ≠ s.mixture.size) :
    (update count ms).runOn s = (.error (.wrongCount s.mixture.size ms.length none), s) := by
  simp [update, Mixture.adopt_of_ne h]

end State

end DirichletMixture
