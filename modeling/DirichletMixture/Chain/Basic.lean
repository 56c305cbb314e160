/-
  DirichletMixture: the sampling chain and what one iteration leaves behind.

  A chain holds its plan, its data, the live state, the samples kept so far, a
  counter of completed iterations and a phase.

  * `Plan` says how many clusters and iterations there are and which iterations
    are kept;
  * `Chain.conclude` makes the writes at the end of an iteration one after the
    other: the sample, the live state, the counter;
  * `Chain.start` draws the first mixture.
-/
import DirichletMixture.Chain.Event
import DirichletMixture.Mixture.State

namespace DirichletMixture

variable {ω O M α β : Type} [Scalar α]

/-- What a run is asked to do. -/
structure Plan (α : Type) [Scalar α] where
  clusters : Nat
  clusters_pos : 0 < clusters
  alpha0 : α
  alpha0_finite : Scalar.isFinite alpha0 = true
  alpha0_pos : 0 < alpha0
  /-- Every so many iterations a sample is kept. -/
  thin : Nat
  thin_pos : 0 < thin
  /-- So many iterations are let go before the first sample. -/
  burnin : Nat
  /-- The number of iterations of a call that names none. -/
  iterations : Nat

/-- Whether the components of an iteration are kept. -/
def Plan.keeps (p : Plan α) (iteration : Nat) : Bool :=
  decide (p.burnin ≤ iteration) && (iteration - p.burnin) % p.thin == 0

/-- How far the calls to a chain have come. -/
inductive Phase where
  | notStarted
  /-- A call is under way, or has failed. -/
  | iterating
  /-- The latest call has done all its iterations. -/
  | done
deriving DecidableEq, Repr

/-- A chain of iterations. -/
structure Chain (ω O M α : Type) [Scalar α] where
  plan : Plan α
  data : List O
  state : State ω M α
  samples : List (List M)
  /-- The number of completed iterations. -/
  iteration : Nat
  phase : Phase
  journal : List (Event α)

namespace Chain

def report (c : Chain ω O M α) (events : List (Event α)) : Chain ω O M α :=
  { c with journal := c.journal ++ events }

def withDraws (c : Chain ω O M α) (d : Draws ω α) : Chain ω O M α :=
  { c with state := { c.state with draws := d } }

@[simp] theorem mixture_withDraws (c : Chain ω O M α) (d : Draws ω α) :
    (c.withDraws d).state.mixture = c.state.mixture := rfl

def ofMixture (plan : Plan α) (data : List O) (m : Mixture M α) (s : ω) : Chain ω O M α where
  plan := plan
  data := data
  state := State.ofMixture m s
  samples := []
  iteration := 0
  phase := .notStarted
  journal := []

/-- A chain whose components are drawn from the prior, and the source that this
    leaves behind. -/
def start (f : Family ω O M α) (plan : Plan α) (data : List O) (s : ω) :
    Except (Fault α) (Chain ω O M α) × ω :=
  match (Mixture.start f plan.clusters plan.alpha0).runOn s with
  | (.ok m, s) => (.ok (ofMixture plan data m s), s)
  | (.error e, s) => (.error e, s)

/-! ## The end of an iteration -/

/-- An attempt on the live state of a chain. -/
def onState (a : Attempt (State ω M α) α β) : Attempt (Chain ω O M α) α β :=
  a.focus Chain.state fun s c => { c with state := s }

/-- The chain after it has kept these components, if it keeps those of its
    iteration. -/
def capture (ms : List M) (c : Chain ω O M α) : Chain ω O M α :=
  if c.plan.keeps c.iteration then
    { c with samples := c.samples ++ [ms] }.report
      [.captured c.iteration (c.samples.length + 1)]
  else c

/-- The chain after it has counted its iteration. -/
def advance (c : Chain ω O M α) : Chain ω O M α :=
  { c.report [.completed c.iteration (c.state.mixture.occupancy.filter (· ≠ 0)).length] with
    iteration := c.iteration + 1 }

/-- The writes at the end of an iteration: `kept` may become a sample, the live
    state takes over the components `ms`, and the iteration is counted.  The state
    looks for itself whether it is given as many components as it needs, and by
    then the sample is written. -/
def conclude (count : M → Nat) (kept ms : List M) : Attempt (Chain ω O M α) α Unit := do
  modify (capture kept)
  onState (State.update count ms)
  modify fun c => c.report [.updated c.state.mixture.occupancy]
  modify advance

end Chain

end DirichletMixture
