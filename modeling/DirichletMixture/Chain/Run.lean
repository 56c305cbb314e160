/-
  DirichletMixture: running a chain.

  * `Chain.iterate` does one iteration, a sweep followed by the writes at its end;
  * `Chain.call` does a number of steps and keeps the phase, and `Chain.cluster` is a
    call whose steps are iterations.
-/
import DirichletMixture.Chain.Basic
import DirichletMixture.Chain.Sweep

namespace DirichletMixture

namespace Chain

variable {ω O M α : Type} [Scalar α]

def iterate (f : Family ω O M α) (g : Generator ω α) : Attempt (Chain ω O M α) α Unit := do
  let c ← get
  let ms ← onState (State.read fun m => sweep f g m c.iteration c.data)
  conclude f.count ms ms

/-- A number of iterations; the first failure ends them. -/
def iterateTimes (f : Family ω O M α) (g : Generator ω α) (n : Nat) :
    Attempt (Chain ω O M α) α Unit :=
  (iterate f g).times n

/-- What a call with so many iterations reports before the first of them. -/
def openingEvents (c : Chain ω O M α) (n : Nat) : List (Event α) :=
  (if c.data.isEmpty then [.noObservations] else []) ++
    [.started n c.plan.clusters c.plan.alpha0 c.plan.burnin c.plan.thin c.data.length]

/-- The chain when a call with so many iterations begins. -/
def begin (n : Nat) (c : Chain ω O M α) : Chain ω O M α :=
  { c.report (c.openingEvents n) with phase := .iterating }

/-- The chain when a call ends well. -/
def finish (c : Chain ω O M α) : Chain ω O M α :=
  { c.report [.finished c.samples.length c.iteration] with phase := .done }

/-- A call for `n` iterations, or as many as the plan says, each of which is one
    `step`: the samples kept so far.  No iterations change nothing, and fewer than
    that are refused. -/
def call (step : Attempt (Chain ω O M α) α Unit) (n : Option Int) :
    Attempt (Chain ω O M α) α (List (List M)) := do
  let c ← get
  let n := n.getD c.plan.iterations
  if n < 0 then throw (.refuse (.negativeRun n))
  else if n = 0 then pure c.samples
  else do
    modify (begin n.toNat)
    step.times n.toNat
    modify finish
    return (← get).samples

def cluster (f : Family ω O M α) (g : Generator ω α) :
    Option Int → Attempt (Chain ω O M α) α (List (List M)) :=
  call (iterate f g)

end Chain

end DirichletMixture
