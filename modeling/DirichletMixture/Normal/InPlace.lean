/-
  DirichletMixture: normal components in place.

  A component that others refer to is changed where it stands, field by field, and an
  operation that fails leaves behind what it has written by then.

  * `NormalModel.observeInPlace`, `densityInPlace` and `finalizeInPlace` are the operations
    on a component with their writes in order;
  * `runOn_observeInPlace` and its neighbours: nothing is written before all that may fail
    is done, so that a component is replaced as a whole or not at all.
-/
import DirichletMixture.Attempt
import DirichletMixture.Normal.Model

namespace DirichletMixture

namespace NormalModel

variable {α : Type} [Scalar α]

/-- A component takes in an observation: first it counts it, then it adds to the sums. -/
def observeInPlace [Readable α] (x : Observation α) : Attempt (NormalModel α) α Unit := do
  let m ← get
  let v ← Attempt.ofExcept (m.vector x)
  modify fun m => { m with count := m.count + 1 }
  modify fun m => { m with sum := List.zipWith (· + ·) m.sum v }
  modify fun m => { m with squares := List.zipWith (· + ·) m.squares (v.map square) }

/-- A component tells its density at an observation. -/
def densityInPlace [Readable α] (x : Observation α) : Attempt (NormalModel α) α α := do
  let m ← get
  let v ← Attempt.ofExcept (m.vector x)
  if Scalar.isFinite m.circles then pure (m.densityAt v) else throw .overflow

/-- A component with observations takes the most plausible parameters, the mean first. -/
def finalizeInPlace : Attempt (NormalModel α) α Unit := do
  let m ← get
  if m.count = 0 then pure ()
  else
    let b ← Attempt.ofExcept (m.prior.posterior m.statistics)
    modify fun m => { m with mean := b.mean }
    modify fun m => { m with variance := b.scale.map (· / (b.shape + 1)) }

theorem runOn_observeInPlace [Readable α] (m : NormalModel α) (x : Observation α) :
    (observeInPlace x).runOn m = Attempt.replacedBy m (m.observe x) := by
  rw [observeInPlace, Attempt.runOn_bind_ok (Attempt.runOn_get m), observe]
  rcases m.vector x with e | v <;> rfl

theorem runOn_densityInPlace [Readable α] (m : NormalModel α) (x : Observation α) :
    (densityInPlace x).runOn m = (m.density x, m) := by
  rw [densityInPlace, Attempt.runOn_bind_ok (Attempt.runOn_get m), density]
  rcases m.vector x with e | v
  · rfl
  · rw [Attempt.runOn_bind_ok (Attempt.runOn_ofExcept (.ok v) m)]
    simp only [bind, Except.bind]
    split <;> rfl

theorem runOn_finalizeInPlace (m : NormalModel α) :
    finalizeInPlace.runOn m = Attempt.replacedBy m m.finalize := by
  rw [finalizeInPlace, Attempt.runOn_bind_ok (Attempt.runOn_get m), finalize]
  by_cases hcount : m.count = 0
  · rw [if_pos hcount, if_pos hcount]
    rfl
  · rw [if_neg hcount, if_neg hcount]
    rcases m.prior.posterior m.statistics with e | b <;> rfl

end NormalModel

end DirichletMixture
