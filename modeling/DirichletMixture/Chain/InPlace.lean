/-
  DirichletMixture: iterations in place.

  A running program holds its components in memory and knows them by their places.
  Whoever knows a place may write there, so an iteration could disturb components
  that belong to the live mixture or to a sample.

  * `Memory` has a component at every place, and `Memory.store` gives new ones
    places of their own;
  * `Factory` draws components in memory and changes them where they stand, and
    `Family.inMemory` is the factory of a family;
  * `Chain.iterateInPlace` is an iteration of a chain that knows its components by
    their places, and `Chain.clusterInPlace` a call;
  * `Chain.view` is such a chain with the components themselves.
-/
import DirichletMixture.Chain.Run

namespace DirichletMixture

variable {ω O M α β : Type}

/-! ## Memory -/

/-- A source of randomness, and the components that were made. -/
structure Memory (ω M : Type) where
  source : ω
  /-- The component at a place. -/
  cell : Nat → M
  /-- All places from here on are free. -/
  next : Nat

namespace Memory

def write (k : Nat) (x : M) (mem : Memory ω M) : Memory ω M :=
  { mem with cell := fun i => if i = k then x else mem.cell i }

/-- The memory with these components at the next free places. -/
def extend (xs : List M) (mem : Memory ω M) : Memory ω M :=
  { mem with
    cell := fun i => if i < mem.next then mem.cell i else (xs[i - mem.next]?).getD (mem.cell i)
    next := mem.next + xs.length }

/-- The places that these components get. -/
def store (xs : List M) : Attempt (Memory ω M) α (List Nat) :=
  Attempt.of fun mem => (.ok (List.range' mem.next xs.length), mem.extend xs)

/-- The places of copies of the components at these places. -/
def copy (ks : List Nat) : Attempt (Memory ω M) α (List Nat) := do
  let mem ← get
  store (ks.map mem.cell)

/-- An attempt on the component at a place, where it leaves what it has written even
    if it fails. -/
def onCell (k : Nat) (a : Attempt M α β) : Attempt (Memory ω M) α β :=
  a.focus (fun mem => mem.cell k) (write k)

/-- An attempt on the source of randomness alone. -/
def onSource (a : Attempt ω α β) : Attempt (Memory ω M) α β :=
  a.focus Memory.source fun s mem => { mem with source := s }

end Memory

/-! ## Factories -/

/-- What a program is given to make components in memory: new ones for those at some
    places, and what is done with a component where it stands. -/
structure Factory (ω O M α : Type) where
  count : M → Nat
  density : M → O → Except (Fault α) α
  observe : O → Attempt M α Unit
  finalize : Attempt M α Unit
  fromPosterior : List Nat → Attempt (Memory ω M) α (List Nat)

/-- The components of a factory without their memory. -/
def Factory.component (F : Factory ω O M α) : Component O M α where
  count := F.count
  density := F.density
  observe m x := ((F.observe x).runOn m).1.map fun _ => ((F.observe x).runOn m).2
  finalize m := (F.finalize.runOn m).1.map fun _ => (F.finalize.runOn m).2

/-- The factory that stores what a family draws, and replaces components as a whole. -/
def Family.inMemory (f : Family ω O M α) : Factory ω O M α where
  count := f.count
  density := f.density
  observe x := Attempt.of fun m => Attempt.replacedBy m (f.observe m x)
  finalize := Attempt.of fun m => Attempt.replacedBy m (f.finalize m)
  fromPosterior ks := do
    let mem ← get
    let ms ← Memory.onSource (f.fromPosterior (ks.map mem.cell))
    Memory.store ms

/-! ## Sweeps -/

/-- The draws without the memory. -/
def Draws.bare (d : Draws (Memory ω M) α) : Draws ω α := ⟨d.source.source, d.weights⟩

/-- An attempt that sees no memory. -/
def Draws.besideMemory (a : Attempt (Draws ω α) α β) : Attempt (Draws (Memory ω M) α) α β :=
  a.focus Draws.bare fun b d => ⟨{ d.source with source := b.source }, b.weights⟩

section
variable [Scalar α] (F : Factory ω O M α) (g : Generator ω α) (m : Mixture Nat α)
  (iteration : Nat)

/-- A cluster for a point, by the components that the clusters have in memory now. -/
def Mixture.assignInPlace (x : O) (site : Site) : Attempt (Draws (Memory ω M) α) α Nat := do
  let d ← get
  Draws.besideMemory ((m.mapModels d.source.cell).assign F.component g x site)

omit [Scalar α] in
/-- The component at the `k`-th of these places observes a point. -/
def observeInPlace (ks : List Nat) (k : Nat) (x : O) : Attempt (Draws (Memory ω M) α) α Unit :=
  match ks[k]? with
  | none => throw .outOfRange
  | some i => Draws.onSource (Memory.onCell i (F.observe x))

/-- The observations from position `j` on are routed to the components at these
    places. -/
def routeInPlace (ks : List Nat) : Nat → List O → Attempt (Draws (Memory ω M) α) α Unit
  | _, [] => pure ()
  | j, x :: xs => do
    let k ← m.assignInPlace F g x ⟨some iteration, some j⟩
    observeInPlace F ks k x
    routeInPlace ks (j + 1) xs

omit [Scalar α] in
/-- The components at these places are finalized, one after the other. -/
def finalizeInPlace : List Nat → Attempt (Draws (Memory ω M) α) α Unit
  | [] => pure ()
  | i :: ks => do
    Draws.onSource (Memory.onCell i F.finalize)
    finalizeInPlace ks

omit [Scalar α] in
/-- The places of new components, one for each cluster. -/
def renewInPlace : Attempt (Draws (Memory ω M) α) α (List Nat) := do
  let ks ← Draws.onSource (F.fromPosterior m.models)
  if ks.length = m.size then pure ks
  else throw (.wrongCount m.size ks.length (some iteration))

/-- The places of the components of an iteration. -/
def sweepInPlace (data : List O) : Attempt (Draws (Memory ω M) α) α (List Nat) := do
  let ks ← renewInPlace F m iteration
  routeInPlace F g m iteration ks 0 data
  finalizeInPlace F ks
  pure ks

end

/-! ## Iterations -/

namespace Chain

variable [Scalar α] (F : Factory ω O M α) (g : Generator ω α)

def memory (c : Chain (Memory ω M) O Nat α) : Memory ω M := c.state.draws.source

/-- An attempt on the memory of a chain. -/
def onMemory (a : Attempt (Memory ω M) α β) : Attempt (Chain (Memory ω M) O Nat α) α β :=
  onState (State.read fun _ => Draws.onSource a)

/-- What a sample of the components at these places consists of: copies, which are made
    only if there will be a sample. -/
def copiesToKeep (ks : List Nat) : Attempt (Chain (Memory ω M) O Nat α) α (List Nat) := do
  let c ← get
  if c.plan.keeps c.iteration then onMemory (Memory.copy ks) else pure ks

def iterateInPlace : Attempt (Chain (Memory ω M) O Nat α) α Unit := do
  let c ← get
  let ks ← onState (State.read fun m => sweepInPlace F g m c.iteration c.data)
  let kept ← copiesToKeep ks
  let mem := (← get).memory
  conclude (fun k => F.count (mem.cell k)) kept ks

def clusterInPlace : Option Int → Attempt (Chain (Memory ω M) O Nat α) α (List (List Nat)) :=
  call (iterateInPlace F g)

/-- The chain with the components that are at its places. -/
def view (c : Chain (Memory ω M) O Nat α) : Chain ω O M α where
  plan := c.plan
  data := c.data
  state := ⟨c.state.mixture.mapModels c.memory.cell, c.state.draws.bare⟩
  samples := c.samples.map (List.map c.memory.cell)
  iteration := c.iteration
  phase := c.phase
  journal := c.journal

end Chain

end DirichletMixture
