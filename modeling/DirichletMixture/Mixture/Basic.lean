/-
  DirichletMixture: the live mixture.

  A mixture has a fixed number of clusters, numbered from zero.  Each holds the
  component of the latest iteration and counts what its components absorbed over
  all iterations; the occupancy counts what they absorbed in the latest one.

  * `Mixture.ofModels` is a mixture before its first iteration, and
    `Mixture.start` draws one from the prior of a family;
  * `Mixture.adopt` takes over the components of an iteration, one for each
    cluster, or refuses them and changes nothing;
  * `Mixture.observeAt` and `Mixture.finalizeAt` act on one live component.
-/
import DirichletMixture.Family.Basic
import DirichletMixture.Vector.Basic

namespace DirichletMixture

variable {ω O M M' α : Type}

/-- One of the components of a mixture, over all iterations. -/
structure Cluster (M : Type) where
  index : Nat
  /-- The component of the latest iteration. -/
  model : M
  /-- The observations absorbed in all iterations. -/
  total : Nat

namespace Cluster

/-- A cluster to which nothing was routed yet. -/
def fresh (k : Nat) (m : M) : Cluster M := ⟨k, m, 0⟩

/-- A cluster after it has taken over a component that absorbed `n`
    observations. -/
def adopt (c : Cluster M) (m : M) (n : Nat) : Cluster M :=
  { c with model := m, total := c.total + n }

def mapModel (h : M → M') (c : Cluster M) : Cluster M' := ⟨c.index, h c.model, c.total⟩

end Cluster

/-- A concentration, the clusters, and how many observations each of them
    absorbed in the latest iteration. -/
structure Mixture (M α : Type) where
  alpha0 : α
  clusters : List (Cluster M)
  /-- The observations of each cluster in the latest iteration. -/
  occupancy : List Nat

namespace Mixture

/-! ## Views -/

def size (m : Mixture M α) : Nat := m.clusters.length

/-- The live components. -/
def models (m : Mixture M α) : List M := m.clusters.map Cluster.model

/-- The observations of each cluster over all iterations. -/
def totals (m : Mixture M α) : List Nat := m.clusters.map Cluster.total

/-- The mixture with every component replaced by what `h` makes of it. -/
def mapModels (h : M → M') (m : Mixture M α) : Mixture M' α :=
  ⟨m.alpha0, m.clusters.map (Cluster.mapModel h), m.occupancy⟩

/-- The clusters as candidates for points, each with its total. -/
def candidates (c : Component O M α) (m : Mixture M α) : List (Candidate O α) :=
  m.clusters.map fun k => ⟨c.density k.model, k.total⟩

@[simp] theorem length_models (m : Mixture M α) : m.models.length = m.size := by
  simp [models, size]

/-! ## Starting -/

/-- The mixture of some components, before anything was routed to them. -/
def ofModels (alpha0 : α) (ms : List M) : Mixture M α :=
  ⟨alpha0, ms.mapIdx Cluster.fresh, ms.map fun _ => 0⟩

def start [Scalar α] (f : Family ω O M α) (clusters : Int) (alpha0 : α) :
    Attempt ω α (Mixture M α) :=
  if clusters ≤ 0 then throw (.refuse (.noComponents clusters))
  else if Scalar.isFinite alpha0 ∧ 0 < alpha0 then do
    let ms ← f.fromPrior clusters.toNat
    if ms.length = clusters.toNat then pure (ofModels alpha0 ms)
    else throw (Fault.wrongCount clusters ms.length none).worded
  else throw (.refuse (.concentration (.real alpha0)))

@[simp] theorem size_ofModels (alpha0 : α) (ms : List M) :
    (ofModels alpha0 ms).size = ms.length := by
  simp [size, ofModels]

@[simp] theorem models_ofModels (alpha0 : α) (ms : List M) :
    (ofModels alpha0 ms).models = ms := by
  refine List.ext_getElem (by simp) fun k h₁ h₂ => ?_
  simp [models, ofModels, Cluster.fresh]

/-! ## Adopting the components of an iteration -/

/-- The mixture after an iteration that ended with these components. -/
def replace (count : M → Nat) (m : Mixture M α) (ms : List M) : Mixture M α :=
  { m with
    clusters := List.zipWith (fun c model => c.adopt model (count model)) m.clusters ms
    occupancy := ms.map count }

/-- The same, if there is one component for each cluster. -/
def adopt (count : M → Nat) (m : Mixture M α) (ms : List M) :
    Except (Fault α) (Mixture M α) :=
  if ms.length = m.size then .ok (m.replace count ms)
  else .error (.wrongCount m.size ms.length none)

@[simp] theorem occupancy_replace (count : M → Nat) (m : Mixture M α) (ms : List M) :
    (m.replace count ms).occupancy = ms.map count := rfl

theorem size_replace {count : M → Nat} {m : Mixture M α} {ms : List M}
    (h : ms.length = m.size) : (m.replace count ms).size = m.size := by
  have h' : m.clusters.length ≤ ms.length := Nat.le_of_eq h.symm
  simp [replace, size, h']

theorem models_replace {count : M → Nat} {m : Mixture M α} {ms : List M}
    (h : ms.length = m.size) : (m.replace count ms).models = ms := by
  refine List.ext_getElem (by rw [length_models, size_replace h, h]) fun k h₁ h₂ => ?_
  simp [models, replace, Cluster.adopt]

theorem adopt_of_length {count : M → Nat} {m : Mixture M α} {ms : List M}
    (h : ms.length = m.size) : m.adopt count ms = .ok (m.replace count ms) := if_pos h

theorem adopt_of_ne {count : M → Nat} {m : Mixture M α} {ms : List M}
    (h : ms.length ≠ m.size) :
    m.adopt count ms = .error (.wrongCount m.size ms.length none) := if_neg h

/-! ## Acting on one live component -/

/-- The mixture after an action on the component at a place. -/
def actAt (act : M → Except (Fault α) M) (m : Mixture M α) (k : Int) :
    Except (Fault α) (Mixture M α) :=
  match place? m.size k with
  | none => .error .outOfRange
  | some i =>
    match m.clusters[i]? with
    | none => .error .outOfRange
    | some c => (act c.model).map fun model =>
        { m with clusters := m.clusters.set i { c with model } }

def observeAt (c : Component O M α) (m : Mixture M α) (k : Int) (x : O) :
    Except (Fault α) (Mixture M α) :=
  m.actAt (c.observe · x) k

def finalizeAt (c : Component O M α) (m : Mixture M α) (k : Int) :
    Except (Fault α) (Mixture M α) :=
  m.actAt c.finalize k

end Mixture

end DirichletMixture
