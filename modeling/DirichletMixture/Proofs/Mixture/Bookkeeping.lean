/-
  DirichletMixture: the books of a live mixture.

  A mixture is read and updated in any order.  Its clusters stay the same and in the same
  places; each of them holds the component of the last update that was accepted, and its
  total adds up what its components had absorbed in all accepted updates.

  * `indices_adoptAll` and `totals_adoptAll` are the books of a mixture that has adopted
    some lists of components, one after the other;
  * `updates_are_booked`: so they are the books of a live mixture, where only the accepted
    updates count.
-/
import DirichletMixture.Proofs.Chain.Totals
import DirichletMixture.Proofs.Mixture.Operations

namespace DirichletMixture

variable {ω O M α : Type}

/-! ## The books -/

namespace Mixture

theorem indices_replace {count : M → Nat} {m : Mixture M α} {ms : List M}
    (h : ms.length = m.size) :
    (m.replace count ms).clusters.map Cluster.index = m.clusters.map Cluster.index := by
  refine List.ext_getElem ?_ ?_
  · rw [List.length_map, List.length_map]
    exact size_replace h
  · intro k h₁ h₂
    simp [replace, Cluster.adopt]

theorem indices_ofModels (alpha0 : α) (ms : List M) :
    (ofModels alpha0 ms).clusters.map Cluster.index = List.range ms.length := by
  refine List.ext_getElem (by simp [ofModels]) ?_
  intro k h₁ h₂
  simp [ofModels, Cluster.fresh]

section
variable (c : Component O M α) {m : Mixture M α} {updates : List (List M)}
  (h : ∀ ms ∈ updates, ms.length = m.size)
include h

theorem indices_adoptAll :
    (m.adoptAll c.count updates).clusters.map Cluster.index = m.clusters.map Cluster.index := by
  induction updates generalizing m with
  | nil => rfl
  | cons ms updates ih =>
    obtain ⟨hms, hrest⟩ := List.forall_mem_cons.1 h
    have hlater := ih (m := m.replace c.count ms) (by rwa [size_replace hms])
    exact hlater.trans (indices_replace hms)

/-- **The totals** add up what the components of all updates have absorbed. -/
theorem totals_adoptAll (k : Nat) :
    (m.adoptAll c.count updates).totals.getD k 0 =
      m.totals.getD k 0 + (updates.map fun ms => c.countAt ms k).sum := by
  induction updates generalizing m with
  | nil => rfl
  | cons ms updates ih =>
    obtain ⟨hms, hrest⟩ := List.forall_mem_cons.1 h
    have hlater := ih (m := m.replace c.count ms) (by rwa [size_replace hms])
    rw [getD_totals_replace c hms, Nat.add_assoc] at hlater
    exact hlater

end

/-- The totals of a mixture that has started with some components. -/
theorem totals_adoptAll_ofModels (c : Component O M α) (alpha0 : α) {ms₀ : List M}
    {updates : List (List M)} (h : ∀ ms ∈ updates, ms.length = ms₀.length) :
    ((ofModels alpha0 ms₀).adoptAll c.count updates).totals =
      (List.range ms₀.length).map fun k => (updates.map fun ms => c.countAt ms k).sum := by
  rw [← size_ofModels alpha0 ms₀] at h
  have hlen : ((ofModels alpha0 ms₀).adoptAll c.count updates).totals.length = ms₀.length := by
    rw [totals, List.length_map, ← size_ofModels alpha0 ms₀]
    exact size_adoptAll h
  refine List.ext_getElem (by rw [hlen, List.length_map, List.length_range]) ?_
  intro k h₁ h₂
  have hk : k < ms₀.length := by simpa using h₂
  have htotal := totals_adoptAll c h k
  rw [totals_ofModels, List.getD_eq_getElem?_getD, List.getElem?_eq_getElem h₁, Option.getD_some,
    List.getD_eq_getElem?_getD, List.getElem?_replicate_of_lt hk, Option.getD_some,
    Nat.zero_add] at htotal
  rw [htotal, List.getElem_map, List.getElem_range]

end Mixture

/-! ## Readings and updates in any order -/

variable [Scalar α]

/-- **Updates are booked.**  Start a mixture, then read and update it in any way, with
    failures.  It has as many clusters as it was started with, and they are numbered from
    zero in order.  The accepted updates are those with one component for each cluster.
    The clusters hold the components of the last of them, and the occupancy counts what
    these have absorbed; before the first one they hold those that were drawn at the start,
    and the occupancy is zero.  The total of a cluster is the sum of what its components
    have absorbed over all accepted updates, and so zero before the first one.  At any time
    an update with the right number of components is accepted, and one with another number
    fails for that number and leaves the components, the totals, the occupancy, the weights
    and the source as they are. -/
theorem updates_are_booked (f : Family ω O M α) (g : Generator ω α) {clusters : Int}
    {alpha0 : α} {s s' : ω} {m₀ : Mixture M α}
    (h : (Mixture.start f clusters alpha0).runOn s = (.ok m₀, s'))
    (ops : List (Operation O M)) {st : State ω M α}
    (hst : State.after f.toComponent g ops (State.ofMixture m₀ s') = st)
    {updates : List (List M)} (hupdates : Operation.updates m₀.size ops = updates) :
    (m₀.size : Int) = clusters ∧
      st.mixture.clusters.map Cluster.index = List.range m₀.size ∧
      (∀ ms ∈ updates, ms.length = m₀.size) ∧
      st.mixture.models = updates.getLast?.getD m₀.models ∧
      st.mixture.occupancy =
        (updates.getLast?.map (List.map f.count)).getD (List.replicate m₀.size 0) ∧
      st.mixture.totals =
        (List.range m₀.size).map (fun k => (updates.map fun ms => f.countAt ms k).sum) ∧
      (updates = [] → st.mixture = m₀) ∧
      ∀ ms : List M,
        (ms.length = m₀.size →
          (((Operation.update ms).perform f.toComponent g).runOn st).1 = .ok .updated) ∧
        (ms.length ≠ m₀.size →
          ((Operation.update ms).perform f.toComponent g).runOn st =
            (.error (.wrongCount m₀.size ms.length none), st)) := by
  obtain ⟨ms₀, hclusters, rfl⟩ := Mixture.exists_ofModels_of_start h
  have hsize₀ : (State.ofMixture (Mixture.ofModels alpha0 ms₀) s').mixture.size = ms₀.length :=
    Mixture.size_ofModels alpha0 ms₀
  rw [Mixture.size_ofModels] at hupdates ⊢
  have hlengths : ∀ ms ∈ updates, ms.length = ms₀.length := by
    intro ms hms
    rw [← hupdates] at hms
    exact Operation.length_of_mem_updates hms
  have hlengths' : ∀ ms ∈ updates, ms.length = (Mixture.ofModels alpha0 ms₀).size := by
    rwa [Mixture.size_ofModels]
  have hmixture : st.mixture = (Mixture.ofModels alpha0 ms₀).adoptAll f.count updates := by
    rw [← hst, State.mixture_after, hsize₀, hupdates]
    rfl
  have hsize : st.mixture.size = ms₀.length := by
    rw [hmixture, Mixture.size_adoptAll hlengths', Mixture.size_ofModels]
  have hzero : (Mixture.ofModels alpha0 ms₀).occupancy = List.replicate ms₀.length 0 :=
    State.occupancy_ofMixture alpha0 ms₀ s'
  refine ⟨hclusters, ?_, hlengths, ?_, ?_, ?_, ?_, ?_⟩
  · rw [hmixture, Mixture.indices_adoptAll f.toComponent hlengths', Mixture.indices_ofModels]
  · rw [hmixture, Mixture.models_adoptAll hlengths']
  · rw [hmixture, Mixture.occupancy_adoptAll, hzero]
  · rw [hmixture, Mixture.totals_adoptAll_ofModels f.toComponent alpha0 hlengths]
  · rintro rfl
    exact hmixture
  · intro ms
    rw [← hsize]
    constructor
    · intro hms
      have haccepted : (Operation.update ms : Operation O M).accepted? st.mixture.size = some ms :=
        if_pos hms
      rw [State.runOn_perform_of_accepted haccepted]
    · exact State.runOn_perform_update_of_ne

/-- Two tallies are updated twice, in between with one component and with three.  The second
    update leaves the first cluster without observations of its own, but not its total. -/
theorem wrong_updates_are_not_booked :
    ∃ st : State (ScriptAndSizes ℚ) (Tally Nat) ℚ,
      State.after (tallies nearby).toComponent Script.besideSizes
        [.update [⟨0, [0], 1⟩, ⟨1, [1, 1], 1⟩], .scores 1, .update [⟨0, [], 1⟩], .score 1 2,
          .update [⟨0, [], 1⟩, ⟨1, [], 1⟩, ⟨2, [], 1⟩], .update [⟨0, [], 1⟩, ⟨1, [1], 1⟩]]
        (State.ofMixture (Mixture.ofModels 1 (Tally.freshList 2)) (⟨[], 0, 0⟩, [])) = st ∧
      st.mixture.clusters.map Cluster.index = [0, 1] ∧
      st.mixture.models = [⟨0, [], 1⟩, ⟨1, [1], 1⟩] ∧
      st.mixture.occupancy = [0, 1] ∧ st.mixture.totals = [1, 3] ∧
      ((Operation.update []).perform (tallies nearby).toComponent Script.besideSizes).runOn st =
        (.error (.wrongCount 2 0 none), st) := by
  have hstart : (Mixture.start (tallies nearby) 2 (1 : ℚ)).runOn (⟨[], 0, 0⟩, []) =
      (.ok (Mixture.ofModels 1 (Tally.freshList 2) : Mixture (Tally Nat) ℚ), (⟨[], 0, 0⟩, [])) := by
    rw [Mixture.start, if_neg (by decide), if_pos ⟨rfl, one_pos⟩]
    rfl
  obtain ⟨-, hindices, -, hmodels, hoccupancy, htotals, -, hupdate⟩ :=
    updates_are_booked (tallies nearby) Script.besideSizes hstart
      [.update [⟨0, [0], 1⟩, ⟨1, [1, 1], 1⟩], .scores 1, .update [⟨0, [], 1⟩], .score 1 2,
        .update [⟨0, [], 1⟩, ⟨1, [], 1⟩, ⟨2, [], 1⟩], .update [⟨0, [], 1⟩, ⟨1, [1], 1⟩]] rfl rfl
  exact ⟨_, rfl, hindices, hmodels, hoccupancy, htotals, (hupdate []).2 (by decide)⟩

end DirichletMixture
