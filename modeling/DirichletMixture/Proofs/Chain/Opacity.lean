/-
  DirichletMixture: what an observation is does not matter to a chain.

  A chain passes its observations on to the components and never looks inside.  If they
  are renamed, also so that some of them become equal, and are as likely under their new
  names, then the same is drawn and the same comes out under the new names.

  * `Tally.map` renames what a tally has observed;
  * `Family.translatesTo_of_density`: two families go together if renamed components give
    renamed observations the likelihoods of the originals, and `tabulated_translatesTo`:
    tables of likelihoods that agree make such families of tallies;
  * `Renamed` compares two chains, and `observations_are_opaque` all requests to them.
-/
import Mathlib.Data.List.Forall2
import DirichletMixture.Proofs.Chain.Tallies
import DirichletMixture.Proofs.Chain.Translation

namespace DirichletMixture

variable {ω O O' M M' α : Type}

/-- The tally with its observations renamed. -/
def Tally.map (φ : O → O') (t : Tally O) : Tally O' := ⟨t.index, t.observed.map φ, t.finalized⟩

@[simp] theorem Tally.map_freshList (φ : O → O') (n : Nat) :
    (Tally.freshList n).map (Tally.map φ) = Tally.freshList n := by
  simp only [Tally.freshList, List.map_map]
  rfl

variable [Scalar α]

/-! ## Likelihoods that agree -/

section
variable {φ : O → O'} {h : M → M'} {c : Component O M α} {c' : Component O' M' α}

theorem Mixture.scores_mapModels (hd : ∀ m x, c'.density (h m) (φ x) = c.density m x)
    (g : Generator ω α) (m : Mixture M α) (x : O) :
    (m.mapModels h).scores c' g (φ x) = m.scores c g x := by
  refine bind_congr fun w => congrArg Attempt.ofExcept ?_
  have hweigh : ∀ p : α × Cluster M,
      weigh c' (φ x) (Prod.map id (Cluster.mapModel h) p).1
          (Prod.map id (Cluster.mapModel h) p).2 =
        (weigh c x p.1 p.2).map id := by
    rintro ⟨weight, cluster⟩
    simp only [weigh, Prod.map, Cluster.mapModel, hd, id_eq, Except.map_id]
  have hzip : w.zip (m.mapModels h).clusters =
      (w.zip m.clusters).map (Prod.map id (Cluster.mapModel h)) := by
    simp only [mapModels, List.zip_map_right]
  rw [hzip, mapM_map hweigh, List.map_id_fun, Except.map_id, id_eq]

theorem Mixture.score_mapModels (hd : ∀ m x, c'.density (h m) (φ x) = c.density m x)
    (g : Generator ω α) (m : Mixture M α) (x : O) (k : Int) :
    (m.mapModels h).score c' g (φ x) k = m.score c g x k := by
  refine bind_congr fun w => ?_
  have hplace : atPlace? (m.mapModels h).clusters k =
      (atPlace? m.clusters k).map (Cluster.mapModel h) := by
    simp only [atPlace?, mapModels, List.length_map, List.getElem?_map, Option.map_bind]
    rfl
  rw [hplace]
  rcases atPlace? w k with _ | weight
  · rfl
  rcases atPlace? m.clusters k with _ | cluster
  · rfl
  · simp only [Option.map_some, Cluster.mapModel, hd]

end

/-- **Families go together** if renamed components do with renamed observations what the
    components do with the observations, and give them the same likelihoods. -/
theorem Family.translatesTo_of_density {φ : O → O'} {h : M → M'} {f : Family ω O M α}
    {f' : Family ω O' M' α} (g : Generator ω α)
    (hdensity : ∀ m x, f'.density (h m) (φ x) = f.density m x)
    (hcount : ∀ m, f'.count (h m) = f.count m)
    (hobserve : ∀ m x, f'.observe (h m) (φ x) = (f.observe m x).map h)
    (hfinalize : ∀ m, f'.finalize (h m) = (f.finalize m).map h)
    (hprior : ∀ n, f'.fromPrior n = List.map h <$> f.fromPrior n)
    (hposterior : ∀ ms, f'.fromPosterior (ms.map h) = List.map h <$> f.fromPosterior ms) :
    f.TranslatesTo id φ h g f' where
  site e e' s he := congrArg (Fault.locate s) he
  count := hcount
  observe := hobserve
  finalize := hfinalize
  fromPrior := hprior
  fromPosterior := hposterior
  score m x k := by
    rw [Mixture.score_mapModels hdensity]
    exact .refl _
  scores m x := by
    rw [Mixture.scores_mapModels hdensity]
    exact .refl _
  normalized m x := by
    rw [Mixture.normalized, Mixture.normalized, Mixture.scores_mapModels hdensity]
    exact .refl _

/-- Tallies go together if their likelihoods agree. -/
theorem tabulated_translatesTo {φ : O → O'} {density : Nat → O → Except (Fault α) α}
    {density' : Nat → O' → Except (Fault α) α} (hd : ∀ k x, density' k (φ x) = density k x)
    (size : Option Nat) (get : ω → List Nat) (put : List Nat → ω → ω) (g : Generator ω α) :
    ((tabulated density size).focus get put).TranslatesTo id φ (Tally.map φ) g
      ((tabulated density' size).focus get put) := by
  refine Family.translatesTo_of_density g ?_ ?_ ?_ ?_ ?_ ?_
  · intro t x
    exact hd t.index x
  · intro t
    exact List.length_map _
  · intro t x
    simp [Family.focus, tabulated, Tally.component, Tally.map, Except.map]
  · intro t
    rfl
  · intro n
    refine Attempt.ext fun s => ?_
    simp [Family.focus, tabulated, Except.map]
  · intro ts
    refine Attempt.ext fun s => ?_
    rw [Attempt.runOn_map]
    simp only [Family.focus, tabulated, Attempt.runOn_focus, Attempt.runOn_of, List.length_map]
    rcases get s with _ | ⟨n, sizes⟩ <;> simp [Except.map]

/-! ## Whole runs -/

/-- The chain `c'` is what the chain `c` is, under other names for the observations. -/
structure Chain.Renamed (φ : O → O') (c : Chain ω O (Tally O) α) (c' : Chain ω O' (Tally O') α) :
    Prop where
  plan : c'.plan = c.plan
  data : c'.data = c.data.map φ
  /-- The draws are the same, with the record of all calls if there is one. -/
  draws : c'.state.draws = c.state.draws
  iteration : c'.iteration = c.iteration
  phase : c'.phase = c.phase
  occupancy : c'.state.mixture.occupancy = c.state.mixture.occupancy
  totals : c'.state.mixture.totals = c.state.mixture.totals
  /-- Each live tally has the same place and has observed the same under other names. -/
  models : c'.state.mixture.models = c.state.mixture.models.map (Tally.map φ)
  samples : c'.samples = c.samples.map (List.map (Tally.map φ))
  journal : c'.journal = c.journal

theorem Chain.renamed_translate (φ : O → O') (c : Chain ω O (Tally O) α) :
    c.Renamed φ (c.translate φ (Tally.map φ)) where
  plan := rfl
  data := rfl
  draws := rfl
  iteration := rfl
  phase := rfl
  occupancy := rfl
  totals := Mixture.totals_mapModels _ _
  models := Mixture.models_mapModels _ _
  samples := rfl
  journal := rfl

namespace Chain

/-- **Observations are opaque.**  Let the observations be renamed in any way, and let two
    tables give the same likelihoods to the old and to the new names.  Then a chain
    starts under the new names as it does under the old ones; whatever is asked of it
    ends in the same way, with the same faults, and leaves behind the same with the
    observations renamed: the same calls to the generator, the same counter, phase,
    occupancy and totals, and samples that hold the renamed observations in the same
    components and the same order.  Every completed iteration routes the observations
    to the same destinations. -/
theorem observations_are_opaque (φ : O → O') (density : Nat → O → Except (Fault α) α)
    (density' : Nat → O' → Except (Fault α) α) (hd : ∀ k x, density' k (φ x) = density k x)
    (size : Option Nat) (get : Recorded ω α → List Nat)
    (put : List Nat → Recorded ω α → Recorded ω α) (g : Generator ω α) (plan : Plan α)
    (data : List O) (s : Recorded ω α) :
    (∀ e s', start ((tabulated density size).focus get put) plan data s = (.error e, s') →
      start ((tabulated density' size).focus get put) plan (data.map φ) s = (.error e, s')) ∧
    ∀ c₀ s', start ((tabulated density size).focus get put) plan data s = (.ok c₀, s') →
      ∃ c₁, start ((tabulated density' size).focus get put) plan (data.map φ) s = (.ok c₁, s') ∧
        ∀ rs,
          outcomes ((tabulated density' size).focus get put) g.recorded
              (rs.map (Request.map φ)) c₁ =
            outcomes ((tabulated density size).focus get put) g.recorded rs c₀ ∧
          (after ((tabulated density size).focus get put) g.recorded rs c₀).Renamed φ
            (after ((tabulated density' size).focus get put) g.recorded
              (rs.map (Request.map φ)) c₁) ∧
          List.Forall₂
            (fun p p' => p.before.Renamed φ p'.before ∧ p.after.Renamed φ p'.after ∧
              p'.destinations ((tabulated density' size).focus get put) g.recorded =
                p.destinations ((tabulated density size).focus get put) g.recorded)
            (passes ((tabulated density size).focus get put) g.recorded rs c₀)
            (passes ((tabulated density' size).focus get put) g.recorded
              (rs.map (Request.map φ)) c₁) := by
  have t := tabulated_translatesTo hd size get put g.recorded
  have hstart := start_translate t plan data s
  constructor
  · intro e s' h
    rw [hstart, h]
    rfl
  intro c₀ s' h
  refine ⟨c₀.translate φ (Tally.map φ), by rw [hstart, h]; rfl, ?_⟩
  intro rs
  refine ⟨?_, ?_, ?_⟩
  · have hout := outcomes_translate t rs c₀
    have hid : (Except.mapError id : Except (Fault α) Unit → Except (Fault α) Unit) = id := by
      funext r
      rcases r with e | u <;> rfl
    rwa [hid, List.map_id, List.map_id] at hout
  · rw [after_translate t]
    exact renamed_translate φ _
  · rw [passes_translate t, List.forall₂_map_right_iff, List.forall₂_same]
    intro p _
    exact ⟨renamed_translate φ _, renamed_translate φ _, p.destinations_translate t⟩

/-- The likelihood of a parity is one at the places that have it, and one half at the
    others. -/
def ofParity (k : Nat) (odd : Bool) : Except (Fault α) α :=
  .ok (if odd = (k % 2 == 1) then 1 else half)

/-- Numbers of which only the parity counts may be renamed to their parities: a call that
    fails in its second iteration and an iteration after it leave the same behind. -/
theorem numbers_renamed_to_parities :
    ∃ c₁, start (recordedTallies ofParity) (Plan.ofPair 0 1 2 Nat.one_pos)
        ([0, 1, 3, 2].map (· % 2 == 1)) (Recorded.fresh (⟨[], 0, 0⟩, [2, 3])) =
          (.ok c₁, Recorded.fresh (⟨[], 0, 0⟩, [2, 3])) ∧
      (after (recordedTallies fun k x => ofParity k (x % 2 == 1)) Script.besideSizes.recorded
        [.cluster none, .iterate] (ofRecordedTallies (Plan.ofPair 0 1 2 Nat.one_pos) [0, 1, 3, 2]
          (⟨[], 0, 0⟩, [2, 3]))).Renamed (· % 2 == 1)
        (after (recordedTallies ofParity) Script.besideSizes.recorded
          ([.cluster none, .iterate].map (Request.map (· % 2 == 1))) c₁) ∧
      (after (recordedTallies ofParity) Script.besideSizes.recorded
        ([.cluster none, .iterate].map (Request.map (· % 2 == 1))) c₁).samples.length = 2 := by
  obtain ⟨-, hruns⟩ := observations_are_opaque (fun x : Nat => x % 2 == 1)
    (fun k x => ofParity k (x % 2 == 1)) ofParity (fun _ _ => rfl) none (fun r => r.source.2)
    (fun sizes r => { r with source := (r.source.1, sizes) }) Script.besideSizes
    (Plan.ofPair 0 1 2 Nat.one_pos) [0, 1, 3, 2] (Recorded.fresh (⟨[], 0, 0⟩, [2, 3]))
  obtain ⟨c₁, hstart, hrun⟩ := hruns _ _ (start_recordedTallies _ _ _ _)
  obtain ⟨-, hrenamed, -⟩ := hrun [.cluster none, .iterate]
  have hcount : (after (recordedTallies fun k x => ofParity k (x % 2 == 1))
      Script.besideSizes.recorded [.cluster none, .iterate]
      (ofRecordedTallies (Plan.ofPair 0 1 2 Nat.one_pos) [0, 1, 3, 2]
        (⟨[], 0, 0⟩, [2, 3]))).samples.length = 2 := by decide +kernel
  refine ⟨c₁, hstart, hrenamed, ?_⟩
  have hsamples := congrArg List.length hrenamed.samples
  rw [List.length_map] at hsamples
  exact hsamples.trans hcount

end Chain

end DirichletMixture
