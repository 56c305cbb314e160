/-
  DirichletMixture: only the ratios of likelihoods matter.

  The likelihoods of an observation may be multiplied by a positive factor that is the
  same for all components, another one for every observation.  In exact arithmetic this
  changes neither a chain nor what its mixture says of points.

  * `Component.rescale`, `Family.rescale` and `Candidate.rescale` multiply likelihoods;
  * `Mixture.scores_rescale`: scores are multiplied likewise, and `rescale_translatesTo`:
    nothing that a chain does depends on it;
  * `emit_rescale`: nor does what is handed out to clusters;
  * `only_likelihood_ratios_matter` puts both together.
-/
import Mathlib.Tactic.Positivity
import DirichletMixture.Proofs.Exact.Scaling
import DirichletMixture.Emission.Collector
import DirichletMixture.Proofs.Chain.Tallies
import DirichletMixture.Proofs.Chain.Translation

namespace DirichletMixture

variable {ω O M α : Type}

/-! ## Multiplied likelihoods -/

/-- The component with the likelihood of an observation `x` multiplied by `k x`. -/
def Component.rescale [Mul α] (k : O → α) (c : Component O M α) : Component O M α :=
  { c with density := fun m x => (c.density m x).map (k x * ·) }

/-- The family of components with multiplied likelihoods. -/
def Family.rescale [Mul α] (k : O → α) (f : Family ω O M α) : Family ω O M α :=
  { f with toComponent := f.toComponent.rescale k }

def Candidate.rescale [Mul α] (k : O → α) (c : Candidate O α) : Candidate O α :=
  { c with density := fun x => (c.density x).map (k x * ·) }

/-- Tallies with multiplied likelihoods are the tallies of the multiplied table. -/
theorem rescale_tabulated [Mul α] (k : O → α) (density : Nat → O → Except (Fault α) α)
    (size : Option Nat) (get : ω → List Nat) (put : List Nat → ω → ω) :
    ((tabulated density size).focus get put).rescale k =
      (tabulated (fun i x => (density i x).map (k x * ·)) size).focus get put := rfl

variable {K : Type} [Exact K] {k : O → K}

/-- Dividing takes multiplying back. -/
theorem Family.rescale_inv (hk : ∀ x, 0 < k x) (f : Family ω O M K) :
    (f.rescale k).rescale (fun x => (k x)⁻¹) = f := by
  have hdensity : (fun (m : M) (x : O) =>
      ((f.density m x).map (k x * ·)).map ((k x)⁻¹ * ·)) = f.density := by
    funext m x
    rcases f.density m x with e | p
    · rfl
    · simp only [Except.map, inv_mul_cancel_left₀ (hk x).ne']
  simp only [rescale, Component.rescale, hdensity]

/-! ## Scores -/

namespace Mixture

variable (c : Component O M K) (g : Generator ω K) (m : Mixture M K) (x : O)

theorem scores_rescale :
    m.scores (c.rescale k) g x = List.map (k x * ·) <$> m.scores c g x := by
  have hweigh : ∀ p : K × Cluster M,
      weigh (c.rescale k) x p.1 p.2 = (weigh c x p.1 p.2).map (k x * ·) := by
    rintro ⟨weight, cluster⟩
    simp only [weigh, Component.rescale]
    rcases c.density cluster.model x with e | p
    · rfl
    · simp only [Except.map, mul_left_comm]
  simp only [scores, map_bind]
  refine bind_congr fun w => Attempt.ext fun d => ?_
  rw [Attempt.runOn_map, mapM_eq_map_mapM hweigh]
  rfl

theorem score_rescale (i : Int) :
    m.score (c.rescale k) g x i = (k x * ·) <$> m.score c g x i := by
  simp only [score, map_bind]
  refine bind_congr fun w => Attempt.ext fun d => ?_
  rcases atPlace? w i with _ | weight
  · rfl
  rcases atPlace? m.clusters i with _ | cluster
  · rfl
  simp only [Component.rescale]
  rcases c.density cluster.model x with e | p
  · rfl
  · simp [Except.map, mul_left_comm]

end Mixture

/-- **Multiplied likelihoods go together** with the original ones: whatever a chain does
    with them ends alike, but for a number that a fault may quote. -/
theorem rescale_translatesTo (hk : ∀ x, 0 < k x) (f : Family ω O M K) (g : Generator ω K) :
    f.TranslatesTo Fault.unquoted id id g (f.rescale k) where
  site e e' s he := by
    rw [Fault.unquoted_locate, Fault.unquoted_locate, he]
  count m := rfl
  observe m x := (congrFun Except.map_id _).symm
  finalize m := (congrFun Except.map_id _).symm
  fromPrior n := by
    rw [List.map_id_fun, id_map]
    rfl
  fromPosterior ms := by
    rw [List.map_id_fun, id_map]
    rfl
  score m x i := by
    rw [Mixture.mapModels_id, id_eq, Family.rescale, Mixture.score_rescale]
    exact (Attempt.CarriesOver.of_map rfl).ignore
  scores m x := by
    rw [Mixture.mapModels_id, id_eq, Family.rescale, Mixture.scores_rescale]
    exact (Attempt.CarriesOver.of_map rfl).ignore
  normalized m x := by
    rw [Mixture.mapModels_id, id_eq, Family.rescale]
    simp only [Mixture.normalized, Mixture.scores_rescale]
    refine Attempt.CarriesOver.bind (V := List.map (k x * ·)) (.of_map rfl) ?_
    intro scores
    refine .ofExcept ?_
    rw [Except.map_id, id_eq]
    exact normalizeByMax_scale (hk x) scores

/-! ## Emission -/

theorem emitAbove_rescale (threshold : K) (x : O) (i : Nat) (cs : List (Candidate O K))
    (pi : List K) :
    emitAbove threshold x i (cs.map (Candidate.rescale k)) pi = emitAbove threshold x i cs pi := by
  induction cs generalizing i pi with
  | nil => rfl
  | cons c cs ih =>
    cases pi with
    | nil => rfl
    | cons weight pi =>
      rw [List.map_cons, emitAbove, emitAbove, ih]
      rfl

/-- **What is handed out** to candidates depends only on the ratios of their likelihoods. -/
theorem emit_rescale (hk : ∀ x, 0 < k x) (policy : Policy K) {cs : List (Candidate O K)} {x : O}
    (hcs : ∀ c ∈ cs, ∀ p, c.density x = .ok p → 0 ≤ p) :
    emit policy (cs.map (Candidate.rescale k)) x = emit policy cs x := by
  have hdensities : (cs.map (Candidate.rescale k)).mapM (Candidate.density · x) =
      (cs.mapM (Candidate.density · x)).map (List.map (k x * ·)) := by
    refine mapM_map ?_ cs
    intro c
    rfl
  have hshares : shares (cs.map (Candidate.rescale k)) x = shares cs x := by
    rw [shares, shares, hdensities]
    rcases hps : cs.mapM (Candidate.density · x) with e | ps
    · rfl
    · refine normalizeBySum_scale (hk x) ?_
      intro p hp
      have hmem : Except.ok p ∈ cs.map (Candidate.density · x) := by
        rw [mapM_eq_ok.1 hps]
        exact List.mem_map_of_mem hp
      obtain ⟨c, hc, hpc⟩ := List.mem_map.1 hmem
      exact hcs c hc p hpc
  have hselect : policy.select (cs.map (Candidate.rescale k)) x = policy.select cs x := by
    funext pi
    unfold Policy.select
    cases policy.mode with
    | mostLikely => rfl
    | threshold => exact emitAbove_rescale _ _ _ _ _
  rw [emit, emit, hshares, hselect]

theorem Mixture.candidates_rescale (c : Component O M K) (m : Mixture M K) :
    m.candidates (c.rescale k) = (m.candidates c).map (Candidate.rescale k) := by
  simp only [candidates, List.map_map]
  rfl

/-! ## Whole runs -/

namespace Chain

section
variable (hk : ∀ x, 0 < k x) (f : Family ω O M K) (g : Generator ω K) (c : Chain ω O M K)
include hk

theorem stopsAt_rescale_iff (j : Nat) (d : Draws ω K) :
    (∃ e, StopsAt (f.rescale k) g c j e d) ↔ ∃ e, StopsAt f g c j e d := by
  constructor
  · rintro ⟨e, h⟩
    have hinv : ∀ x, 0 < (k x)⁻¹ := fun x => inv_pos.2 (hk x)
    obtain ⟨e', h', -⟩ := h.translate (rescale_translatesTo hinv (f.rescale k) g)
    rw [Family.rescale_inv hk, translate_id] at h'
    exact ⟨e', h'⟩
  · rintro ⟨e, h⟩
    obtain ⟨e', h', -⟩ := h.translate (rescale_translatesTo hk f g)
    rw [translate_id] at h'
    exact ⟨e', h'⟩

end

/-- **Only likelihood ratios matter.**  In exact arithmetic, let the likelihoods of each
    observation be multiplied by a positive factor that is the same for all components.
    Then a chain starts as before, and whatever is asked of it leaves the same chain
    behind, with the same calls to the generator, samples, totals, occupancy and phase.
    All requests end alike, in faults of the same kind at the same place, if they fail;
    the same iterations are completed, with the same destinations, and an iteration
    finds no destination for the same observation.  Whatever the policy, a point is
    handed out to the same clusters with the same weights.  Tallies with multiplied
    likelihoods are an instance. -/
theorem only_likelihood_ratios_matter (f : Family (Recorded ω K) O M K) (g : Generator ω K)
    (hk : ∀ x, 0 < k x) (hf : ∀ m x p, f.density m x = .ok p → 0 ≤ p) :
    (∀ plan data s, start (f.rescale k) plan data s = start f plan data s) ∧
    (∀ (c : Chain (Recorded ω K) O M K) rs,
      after (f.rescale k) g.recorded rs c = after f g.recorded rs c ∧
      (outcomes (f.rescale k) g.recorded rs c).map (Except.mapError Fault.unquoted) =
        (outcomes f g.recorded rs c).map (Except.mapError Fault.unquoted) ∧
      passes (f.rescale k) g.recorded rs c = passes f g.recorded rs c ∧
      (∀ p : Pass (Recorded ω K) O M K,
        p.destinations (f.rescale k) g.recorded = p.destinations f g.recorded) ∧
      (∀ j d, (∃ e, StopsAt (f.rescale k) g.recorded c j e d) ↔
        ∃ e, StopsAt f g.recorded c j e d) ∧
      ∀ policy x,
        emit policy ((after f g.recorded rs c).state.mixture.candidates
            (f.rescale k).toComponent) x =
          emit policy ((after f g.recorded rs c).state.mixture.candidates f.toComponent) x) ∧
    ∀ (density : Nat → O → Except (Fault K) K) (size : Option Nat)
      (get : Recorded ω K → List Nat) (put : List Nat → Recorded ω K → Recorded ω K),
      ((tabulated density size).focus get put).rescale k =
        (tabulated (fun i x => (density i x).map (k x * ·)) size).focus get put := by
  have t := rescale_translatesTo hk f g.recorded
  have hid : Request.map (id : O → O) = id := funext Request.map_id
  refine ⟨?_, ?_, fun density size get put => rescale_tabulated k density size get put⟩
  · intro plan data s
    have hstart := start_translate t plan data s
    have htranslate : translate (ω := Recorded ω K) (α := K) (id : O → O) (id : M → M) = id :=
      funext translate_id
    rw [List.map_id, htranslate, Except.map_id] at hstart
    exact hstart
  intro c rs
  have hafter := after_translate t rs c
  have hout := outcomes_translate t rs c
  have hpasses := passes_translate t rs c
  rw [hid, List.map_id, translate_id] at hafter hout hpasses
  refine ⟨by simpa using hafter, hout, ?_, ?_, stopsAt_rescale_iff hk f g.recorded c, ?_⟩
  · rwa [funext Pass.translate_id, List.map_id'] at hpasses
  · intro p
    have hdest := p.destinations_translate t
    rwa [Pass.translate_id] at hdest
  · intro policy x
    rw [Family.rescale, Mixture.candidates_rescale]
    refine emit_rescale hk policy ?_
    intro candidate hc p hp
    obtain ⟨cluster, -, rfl⟩ := List.mem_map.1 hc
    exact hf cluster.model x p hp

/-- The likelihoods of a number `x` multiplied by `x + 1`: a call that fails in its
    second iteration, an iteration after it and a point that is handed out. -/
theorem multiplied_likelihoods_change_nothing :
    after ((recordedTallies nearby).rescale fun x : Nat => (x + 1 : ℚ)) Script.besideSizes.recorded
        [.cluster none, .iterate] (ofRecordedTallies (Plan.exactPair 0 1 2 Nat.one_pos) [0, 1, 1]
          (⟨[], 0, 0⟩, [2, 3])) =
      after (recordedTallies nearby) Script.besideSizes.recorded [.cluster none, .iterate]
        (ofRecordedTallies (Plan.exactPair 0 1 2 Nat.one_pos) [0, 1, 1] (⟨[], 0, 0⟩, [2, 3])) ∧
    (after (recordedTallies nearby) Script.besideSizes.recorded [.cluster none, .iterate]
      (ofRecordedTallies (Plan.exactPair (K := ℚ) 0 1 2 Nat.one_pos) [0, 1, 1]
        (⟨[], 0, 0⟩, [2, 3]))).state.mixture.totals.sum = 6 := by
  have hpos : ∀ x : Nat, (0 : ℚ) < x + 1 := by
    intro x
    positivity
  obtain ⟨-, hruns, -⟩ := only_likelihood_ratios_matter (recordedTallies nearby)
    Script.besideSizes hpos fun t x p h => nearby_nonneg h
  exact ⟨(hruns _ _).1, by decide +kernel⟩

end Chain

end DirichletMixture
