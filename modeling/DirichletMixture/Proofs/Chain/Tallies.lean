/-
  DirichletMixture: chains of tallies.

  Tallies are drawn without randomness, so that the sampler alone consumes a script.
  The sizes of their posterior draws stand beside it.

  * `Script.besideSizes` and `tallies` are the generator and the family, and `nearby` is
    a likelihood for numbers; `recordedTallies` stand beside a generator with a record;
  * `Chain.start_tallies`: every plan starts with tallies;
  * `Plan.ofPair` is a plan for two clusters with numbers that can be followed, and
    `Plan.exactPair` the same with exact numbers; `Chain.faltering` is a chain whose
    second iteration fails once.
-/
import DirichletMixture.Proofs.Exact.Basic
import DirichletMixture.Family.Tabulated
import DirichletMixture.Generator.Recorded
import DirichletMixture.Generator.Script
import DirichletMixture.Proofs.Chain.Iteration

namespace DirichletMixture

variable {O α : Type}

/-- A script, and the sizes of the posterior draws to come. -/
abbrev ScriptAndSizes (α : Type) := Script α × List Nat

/-- The generator that follows the script. -/
def Script.besideSizes [Scalar α] : Generator (ScriptAndSizes α) α :=
  Script.generator.focus Prod.fst fun script s => (script, s.2)

/-- The tallies with a given likelihood whose posterior draws have the sizes. -/
def tallies (density : Nat → O → Except (Fault α) α) :
    Family (ScriptAndSizes α) O (Tally O) α :=
  (tabulated density none).focus Prod.snd fun sizes s => (s.1, sizes)

/-- The same beside a source with a record, which they leave alone. -/
def recordedTallies (density : Nat → O → Except (Fault α) α) :
    Family (Recorded (ScriptAndSizes α) α) O (Tally O) α :=
  (tabulated density none).focus (fun r => r.source.2)
    fun sizes r => { r with source := (r.source.1, sizes) }

/-- The likelihood of a number is one at its own place, one half at the places next to
    it, and zero at all others. -/
def nearby [Scalar α] (k x : Nat) : Except (Fault α) α :=
  .ok (if x = k then 1 else if x = k + 1 ∨ k = x + 1 then half else 0)

theorem nearby_nonneg {K : Type} [Exact K] {k x : Nat} {p : K} (h : nearby k x = .ok p) :
    0 ≤ p := by
  obtain rfl := Except.ok.inj h
  have hhalf : (0 : K) ≤ half := by
    rw [half_eq]
    exact div_nonneg zero_le_one zero_le_two
  split_ifs
  · exact zero_le_one
  · exact hhalf
  · exact le_rfl

/-- Drawing tallies succeeds, and makes no call. -/
theorem calls_of_fromPosterior (density : Nat → O → Except (Fault α) α) (ts : List (Tally O))
    (r : Recorded (ScriptAndSizes α) α) :
    ∃ ts' r', ((recordedTallies density).fromPosterior ts).runOn r = (.ok ts', r') ∧
      r'.calls = r.calls := by
  rcases hsizes : r.source.2 with _ | ⟨n, sizes⟩
  · refine ⟨Tally.freshList ts.length, { r with source := (r.source.1, []) }, ?_, rfl⟩
    simp [recordedTallies, Family.focus, tabulated, hsizes]
  · refine ⟨Tally.freshList n, { r with source := (r.source.1, sizes) }, ?_, rfl⟩
    simp [recordedTallies, Family.focus, tabulated, hsizes]

namespace Chain

variable [Scalar α]

/-- A chain of fresh tallies. -/
def ofTallies (plan : Plan α) (data : List O) (s : ScriptAndSizes α) :
    Chain (ScriptAndSizes α) O (Tally O) α :=
  ofMixture plan data (Mixture.ofModels plan.alpha0 (Tally.freshList plan.clusters)) s

/-- **Every plan starts with tallies**, and nothing is drawn for them. -/
theorem start_tallies (density : Nat → O → Except (Fault α) α) (plan : Plan α) (data : List O)
    (s : ScriptAndSizes α) :
    start (tallies density) plan data s = (.ok (ofTallies plan data s), s) :=
  start_eq_ok.2 ⟨Tally.freshList plan.clusters, rfl, Tally.length_freshList _, rfl⟩

/-- A chain of fresh tallies with an empty record. -/
def ofRecordedTallies (plan : Plan α) (data : List O) (s : ScriptAndSizes α) :
    Chain (Recorded (ScriptAndSizes α) α) O (Tally O) α :=
  ofMixture plan data (Mixture.ofModels plan.alpha0 (Tally.freshList plan.clusters))
    (Recorded.fresh s)

theorem start_recordedTallies (density : Nat → O → Except (Fault α) α) (plan : Plan α)
    (data : List O) (s : ScriptAndSizes α) :
    start (recordedTallies density) plan data (Recorded.fresh s) =
      (.ok (ofRecordedTallies plan data s), Recorded.fresh s) :=
  start_eq_ok.2 ⟨Tally.freshList plan.clusters, rfl, Tally.length_freshList _, rfl⟩

end Chain

/-- Two clusters, and double precision numbers. -/
def Plan.ofPair (burnin thin iterations : Nat) (h : 0 < thin) : Plan Float where
  clusters := 2
  clusters_pos := by decide
  alpha0 := 1
  alpha0_finite := by decide
  alpha0_pos := by decide
  thin := thin
  thin_pos := h
  burnin := burnin
  iterations := iterations

/-- The same with exact numbers. -/
def Plan.exactPair {K : Type} [Exact K] (burnin thin iterations : Nat) (h : 0 < thin) :
    Plan K where
  clusters := 2
  clusters_pos := by decide
  alpha0 := 1
  alpha0_finite := rfl
  alpha0_pos := one_pos
  thin := thin
  thin_pos := h
  burnin := burnin
  iterations := iterations

/-- A chain of two tallies whose second posterior draw has one too many. -/
def Chain.faltering : Chain (ScriptAndSizes Float) Nat (Tally Nat) Float :=
  ofTallies (Plan.ofPair 0 2 3 Nat.two_pos) [0, 1, 1] (⟨[], 0, 0⟩, [2, 3])

/-- The same with exact numbers and a record. -/
def Chain.exactFaltering : Chain (Recorded (ScriptAndSizes ℚ) ℚ) Nat (Tally Nat) ℚ :=
  ofRecordedTallies (Plan.exactPair 0 1 2 Nat.one_pos) [0, 1, 1] (⟨[], 0, 0⟩, [2, 3])

end DirichletMixture
