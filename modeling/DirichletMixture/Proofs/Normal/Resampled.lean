/-
  DirichletMixture: the calls that drawing normal components makes.

  Components are drawn one after the other.  Each takes two calls to the generator: a gamma
  draw, and a normal draw whose deviations depend on what came out of the first.

  * `Resampled` says which calls are made for some beliefs, and which components they lead
    to; `resampled_of_drawEach`: this is how a record grows;
  * `fromPosterior_eq_drawEach` and `fromPrior_eq_drawEach`: the components of a family are
    drawn like this.
-/
import DirichletMixture.Generator.Recorded
import DirichletMixture.Proofs.Family.Counting

namespace DirichletMixture

variable {ω α : Type} [Scalar α]

/-- From the source `s`, one component is drawn from each of some beliefs, in order: the
    variance is one over a gamma draw, and the mean a normal draw.  This makes the calls
    `cs`, and leaves the components and a source behind. -/
inductive Resampled (g : Generator ω α) (prior : NormalPrior α) :
    List (Belief α) → ω → List (Call α) → List (NormalModel α) → ω → Prop where
  | nil {s : ω} : Resampled g prior [] s [] [] s
  | cons {b : Belief α} {bs : List (Belief α)} {s s₁ s₂ s₃ : ω} {precision variance mean : List α}
    {cs : List (Call α)} {ms : List (NormalModel α)} :
    (g.gamma b.shape (b.scale.map (1 / ·))).runOn s = (.ok precision, s₁) →
    variance = precision.map (1 / ·) →
    (g.normal b.mean (variance.map (meanDeviation b.precisionScale))).runOn s₁ = (.ok mean, s₂) →
    Resampled g prior bs s₂ cs ms s₃ →
      Resampled g prior (b :: bs) s
        (.gamma b.shape (b.scale.map (1 / ·)) ::
          .normal b.mean (variance.map (meanDeviation b.precisionScale)) :: cs)
        (NormalModel.fresh prior mean variance :: ms) s₃

variable {g : Generator ω α} {prior : NormalPrior α}

theorem Resampled.length_calls {bs : List (Belief α)} {s s' : ω} {cs : List (Call α)}
    {ms : List (NormalModel α)} (h : Resampled g prior bs s cs ms s') :
    cs.length = 2 * bs.length := by
  induction h with
  | nil => rfl
  | cons _ _ _ _ ih => rw [List.length_cons, List.length_cons, List.length_cons, ih]; omega

/-- **Drawing from beliefs** with a generator that keeps a record makes the calls that the
    beliefs ask for. -/
theorem resampled_of_drawEach {bs : List (Belief α)} {r r' : Recorded ω α}
    {ms : List (NormalModel α)}
    (h : (drawEach g.recorded prior (bs.map .ok)).runOn r = (.ok ms, r')) :
    ∃ cs, Resampled g prior bs r.source cs ms r'.source ∧ r'.calls = r.calls ++ cs := by
  induction bs generalizing r ms with
  | nil =>
    cases h
    exact ⟨[], .nil, (List.append_nil _).symm⟩
  | cons b bs ih =>
    obtain ⟨_, _, hbelief, h₁⟩ := Attempt.runOn_bind_eq_ok.1 h
    cases hbelief
    obtain ⟨m, r₁, hm, h₂⟩ := Attempt.runOn_bind_eq_ok.1 h₁
    obtain ⟨ms', r₂, hms, h₃⟩ := Attempt.runOn_bind_eq_ok.1 h₂
    cases h₃
    obtain ⟨precision, r₃, hgamma, h₄⟩ := Attempt.runOn_bind_eq_ok.1 hm
    obtain ⟨mean, r₄, hnormal, h₅⟩ := Attempt.runOn_bind_eq_ok.1 h₄
    obtain ⟨hmodel, rfl⟩ := Prod.mk.inj h₅
    obtain rfl := NormalModel.ofVectors_eq_ok hmodel
    obtain ⟨hg, hcalls⟩ := Recorded.runOn_attempt_eq_ok hgamma
    obtain ⟨hn, hcalls'⟩ := Recorded.runOn_attempt_eq_ok hnormal
    obtain ⟨cs, hrest, hcalls''⟩ := ih hms
    refine ⟨_, .cons hg rfl hn hrest, ?_⟩
    rw [hcalls'', hcalls', hcalls]
    simp

/-! ## The family -/

section
variable [Readable α]

theorem fromPosterior_eq_drawEach (g : Generator ω α) {ms : List (NormalModel α)}
    {bs : List (Belief α)} (h : (ms.map fun m => prior.posterior m.statistics) = bs.map .ok) :
    (normalFamily g prior).fromPosterior ms = drawEach g prior (bs.map .ok) := by
  rw [← h]
  rfl

theorem fromPrior_eq_drawEach (g : Generator ω α) {b : Belief α}
    (hd : prior.checkDimension = .ok ()) (hb : prior.initial = .ok b) (n : Nat) :
    (normalFamily g prior).fromPrior n = drawEach g prior ((List.replicate n b).map .ok) := by
  have hrun : (normalFamily g prior).fromPrior n =
      (do Attempt.ofExcept prior.checkDimension
          drawEach g prior (List.replicate n prior.initial)) := rfl
  rw [hrun, hd, hb, List.map_replicate]
  rfl

end

end DirichletMixture
