/-
  DirichletMixture: components that take what they can score.

  A family may keep to a property of its components that makes them take every observation
  that has a likelihood, and that lets them be finalized.  Then an iteration can fail only
  for lack of components or of a destination.

  * `Family.Receptive` says that a property has these consequences, and
    `Family.Receptive.focus` that this does not depend on the source;
  * `tabulated_receptive` and `normalFamily_receptive`: both families are receptive, where
    normal components hold what they have absorbed.
-/
import DirichletMixture.Proofs.Exact.Basic
import DirichletMixture.Proofs.Family.Counting
import DirichletMixture.Proofs.Normal.Conjugate

namespace DirichletMixture

variable {ω τ O M α K : Type}

/-- The family keeps to a property, and components with it take what has a likelihood under
    any of them and can be finalized. -/
structure Family.Receptive (f : Family ω O M α) (Q : M → Prop) : Prop extends
    f.Maintains Q where
  takes : ∀ m m' x p, Q m → Q m' → f.density m x = .ok p → ∃ m'', f.observe m' x = .ok m''
  finalizes : ∀ m, Q m → ∃ m', f.finalize m = .ok m'

/-- A receptive family stays receptive on a part of a larger state. -/
theorem Family.Receptive.focus {f : Family ω O M α} {Q : M → Prop} (hf : f.Receptive Q)
    (get : τ → ω) (put : ω → τ → τ) : (f.focus get put).Receptive Q where
  prior n t ms _ h := hf.prior n (get t) ms _ (Prod.ext (Prod.mk.inj h).1 rfl)
  posterior ms t ms' _ h := hf.posterior ms (get t) ms' _ (Prod.ext (Prod.mk.inj h).1 rfl)
  observe := hf.observe
  finalize := hf.finalize
  takes := hf.takes
  finalizes := hf.finalizes

/-- **Tallies are receptive.** -/
theorem tabulated_receptive (density : Nat → O → Except (Fault α) α) (size : Option Nat) :
    (tabulated density size).Receptive fun _ => True where
  prior _ _ _ _ _ _ _ := trivial
  posterior _ _ _ _ _ _ _ := trivial
  observe _ _ _ _ _ := trivial
  finalize _ _ _ _ := trivial
  takes _ _ _ _ _ _ _ := ⟨_, rfl⟩
  finalizes _ _ := ⟨_, rfl⟩

section
variable [Exact K] {prior : NormalPrior K}

/-- The component has the given prior, which has a centre, and holds some vectors. -/
def NormalModel.Sound (prior : NormalPrior K) (m : NormalModel K) : Prop :=
  (∃ center, prior.center = .ok center) ∧ ∃ X, m.Holds prior X

theorem sound_of_drawEach {g : Generator ω K} {bs : List (Except (Fault K) (Belief K))}
    {ms : List (NormalModel K)} {s s' : ω} (h : (drawEach g prior bs).runOn s = (.ok ms, s'))
    (hbs : ∀ b ∈ bs, ∀ belief, b = .ok belief → ∃ center, prior.center = .ok center) :
    ∀ m ∈ ms, m.Sound prior := by
  intro m hm
  refine ⟨?_, 0, NormalModel.holds_of_drawEach h m hm⟩
  -- a component was drawn, so there was a belief to draw it from
  cases bs with
  | nil =>
    cases h
    cases hm
  | cons b bs =>
    obtain ⟨belief, s₁, hb, -⟩ := Attempt.runOn_bind_eq_ok.1 h
    exact hbs b List.mem_cons_self belief (Prod.mk.inj hb).1

/-- **Normal components are receptive.** -/
theorem normalFamily_receptive [Readable K] (g : Generator ω K) (prior : NormalPrior K) :
    (normalFamily g prior).Receptive (NormalModel.Sound prior) where
  prior n s ms s' h := by
    obtain ⟨u, s₁, -, hdraw⟩ := Attempt.runOn_bind_eq_ok.1 h
    refine sound_of_drawEach hdraw ?_
    intro b hb belief hbelief
    obtain rfl := (List.mem_replicate.1 hb).2
    obtain ⟨center, hcenter, -⟩ := map_eq_ok.1 hbelief
    exact ⟨center, hcenter⟩
  posterior ms s ms' s' h := by
    refine sound_of_drawEach h ?_
    intro b hb belief hbelief
    obtain ⟨m, -, rfl⟩ := List.mem_map.1 hb
    obtain ⟨initial, hinitial, -⟩ := bind_eq_ok.1 hbelief
    obtain ⟨center, hcenter, -⟩ := map_eq_ok.1 hinitial
    exact ⟨center, hcenter⟩
  observe m x m' hm h := by
    obtain ⟨hcenter, X, hX⟩ := hm
    exact ⟨hcenter, _, (hX.observe h).2⟩
  finalize m m' hm h := by
    obtain ⟨hcenter, X, hX⟩ := hm
    exact ⟨hcenter, X, hX.finalize h⟩
  takes m m' x p hm hm' h := by
    obtain ⟨-, X, hX⟩ := hm
    obtain ⟨-, X', hX'⟩ := hm'
    obtain ⟨v, hv, -⟩ := bind_eq_ok.1 h
    have hspans := (NormalModel.vector_eq_ok.1 hv).1
    rw [hX.prior_eq, ← hX'.prior_eq] at hspans
    exact ⟨_, map_eq_ok.2 ⟨_, NormalModel.vector_eq_ok.2 ⟨hspans, rfl⟩, rfl⟩⟩
  finalizes m hm := by
    obtain ⟨⟨center, hcenter⟩, X, hX⟩ := hm
    exact hX.exists_finalize hcenter

end

end DirichletMixture
