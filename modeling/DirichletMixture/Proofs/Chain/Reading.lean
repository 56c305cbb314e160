/-
  DirichletMixture: what can be read off a live mixture.

  Whatever reads a mixture may move the source and may draw the weights of the
  iteration, but weights that are drawn stay as they are.

  * `Reading` lists what can be read, and `Reading.perform` does it;
  * `Draws.Keeps` says that drawn weights are kept, and `Draws.Fills` also that missing
    ones are drawn for the mixture that is read; `Draws.DrawnFor` says that weights were
    drawn for a mixture in this way;
  * `sweep_fills` and `sweep_respects`: a whole sweep does so, whether it fails or not;
  * `State.Sound` is what a state keeps to from its start on.
-/
import DirichletMixture.Proofs.Mixture.Scores

namespace DirichletMixture

variable {ω O M α β : Type}

/-! ## Drawn weights are kept -/

/-- The weights of the first draws, if there are any, are those of the second. -/
def Draws.Keeps (d d' : Draws ω α) : Prop :=
  ∀ w, d.weights = some w → d'.weights = some w

variable [Scalar α]

/-- The weights stay as they are, or there were none and now some are drawn for the
    mixture. -/
def Draws.Fills (g : Generator ω α) (m : Mixture M α) (d d' : Draws ω α) : Prop :=
  d'.weights = d.weights ∨
    d.weights = none ∧ ∃ w s s', (m.drawWeights g).runOn s = (.ok w, s') ∧ d'.weights = some w

namespace Draws.Fills

variable {g : Generator ω α} {m : Mixture M α}

theorem refl (d : Draws ω α) : Fills g m d d := Or.inl rfl

theorem trans (d d' d'' : Draws ω α) (h : Fills g m d d') (h' : Fills g m d' d'') :
    Fills g m d d'' := by
  rcases h with h | ⟨hnone, w, s, s', hdraw, hw⟩
  · rcases h' with h' | ⟨hnone, hdrawn⟩
    · exact Or.inl (h'.trans h)
    · exact Or.inr ⟨h.symm.trans hnone, hdrawn⟩
  · rcases h' with h' | ⟨hnone', -⟩
    · exact Or.inr ⟨hnone, w, s, s', hdraw, h'.trans hw⟩
    · rw [hw] at hnone'
      cases hnone'

theorem keeps (d d' : Draws ω α) (h : Fills g m d d') : d.Keeps d' := by
  intro w hw
  rcases h with h | ⟨hnone, -⟩
  · exact h.trans hw
  · rw [hw] at hnone
    cases hnone

end Draws.Fills

/-- The weights, if there are any, were drawn for the mixture. -/
def Draws.DrawnFor (g : Generator ω α) (m : Mixture M α) (d : Draws ω α) : Prop :=
  ∀ w, d.weights = some w → ∃ s s', (m.drawWeights g).runOn s = (.ok w, s')

theorem Draws.DrawnFor.fills {g : Generator ω α} {m : Mixture M α} {d d' : Draws ω α}
    (h : d.DrawnFor g m) (hfills : Fills g m d d') : d'.DrawnFor g m := by
  intro w hw
  rcases hfills with hkept | ⟨-, w', s, s', hdraw, hw'⟩
  · exact h w (hkept.symm.trans hw)
  · obtain rfl : w' = w := Option.some.inj (hw'.symm.trans hw)
    exact ⟨s, s', hdraw⟩

namespace Mixture

variable (c : Component O M α) (g : Generator ω α) (m : Mixture M α) (x : O)

theorem onSource_fills (a : Attempt ω α β) :
    (Draws.onSource a : Attempt (Draws ω α) α β).Respects (Draws.Fills g m) := by
  intro d
  exact Or.inl rfl

theorem weights_fills : (m.weights g).Respects (Draws.Fills g m) := by
  intro d
  rcases h : (m.weights g).runOn d with ⟨e | w, d'⟩
  · obtain ⟨hnone, s, -, rfl⟩ := weights_eq_error.1 h
    exact Or.inl hnone.symm
  · rcases weights_eq_ok.1 h with ⟨-, rfl⟩ | ⟨hnone, s, hdraw, rfl⟩
    · exact Or.inl rfl
    · exact Or.inr ⟨hnone, w, d.source, s, hdraw, rfl⟩

/-- Once the weights are known, nothing is drawn for what is a function of them. -/
theorem weights_bind_fills (r : List α → Except (Fault α) β) :
    (m.weights g >>= fun w => Attempt.ofExcept (r w)).Respects (Draws.Fills g m) := by
  refine .bind Draws.Fills.trans (m.weights_fills g) ?_
  intro w
  exact .ofExcept Draws.Fills.refl _

theorem score_fills (k : Int) : (m.score c g x k).Respects (Draws.Fills g m) := by
  rw [score_eq]
  exact m.weights_bind_fills g _

theorem scores_fills : (m.scores c g x).Respects (Draws.Fills g m) := by
  rw [scores_eq]
  exact m.weights_bind_fills g _

theorem normalized_fills : (m.normalized c g x).Respects (Draws.Fills g m) := by
  rw [normalized_eq]
  exact m.weights_bind_fills g _

theorem assign_fills (site : Site) : (m.assign c g x site).Respects (Draws.Fills g m) := by
  refine .mapFault (.bind Draws.Fills.trans (m.normalized_fills c g x) ?_) _
  intro p
  exact m.onSource_fills g _

end Mixture

/-! ## Readings -/

/-- What can be read off a mixture between two iterations: the weights, the scores of
    points, and clusters for them. -/
inductive Reading (O : Type) where
  | weights
  | score (x : O) (k : Int)
  | scores (x : O)
  | normalized (x : O)
  | assign (x : O) (site : Site)

/-- The reading, without what was read. -/
def Reading.perform (c : Component O M α) (g : Generator ω α) (m : Mixture M α) :
    Reading O → Attempt (Draws ω α) α Unit
  | .weights => (m.weights g).ignore
  | .score x k => (m.score c g x k).ignore
  | .scores x => (m.scores c g x).ignore
  | .normalized x => (m.normalized c g x).ignore
  | .assign x site => (m.assign c g x site).ignore

theorem Reading.perform_fills (c : Component O M α) (g : Generator ω α) (m : Mixture M α)
    (r : Reading O) : (r.perform c g m).Respects (Draws.Fills g m) := by
  cases r with
  | weights => exact (m.weights_fills g).ignore
  | score x k => exact (m.score_fills c g x k).ignore
  | scores x => exact (m.scores_fills c g x).ignore
  | normalized x => exact (m.normalized_fills c g x).ignore
  | assign x site => exact (m.assign_fills c g x site).ignore

/-! ## Sweeps -/

theorem renew_fills (f : Family ω O M α) (g : Generator ω α) (m : Mixture M α)
    (iteration : Nat) : (renew f m iteration).Respects (Draws.Fills g m) := by
  refine .bind Draws.Fills.trans (m.onSource_fills g _) ?_
  intro ms
  split
  · exact .pure Draws.Fills.refl _
  · exact .throw Draws.Fills.refl _

theorem route_fills (c : Component O M α) (g : Generator ω α) (m : Mixture M α)
    (iteration : Nat) (xs : List O) :
    ∀ (ms : List M) (j : Nat), (route c g m iteration ms j xs).Respects (Draws.Fills g m) := by
  induction xs with
  | nil =>
    intro ms j
    exact .pure Draws.Fills.refl _
  | cons x xs ih =>
    intro ms j
    refine .bind Draws.Fills.trans (m.assign_fills c g x _) ?_
    intro k
    refine .bind Draws.Fills.trans (.ofExcept Draws.Fills.refl _) ?_
    intro ms
    exact ih ms (j + 1)

/-- A sweep draws weights for its mixture if there are none, and no other ones. -/
theorem sweep_fills (f : Family ω O M α) (g : Generator ω α) (m : Mixture M α)
    (iteration : Nat) (data : List O) :
    (sweep f g m iteration data).Respects (Draws.Fills g m) := by
  refine .bind Draws.Fills.trans (renew_fills f g m iteration) ?_
  intro ms
  refine .bind Draws.Fills.trans (route_fills f.toComponent g m iteration data ms 0) ?_
  intro ms
  exact .ofExcept Draws.Fills.refl _

/-- **A sweep keeps the weights**, at whatever point it fails. -/
theorem sweep_respects (f : Family ω O M α) (g : Generator ω α) (m : Mixture M α)
    (iteration : Nat) (data : List O) :
    (sweep f g m iteration data).Respects Draws.Keeps :=
  (sweep_fills f g m iteration data).imp Draws.Fills.keeps

/-! ## Sound states -/

namespace State

variable {g : Generator ω α} {s : State ω M α} {d : Draws ω α} {w : List α}

/-- A state whose mixture counts the observations of each cluster, and whose weights were
    drawn for it. -/
structure Sound (g : Generator ω α) (s : State ω M α) : Prop where
  occupancy : s.mixture.occupancy.length = s.mixture.size
  drawn : s.draws.DrawnFor g s.mixture

theorem Sound.of_fills (hs : s.Sound g) (hd : s.draws.Fills g s.mixture d) :
    ({ s with draws := d } : State ω M α).Sound g :=
  ⟨hs.occupancy, hs.drawn.fills hd⟩

/-- There is a weight for each cluster, and the weights were drawn for the mixture. -/
theorem Sound.exists_drawWeights (hs : s.Sound g) (hd : s.draws.Fills g s.mixture d)
    (hw : d.weights = some w) :
    w.length = s.mixture.size ∧ ∃ t t', (s.mixture.drawWeights g).runOn t = (.ok w, t') := by
  obtain ⟨t, t', hdraw⟩ := hs.drawn.fills hd w hw
  exact ⟨(Mixture.length_of_drawWeights hdraw).trans hs.occupancy, t, t', hdraw⟩

theorem sound_replace {count : M → Nat} {ms : List M} (h : ms.length = s.mixture.size) :
    (s.replace count ms).Sound g := by
  refine ⟨?_, ?_⟩
  · show (ms.map count).length = (s.mixture.replace count ms).size
    rw [List.length_map, Mixture.size_replace h, h]
  · intro w hw
    cases hw

omit [Scalar α] in
/-- At the start nothing has been observed. -/
theorem occupancy_ofMixture (alpha0 : α) (ms : List M) (t : ω) :
    (ofMixture (Mixture.ofModels alpha0 ms) t).mixture.occupancy = List.replicate ms.length 0 :=
  List.map_const'

theorem sound_ofMixture (g : Generator ω α) (alpha0 : α) (ms : List M) (t : ω) :
    (ofMixture (Mixture.ofModels alpha0 ms) t).Sound g := by
  refine ⟨?_, ?_⟩
  · rw [occupancy_ofMixture, List.length_replicate]
    exact (Mixture.size_ofModels alpha0 ms).symm
  · intro w hw
    cases hw

end State

end DirichletMixture
