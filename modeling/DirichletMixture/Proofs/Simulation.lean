/-
  DirichletMixture: attempts that do the same on two views of a state.

  An attempt may be made on a state and another one on a translation of it.  The
  second carries the first over if it leaves the translated state behind and returns
  the translated value, or fails as the first does; what the faults have to agree in
  is up to a function that forgets the rest of them.

  * `Attempt.CarriesOver` is this relation, and `CarriesOver.bind` and its neighbours
    build it up along the ways of making attempts;
  * `mapM_map` carries over a step that is done on every entry of a list.
-/
import DirichletMixture.Mixture.State
import DirichletMixture.Proofs.Attempt

namespace DirichletMixture

namespace Attempt

variable {σ τ α β γ β' γ' : Type}

theorem ext {a b : Attempt σ α β} (h : ∀ s, a.runOn s = b.runOn s) : a = b := funext h

@[simp] theorem runOn_map (f : β → γ) (a : Attempt σ α β) (s : σ) :
    (f <$> a).runOn s = ((a.runOn s).1.map f, (a.runOn s).2) := by
  rw [map_eq_pure_bind, runOn_bind]
  rcases a.runOn s with ⟨e | x, s'⟩ <;> rfl

/-- The attempt `b` does on the state `T s` what `a` does on `s`: it returns the value
    translated by `V`, or fails alike in the eyes of `u`, and leaves the translated state
    behind. -/
def CarriesOver (u : Fault α → Fault α) (T : σ → τ) (V : β → γ) (a : Attempt σ α β)
    (b : Attempt τ α γ) : Prop :=
  ∀ s, (b.runOn (T s)).1.mapError u = ((a.runOn s).1.map V).mapError u ∧
    (b.runOn (T s)).2 = T (a.runOn s).2

namespace CarriesOver

variable {u : Fault α → Fault α} {T : σ → τ} {V : β → γ} {W : β' → γ'} {a : Attempt σ α β}
  {b : Attempt τ α γ}

theorem pure {x : β} {y : γ} (h : V x = y) :
    CarriesOver u T V (pure x : Attempt σ α β) (pure y : Attempt τ α γ) := by
  intro s
  subst h
  exact ⟨rfl, rfl⟩

theorem throw (e : Fault α) :
    CarriesOver u T V (throw e : Attempt σ α β) (throw e : Attempt τ α γ) := by
  intro s
  exact ⟨rfl, rfl⟩

theorem ofExcept {r : Except (Fault α) β} {r' : Except (Fault α) γ}
    (h : r'.mapError u = (r.map V).mapError u) :
    CarriesOver u T V (ofExcept r : Attempt σ α β) (ofExcept r' : Attempt τ α γ) := by
  intro s
  exact ⟨h, rfl⟩

theorem of_map {a : Attempt σ α β} {b : Attempt σ α γ} (h : b = V <$> a) :
    CarriesOver u id V a b := by
  intro s
  subst h
  simp

theorem refl (a : Attempt σ α β) : CarriesOver u id id a a :=
  of_map (id_map a).symm

theorem ok {s s' : σ} {x : β} (h : CarriesOver u T V a b) (ha : a.runOn s = (.ok x, s')) :
    b.runOn (T s) = (.ok (V x), T s') := by
  have hs := h s
  rw [ha] at hs
  rcases hb : b.runOn (T s) with ⟨e | y, t⟩ <;> rw [hb] at hs
  · cases hs.1
  · rw [Except.ok.inj hs.1, show t = T s' from hs.2]

theorem error {s s' : σ} {e : Fault α} (h : CarriesOver u T V a b)
    (ha : a.runOn s = (.error e, s')) : ∃ e', b.runOn (T s) = (.error e', T s') ∧ u e' = u e := by
  have hs := h s
  rw [ha] at hs
  rcases hb : b.runOn (T s) with ⟨e' | y, t⟩ <;> rw [hb] at hs
  · rw [show t = T s' from hs.2]
    exact ⟨e', rfl, Except.error.inj hs.1⟩
  · cases hs.1

theorem bind {f : β → Attempt σ α β'} {f' : γ → Attempt τ α γ'} (h : CarriesOver u T V a b)
    (hf : ∀ x, CarriesOver u T W (f x) (f' (V x))) : CarriesOver u T W (a >>= f) (b >>= f') := by
  intro s
  rcases ha : a.runOn s with ⟨e | x, s'⟩
  · obtain ⟨e', hb, he⟩ := h.error ha
    rw [runOn_bind_error ha, runOn_bind_error hb]
    exact ⟨congrArg Except.error he, rfl⟩
  · rw [runOn_bind_ok ha, runOn_bind_ok (h.ok ha)]
    exact hf x s'

theorem mapFault {f : Fault α → Fault α} (h : CarriesOver u T V a b)
    (hf : ∀ e e', u e = u e' → u (f e) = u (f e')) :
    CarriesOver u T V (a.mapFault f) (b.mapFault f) := by
  intro s
  rcases ha : a.runOn s with ⟨e | x, s'⟩
  · obtain ⟨e', hb, he⟩ := h.error ha
    rw [runOn_mapFault, runOn_mapFault, ha, hb]
    exact ⟨congrArg Except.error (hf e' e he), rfl⟩
  · rw [runOn_mapFault, runOn_mapFault, ha, h.ok ha]
    exact ⟨rfl, rfl⟩

theorem ignore (h : CarriesOver u T V a b) : CarriesOver u T id a.ignore b.ignore := by
  intro s
  rcases ha : a.runOn s with ⟨e | x, s'⟩
  · obtain ⟨e', hb, he⟩ := h.error ha
    rw [runOn_ignore, runOn_ignore, ha, hb]
    exact ⟨congrArg Except.error he, rfl⟩
  · rw [runOn_ignore, runOn_ignore, ha, h.ok ha]
    exact ⟨rfl, rfl⟩

theorem onSource {a : Attempt σ α β} {b : Attempt σ α γ} (h : CarriesOver u id V a b) :
    CarriesOver u id V (Draws.onSource a) (Draws.onSource b) := by
  intro d
  rcases ha : a.runOn d.source with ⟨e | x, s⟩
  · obtain ⟨e', hb, he⟩ := h.error ha
    simp only [Draws.onSource, id_eq, runOn_focus, ha] at hb ⊢
    rw [hb]
    exact ⟨congrArg Except.error he, rfl⟩
  · have hb := h.ok ha
    simp only [Draws.onSource, id_eq, runOn_focus, ha] at hb ⊢
    rw [hb]
    exact ⟨rfl, rfl⟩

end CarriesOver

end Attempt

/-- A step that carries over from entries to translated entries does so from a list to
    the translated list. -/
theorem mapM_map {ε β γ β' γ' : Type} {step : β → Except ε γ} {step' : β' → Except ε γ'}
    {V : β → β'} {W : γ → γ'} (h : ∀ x, step' (V x) = (step x).map W) (xs : List β) :
    (xs.map V).mapM step' = (xs.mapM step).map (List.map W) := by
  induction xs with
  | nil => rfl
  | cons x xs ih =>
    rw [List.map_cons, List.mapM_cons, List.mapM_cons, ih, h]
    rcases step x with e | y
    · rfl
    · rcases xs.mapM step with e | ys <;> rfl

theorem mapM_eq_map_mapM {ε β γ γ' : Type} {step : β → Except ε γ} {step' : β → Except ε γ'}
    {W : γ → γ'} (h : ∀ x, step' x = (step x).map W) (xs : List β) :
    xs.mapM step' = (xs.mapM step).map (List.map W) := by
  have hmap : (xs.map id).mapM step' = (xs.mapM step).map (List.map W) := mapM_map h xs
  rwa [List.map_id] at hmap

end DirichletMixture
