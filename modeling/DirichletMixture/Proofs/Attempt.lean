/-
  DirichletMixture: attempts taken apart.

  * `runOn_bind_eq_ok` and `runOn_bind_eq_error` say how two attempts in a row end
    well and how they fail, `runOn_mapFault_eq_ok` and its neighbour the same of one
    whose faults are reworded;
  * `times_eq_error` finds the one that failed among several attempts;
  * `Attempt.Respects` relates the state that an attempt leaves behind to the one
    that it found, however it ends;
  * `Attempt.Matches` compares two attempts from related states: they fail alike or
    end well alike, and leave related states behind;
  * `Attempt.ignore` forgets the value of an attempt;
  * `map_eq_ok` and `bind_eq_ok` invert steps whose outcome depends on no state;
  * `mapM_eq_ok` says what a step that may fail does to every entry of a list, with
    `mapM_eq_ok_iff_forall₂` and `getElem?_of_mapM_eq_ok` for entries and their
    counterparts; `exists_map_eq_ok` and `exists_mapM_eq_ok` say that it succeeds if it does
    on each, and `exists_of_mapM_eq_error` that it fails where it first does.
-/
import Mathlib.Data.List.Forall2
import DirichletMixture.Attempt

namespace DirichletMixture

namespace Attempt

variable {σ τ α β γ : Type}

/-! ## Two attempts in a row -/

theorem runOn_bind_eq_ok {a : Attempt σ α β} {f : β → Attempt σ α γ} {s t : σ} {c : γ} :
    (a >>= f).runOn s = (.ok c, t) ↔
      ∃ b u, a.runOn s = (.ok b, u) ∧ (f b).runOn u = (.ok c, t) := by
  rcases h : a.runOn s with ⟨e | b, u⟩
  · rw [runOn_bind_error h]; simp
  · rw [runOn_bind_ok h]; simp [and_assoc]

theorem runOn_bind_eq_error {a : Attempt σ α β} {f : β → Attempt σ α γ} {s t : σ}
    {e : Fault α} :
    (a >>= f).runOn s = (.error e, t) ↔
      a.runOn s = (.error e, t) ∨
        ∃ b u, a.runOn s = (.ok b, u) ∧ (f b).runOn u = (.error e, t) := by
  rcases h : a.runOn s with ⟨e' | b, u⟩
  · rw [runOn_bind_error h]; simp
  · rw [runOn_bind_ok h]; simp [and_assoc]

theorem ofExcept_bind_ofExcept (r : Except (Fault α) β) (f : β → Except (Fault α) γ) :
    (ofExcept r >>= fun b => ofExcept (f b) : Attempt σ α γ) = ofExcept (r.bind f) := by
  cases r <;> rfl

theorem runOn_mapFault_eq_ok {a : Attempt σ α β} {f : Fault α → Fault α} {s t : σ} {b : β} :
    (a.mapFault f).runOn s = (.ok b, t) ↔ a.runOn s = (.ok b, t) := by
  rw [runOn_mapFault]
  rcases a.runOn s with ⟨e | b', t'⟩
  · constructor <;> intro h <;> cases h
  · exact Iff.rfl

theorem runOn_mapFault_eq_error {a : Attempt σ α β} {f : Fault α → Fault α} {s t : σ}
    {e : Fault α} :
    (a.mapFault f).runOn s = (.error e, t) ↔ ∃ e', a.runOn s = (.error e', t) ∧ f e' = e := by
  rw [runOn_mapFault]
  rcases a.runOn s with ⟨e' | b, t'⟩
  · constructor
    · intro h
      cases h
      exact ⟨e', rfl, rfl⟩
    · rintro ⟨e'', h, rfl⟩
      cases h
      rfl
  · constructor
    · intro h
      cases h
    · rintro ⟨e', h, -⟩
      cases h

/-! ## An attempt again and again -/

/-- A repeated attempt fails exactly if it does once, after it has ended well as often
    before. -/
theorem times_eq_error {a : Attempt σ α Unit} {s s' : σ} {e : Fault α} {n : Nat} :
    (a.times n).runOn s = (.error e, s') ↔
      ∃ i < n, ∃ s₁, (a.times i).runOn s = (.ok (), s₁) ∧ a.runOn s₁ = (.error e, s') := by
  induction n generalizing s with
  | zero => simp [times]
  | succ n ih =>
    rw [times, runOn_bind_eq_error]
    constructor
    · rintro (h | ⟨u, s₁, h, hrest⟩)
      · exact ⟨0, Nat.succ_pos n, s, rfl, h⟩
      · obtain ⟨i, hi, s₂, hi', he⟩ := ih.1 hrest
        refine ⟨i + 1, Nat.succ_lt_succ hi, s₂, ?_, he⟩
        rw [times, runOn_bind_ok h, hi']
    · rintro ⟨_ | i, hi, s₁, hi', he⟩
      · obtain ⟨-, rfl⟩ := Prod.mk.inj hi'
        exact Or.inl he
      · obtain ⟨u, s₂, h, hrest⟩ := runOn_bind_eq_ok.1 hi'
        exact Or.inr ⟨u, s₂, h, ih.2 ⟨i, Nat.lt_of_succ_lt_succ hi, s₁, hrest, he⟩⟩

/-! ## The value forgotten -/

/-- The attempt without its value. -/
def ignore (a : Attempt σ α β) : Attempt σ α Unit :=
  of fun s => ((a.runOn s).1.map fun _ => (), (a.runOn s).2)

@[simp] theorem runOn_ignore (a : Attempt σ α β) (s : σ) :
    a.ignore.runOn s = ((a.runOn s).1.map fun _ => (), (a.runOn s).2) := rfl

/-! ## Relations between the states before and after -/

/-- The state that an attempt leaves behind stands in the relation `R` to the one
    that it found. -/
def Respects (R : σ → σ → Prop) (a : Attempt σ α β) : Prop :=
  ∀ s, R s (a.runOn s).2

section
variable {R : σ → σ → Prop}

theorem Respects.imp {R' : σ → σ → Prop} {a : Attempt σ α β} (ha : a.Respects R)
    (h : ∀ s t, R s t → R' s t) : a.Respects R' := by
  intro s
  exact h _ _ (ha s)

theorem Respects.pure (hr : ∀ s, R s s) (b : β) : (pure b : Attempt σ α β).Respects R := by
  intro s
  exact hr s

theorem Respects.throw (hr : ∀ s, R s s) (e : Fault α) :
    (throw e : Attempt σ α β).Respects R := by
  intro s
  exact hr s

theorem Respects.ofExcept (hr : ∀ s, R s s) (r : Except (Fault α) β) :
    (ofExcept r : Attempt σ α β).Respects R := by
  intro s
  exact hr s

theorem Respects.mapFault {a : Attempt σ α β} (ha : a.Respects R) (f : Fault α → Fault α) :
    (a.mapFault f).Respects R :=
  ha

theorem Respects.ignore {a : Attempt σ α β} (ha : a.Respects R) : a.ignore.Respects R :=
  ha

/-- What holds of a part of the state holds where the part is put back faithfully. -/
theorem Respects.focus {get : τ → σ} {put : σ → τ → τ} (hget : ∀ s t, get (put s t) = s)
    {a : Attempt σ α β} (ha : a.Respects R) :
    (a.focus get put).Respects fun t t' => R (get t) (get t') := by
  intro t
  rw [runOn_focus, hget]
  exact ha (get t)

/-- The second attempt may make use of how the first one ended. -/
theorem Respects.bind_of_runOn (ht : ∀ s t u, R s t → R t u → R s u) {a : Attempt σ α β}
    {f : β → Attempt σ α γ} (ha : a.Respects R)
    (hf : ∀ s b t, a.runOn s = (.ok b, t) → R t ((f b).runOn t).2) : (a >>= f).Respects R := by
  intro s
  have hs := ha s
  rcases h : a.runOn s with ⟨e | b, t⟩
  · rw [runOn_bind_error h]; rwa [h] at hs
  · rw [runOn_bind_ok h]; rw [h] at hs
    exact ht _ _ _ hs (hf s b t h)

theorem Respects.bind (ht : ∀ s t u, R s t → R t u → R s u) {a : Attempt σ α β}
    {f : β → Attempt σ α γ} (ha : a.Respects R) (hf : ∀ b, (f b).Respects R) :
    (a >>= f).Respects R :=
  ha.bind_of_runOn ht fun _ b t _ => hf b t

theorem Respects.times (hr : ∀ s, R s s) (ht : ∀ s t u, R s t → R t u → R s u)
    {a : Attempt σ α Unit} (ha : a.Respects R) (n : Nat) : (a.times n).Respects R := by
  induction n with
  | zero => exact .pure hr ()
  | succ n ih =>
    refine .bind ht ha ?_
    intro u
    exact ih

end

/-! ## Two attempts side by side -/

/-- Two outcomes agree: they are the same fault, or values related by `V`. -/
def agree (V : β → γ → Prop) : Except (Fault α) β → Except (Fault α) γ → Prop
  | .ok x, .ok y => V x y
  | .error e, .error e' => e = e'
  | _, _ => False

theorem agree_eq {r r' : Except (Fault α) β} : agree Eq r r' ↔ r = r' := by
  rcases r with e | x <;> rcases r' with e' | y <;> simp [agree]

/-- From states related by `R`, both attempts end alike and leave states behind that
    are related by `R`. -/
def Matches (R : σ → τ → Prop) (V : β → γ → Prop) (a : Attempt σ α β) (b : Attempt τ α γ) :
    Prop :=
  ∀ s t, R s t → agree V (a.runOn s).1 (b.runOn t).1 ∧ R (a.runOn s).2 (b.runOn t).2

section
variable {R : σ → τ → Prop} {V : β → γ → Prop} {a : Attempt σ α β} {b : Attempt τ α γ}

theorem Matches.pure {x : β} {y : γ} (h : V x y) :
    Matches R V (pure x : Attempt σ α β) (pure y : Attempt τ α γ) := by
  intro s t hR
  exact ⟨h, hR⟩

theorem Matches.bind {β' γ' : Type} {W : β' → γ' → Prop} {f : β → Attempt σ α β'}
    {h : γ → Attempt τ α γ'} (hab : Matches R V a b)
    (hfh : ∀ x y, V x y → Matches R W (f x) (h y)) : Matches R W (a >>= f) (b >>= h) := by
  intro s t hR
  have hab := hab s t hR
  rcases ha : a.runOn s with ⟨e | x, s'⟩ <;> rcases hb : b.runOn t with ⟨e' | y, t'⟩ <;>
    rw [ha, hb] at hab
  · rw [runOn_bind_error ha, runOn_bind_error hb]; exact hab
  · exact hab.1.elim
  · exact hab.1.elim
  · rw [runOn_bind_ok ha, runOn_bind_ok hb]; exact hfh x y hab.1 s' t' hab.2

theorem Matches.times {a : Attempt σ α Unit} {b : Attempt τ α Unit} (h : Matches R Eq a b)
    (n : Nat) : Matches R Eq (a.times n) (b.times n) := by
  induction n with
  | zero => exact .pure rfl
  | succ n ih =>
    refine h.bind ?_
    intro u u' _
    exact ih

theorem Matches.ok {s s' : σ} {t : τ} {x : β} (h : Matches R V a b) (hR : R s t)
    (ha : a.runOn s = (.ok x, s')) : ∃ y t', b.runOn t = (.ok y, t') ∧ V x y ∧ R s' t' := by
  have hab := h s t hR
  rw [ha] at hab
  rcases hb : b.runOn t with ⟨e' | y, t'⟩ <;> rw [hb] at hab
  · exact hab.1.elim
  · exact ⟨y, t', rfl, hab⟩

theorem Matches.error {s s' : σ} {t : τ} {e : Fault α} (h : Matches R V a b) (hR : R s t)
    (ha : a.runOn s = (.error e, s')) : ∃ t', b.runOn t = (.error e, t') ∧ R s' t' := by
  have hab := h s t hR
  rw [ha] at hab
  rcases hb : b.runOn t with ⟨e' | y, t'⟩ <;> rw [hb] at hab
  · obtain ⟨rfl, hR'⟩ := hab
    exact ⟨t', rfl, hR'⟩
  · exact hab.1.elim

end

end Attempt

/-! ## Outcomes -/

section
variable {ε β γ : Type}

theorem map_eq_ok {r : Except ε β} {f : β → γ} {y : γ} :
    r.map f = .ok y ↔ ∃ x, r = .ok x ∧ f x = y := by
  rcases r with e | x <;> simp [Except.map]

theorem bind_eq_ok {r : Except ε β} {f : β → Except ε γ} {y : γ} :
    r >>= f = .ok y ↔ ∃ x, r = .ok x ∧ f x = .ok y := by
  rcases r with e | x <;> simp [bind, Except.bind]

end

/-! ## Lists -/

/-- Two lists are turned into the same one if their entries are, one by one. -/
theorem map_eq_map_iff_forall₂ {β γ δ : Type} {f : β → δ} {g : γ → δ} {xs : List β}
    {ys : List γ} : xs.map f = ys.map g ↔ List.Forall₂ (fun x y => f x = g y) xs ys := by
  rw [← List.forall₂_eq_eq_eq, List.forall₂_map_left_iff, List.forall₂_map_right_iff]

section
variable {ε β γ : Type} {f : β → Except ε γ} {xs : List β} {ys : List γ}

/-- A step that may fail succeeds on a list if it does on every entry. -/
theorem mapM_eq_ok : xs.mapM f = .ok ys ↔ xs.map f = ys.map Except.ok := by
  induction xs generalizing ys with
  | nil => cases ys <;> simp [pure, Except.pure]
  | cons x xs ih =>
    cases ys with
    | nil =>
      rw [List.mapM_cons]
      rcases f x with e | y <;> rcases xs.mapM f with e | zs <;>
        simp [bind, Except.bind, pure, Except.pure]
    | cons y ys =>
      have hstep : (x :: xs).mapM f = .ok (y :: ys) ↔ f x = .ok y ∧ xs.mapM f = .ok ys := by
        rw [List.mapM_cons]
        rcases f x with e | z <;> rcases xs.mapM f with e | zs <;>
          simp [bind, Except.bind, pure, Except.pure]
      rw [hstep, ih, List.map_cons, List.map_cons, List.cons.injEq]

/-- It turns every entry into its counterpart. -/
theorem mapM_eq_ok_iff_forall₂ :
    xs.mapM f = .ok ys ↔ List.Forall₂ (fun x y => f x = .ok y) xs ys := by
  rw [mapM_eq_ok, map_eq_map_iff_forall₂]

theorem length_of_mapM_eq_ok (h : xs.mapM f = .ok ys) : xs.length = ys.length :=
  (mapM_eq_ok_iff_forall₂.1 h).length_eq

theorem getElem?_of_mapM_eq_ok (h : xs.mapM f = .ok ys) {i : Nat} {x : β} (hx : xs[i]? = some x) :
    ∃ y, ys[i]? = some y ∧ f x = .ok y := by
  have hi : (xs.map f)[i]? = (ys.map Except.ok)[i]? := by rw [mapM_eq_ok.1 h]
  rw [List.getElem?_map, List.getElem?_map, hx] at hi
  obtain ⟨y, hy, hfx⟩ := Option.map_eq_some_iff.1 hi.symm
  exact ⟨y, hy, hfx.symm⟩

theorem exists_getElem?_of_mapM_eq_ok (h : xs.mapM f = .ok ys) {i : Nat} {y : γ}
    (hy : ys[i]? = some y) : ∃ x, xs[i]? = some x ∧ f x = .ok y := by
  have hi : (xs.map f)[i]? = (ys.map Except.ok)[i]? := by rw [mapM_eq_ok.1 h]
  rw [List.getElem?_map, List.getElem?_map, hy] at hi
  exact Option.map_eq_some_iff.1 hi

end

/-- If every entry is turned into something with a property, there is a list of these. -/
theorem exists_map_eq_ok {ε β γ : Type} {f : β → Except ε γ} {P : γ → Prop} {xs : List β}
    (h : ∀ x ∈ xs, ∃ y, f x = .ok y ∧ P y) :
    ∃ ys : List γ, xs.map f = ys.map Except.ok ∧ ∀ y ∈ ys, P y := by
  induction xs with
  | nil => exact ⟨[], rfl, by simp⟩
  | cons x xs ih =>
    obtain ⟨⟨y, hy, hP⟩, hrest⟩ := List.forall_mem_cons.1 h
    obtain ⟨ys, hys, hPs⟩ := ih hrest
    exact ⟨y :: ys, by rw [List.map_cons, hy, hys, List.map_cons],
      List.forall_mem_cons.2 ⟨hP, hPs⟩⟩

theorem exists_mapM_eq_ok {ε β γ : Type} {f : β → Except ε γ} {xs : List β}
    (h : ∀ x ∈ xs, ∃ y, f x = .ok y) : ∃ ys, xs.mapM f = .ok ys := by
  obtain ⟨ys, hys, -⟩ := exists_map_eq_ok (P := fun _ => True) fun x hx =>
    (h x hx).imp fun y hy => ⟨hy, trivial⟩
  exact ⟨ys, mapM_eq_ok.2 hys⟩

/-- A step that fails on a list succeeds on the entries before one on which it fails so. -/
theorem exists_of_mapM_eq_error {ε β γ : Type} {f : β → Except ε γ} {xs : List β} {e : ε}
    (h : xs.mapM f = .error e) :
    ∃ before x after, xs = before ++ x :: after ∧ (∀ y ∈ before, ∃ z, f y = .ok z) ∧
      f x = .error e := by
  induction xs with
  | nil => cases h
  | cons x xs ih =>
    rw [List.mapM_cons] at h
    rcases hx : f x with e' | z <;> rw [hx] at h
    · obtain rfl := Except.error.inj h
      exact ⟨[], x, xs, rfl, by simp, hx⟩
    · have hxs : xs.mapM f = .error e := by
        rcases hrest : xs.mapM f with e' | zs <;> rw [hrest] at h
        · exact congrArg _ (Except.error.inj h)
        · cases h
      obtain ⟨before, y, after, rfl, hbefore, hy⟩ := ih hxs
      exact ⟨x :: before, y, after, rfl, List.forall_mem_cons.2 ⟨⟨z, hx⟩, hbefore⟩, hy⟩

end DirichletMixture
