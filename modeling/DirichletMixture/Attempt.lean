/-
  DirichletMixture: operations that may fail and keep what they did before.

  An attempt acts on a state.  It ends with a value or a fault, and in both
  cases with the state that it left behind: draws that were consumed stay
  consumed, and weights that were drawn stay drawn.

  * `Attempt.runOn` is the outcome together with the state left behind;
  * `Attempt.focus` lets an attempt act on a part of a larger state, and
    `Attempt.times` repeats one;
  * `runOn_bind` and its neighbours say what each way of making an attempt does
    to both.
-/
import DirichletMixture.Fault

namespace DirichletMixture

/-- An operation on a state `σ` that may fail. -/
abbrev Attempt (σ α : Type) : Type → Type := ExceptT (Fault α) (StateM σ)

namespace Attempt

variable {σ τ α β γ : Type}

/-- The outcome, and the state left behind. -/
def runOn (a : Attempt σ α β) (s : σ) : Except (Fault α) β × σ := (ExceptT.run a).run s

/-- The attempt with given outcomes. -/
def of (f : σ → Except (Fault α) β × σ) : Attempt σ α β := ExceptT.mk fun s => f s

/-- An outcome that depends on no state. -/
def ofExcept (r : Except (Fault α) β) : Attempt σ α β := of fun s => (r, s)

/-- The attempt on a part of the state: `get` reads the part and `put` puts it
    back. -/
def focus (get : τ → σ) (put : σ → τ → τ) (a : Attempt σ α β) : Attempt τ α β :=
  of fun t => ((a.runOn (get t)).1, put (a.runOn (get t)).2 t)

/-- The attempt made so many times; the first failure ends it. -/
def times (a : Attempt σ α Unit) : Nat → Attempt σ α Unit
  | 0 => pure ()
  | n + 1 => do
    a
    a.times n

/-- What becomes of a state that a step replaces as a whole, or leaves as it is if
    the step fails. -/
def replacedBy (s : σ) : Except (Fault α) σ → Except (Fault α) Unit × σ
  | .ok s' => (.ok (), s')
  | .error e => (.error e, s)

/-- The attempt with its faults reworded. -/
def mapFault (f : Fault α → Fault α) (a : Attempt σ α β) : Attempt σ α β :=
  of fun s => ((a.runOn s).1.mapError f, (a.runOn s).2)

@[simp] theorem runOn_of (f : σ → Except (Fault α) β × σ) (s : σ) : (of f).runOn s = f s := rfl

@[simp] theorem runOn_ofExcept (r : Except (Fault α) β) (s : σ) :
    (ofExcept r : Attempt σ α β).runOn s = (r, s) := rfl

@[simp] theorem runOn_pure (b : β) (s : σ) : (pure b : Attempt σ α β).runOn s = (.ok b, s) := rfl

@[simp] theorem runOn_throw (e : Fault α) (s : σ) :
    (throw e : Attempt σ α β).runOn s = (.error e, s) := rfl

@[simp] theorem runOn_get (s : σ) : (get : Attempt σ α σ).runOn s = (.ok s, s) := rfl

@[simp] theorem runOn_modify (f : σ → σ) (s : σ) :
    (modify f : Attempt σ α PUnit).runOn s = (.ok ⟨⟩, f s) := rfl

@[simp] theorem runOn_lift (m : StateM σ β) (s : σ) :
    (liftM m : Attempt σ α β).runOn s = (.ok (m s).1, (m s).2) := rfl

@[simp] theorem runOn_focus (get : τ → σ) (put : σ → τ → τ) (a : Attempt σ α β) (t : τ) :
    (a.focus get put).runOn t = ((a.runOn (get t)).1, put (a.runOn (get t)).2 t) := rfl

@[simp] theorem runOn_mapFault (f : Fault α → Fault α) (a : Attempt σ α β) (s : σ) :
    (a.mapFault f).runOn s = ((a.runOn s).1.mapError f, (a.runOn s).2) := rfl

theorem runOn_bind (a : Attempt σ α β) (f : β → Attempt σ α γ) (s : σ) :
    (a >>= f).runOn s =
      match (a.runOn s).1 with
      | .ok b => (f b).runOn (a.runOn s).2
      | .error e => (.error e, (a.runOn s).2) := by
  simp only [runOn, ExceptT.run_bind, StateT.run_bind]
  rcases (ExceptT.run a).run s with ⟨r, s'⟩
  cases r <;> rfl

theorem runOn_bind_ok {a : Attempt σ α β} {f : β → Attempt σ α γ} {s s' : σ} {b : β}
    (h : a.runOn s = (.ok b, s')) : (a >>= f).runOn s = (f b).runOn s' := by
  rw [runOn_bind, h]

theorem runOn_bind_error {a : Attempt σ α β} {f : β → Attempt σ α γ} {s s' : σ} {e : Fault α}
    (h : a.runOn s = (.error e, s')) : (a >>= f).runOn s = (.error e, s') := by
  rw [runOn_bind, h]

end Attempt

end DirichletMixture
