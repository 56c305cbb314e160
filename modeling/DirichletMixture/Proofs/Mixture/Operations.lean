/-
  DirichletMixture: one vector of weights between two updates.

  A live mixture is read and updated in any order, and some of this fails.  Readings see
  the weights that the first of them has drawn, until the next update that is accepted.

  * `Operation` is one reading or update, `State.after` is the state after some of them,
    and `runOn_perform_of_weights` and its neighbours say what each of them does;
  * `Operation.answer` is what an operation returns once the weights are known, and
    `after_of_weights` follows operations that share one vector of weights;
  * `Mixture.adoptAll` is a mixture after the components of some updates, and
    `mixture_after`: the accepted updates alone say what becomes of the live mixture;
  * `Operation.lastAccepted?` are the components of the last update that is accepted,
    and `after_mixture` finds them in the live mixture;
  * `one_mixture_between_updates` puts this together.
-/
import Mathlib.Data.List.Induction
import DirichletMixture.Proofs.Exact.Basic
import DirichletMixture.Proofs.Chain.Reading
import DirichletMixture.Proofs.Chain.Tallies
import DirichletMixture.Proofs.Simulation

namespace DirichletMixture

variable {ω O M α : Type}

/-! ## Operations -/

/-- What can be done with a live mixture. -/
inductive Operation (O M : Type) where
  | weights
  | score (x : O) (k : Int)
  | scores (x : O)
  | models
  | update (ms : List M)

/-- What an operation returns. -/
inductive Answer (M α : Type) where
  | weights (w : List α)
  | score (p : α)
  | scores (ps : List α)
  | models (ms : List M)
  | updated

namespace Operation

/-- Whether the operation needs the weights. -/
def weighs : Operation O M → Bool
  | .weights | .score _ _ | .scores _ => true
  | .models | .update _ => false

/-- The components of an update that a mixture of `n` clusters accepts. -/
def accepted? (n : Nat) : Operation O M → Option (List M)
  | .update ms => if ms.length = n then some ms else none
  | _ => none

/-- The components of the updates that a mixture of `n` clusters accepts, in order. -/
def updates (n : Nat) (ops : List (Operation O M)) : List (List M) :=
  ops.filterMap (accepted? n)

/-- The components of the last update that is accepted. -/
def lastAccepted? (n : Nat) (ops : List (Operation O M)) : Option (List M) :=
  (ops.filterMap (accepted? n)).getLast?

theorem length_of_accepted? {n : Nat} {op : Operation O M} {ms : List M}
    (h : op.accepted? n = some ms) : op = .update ms ∧ ms.length = n := by
  cases op with
  | update ms' =>
    rw [accepted?, Option.ite_none_right_eq_some] at h
    obtain ⟨hlen, hms⟩ := h
    cases hms
    exact ⟨rfl, hlen⟩
  | _ => cases h

theorem length_of_mem_updates {n : Nat} {ops : List (Operation O M)} {ms : List M}
    (h : ms ∈ updates n ops) : ms.length = n := by
  obtain ⟨op, -, hop⟩ := List.mem_filterMap.1 h
  exact (length_of_accepted? hop).2

variable [Scalar α] (c : Component O M α)

def perform (g : Generator ω α) : Operation O M → Attempt (State ω M α) α (Answer M α)
  | .weights => .weights <$> State.read fun m => m.weights g
  | .score x k => .score <$> State.read fun m => m.score c g x k
  | .scores x => .scores <$> State.read fun m => m.scores c g x
  | .models => State.read fun m => pure (.models m.models)
  | .update ms => (fun _ => .updated) <$> State.update c.count ms

/-- What the operation returns if the weights are `w`. -/
def answer (m : Mixture M α) (w : List α) : Operation O M → Except (Fault α) (Answer M α)
  | .weights => .ok (.weights w)
  | .score x k => (m.scoreFor c w x k).map .score
  | .scores x => (m.scoresFor c w x).map .scores
  | .models => .ok (.models m.models)
  | .update ms => (m.adopt c.count ms).map fun _ => .updated

end Operation

/-! ## Components adopted again and again -/

namespace Mixture

/-- The mixture after it has adopted some lists of components, one after the other. -/
def adoptAll (count : M → Nat) (m : Mixture M α) (updates : List (List M)) : Mixture M α :=
  updates.foldl (replace count) m

section
variable {count : M → Nat} {m : Mixture M α} {updates : List (List M)}
  (h : ∀ ms ∈ updates, ms.length = m.size)
include h

theorem size_adoptAll : (m.adoptAll count updates).size = m.size := by
  induction updates generalizing m with
  | nil => rfl
  | cons ms updates ih =>
    obtain ⟨hms, hrest⟩ := List.forall_mem_cons.1 h
    have hsize : (m.replace count ms).size = m.size := size_replace hms
    rw [← hsize] at hrest ⊢
    exact ih hrest

/-- Only the last components are left. -/
theorem models_adoptAll :
    (m.adoptAll count updates).models = updates.getLast?.getD m.models := by
  rcases updates.eq_nil_or_concat' with rfl | ⟨updates, ms, rfl⟩
  · rfl
  · rw [List.forall_mem_append, List.forall_mem_singleton] at h
    obtain ⟨hbefore, hms⟩ := h
    have hsize : (m.adoptAll count updates).size = m.size := size_adoptAll hbefore
    rw [← hsize] at hms
    rw [adoptAll, List.foldl_append, List.getLast?_concat]
    exact models_replace hms

end

theorem occupancy_adoptAll (count : M → Nat) (m : Mixture M α) (updates : List (List M)) :
    (m.adoptAll count updates).occupancy =
      (updates.getLast?.map (List.map count)).getD m.occupancy := by
  rcases updates.eq_nil_or_concat' with rfl | ⟨updates, ms, rfl⟩
  · rfl
  · rw [adoptAll, List.foldl_append, List.getLast?_concat]
    rfl

end Mixture

/-! ## States -/

namespace State

/-- The state after some operations that have the draws `d` once one of them needs the
    weights. -/
def settled (d : Draws ω α) (ops : List (Operation O M)) (s : State ω M α) : State ω M α :=
  if ops.any Operation.weighs then { s with draws := d } else s

@[simp] theorem mixture_settled (d : Draws ω α) (ops : List (Operation O M))
    (s : State ω M α) : (s.settled d ops).mixture = s.mixture := by
  unfold settled
  split <;> rfl

theorem settled_concat_of_weighs {op : Operation O M} (hop : op.weighs = true) (d : Draws ω α)
    (ops : List (Operation O M)) (s : State ω M α) :
    s.settled d (ops ++ [op]) = { s with draws := d } := by
  simp [settled, hop]

theorem settled_concat_of_idle {op : Operation O M} (hop : op.weighs = false) (d : Draws ω α)
    (ops : List (Operation O M)) (s : State ω M α) :
    s.settled d (ops ++ [op]) = s.settled d ops := by
  simp [settled, hop]

variable [Scalar α]

/-- The state after some operations. -/
def after (c : Component O M α) (g : Generator ω α) :
    List (Operation O M) → State ω M α → State ω M α
  | [], s => s
  | op :: ops, s => after c g ops ((op.perform c g).runOn s).2

variable {c : Component O M α} {g : Generator ω α} {s : State ω M α} {d : Draws ω α}
  {w : List α} {op : Operation O M} {ops : List (Operation O M)} {e : Fault α}

theorem after_append (ops ops' : List (Operation O M)) (s : State ω M α) :
    after c g (ops ++ ops') s = after c g ops' (after c g ops s) := by
  induction ops generalizing s with
  | nil => rfl
  | cons op ops ih => exact ih _

/-! ## What each operation does -/

theorem runOn_perform_of_weights (hop : op.weighs = true)
    (h : (s.mixture.weights g).runOn s.draws = (.ok w, d)) :
    (op.perform c g).runOn s = (op.answer c s.mixture w, { s with draws := d }) := by
  cases op with
  | weights => rw [Operation.perform, Attempt.runOn_map, runOn_read, h]; rfl
  | score x k =>
    rw [Operation.perform, Attempt.runOn_map, runOn_read, Mixture.score_eq,
      Attempt.runOn_bind_ok h]
    rfl
  | scores x =>
    rw [Operation.perform, Attempt.runOn_map, runOn_read, Mixture.scores_eq,
      Attempt.runOn_bind_ok h]
    rfl
  | models => cases hop
  | update ms => cases hop

theorem runOn_perform_of_error (hop : op.weighs = true)
    (h : (s.mixture.weights g).runOn s.draws = (.error e, d)) :
    (op.perform c g).runOn s = (.error e, { s with draws := d }) := by
  cases op with
  | weights => rw [Operation.perform, Attempt.runOn_map, runOn_read, h]; rfl
  | score x k =>
    rw [Operation.perform, Attempt.runOn_map, runOn_read, Mixture.score_eq,
      Attempt.runOn_bind_error h]
    rfl
  | scores x =>
    rw [Operation.perform, Attempt.runOn_map, runOn_read, Mixture.scores_eq,
      Attempt.runOn_bind_error h]
    rfl
  | models => cases hop
  | update ms => cases hop

/-- An update with another number of components fails and changes nothing. -/
theorem runOn_perform_update_of_ne {ms : List M} (h : ms.length ≠ s.mixture.size) :
    ((Operation.update ms).perform c g).runOn s =
      (.error (.wrongCount s.mixture.size ms.length none), s) := by
  have hadopt : s.mixture.adopt c.count ms =
      .error (.wrongCount s.mixture.size ms.length none) := if_neg h
  rw [Operation.perform, Attempt.runOn_map, update, Attempt.runOn_of, hadopt]
  rfl

/-- An operation that needs no weights and is no update that is accepted changes nothing. -/
theorem runOn_perform_of_idle (hop : op.weighs = false)
    (ha : op.accepted? s.mixture.size = none) (w : List α) :
    (op.perform c g).runOn s = (op.answer c s.mixture w, s) := by
  cases op with
  | models => rfl
  | update ms =>
    have hlen : ms.length ≠ s.mixture.size := by
      intro hlen
      rw [Operation.accepted?, if_pos hlen] at ha
      cases ha
    rw [runOn_perform_update_of_ne hlen, Operation.answer, Mixture.adopt, if_neg hlen]
    rfl
  | _ => cases hop

/-- An update that is accepted replaces the components and drops the weights. -/
theorem runOn_perform_of_accepted {ms : List M} (ha : op.accepted? s.mixture.size = some ms) :
    (op.perform c g).runOn s = (.ok .updated, s.replace c.count ms) := by
  obtain ⟨rfl, hlen⟩ := Operation.length_of_accepted? ha
  rw [Operation.perform, Attempt.runOn_map, runOn_update_of_length hlen]
  rfl

/-! ## The live mixture -/

/-- Short of an update that is accepted, an operation changes at most the draws. -/
theorem perform_fills (ha : op.accepted? s.mixture.size = none) :
    ∃ d, ((op.perform c g).runOn s).2 = { s with draws := d } ∧ s.draws.Fills g s.mixture d := by
  have hfills := s.mixture.weights_fills g s.draws
  rcases hop : op.weighs with _ | _
  · rw [runOn_perform_of_idle hop ha []]
    exact ⟨s.draws, rfl, .refl _⟩
  · rcases hw : (s.mixture.weights g).runOn s.draws with ⟨e | w, d⟩ <;> rw [hw] at hfills
    · exact ⟨d, by rw [runOn_perform_of_error hop hw], hfills⟩
    · exact ⟨d, by rw [runOn_perform_of_weights hop hw], hfills⟩

theorem Sound.perform (hs : s.Sound g) (op : Operation O M) :
    ((op.perform c g).runOn s).2.Sound g := by
  rcases ha : op.accepted? s.mixture.size with _ | ms
  · obtain ⟨d, hd, hfills⟩ := perform_fills (c := c) ha
    rw [hd]
    exact hs.of_fills hfills
  · obtain ⟨-, hlen⟩ := Operation.length_of_accepted? ha
    rw [runOn_perform_of_accepted ha]
    exact sound_replace hlen

theorem Sound.after (hs : s.Sound g) (ops : List (Operation O M)) :
    (State.after c g ops s).Sound g := by
  induction ops generalizing s with
  | nil => exact hs
  | cons op ops ih => exact ih (hs.perform op)

/-- **Only accepted updates count** for what becomes of a live mixture. -/
theorem mixture_after (ops : List (Operation O M)) (s : State ω M α) :
    (after c g ops s).mixture =
      s.mixture.adoptAll c.count (Operation.updates s.mixture.size ops) := by
  induction ops generalizing s with
  | nil => rfl
  | cons op ops ih =>
    rw [after, ih, Operation.updates, Operation.updates]
    -- only an update that is accepted adds to the list, and only it changes the mixture
    rcases ha : op.accepted? s.mixture.size with _ | ms
    · obtain ⟨d, hd, -⟩ := perform_fills (c := c) (g := g) ha
      rw [hd, List.filterMap_cons_none ha]
    · obtain ⟨-, hlen⟩ := Operation.length_of_accepted? ha
      have hsize : (s.replace c.count ms).mixture.size = s.mixture.size :=
        Mixture.size_replace hlen
      rw [runOn_perform_of_accepted ha, hsize, List.filterMap_cons_some ha]
      rfl

/-- The live components are those of the last update that was accepted, and the occupancy
    counts what they have absorbed. -/
theorem after_mixture (ops : List (Operation O M)) (s : State ω M α) :
    (after c g ops s).mixture.size = s.mixture.size ∧
      (after c g ops s).mixture.models =
        (Operation.lastAccepted? s.mixture.size ops).getD s.mixture.models ∧
      (after c g ops s).mixture.occupancy =
        ((Operation.lastAccepted? s.mixture.size ops).map (List.map c.count)).getD
          s.mixture.occupancy := by
  have hlengths : ∀ ms ∈ Operation.updates s.mixture.size ops, ms.length = s.mixture.size :=
    fun _ => Operation.length_of_mem_updates
  rw [mixture_after]
  exact ⟨Mixture.size_adoptAll hlengths, Mixture.models_adoptAll hlengths,
    Mixture.occupancy_adoptAll c.count s.mixture _⟩

/-! ## Operations between two updates -/

section
variable (h : (s.mixture.weights g).runOn s.draws = (.ok w, d))
include h

theorem weights_of_settled (ops : List (Operation O M)) :
    (s.mixture.weights g).runOn (s.settled d ops).draws = (.ok w, d) := by
  unfold settled
  by_cases hops : ops.any Operation.weighs = true
  · rw [if_pos hops]
    exact Mixture.runOn_weights_of_some (Mixture.weights_of_weights_eq_ok h)
  · rw [if_neg hops]
    exact h

/-- One more operation returns what the weights say. -/
theorem runOn_perform_of_settled (ha : op.accepted? s.mixture.size = none)
    (ops : List (Operation O M)) :
    (op.perform c g).runOn (s.settled d ops) =
      (op.answer c s.mixture w, s.settled d (ops ++ [op])) := by
  have hweights := weights_of_settled h ops
  rw [← mixture_settled d ops s] at hweights ha
  rcases hop : op.weighs with _ | _
  · rw [runOn_perform_of_idle hop ha w, mixture_settled, settled_concat_of_idle hop]
  · rw [runOn_perform_of_weights hop hweights, mixture_settled, settled_concat_of_weighs hop]

/-- Operations none of which is accepted as an update leave a settled state. -/
theorem after_of_weights (hops : ∀ op ∈ ops, op.accepted? s.mixture.size = none) :
    after c g ops s = s.settled d ops := by
  induction ops using List.reverseRecOn with
  | nil => rfl
  | append_singleton ops op ih =>
    have hlast := runOn_perform_of_settled (c := c) h (hops op (by simp)) ops
    rw [after_append, ih fun op' h' => hops op' (by simp [h'])]
    simp only [after, hlast]

end

/-- Until one of them needs the weights, operations change nothing. -/
theorem after_of_idle (hops : ∀ op ∈ ops, op.accepted? s.mixture.size = none)
    (hidle : ops.any Operation.weighs = false) : after c g ops s = s := by
  induction ops with
  | nil => rfl
  | cons op ops ih =>
    obtain ⟨hop, hrest⟩ := Bool.or_eq_false_iff.1 hidle
    rw [after, runOn_perform_of_idle hop (hops op List.mem_cons_self) []]
    exact ih (fun op' h' => hops op' (List.mem_cons_of_mem _ h')) hrest

/-- The operations `ops`, made one after the other, share the weights `w`: they are found,
    or drawn for the live mixture by the first operation that needs them, which leaves the
    draws `d`. -/
structure SharesWeights (c : Component O M α) (g : Generator ω α) (s : State ω M α)
    (ops : List (Operation O M)) (w : List α) (d : Draws ω α) : Prop where
  drawn : s.draws.weights = some w ∧ d = s.draws ∨
    s.draws.weights = none ∧
      ∃ t, (s.mixture.drawWeights g).runOn s.draws.source = (.ok w, t) ∧ d = ⟨t, some w⟩
  length : w.length = s.mixture.size
  /-- Nothing changes before the first operation that needs the weights, nor after it. -/
  states : ∀ i, after c g (ops.take i) s = s.settled d (ops.take i)
  answers : ∀ (i : Nat) (op : Operation O M), ops[i]? = some op →
    ((op.perform c g).runOn (after c g (ops.take i) s)).1 = op.answer c s.mixture w
  /-- One by one and all at once, the scores of a point are the same. -/
  scores : ∀ x, (∀ m ∈ s.mixture.models, ∃ q, c.density m x = .ok q) →
    ∃ ps, ps.length = s.mixture.size ∧
      (∀ i : Nat, ops[i]? = some (.scores x) →
        (((Operation.scores x).perform c g).runOn (after c g (ops.take i) s)).1 =
          .ok (.scores ps)) ∧
      ∀ (i k : Nat) (p : α), ps[k]? = some p → ops[i]? = some (.score x k) →
        (((Operation.score x k).perform c g).runOn (after c g (ops.take i) s)).1 =
          .ok (.score p)

theorem Sound.sharesWeights (hs : s.Sound g)
    (hops : ∀ op ∈ ops, op.accepted? s.mixture.size = none)
    (h : (s.mixture.weights g).runOn s.draws = (.ok w, d)) : s.SharesWeights c g ops w d := by
  have hstates : ∀ i, State.after c g (ops.take i) s = s.settled d (ops.take i) := by
    intro i
    exact after_of_weights h fun op hop => hops op (List.mem_of_mem_take hop)
  have hanswers : ∀ (i : Nat) (op : Operation O M), ops[i]? = some op →
      ((op.perform c g).runOn (State.after c g (ops.take i) s)).1 =
        op.answer c s.mixture w := by
    intro i op hop
    rw [hstates, runOn_perform_of_settled h (hops op (List.mem_of_getElem? hop))]
  have hfills := s.mixture.weights_fills g s.draws
  rw [h] at hfills
  obtain ⟨hlen, -⟩ := hs.exists_drawWeights hfills (Mixture.weights_of_weights_eq_ok h)
  refine ⟨Mixture.weights_eq_ok.1 h, hlen, hstates, hanswers, ?_⟩
  intro x hx
  obtain ⟨ps, hps⟩ := Mixture.exists_scoresFor w hx
  refine ⟨ps, Mixture.length_of_scoresFor hlen hps, ?_, ?_⟩
  · intro i hi
    rw [hanswers i _ hi, Operation.answer, hps]
    rfl
  · intro i k p hp hi
    rw [hanswers i _ hi, Operation.answer, Mixture.scoreFor_of_scoresFor hps hp]
    rfl

end State

/-! ## From the start on -/

variable [Scalar α]

theorem Mixture.exists_ofModels_of_start {f : Family ω O M α} {clusters : Int} {alpha0 : α}
    {s s' : ω} {m : Mixture M α} (h : (start f clusters alpha0).runOn s = (.ok m, s')) :
    ∃ ms : List M, (ms.length : Int) = clusters ∧ m = ofModels alpha0 ms := by
  rw [start] at h
  by_cases hclusters : clusters ≤ 0
  · rw [if_pos hclusters] at h
    cases h
  rw [if_neg hclusters] at h
  by_cases halpha0 : Scalar.isFinite alpha0 ∧ 0 < alpha0
  · rw [if_pos halpha0] at h
    obtain ⟨ms, s₁, -, hlast⟩ := Attempt.runOn_bind_eq_ok.1 h
    by_cases hlen : ms.length = clusters.toNat
    · rw [if_pos hlen] at hlast
      cases hlast
      exact ⟨ms, by omega, rfl⟩
    · rw [if_neg hlen] at hlast
      cases hlast
  · rw [if_neg halpha0] at h
    cases h

/-- **One mixture between updates.**  Start a mixture, read and update it in any way, with
    failures, and then go on without an update that is accepted.  The live components are
    those of the last accepted update, and the occupancy counts what they have absorbed;
    before the first update it is zero.  All readings that follow share one vector of
    weights.  If there is none yet, the first reading that needs it draws it with this
    occupancy, and no other operation changes anything.  So the scores of a point taken one
    by one are those taken all at once.  If the draw fails, so does the reading, and there
    are still no weights.  An update with the right number of components drops the weights,
    and any other update fails and changes nothing. -/
theorem one_mixture_between_updates (f : Family ω O M α) (g : Generator ω α) {clusters : Int}
    {alpha0 : α} {s s' : ω} {m₀ : Mixture M α}
    (h : (Mixture.start f clusters alpha0).runOn s = (.ok m₀, s'))
    (before ops : List (Operation O M)) (hops : ∀ op ∈ ops, op.accepted? m₀.size = none)
    {s₀ : State ω M α}
    (h₀ : State.after f.toComponent g before (State.ofMixture m₀ s') = s₀) :
    (m₀.size : Int) = clusters ∧ s₀.mixture.size = m₀.size ∧
      s₀.mixture.models = (Operation.lastAccepted? m₀.size before).getD m₀.models ∧
      s₀.mixture.occupancy =
        ((Operation.lastAccepted? m₀.size before).map (List.map f.count)).getD
          (List.replicate m₀.size 0) ∧
      s₀.draws.DrawnFor g s₀.mixture ∧
      (∀ w d, (s₀.mixture.weights g).runOn s₀.draws = (.ok w, d) →
        s₀.SharesWeights f.toComponent g ops w d) ∧
      (∀ e d, (s₀.mixture.weights g).runOn s₀.draws = (.error e, d) →
        d.weights = none ∧ ∀ (i : Nat) (op : Operation O M), ops[i]? = some op →
          op.weighs = true → (ops.take i).any Operation.weighs = false →
            (op.perform f.toComponent g).runOn (State.after f.toComponent g (ops.take i) s₀) =
              (.error e, { s₀ with draws := d })) ∧
      (ops.any Operation.weighs = false → State.after f.toComponent g ops s₀ = s₀) ∧
      ∀ ms : List M,
        (ms.length = m₀.size →
          ∃ s₁, ((Operation.update ms).perform f.toComponent g).runOn s₀ = (.ok .updated, s₁) ∧
            s₁.draws = ⟨s₀.draws.source, none⟩ ∧ s₁.mixture.models = ms ∧
            s₁.mixture.occupancy = ms.map f.count) ∧
        (ms.length ≠ m₀.size →
          ((Operation.update ms).perform f.toComponent g).runOn s₀ =
            (.error (.wrongCount m₀.size ms.length none), s₀)) := by
  obtain ⟨ms₀, hlen, rfl⟩ := Mixture.exists_ofModels_of_start h
  have hstart := State.sound_ofMixture g alpha0 ms₀ s'
  obtain ⟨hsize, hmodels, hoccupancy⟩ := State.after_mixture (c := f.toComponent) (g := g) before
    (State.ofMixture (Mixture.ofModels alpha0 ms₀) s')
  have hsound := hstart.after (c := f.toComponent) before
  rw [State.occupancy_ofMixture] at hoccupancy
  rw [h₀] at hsize hmodels hoccupancy hsound
  have hsize₀ : (State.ofMixture (Mixture.ofModels alpha0 ms₀) s').mixture.size = ms₀.length :=
    Mixture.size_ofModels alpha0 ms₀
  rw [hsize₀] at hsize hmodels hoccupancy
  rw [Mixture.size_ofModels, ← hsize] at hops ⊢
  refine ⟨by rw [hsize, hlen], rfl, by rw [hmodels, hsize]; rfl, by rw [hoccupancy, hsize],
    hsound.drawn, ?_, ?_, State.after_of_idle hops, ?_⟩
  · intro w d hw
    exact hsound.sharesWeights hops hw
  · intro e d he
    obtain ⟨-, t, -, rfl⟩ := Mixture.weights_eq_error.1 he
    refine ⟨rfl, ?_⟩
    intro i op hop hweighs hidle
    rw [State.after_of_idle (fun op' h' => hops op' (List.mem_of_mem_take h')) hidle,
      State.runOn_perform_of_error hweighs he]
  · intro ms
    constructor
    · intro hms
      refine ⟨_, State.runOn_perform_of_accepted (if_pos hms), rfl, ?_, rfl⟩
      exact Mixture.models_replace hms
    · intro hms
      have hrefused : (Operation.update ms : Operation O M).accepted? s₀.mixture.size = none :=
        if_neg hms
      rw [State.runOn_perform_of_idle rfl hrefused [], Operation.answer, Mixture.adopt,
        if_neg hms]
      rfl

/-- Two tallies that have absorbed one number and two, after their first update. -/
def State.updatedPair : State (ScriptAndSizes ℚ) (Tally Nat) ℚ :=
  State.after (tallies nearby).toComponent Script.besideSizes
    [.weights, .update [⟨0, [0], 1⟩, ⟨1, [1, 1], 1⟩]]
    (State.ofMixture (Mixture.ofModels 1 (Tally.freshList 2)) (⟨[], 0, 0⟩, []))

/-- A reading at a place that does not exist fails, but has drawn the weights with which
    the number 1 is scored afterwards, in spite of an update without components. -/
theorem failing_reading_draws_for_later_ones :
    ∃ w d ps p,
      State.updatedPair.mixture.occupancy = [1, 2] ∧
      State.updatedPair.draws.weights = none ∧
      d.weights = some w ∧ w.length = 2 ∧
      State.after (tallies nearby).toComponent Script.besideSizes [.score 1 2]
        State.updatedPair = { State.updatedPair with draws := d } ∧
      ps[1]? = some p ∧
      (((Operation.scores 1).perform (tallies nearby).toComponent Script.besideSizes).runOn
        (State.after (tallies nearby).toComponent Script.besideSizes [.score 1 2, .update []]
          State.updatedPair)).1 = .ok (.scores ps) ∧
      (((Operation.score 1 1).perform (tallies nearby).toComponent Script.besideSizes).runOn
        (State.after (tallies nearby).toComponent Script.besideSizes
          [.score 1 2, .update [], .scores 1] State.updatedPair)).1 = .ok (.score p) := by
  have hstart : (Mixture.start (tallies nearby) 2 (1 : ℚ)).runOn (⟨[], 0, 0⟩, []) =
      (.ok (Mixture.ofModels 1 (Tally.freshList 2) : Mixture (Tally Nat) ℚ), (⟨[], 0, 0⟩, [])) := by
    rw [Mixture.start, if_neg (by decide), if_pos ⟨rfl, one_pos⟩]
    rfl
  obtain ⟨-, hsize, -, hoccupancy, -, hshares, -⟩ := one_mixture_between_updates (tallies nearby)
    Script.besideSizes hstart [.weights, .update [⟨0, [0], 1⟩, ⟨1, [1, 1], 1⟩]]
    [.score 1 2, .update [], .scores 1, .score 1 1] (by simp [Operation.accepted?])
    (rfl : _ = State.updatedPair)
  have hnone : State.updatedPair.draws.weights = none := by decide +kernel
  have hok : ((State.updatedPair.mixture.weights Script.besideSizes).runOn
      State.updatedPair.draws).1.isOk = true := by decide +kernel
  rcases hw : (State.updatedPair.mixture.weights Script.besideSizes).runOn
    State.updatedPair.draws with ⟨e | w, d⟩ <;> rw [hw] at hok
  · cases hok
  have hpair := hshares w d hw
  obtain ⟨ps, hlen, hall, hone⟩ := hpair.scores 1 fun m _ => ⟨_, rfl⟩
  have hone_lt : 1 < ps.length := by
    rw [hlen, hsize]
    decide
  obtain ⟨p, hp⟩ : ∃ p, ps[1]? = some p := ⟨_, List.getElem?_eq_getElem hone_lt⟩
  exact ⟨w, d, ps, p, hoccupancy, hnone, Mixture.weights_of_weights_eq_ok hw,
    hpair.length.trans hsize, hpair.states 1, hp, hall 2 rfl, hone 3 1 p hp rfl⟩

end DirichletMixture
