/-
  DirichletMixture: components that count what they observe.

  * `Component.observeAll` observes several points in order;
  * `Component.Counts` says that the count of a component goes up by one with every
    observation and in no other way, and `Family.Counts` that moreover components
    drawn from a posterior have observed nothing yet;
  * `Family.Records` says that components remember what they observe, and
    `Family.Maintains` that they keep to a property;
  * `tabulated_records`: tallies record, and `tabulated_counts` and
    `normalFamily_counts`: both families count.
-/
import DirichletMixture.Family.Tabulated
import DirichletMixture.Normal.Family
import DirichletMixture.Proofs.Attempt

namespace DirichletMixture

variable {ω O M α : Type}

/-! ## Observing -/

/-- The component after it has observed some points in order. -/
def Component.observeAll (c : Component O M α) : M → List O → Except (Fault α) M
  | m, [] => .ok m
  | m, x :: xs => (c.observe m x).bind fun m => c.observeAll m xs

/-! ## Counting -/

/-- The count of a component is the number of its observations. -/
structure Component.Counts (c : Component O M α) : Prop where
  observe : ∀ m x m', c.observe m x = .ok m' → c.count m' = c.count m + 1
  finalize : ∀ m m', c.finalize m = .ok m' → c.count m' = c.count m

/-- Besides, components that are drawn from a posterior have no observations. -/
structure Family.Counts (f : Family ω O M α) : Prop extends Component.Counts f.toComponent where
  fresh : ∀ ms s ms' s', (f.fromPosterior ms).runOn s = (.ok ms', s') → ∀ m ∈ ms', f.count m = 0

theorem Component.Counts.observeAll {c : Component O M α} (hc : c.Counts) {m m' : M}
    {xs : List O} (h : c.observeAll m xs = .ok m') : c.count m' = c.count m + xs.length := by
  induction xs generalizing m with
  | nil => obtain rfl := Except.ok.inj h; rfl
  | cons x xs ih =>
    rw [Component.observeAll] at h
    obtain ⟨m₁, hx, hrest⟩ := bind_eq_ok.1 h
    rw [ih hrest, hc.observe m x m₁ hx, List.length_cons]; omega

/-! ## Recording -/

/-- Components keep their observations in order, and how often they were finalized;
    those that are drawn from a posterior have nothing to keep yet. -/
structure Family.Records (f : Family ω O M α) (observed : M → List O) (finalized : M → Nat) :
    Prop where
  observe : ∀ m x m', f.observe m x = .ok m' →
    observed m' = observed m ++ [x] ∧ finalized m' = finalized m
  finalize : ∀ m m', f.finalize m = .ok m' →
    observed m' = observed m ∧ finalized m' = finalized m + 1
  fresh : ∀ ms s ms' s', (f.fromPosterior ms).runOn s = (.ok ms', s') →
    ∀ m ∈ ms', observed m = [] ∧ finalized m = 0

theorem Family.Records.observeAll {f : Family ω O M α} {observed : M → List O}
    {finalized : M → Nat} (hf : f.Records observed finalized) {m m' : M} {xs : List O}
    (h : f.observeAll m xs = .ok m') :
    observed m' = observed m ++ xs ∧ finalized m' = finalized m := by
  induction xs generalizing m with
  | nil => obtain rfl := Except.ok.inj h; simp
  | cons x xs ih =>
    rw [Component.observeAll] at h
    obtain ⟨m₁, hx, hrest⟩ := bind_eq_ok.1 h
    obtain ⟨hobs, hfin⟩ := hf.observe m x m₁ hx
    obtain ⟨hobs', hfin'⟩ := ih hrest
    exact ⟨by rw [hobs', hobs, List.append_assoc, List.singleton_append], hfin'.trans hfin⟩

/-! ## Keeping to a property -/

/-- Components that are drawn have the property `Q` and never lose it. -/
structure Family.Maintains (f : Family ω O M α) (Q : M → Prop) : Prop where
  prior : ∀ n s ms s', (f.fromPrior n).runOn s = (.ok ms, s') → ∀ m ∈ ms, Q m
  posterior : ∀ ms s ms' s', (f.fromPosterior ms).runOn s = (.ok ms', s') → ∀ m ∈ ms', Q m
  observe : ∀ m x m', Q m → f.observe m x = .ok m' → Q m'
  finalize : ∀ m m', Q m → f.finalize m = .ok m' → Q m'

theorem Family.Maintains.observeAll {f : Family ω O M α} {Q : M → Prop} (hf : f.Maintains Q)
    {m m' : M} {xs : List O} (hm : Q m) (h : f.observeAll m xs = .ok m') : Q m' := by
  induction xs generalizing m with
  | nil =>
    obtain rfl := Except.ok.inj h
    exact hm
  | cons x xs ih =>
    obtain ⟨m₁, hx, hrest⟩ := bind_eq_ok.1 h
    exact ih (hf.observe m x m₁ hm hx) hrest

/-! ## Tallies -/

section
variable (density : Nat → O → Except (Fault α) α) (size : Option Nat)

/-- A posterior draw of tallies is a list of fresh ones. -/
theorem exists_freshList_of_fromPosterior {ts ts' : List (Tally O)} {s s' : List Nat}
    (h : ((tabulated density size).fromPosterior ts).runOn s = (.ok ts', s')) :
    ∃ n, ts' = Tally.freshList n := by
  cases s with
  | nil => cases h; exact ⟨_, rfl⟩
  | cons n s => cases h; exact ⟨n, rfl⟩

variable (get : ω → List Nat) (put : List Nat → ω → ω)

/-- **Tallies record.** -/
theorem tabulated_records :
    ((tabulated density size).focus get put).Records Tally.observed Tally.finalized where
  observe t x t' h := by
    obtain rfl := Except.ok.inj h
    exact ⟨rfl, rfl⟩
  finalize t t' h := by
    obtain rfl := Except.ok.inj h
    exact ⟨rfl, rfl⟩
  fresh ts s ts' s' h t ht := by
    rcases hdraw : ((tabulated density size).fromPosterior ts).runOn (get s) with ⟨r, sizes⟩
    rw [Family.focus, Attempt.runOn_focus, hdraw] at h
    obtain ⟨rfl, -⟩ := Prod.mk.inj h
    obtain ⟨n, rfl⟩ := exists_freshList_of_fromPosterior density size hdraw
    obtain ⟨k, -, rfl⟩ := List.mem_map.1 ht
    exact ⟨rfl, rfl⟩

/-- **Tallies count.** -/
theorem tabulated_counts : ((tabulated density size).focus get put).Counts where
  observe t x t' h := by
    obtain rfl := Except.ok.inj h
    exact List.length_append
  finalize t t' h := by
    obtain rfl := Except.ok.inj h
    rfl
  fresh ts s ts' s' h t ht := by
    have hnothing := ((tabulated_records density size get put).fresh ts s ts' s' h t ht).1
    exact List.length_eq_zero_iff.2 hnothing

end

/-! ## Normal components -/

section
variable [Scalar α]

theorem NormalModel.coordinates_eq_ok {prior : NormalPrior α} {xs ys : List α}
    (h : coordinates prior xs = .ok ys) : ys = xs := by
  unfold coordinates at h
  by_cases hlen : xs.length = prior.dimension
  · rw [if_pos hlen] at h
    exact (Except.ok.inj h).symm
  · rw [if_neg hlen] at h
    cases h

theorem NormalModel.ofVectors_eq_ok {prior : NormalPrior α} {mean variance : List α}
    {m : NormalModel α} (h : ofVectors prior mean variance = .ok m) :
    m = fresh prior mean variance := by
  obtain ⟨mean', hmean, h₁⟩ := bind_eq_ok.1 h
  obtain ⟨variance', hvariance, h₂⟩ := bind_eq_ok.1 h₁
  obtain rfl := coordinates_eq_ok hmean
  obtain rfl := coordinates_eq_ok hvariance
  exact (Except.ok.inj h₂).symm

/-- Components that are drawn have no observations. -/
theorem eq_fresh_of_drawEach {g : Generator ω α} {prior : NormalPrior α}
    {bs : List (Except (Fault α) (Belief α))} {ms : List (NormalModel α)} {s s' : ω}
    (h : (drawEach g prior bs).runOn s = (.ok ms, s')) :
    ∀ m ∈ ms, ∃ mean variance, m = NormalModel.fresh prior mean variance := by
  induction bs generalizing ms s with
  | nil => cases h; simp
  | cons b bs ih =>
    obtain ⟨belief, s₁, -, h₁⟩ := Attempt.runOn_bind_eq_ok.1 h
    obtain ⟨m, s₂, hm, h₂⟩ := Attempt.runOn_bind_eq_ok.1 h₁
    obtain ⟨rest, s₃, hrest, h₃⟩ := Attempt.runOn_bind_eq_ok.1 h₂
    cases h₃
    obtain ⟨precision, s₄, -, h₄⟩ := Attempt.runOn_bind_eq_ok.1 hm
    obtain ⟨mean, s₅, -, h₅⟩ := Attempt.runOn_bind_eq_ok.1 h₄
    obtain ⟨hmodel, -⟩ := Prod.mk.inj h₅
    exact List.forall_mem_cons.2 ⟨⟨_, _, NormalModel.ofVectors_eq_ok hmodel⟩, ih hrest⟩

variable [Readable α]

/-- **Normal components count.** -/
theorem normalFamily_counts (g : Generator ω α) (prior : NormalPrior α) :
    (normalFamily g prior).Counts where
  observe m x m' h := by
    obtain ⟨v, -, rfl⟩ := map_eq_ok.1 h
    rfl
  finalize m m' h := by
    have hm : m.finalize = .ok m' := h
    unfold NormalModel.finalize at hm
    by_cases hcount : m.count = 0
    · rw [if_pos hcount] at hm
      obtain rfl := Except.ok.inj hm
      rfl
    · rw [if_neg hcount] at hm
      obtain ⟨b, -, rfl⟩ := map_eq_ok.1 hm
      rfl
  fresh ms s ms' s' h m hm := by
    obtain ⟨mean, variance, rfl⟩ := eq_fresh_of_drawEach h m hm
    rfl

end

end DirichletMixture
