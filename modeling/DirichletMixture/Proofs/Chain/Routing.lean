/-
  DirichletMixture: where the observations of an iteration go.

  Routing draws a destination for every observation and hands the observations out as
  the destinations say.  The draws do not look at what was handed out before, so the
  two can be taken apart.

  * `destinations` draws the destinations alone, and `distribute` hands out alone;
    `exists_destinations_of_route` puts routing together from both;
  * `share` are the observations that go to one component, in order;
  * `Routed` says what an iteration makes of its fresh components, and
    `exists_routed_of_iterate` that every iteration that ends well does this;
  * `forall_of_route` and `Routed.forall`: what the family maintains stays true;
  * `flatMap_share_perm`: the shares of all components together are the data.
-/
import DirichletMixture.Proofs.Chain.Iteration
import DirichletMixture.Proofs.Chain.Reading
import DirichletMixture.Proofs.Family.Counting

namespace DirichletMixture

variable {ω O M α β : Type}

/-! ## Shares -/

/-- The entries at the positions that `z` assigns to `k`, in order. -/
def share (k : Nat) (z : List Nat) (xs : List β) : List β :=
  ((z.zip xs).filter fun p => p.1 = k).map Prod.snd

@[simp] theorem share_nil (k : Nat) (xs : List β) : share k [] xs = [] := rfl

theorem share_cons_self (k : Nat) (z : List Nat) (x : β) (xs : List β) :
    share k (k :: z) (x :: xs) = x :: share k z xs := by
  simp [share]

theorem share_cons_of_ne {i k : Nat} (h : i ≠ k) (z : List Nat) (x : β) (xs : List β) :
    share k (i :: z) (x :: xs) = share k z xs := by
  simp [share, h]

/-- A share keeps the order of the data. -/
theorem share_sublist (k : Nat) (z : List Nat) (xs : List β) : (share k z xs).Sublist xs := by
  induction z generalizing xs with
  | nil => exact List.nil_sublist xs
  | cons i z ih =>
    cases xs with
    | nil => exact List.Sublist.refl []
    | cons x xs =>
      by_cases h : i = k
      · subst h; rw [share_cons_self]; exact (ih xs).cons_cons x
      · rw [share_cons_of_ne h]; exact (ih xs).cons x

/-- One more observation joins one share and leaves the others alone. -/
theorem flatMap_share_cons {i : Nat} (z : List Nat) (x : β) (xs : List β) :
    ∀ {ks : List Nat}, i ∈ ks → ks.Nodup →
      (ks.flatMap fun k => share k (i :: z) (x :: xs)).Perm
        (x :: ks.flatMap fun k => share k z xs)
  | k :: ks, hi, hn => by
    obtain ⟨hk, hn⟩ := List.nodup_cons.1 hn
    rw [List.flatMap_cons, List.flatMap_cons]
    by_cases h : i = k
    · subst h
      have hrest : ∀ k ∈ ks, share k (i :: z) (x :: xs) = share k z xs := by
        intro k' hk'
        have hne : i ≠ k' := by rintro rfl; exact hk hk'
        exact share_cons_of_ne hne z x xs
      rw [share_cons_self, List.flatMap_def, List.map_congr_left hrest, ← List.flatMap_def]
      exact List.Perm.refl _
    · have hi' : i ∈ ks := (List.mem_cons.1 hi).resolve_left h
      rw [share_cons_of_ne h]
      exact ((flatMap_share_cons z x xs hi' hn).append_left _).trans List.perm_middle

/-- **The shares of all components together are the data**: nothing is lost and nothing
    occurs twice. -/
theorem flatMap_share_perm {n : Nat} {z : List Nat} {xs : List β} (hl : z.length = xs.length)
    (hz : ∀ k ∈ z, k < n) : ((List.range n).flatMap fun k => share k z xs).Perm xs := by
  induction z generalizing xs with
  | nil =>
    obtain rfl := List.length_eq_zero_iff.1 hl.symm
    simp
  | cons i z ih =>
    cases xs with
    | nil => cases hl
    | cons x xs =>
      have hi := List.mem_range.2 (hz i List.mem_cons_self)
      refine (flatMap_share_cons z x xs hi List.nodup_range).trans (.cons x ?_)
      refine ih (Nat.succ.inj hl) ?_
      intro k hk
      exact hz k (List.mem_cons_of_mem i hk)

/-! ## Handing out -/

/-- The components after they have observed the points that are destined for them. -/
def distribute (c : Component O M α) : List M → List Nat → List O → Except (Fault α) (List M)
  | ms, k :: z, x :: xs => (observeIn c ms k x).bind fun ms => distribute c ms z xs
  | ms, _, _ => .ok ms

/-- **Handing out** gives every component its share. -/
theorem distribute_spec {c : Component O M α} {ms ms' : List M} {z : List Nat} {xs : List O}
    (hl : z.length = xs.length) (h : distribute c ms z xs = .ok ms') :
    ms'.length = ms.length ∧ (∀ k ∈ z, k < ms.length) ∧
      ∀ k m, ms[k]? = some m →
        ∃ m', c.observeAll m (share k z xs) = .ok m' ∧ ms'[k]? = some m' := by
  induction z generalizing ms xs with
  | nil =>
    obtain rfl := Except.ok.inj h
    refine ⟨rfl, by simp, ?_⟩
    intro k m hm
    exact ⟨m, rfl, hm⟩
  | cons i z ih =>
    cases xs with
    | nil => cases hl
    | cons x xs =>
      rw [distribute] at h
      rcases hx : observeIn c ms i x with e | ms₁ <;> rw [hx] at h
      · cases h
      obtain ⟨m₀, m₁, hm₀, hobs, rfl⟩ := observeIn_eq_ok.1 hx
      obtain ⟨hlen, hplaces, hshares⟩ := ih (Nat.succ.inj hl) h
      rw [List.length_set] at hlen hplaces
      have hi : i < ms.length := (List.getElem?_eq_some_iff.1 hm₀).1
      refine ⟨hlen, List.forall_mem_cons.2 ⟨hi, hplaces⟩, ?_⟩
      intro k m hm
      -- the component that has just observed goes on from there, the others as they were
      by_cases hk : i = k
      · subst hk
        obtain rfl : m₀ = m := Option.some.inj (hm₀.symm.trans hm)
        obtain ⟨m', hall, hm'⟩ := hshares i m₁ (List.getElem?_set_self hi)
        refine ⟨m', ?_, hm'⟩
        rw [share_cons_self, Component.observeAll, hobs]
        exact hall
      · rw [share_cons_of_ne hk]
        exact hshares k m (by rw [List.getElem?_set_ne hk, hm])

/-! ## Drawing destinations -/

section
variable [Scalar α]

/-- The destinations of the observations from position `j` on. -/
def destinations (c : Component O M α) (g : Generator ω α) (m : Mixture M α) (iteration : Nat) :
    Nat → List O → Attempt (Draws ω α) α (List Nat)
  | _, [] => pure []
  | j, x :: xs => do
    let k ← m.assign c g x ⟨some iteration, some j⟩
    let z ← destinations c g m iteration (j + 1) xs
    pure (k :: z)

variable {c : Component O M α} {g : Generator ω α} {m : Mixture M α} {iteration : Nat}

theorem length_destinations {j : Nat} {xs : List O} {z : List Nat} {d d' : Draws ω α}
    (h : (destinations c g m iteration j xs).runOn d = (.ok z, d')) : z.length = xs.length := by
  induction xs generalizing j z d with
  | nil => cases h; rfl
  | cons x xs ih =>
    obtain ⟨k, d₁, -, hrest⟩ := Attempt.runOn_bind_eq_ok.1 h
    obtain ⟨z', d₂, hz', hlast⟩ := Attempt.runOn_bind_eq_ok.1 hrest
    cases hlast
    rw [List.length_cons, List.length_cons, ih hz']

/-- **Routing** draws the destinations and hands out accordingly. -/
theorem exists_destinations_of_route {ms ms' : List M} {j : Nat} {xs : List O}
    {d d' : Draws ω α} (h : (route c g m iteration ms j xs).runOn d = (.ok ms', d')) :
    ∃ z, (destinations c g m iteration j xs).runOn d = (.ok z, d') ∧
      distribute c ms z xs = .ok ms' := by
  induction xs generalizing ms j d with
  | nil => cases h; exact ⟨[], rfl, rfl⟩
  | cons x xs ih =>
    obtain ⟨k, d₁, hk, hrest⟩ := Attempt.runOn_bind_eq_ok.1 h
    obtain ⟨ms₁, d₂, hms₁, hroute⟩ := Attempt.runOn_bind_eq_ok.1 hrest
    obtain ⟨hobs, rfl⟩ := Prod.mk.inj hms₁
    obtain ⟨z, hz, hdist⟩ := ih hroute
    refine ⟨k :: z, ?_, ?_⟩
    · rw [destinations, Attempt.runOn_bind_ok hk, Attempt.runOn_bind_ok hz, Attempt.runOn_pure]
    · rw [distribute, hobs]; exact hdist

/-- Routing keeps the number of components and what the family maintains. -/
theorem forall_of_route {f : Family ω O M α} {Q : M → Prop} (hf : f.Maintains Q) {j : Nat}
    {ms ms' : List M} {xs : List O} {d d' : Draws ω α} (hms : ∀ m ∈ ms, Q m)
    (h : (route f.toComponent g m iteration ms j xs).runOn d = (.ok ms', d')) :
    ms'.length = ms.length ∧ ∀ m ∈ ms', Q m := by
  obtain ⟨z, hz, hdistribute⟩ := exists_destinations_of_route h
  obtain ⟨hlen, -, hshares⟩ := distribute_spec (length_destinations hz) hdistribute
  refine ⟨hlen, ?_⟩
  intro m₁ hm₁
  obtain ⟨k, hk⟩ := List.getElem?_of_mem hm₁
  have hk' : k < ms.length := hlen ▸ (List.getElem?_eq_some_iff.1 hk).1
  obtain ⟨m₂, hall, hm₂⟩ := hshares k _ (List.getElem?_eq_getElem hk')
  obtain rfl : m₁ = m₂ := Option.some.inj (hk.symm.trans hm₂)
  exact hf.observeAll (hms _ (List.getElem_mem hk')) hall

/-! ## A whole sweep -/

/-- What an iteration with the destinations `z` makes of its fresh components: each has
    observed its share of the data in order, and was finalized once. -/
structure Routed (c : Component O M α) (data : List O) (z : List Nat) (fresh ms : List M) :
    Prop where
  positions : z.length = data.length
  places : ∀ k ∈ z, k < fresh.length
  length : ms.length = fresh.length
  absorbed : ∀ k m, fresh[k]? = some m → ∃ m' m'',
    c.observeAll m (share k z data) = .ok m' ∧ c.finalize m' = .ok m'' ∧ ms[k]? = some m''

omit [Scalar α] in
/-- Where a component that is left behind comes from. -/
theorem Routed.exists_absorbed {c : Component O M α} {data : List O} {z : List Nat}
    {fresh ms : List M} (h : Routed c data z fresh ms) {k : Nat} {m : M} (hm : ms[k]? = some m) :
    ∃ m₀ m', fresh[k]? = some m₀ ∧ c.observeAll m₀ (share k z data) = .ok m' ∧
      c.finalize m' = .ok m := by
  have hk : k < fresh.length := by
    rw [← h.length]
    exact (List.getElem?_eq_some_iff.1 hm).1
  obtain ⟨m', m'', hobs, hfin, hm''⟩ := h.absorbed k _ (List.getElem?_eq_getElem hk)
  obtain rfl : m = m'' := Option.some.inj (hm.symm.trans hm'')
  exact ⟨_, m', List.getElem?_eq_getElem hk, hobs, hfin⟩

omit [Scalar α] in
theorem Routed.forall {f : Family ω O M α} {Q : M → Prop} (hf : f.Maintains Q) {data : List O}
    {z : List Nat} {fresh ms : List M} (h : Routed f.toComponent data z fresh ms)
    (hfresh : ∀ m ∈ fresh, Q m) : ∀ m ∈ ms, Q m := by
  intro m hm
  obtain ⟨k, hk⟩ := List.getElem?_of_mem hm
  obtain ⟨m₀, m', hm₀, hobs, hfin⟩ := h.exists_absorbed hk
  exact hf.finalize m' m (hf.observeAll (hfresh m₀ (List.mem_of_getElem? hm₀)) hobs) hfin

omit [Scalar α] in
theorem renew_eq_ok {f : Family ω O M α} {fresh : List M} {d d' : Draws ω α} :
    (renew f m iteration).runOn d = (.ok fresh, d') ↔
      ∃ s, (f.fromPosterior m.models).runOn d.source = (.ok fresh, s) ∧
        fresh.length = m.size ∧ d' = { d with source := s } := by
  rw [renew, Attempt.runOn_bind_eq_ok]
  constructor
  · rintro ⟨ms, d₁, hdraw, hcheck⟩
    obtain ⟨s, hs, rfl⟩ := Draws.runOn_onSource_eq.1 hdraw
    by_cases hlen : ms.length = m.size
    · rw [if_pos hlen] at hcheck
      obtain ⟨hms, rfl⟩ := Prod.mk.inj hcheck
      obtain rfl := Except.ok.inj hms
      exact ⟨s, hs, hlen, rfl⟩
    · rw [if_neg hlen] at hcheck; cases hcheck
  · rintro ⟨s, hdraw, hlen, rfl⟩
    refine ⟨fresh, _, Draws.runOn_onSource_eq.2 ⟨s, hdraw, rfl⟩, ?_⟩
    rw [if_pos hlen]
    rfl

omit [Scalar α] in
/-- There are no new components if none can be drawn, or too few or too many are. -/
theorem renew_eq_error {f : Family ω O M α} {e : Fault α} {d d' : Draws ω α} :
    (renew f m iteration).runOn d = (.error e, d') ↔
      ∃ s, d' = { d with source := s } ∧
        ((f.fromPosterior m.models).runOn d.source = (.error e, s) ∨
          ∃ fresh, (f.fromPosterior m.models).runOn d.source = (.ok fresh, s) ∧
            fresh.length ≠ m.size ∧ e = .wrongCount m.size fresh.length (some iteration)) := by
  rw [renew, Attempt.runOn_bind_eq_error]
  constructor
  · rintro (hdraw | ⟨fresh, d₁, hdraw, hcheck⟩)
    · obtain ⟨s, hs, rfl⟩ := Draws.runOn_onSource_eq.1 hdraw
      exact ⟨s, rfl, Or.inl hs⟩
    · obtain ⟨s, hs, rfl⟩ := Draws.runOn_onSource_eq.1 hdraw
      by_cases hlen : fresh.length = m.size
      · rw [if_pos hlen] at hcheck; cases hcheck
      · rw [if_neg hlen] at hcheck
        obtain ⟨he, rfl⟩ := Prod.mk.inj hcheck
        exact ⟨s, rfl, Or.inr ⟨fresh, hs, hlen, (Except.error.inj he).symm⟩⟩
  · rintro ⟨s, rfl, hs | ⟨fresh, hs, hlen, rfl⟩⟩
    · exact Or.inl (Draws.runOn_onSource_eq.2 ⟨s, hs, rfl⟩)
    · refine Or.inr ⟨fresh, _, Draws.runOn_onSource_eq.2 ⟨s, hs, rfl⟩, ?_⟩
      rw [if_neg hlen]
      rfl

/-- **A sweep that ends well** has drawn fresh components from the posterior of the live
    ones, drawn destinations for the data, and routed the data accordingly. -/
theorem exists_routed_of_sweep {f : Family ω O M α} {data : List O} {ms : List M}
    {d d' : Draws ω α} (h : (sweep f g m iteration data).runOn d = (.ok ms, d')) :
    ∃ fresh s z, (f.fromPosterior m.models).runOn d.source = (.ok fresh, s) ∧
      fresh.length = m.size ∧
      (destinations f.toComponent g m iteration 0 data).runOn { d with source := s } = (.ok z, d') ∧
      Routed f.toComponent data z fresh ms := by
  obtain ⟨fresh, d₁, hfresh, hrest⟩ := Attempt.runOn_bind_eq_ok.1 h
  obtain ⟨ms₁, d₂, hroute, hlast⟩ := Attempt.runOn_bind_eq_ok.1 hrest
  obtain ⟨hfinal, rfl⟩ := Prod.mk.inj hlast
  obtain ⟨s, hs, hlen, rfl⟩ := renew_eq_ok.1 hfresh
  obtain ⟨z, hz, hdist⟩ := exists_destinations_of_route hroute
  obtain ⟨hlen₁, hplaces, hshares⟩ := distribute_spec (length_destinations hz) hdist
  have hlen' : ms₁.length = ms.length := length_of_mapM_eq_ok hfinal
  refine ⟨fresh, s, z, hs, hlen, hz, length_destinations hz, hplaces, hlen'.symm.trans hlen₁, ?_⟩
  intro k m hm
  obtain ⟨m', hall, hm'⟩ := hshares k m hm
  obtain ⟨m'', hm'', hfinalized⟩ := getElem?_of_mapM_eq_ok hfinal hm'
  exact ⟨m', m'', hall, hfinalized, hm''⟩

end

/-! ## A whole iteration -/

namespace Chain

variable [Scalar α] {f : Family ω O M α} {g : Generator ω α} {c c' : Chain ω O M α} {u : Unit}

/-- **An iteration that ends well** is completed with the components of its sweep, and
    these are the live ones afterwards. -/
theorem exists_routed_of_iterate (h : (iterate f g).runOn c = (.ok u, c')) :
    (∃ d, c' = (c.withDraws d).complete f.count c'.state.mixture.models) ∧
      ∃ fresh s z,
        (f.fromPosterior c.state.mixture.models).runOn c.state.draws.source = (.ok fresh, s) ∧
        fresh.length = c.state.mixture.size ∧
        Routed f.toComponent c.data z fresh c'.state.mixture.models := by
  obtain ⟨ms, d, hsweep, rfl⟩ := iterate_eq_ok.1 h
  obtain ⟨fresh, s, z, hfresh, hlen, -, hrouted⟩ := exists_routed_of_sweep hsweep
  have hmodels : ((c.withDraws d).complete f.count ms).state.mixture.models = ms :=
    Mixture.models_replace (hrouted.length.trans hlen)
  rw [hmodels]
  exact ⟨⟨d, rfl⟩, fresh, s, z, hfresh, hlen, hrouted⟩

end Chain

end DirichletMixture
