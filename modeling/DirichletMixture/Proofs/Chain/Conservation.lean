/-
  DirichletMixture: no observation is lost and none occurs twice.

  The components that an iteration leaves behind share out the data among them, and
  the counts of the mixture follow.

  * `Routed.sum_counts` and `Routed.sharedOut` say so of one iteration, and
    `Mixture.sum_totals_replace` how the totals grow;
  * `Leads.accounted` says which components the samples and the live mixture hold, and
    `Leads.balanced` what their counts add up to;
  * `observations_are_accounted_for` puts this together for all requests to a chain.
-/
import DirichletMixture.Proofs.Chain.Schedule

namespace DirichletMixture

variable {ω O M α : Type}

/-! ## One iteration -/

theorem sum_length_share {n : Nat} {z : List Nat} {xs : List O} (hl : z.length = xs.length)
    (hz : ∀ k ∈ z, k < n) :
    ((List.range n).map fun k => (share k z xs).length).sum = xs.length := by
  have hperm := (flatMap_share_perm hl hz).length_eq
  rwa [List.length_flatMap] at hperm

section
variable {c : Component O M α} {data : List O} {z : List Nat} {fresh ms : List M}

/-- What a view of the components shows after an iteration, if it shows of each
    component what its share says. -/
theorem Routed.map_eq {β : Type} (h : Routed c data z fresh ms) (view : M → β) (of : List O → β)
    (hview : ∀ m ∈ fresh, ∀ m' m'' xs, c.observeAll m xs = .ok m' → c.finalize m' = .ok m'' →
      view m'' = of xs) :
    ms.map view = (List.range fresh.length).map fun k => of (share k z data) := by
  refine List.ext_getElem (by simp [h.length]) ?_
  intro k h₁ h₂
  have hk : k < fresh.length := by simpa using h₂
  obtain ⟨m', m'', hobs, hfin, hm⟩ := h.absorbed k _ (List.getElem?_eq_getElem hk)
  obtain ⟨hk', rfl⟩ := List.getElem?_eq_some_iff.1 hm
  rw [List.getElem_map, List.getElem_map, List.getElem_range]
  exact hview _ (List.getElem_mem hk) _ _ _ hobs hfin

/-- **The counts of an iteration** add up to the number of observations. -/
theorem Routed.sum_counts (hc : c.Counts) (hfresh : ∀ m ∈ fresh, c.count m = 0)
    (h : Routed c data z fresh ms) : (ms.map c.count).sum = data.length := by
  have hcounts : ms.map c.count =
      (List.range fresh.length).map fun k => (share k z data).length := by
    refine h.map_eq c.count List.length ?_
    intro m hm m' m'' xs hobs hfin
    rw [hc.finalize m' m'' hfin, hc.observeAll hobs, hfresh m hm, Nat.zero_add]
  rw [hcounts]
  exact sum_length_share h.positions h.places

end

/-- Some components have shared out the data among them: each has observed a part of it
    in order, all together have observed all of it, and each was finalized once. -/
structure SharedOut (observed : M → List O) (finalized : M → Nat) (n : Nat) (data : List O)
    (ms : List M) : Prop where
  length : ms.length = n
  perm : (ms.flatMap observed).Perm data
  sublist : ∀ m ∈ ms, (observed m).Sublist data
  finalized : ∀ m ∈ ms, finalized m = 1

section
variable {f : Family ω O M α} {observed : M → List O} {finalized : M → Nat} {data : List O}
  {z : List Nat} {fresh ms : List M}

/-- **An iteration shares out the data.** -/
theorem Routed.sharedOut (hf : f.Records observed finalized)
    (hfresh : ∀ m ∈ fresh, observed m = [] ∧ finalized m = 0)
    (h : Routed f.toComponent data z fresh ms) :
    SharedOut observed finalized fresh.length data ms := by
  have hobserved : ms.map observed = (List.range fresh.length).map fun k => share k z data := by
    refine h.map_eq observed id ?_
    intro m hm m' m'' xs hobs hfin
    rw [(hf.finalize m' m'' hfin).1, (hf.observeAll hobs).1, (hfresh m hm).1]
    rfl
  have hfinalized : ms.map finalized = (List.range fresh.length).map fun _ => 1 := by
    refine h.map_eq finalized (fun _ => 1) ?_
    intro m hm m' m'' xs hobs hfin
    rw [(hf.finalize m' m'' hfin).2, (hf.observeAll hobs).2, (hfresh m hm).2]
  refine ⟨h.length, ?_, ?_, ?_⟩
  · rw [List.flatMap_def, hobserved, ← List.flatMap_def]
    exact flatMap_share_perm h.positions h.places
  · intro m hm
    have hmem : observed m ∈ ms.map observed := List.mem_map_of_mem hm
    rw [hobserved] at hmem
    obtain ⟨k, -, hk⟩ := List.mem_map.1 hmem
    rw [← hk]
    exact share_sublist k z data
  · intro m hm
    have hmem : finalized m ∈ ms.map finalized := List.mem_map_of_mem hm
    rw [hfinalized] at hmem
    obtain ⟨k, -, hk⟩ := List.mem_map.1 hmem
    exact hk.symm

end

/-! ## Totals -/

namespace Mixture

theorem totals_ofModels (alpha0 : α) (ms : List M) :
    (ofModels alpha0 ms).totals = List.replicate ms.length 0 := by
  refine List.ext_getElem (by simp [totals, ofModels]) ?_
  intro k h₁ h₂
  simp [totals, ofModels, Cluster.fresh]

theorem sum_totals_ofModels (alpha0 : α) (ms : List M) : (ofModels alpha0 ms).totals.sum = 0 := by
  rw [totals_ofModels, List.sum_replicate_nat, Nat.mul_zero]

theorem sum_occupancy_ofModels (alpha0 : α) (ms : List M) :
    (ofModels alpha0 ms).occupancy.sum = 0 := by
  simp [ofModels]

/-- The totals grow by what the new components have absorbed. -/
theorem sum_totals_replace {count : M → Nat} {m : Mixture M α} {ms : List M}
    (h : ms.length = m.size) :
    (m.replace count ms).totals.sum = m.totals.sum + (ms.map count).sum := by
  have hsum : ∀ (cs : List (Cluster M)) (ms : List M), ms.length = cs.length →
      ((List.zipWith (fun c model => c.adopt model (count model)) cs ms).map Cluster.total).sum =
        (cs.map Cluster.total).sum + (ms.map count).sum := by
    intro cs
    induction cs with
    | nil => intro ms h; obtain rfl := List.length_eq_zero_iff.1 h; rfl
    | cons c cs ih =>
      intro ms h
      cases ms with
      | nil => cases h
      | cons m ms =>
        have hrest := ih ms (Nat.succ.inj h)
        have hhead : (c.adopt m (count m)).total = c.total + count m := rfl
        simp only [List.zipWith_cons_cons, List.map_cons, List.sum_cons, hrest, hhead]
        omega
  exact hsum m.clusters ms h

end Mixture

/-! ## Whole runs -/

namespace Chain

variable [Scalar α] {f : Family ω O M α} {g : Generator ω α} {c₀ c : Chain ω O M α}
  {ps : List (Pass ω O M α)}

/-- An iteration replaces the mixture by the components that it has left behind. -/
theorem iterate_mixture {c' : Chain ω O M α} {u : Unit} (h : (iterate f g).runOn c = (.ok u, c')) :
    c'.state.mixture = c.state.mixture.replace f.count c'.state.mixture.models := by
  obtain ⟨⟨d, hc'⟩, -⟩ := exists_routed_of_iterate h
  have hmixture := congrArg (fun b => b.state.mixture) hc'
  exact hmixture

/-- The number of clusters stays. -/
theorem Leads.size (h : Leads f g c₀ ps c) : c.state.mixture.size = c₀.state.mixture.size := by
  induction h with
  | nil => rfl
  | idle _ hsame ih => rw [hsame.mixture]; exact ih
  | pass _ hrun ih =>
    obtain ⟨-, fresh, s, z, -, hlen, hrouted⟩ := exists_routed_of_iterate hrun
    rw [← Mixture.length_models, hrouted.length, hlen, ih]

/-- The concentration stays. -/
theorem Leads.alpha0 (h : Leads f g c₀ ps c) :
    c.state.mixture.alpha0 = c₀.state.mixture.alpha0 := by
  induction h with
  | nil => rfl
  | idle _ hsame ih => rw [hsame.mixture]; exact ih
  | pass _ hrun ih =>
    rw [iterate_mixture hrun]
    exact ih

/-- The occupancy is what the components of the last completed iteration have absorbed. -/
theorem Leads.occupancy (h : Leads f g c₀ ps c) :
    c.state.mixture.occupancy =
      (ps.getLast?.map fun p => p.models.map f.count).getD c₀.state.mixture.occupancy := by
  rw [h.mixture]
  rcases hlast : ps.getLast? with _ | p
  · rfl
  · obtain ⟨-, hrun⟩ := h.of_mem (List.mem_of_getLast? hlast)
    show p.after.state.mixture.occupancy = p.models.map f.count
    rw [iterate_mixture hrun, Mixture.occupancy_replace]
    rfl

/-- The live components keep to what the family maintains. -/
theorem Leads.forall_models {Q : M → Prop} (hf : f.Maintains Q) (h : Leads f g c₀ ps c)
    (h₀ : ∀ m ∈ c₀.state.mixture.models, Q m) : ∀ m ∈ c.state.mixture.models, Q m := by
  induction h with
  | nil => exact h₀
  | idle _ hsame ih => rw [hsame.mixture]; exact ih
  | pass _ hrun _ =>
    obtain ⟨-, fresh, s, z, hdraw, -, hrouted⟩ := exists_routed_of_iterate hrun
    exact hrouted.forall hf (hf.posterior _ _ _ _ hdraw)

/-- Every completed iteration of a run has routed the data. -/
theorem Leads.exists_routed (h : Leads f g c₀ ps c) {p : Pass ω O M α} (hp : p ∈ ps) :
    ∃ fresh s z,
      (f.fromPosterior p.before.state.mixture.models).runOn p.before.state.draws.source =
        (.ok fresh, s) ∧
      fresh.length = c₀.state.mixture.size ∧ Routed f.toComponent c₀.data z fresh p.models := by
  obtain ⟨⟨qs, hbefore⟩, hrun⟩ := h.of_mem hp
  obtain ⟨-, fresh, s, z, hfresh, hlen, hrouted⟩ := exists_routed_of_iterate hrun
  rw [hbefore.size] at hlen
  rw [hbefore.data] at hrouted
  exact ⟨fresh, s, z, hfresh, hlen, hrouted⟩

/-- Once an iteration is completed, the live mixture is that of the last of them. -/
theorem Leads.exists_last (h : Leads f g c₀ ps c) (hpos : 0 < ps.length) :
    ∃ p ∈ ps, c.state.mixture = p.after.state.mixture := by
  have hne : ps ≠ [] := List.ne_nil_of_length_pos hpos
  refine ⟨ps.getLast hne, List.getLast_mem hne, ?_⟩
  rw [h.mixture, List.getLast?_eq_some_getLast hne]
  rfl

/-- **Nothing is unaccounted for.**  Every completed iteration has drawn fresh
    components and routed each observation to one of them, and the samples and the live
    components are what such iterations have left behind. -/
structure Accounted (f : Family ω O M α) (clusters : Nat) (data : List O)
    (ps : List (Pass ω O M α)) (c : Chain ω O M α) : Prop where
  iteration : c.iteration = ps.length
  routed : ∀ p ∈ ps, ∃ fresh s z,
    (f.fromPosterior p.before.state.mixture.models).runOn p.before.state.draws.source =
      (.ok fresh, s) ∧
    fresh.length = clusters ∧ Routed f.toComponent data z fresh p.models
  samples : ∀ ms ∈ c.samples, ∃ p ∈ ps, p.models = ms
  live : 0 < c.iteration → ∃ p ∈ ps, p.models = c.state.mixture.models

theorem Leads.accounted (h : Leads f g c₀ ps c) (hi : c₀.iteration = 0) (hs : c₀.samples = []) :
    Accounted f c₀.state.mixture.size c₀.data ps c where
  iteration := (h.scheduled hi hs).iteration
  routed p hp := h.exists_routed hp
  samples ms hms := by
    obtain ⟨j, hj⟩ := List.getElem?_of_mem hms
    rw [(h.scheduled hi hs).sample j] at hj
    obtain ⟨p, hp, hmodels⟩ := Option.map_eq_some_iff.1 hj
    exact ⟨p, List.mem_of_getElem? hp, hmodels⟩
  live hpos := by
    rw [(h.scheduled hi hs).iteration] at hpos
    obtain ⟨p, hp, hlast⟩ := h.exists_last hpos
    exact ⟨p, hp, by rw [hlast]; rfl⟩

/-- **The counts balance.**  The counts of a sample, and of the latest iteration, add up
    to the number of observations, and the totals to that of all iterations. -/
structure Balanced (count : M → Nat) (data : List O) (c : Chain ω O M α) : Prop where
  samples : ∀ ms ∈ c.samples, (ms.map count).sum = data.length
  occupancy : c.state.mixture.occupancy.sum = if c.iteration = 0 then 0 else data.length
  totals : c.state.mixture.totals.sum = c.iteration * data.length

section
variable (hf : f.Counts)
include hf

theorem Leads.sum_counts (h : Leads f g c₀ ps c) {p : Pass ω O M α} (hp : p ∈ ps) :
    (p.models.map f.count).sum = c₀.data.length := by
  obtain ⟨fresh, s, z, hfresh, -, hrouted⟩ := h.exists_routed hp
  exact hrouted.sum_counts hf.toCounts (hf.fresh _ _ _ _ hfresh)

theorem Leads.sum_totals (h : Leads f g c₀ ps c) :
    c.state.mixture.totals.sum = c₀.state.mixture.totals.sum + ps.length * c₀.data.length := by
  induction h with
  | nil => simp
  | idle _ hsame ih => rw [hsame.mixture]; exact ih
  | @pass qs b b' hb hrun ih =>
    have hsum := (hb.pass hrun).sum_counts hf (List.mem_append_right qs List.mem_cons_self)
    have hlen : b'.state.mixture.models.length = b.state.mixture.size := by
      rw [Mixture.length_models, (hb.pass hrun).size, hb.size]
    rw [iterate_mixture hrun, Mixture.sum_totals_replace hlen, ih]
    simp only [Pass.models] at hsum
    rw [hsum, List.length_append, List.length_singleton, Nat.succ_mul, Nat.add_assoc]

theorem Leads.balanced (h : Leads f g c₀ ps c) (hi : c₀.iteration = 0) (hs : c₀.samples = [])
    (ht : c₀.state.mixture.totals.sum = 0) (ho : c₀.state.mixture.occupancy.sum = 0) :
    Balanced f.count c₀.data c where
  samples ms hms := by
    obtain ⟨p, hp, rfl⟩ := (h.accounted hi hs).samples ms hms
    exact h.sum_counts hf hp
  occupancy := by
    rw [(h.accounted hi hs).iteration]
    by_cases hpos : ps.length = 0
    · obtain rfl := List.length_eq_zero_iff.1 hpos
      rw [h.mixture, if_pos hpos]
      exact ho
    · obtain ⟨p, hp, hlast⟩ := h.exists_last (Nat.pos_of_ne_zero hpos)
      obtain ⟨-, hrun⟩ := h.of_mem hp
      rw [if_neg hpos, hlast, iterate_mixture hrun, Mixture.occupancy_replace]
      exact h.sum_counts hf hp
  totals := by
    rw [h.sum_totals hf, ht, Nat.zero_add, (h.accounted hi hs).iteration]

end

theorem Leads.sharedOut {observed : M → List O} {finalized : M → Nat}
    (hf : f.Records observed finalized) (h : Leads f g c₀ ps c) {p : Pass ω O M α} (hp : p ∈ ps) :
    SharedOut observed finalized c₀.state.mixture.size c₀.data p.models := by
  obtain ⟨fresh, s, z, hfresh, hlen, hrouted⟩ := h.exists_routed hp
  rw [← hlen]
  exact hrouted.sharedOut hf (hf.fresh _ _ _ _ hfresh)

/-- A chain starts with a cluster for each component that was drawn, and with nothing
    routed to them. -/
theorem start_mixture {plan : Plan α} {data : List O} {s s' : ω}
    (h : start f plan data s = (.ok c₀, s')) :
    c₀.state.mixture.size = plan.clusters ∧ c₀.state.mixture.totals.sum = 0 ∧
      c₀.state.mixture.occupancy.sum = 0 := by
  obtain ⟨ms, -, hlen, rfl⟩ := start_eq_ok.1 h
  exact ⟨(Mixture.size_ofModels _ ms).trans hlen, Mixture.sum_totals_ofModels _ ms,
    Mixture.sum_occupancy_ofModels _ ms⟩

theorem start_occupancy {plan : Plan α} {data : List O} {s s' : ω}
    (h : start f plan data s = (.ok c₀, s')) :
    c₀.state.mixture.alpha0 = plan.alpha0 ∧
      c₀.state.mixture.occupancy = List.replicate plan.clusters 0 := by
  obtain ⟨ms, -, hlen, rfl⟩ := start_eq_ok.1 h
  refine ⟨rfl, ?_⟩
  rw [← hlen, ← List.map_const']
  rfl

/-- A sample of a run from the start was left behind by one of its iterations. -/
theorem Leads.exists_pass_of_sample {plan : Plan α} {data : List O} {s s' : ω}
    (hrun : Leads f g c₀ ps c) (h : Chain.start f plan data s = (.ok c₀, s')) {ms : List M}
    (hms : ms ∈ c.samples) : ∃ p ∈ ps, p.models = ms := by
  obtain ⟨-, -, hi, hs⟩ := start_blank h
  exact (hrun.accounted hi hs).samples ms hms

/-- **No observation is lost and none occurs twice.**  After any requests to a chain,
    failing ones included, every completed iteration has routed each observation to one
    of its fresh components, and its components are what the samples and the live mixture
    hold.  If components count, the counts add up to the number of observations; if they
    record, each sample shares out the data.  Tallies do both, and normal components
    count. -/
theorem observations_are_accounted_for [Readable α] (f : Family ω O M α) (g : Generator ω α)
    {plan : Plan α} {data : List O} {s s' : ω} (h : start f plan data s = (.ok c₀, s'))
    (rs : List (Request O)) :
    Accounted f plan.clusters data (passes f g rs c₀) (after f g rs c₀) ∧
    (f.Counts → Balanced f.count data (after f g rs c₀)) ∧
    (∀ observed finalized, f.Records observed finalized →
      (∀ ms ∈ (after f g rs c₀).samples, SharedOut observed finalized plan.clusters data ms) ∧
      (0 < (after f g rs c₀).iteration →
        SharedOut observed finalized plan.clusters data
          (after f g rs c₀).state.mixture.models)) ∧
    (∀ (density : Nat → O → Except (Fault α) α) (size : Option Nat) (get : ω → List Nat)
      (put : List Nat → ω → ω), ((tabulated density size).focus get put).Counts ∧
        ((tabulated density size).focus get put).Records Tally.observed Tally.finalized) ∧
    ∀ (g' : Generator ω α) (prior : NormalPrior α), (normalFamily g' prior).Counts := by
  obtain ⟨-, hdata, hi, hs⟩ := start_blank h
  obtain ⟨hsize, ht, ho⟩ := start_mixture h
  have hrun := leads_after f g rs c₀
  have haccounted := hrun.accounted hi hs
  rw [hsize, hdata] at haccounted
  refine ⟨haccounted, ?_, ?_, ?_, ?_⟩
  · intro hf
    rw [← hdata]
    exact hrun.balanced hf hi hs ht ho
  · intro observed finalized hf
    rw [← hsize, ← hdata]
    constructor
    · intro ms hms
      obtain ⟨p, hp, rfl⟩ := haccounted.samples ms hms
      exact hrun.sharedOut hf hp
    · intro hpos
      obtain ⟨p, hp, hlive⟩ := haccounted.live hpos
      rw [← hlive]
      exact hrun.sharedOut hf hp
  · intro density size get put
    exact ⟨tabulated_counts density size get put, tabulated_records density size get put⟩
  · intro g' prior
    exact normalFamily_counts g' prior

/-- A call that fails in its second iteration, and two iterations after it: three points
    are routed three times, and the tallies share them. -/
theorem faltering_run_is_accounted_for :
    start (tallies nearby) (Plan.ofPair 0 2 3 Nat.two_pos) [0, 1, 1] (⟨[], 0, 0⟩, [2, 3]) =
      (.ok faltering, (⟨[], 0, 0⟩, [2, 3])) ∧
    (after (tallies nearby) Script.besideSizes [.cluster none, .iterate, .iterate]
      faltering).state.mixture.totals.sum = 9 ∧
    SharedOut Tally.observed Tally.finalized 2 [0, 1, 1]
      (after (tallies nearby) Script.besideSizes [.cluster none, .iterate, .iterate]
        faltering).state.mixture.models := by
  have hstart := start_tallies nearby (Plan.ofPair 0 2 3 Nat.two_pos) [0, 1, 1]
    (⟨[], 0, 0⟩, [2, 3])
  obtain ⟨-, hcounts, hrecords, htallies, -⟩ := observations_are_accounted_for (tallies nearby)
    Script.besideSizes hstart [.cluster none, .iterate, .iterate]
  obtain ⟨hcount, hrecord⟩ := htallies nearby none Prod.snd fun sizes s => (s.1, sizes)
  have hiteration : (after (tallies nearby) Script.besideSizes
      [.cluster none, .iterate, .iterate] faltering).iteration = 3 := by decide +kernel
  rw [faltering] at hiteration ⊢
  refine ⟨hstart, ?_, ?_⟩
  · rw [(hcounts hcount).totals, hiteration]
    rfl
  · exact (hrecords _ _ hrecord).2 (by rw [hiteration]; decide)

end Chain

end DirichletMixture
