/-
  DirichletMixture: iterations in place are iterations.

  A chain that knows its components by their places does with them what a chain does that
  has the components themselves.  Components that a factory hands out have places of their
  own, so that writing to one of them changes this one alone.

  * `routeInPlace_shown`, `finalizeInPlace_shown` and `sweepInPlace_shown`: what is done in
    place, seen with the components themselves;
  * `Chain.Placed` says that there are components at the places that a chain knows, and
    `Chain.iterateInPlace_placed` that this stays so, whatever makes new components;
  * `Chain.iterate_view`, `Chain.times_view` and `Chain.cluster_view`: iterations and calls
    in place are iterations and calls.
-/
import Mathlib.Data.List.Nodup
import DirichletMixture.Proofs.Chain.Sparing
import DirichletMixture.Proofs.Chain.Translation

namespace DirichletMixture

variable {ω O M α : Type}

/-! ## Families in memory -/

/-- Components that the factory of a family hands out have places of their own. -/
theorem Family.nodup_of_fromPosterior_inMemory (f : Family ω O M α) {ks ks' : List Nat}
    {mem mem' : Memory ω M} (h : (f.inMemory.fromPosterior ks).runOn mem = (.ok ks', mem')) :
    ks'.Nodup := by
  rw [f.runOn_fromPosterior_inMemory] at h
  rcases hf : (f.fromPosterior (ks.map mem.cell)).runOn mem.source with ⟨e | ms, s⟩ <;> rw [hf] at h
  · cases h
  · obtain rfl := Except.ok.inj (Prod.mk.inj h).1
    exact List.nodup_range'

theorem Family.component_inMemory (f : Family ω O M α) : f.inMemory.component = f.toComponent := by
  have hobserve : f.inMemory.component.observe = f.observe := by
    funext m x
    simp only [Factory.component, inMemory, Attempt.runOn_of]
    rcases f.observe m x with e | m' <;> rfl
  have hfinalize : f.inMemory.component.finalize = f.finalize := by
    funext m
    simp only [Factory.component, inMemory, Attempt.runOn_of]
    rcases f.finalize m with e | m' <;> rfl
  rw [show f.inMemory.component = ⟨f.count, f.density, f.observe, f.finalize⟩ by
    rw [← hobserve, ← hfinalize]; rfl]

/-! ## Places and what is there -/

/-- The components that were stored are found at their places. -/
theorem Memory.map_cell_extend (xs : List M) (mem : Memory ω M) :
    (List.range' mem.next xs.length).map (mem.extend xs).cell = xs := by
  refine List.ext_getElem (by simp) ?_
  intro k h₁ h₂
  have hplace : ¬ mem.next + k < mem.next := by omega
  simp [Memory.extend, hplace, h₂]

theorem Memory.write_self (i : Nat) (mem : Memory ω M) : mem.write i (mem.cell i) = mem := by
  have hcell : (fun k => if k = i then mem.cell i else mem.cell k) = mem.cell := by
    funext k
    split
    · subst k; rfl
    · rfl
  rw [write, hcell]

theorem Memory.map_write {mem : Memory ω M} {ks : List Nat} (hn : ks.Nodup) {k i : Nat}
    (hi : ks[k]? = some i) (x : M) :
    ks.map (mem.write i x).cell = (ks.map mem.cell).set k x := by
  obtain ⟨hk, rfl⟩ := List.getElem?_eq_some_iff.1 hi
  refine List.ext_getElem (by simp) ?_
  intro j h₁ h₂
  have hj : j < ks.length := by simpa using h₁
  by_cases hjk : j = k
  · subst hjk
    simp [Memory.write]
  · have hne : ks[j] ≠ ks[k] := fun h => hjk ((List.Nodup.getElem_inj_iff hn).1 h)
    simp [write, hne, Ne.symm hjk]

/-- A component that an attempt on its place replaces as a whole. -/
theorem runOn_onCell_replacedBy (i : Nat) (step : M → Except (Fault α) M)
    (d : Draws (Memory ω M) α) :
    (Draws.onSource (Memory.onCell i
        (Attempt.of fun m => Attempt.replacedBy m (step m)))).runOn d =
      match step (d.source.cell i) with
      | .ok m => (.ok (), { d with source := d.source.write i m })
      | .error e => (.error e, d) := by
  simp only [Draws.onSource, Memory.onCell, Attempt.runOn_focus, Attempt.runOn_of]
  rcases step (d.source.cell i) with e | m
  · simp only [Attempt.replacedBy, Memory.write_self]
  · rfl

theorem Mixture.mapModels_congr {m : Mixture Nat α} {h h' : Nat → M}
    (heq : ∀ i ∈ m.models, h i = h' i) : m.mapModels h = m.mapModels h' := by
  have hclusters : m.clusters.map (Cluster.mapModel h) = m.clusters.map (Cluster.mapModel h') := by
    refine List.map_congr_left ?_
    intro c hc
    rw [Cluster.mapModel, Cluster.mapModel, heq c.model (List.mem_map_of_mem hc)]
  rw [mapModels, mapModels, hclusters]

/-! ## Sweeps seen through their places -/

/-- An outcome that consists of places, with the components that are there. -/
def Draws.shown (r : Except (Fault α) (List Nat) × Draws (Memory ω M) α) :
    Except (Fault α) (List M) × Draws ω α :=
  (r.1.map (List.map r.2.source.cell), r.2.bare)

/-- The same of an attempt that acts on the components at these places. -/
def Draws.shownAt (ks : List Nat) (r : Except (Fault α) Unit × Draws (Memory ω M) α) :
    Except (Fault α) (List M) × Draws ω α :=
  shown (r.1.map fun _ => ks, r.2)

section
variable {f : Family ω O M α} {ks : List Nat}

theorem finalizeInPlace_cell {F : Factory ω O M α} {i : Nat} (hi : i ∉ ks) :
    (finalizeInPlace F ks).Respects fun d d' => d'.source.cell i = d.source.cell i := by
  induction ks with
  | nil =>
    intro d
    rfl
  | cons k ks ih =>
    obtain ⟨hne, hi⟩ := not_or.1 (mt List.mem_cons.2 hi)
    refine .bind (fun _ _ _ h h' => h'.trans h) ?_ fun _ => ih hi
    intro d
    exact if_neg hne

/-- Components are finalized in place as a list of them is. -/
theorem finalizeInPlace_shown (hn : ks.Nodup) (d : Draws (Memory ω M) α) :
    (Attempt.ofExcept ((ks.map d.source.cell).mapM f.finalize)).runOn d.bare =
      Draws.shownAt ks ((finalizeInPlace f.inMemory ks).runOn d) := by
  induction ks generalizing d with
  | nil => rfl
  | cons i ks ih =>
    obtain ⟨hi, hn⟩ := List.nodup_cons.1 hn
    have hstep : (Draws.onSource (Memory.onCell i f.inMemory.finalize)).runOn d = _ :=
      runOn_onCell_replacedBy i f.finalize d
    rw [List.map_cons, List.mapM_cons, Attempt.runOn_ofExcept, finalizeInPlace]
    rcases hf : f.finalize (d.source.cell i) with e | m <;> rw [hf] at hstep
    · rw [Attempt.runOn_bind_error hstep]
      rfl
    · -- the first component is not touched again, and the others have not been touched yet
      have hkept := finalizeInPlace_cell (F := f.inMemory) hi { d with source := d.source.write i m }
      have hcells : ks.map (d.source.write i m).cell = ks.map d.source.cell := by
        refine List.map_congr_left ?_
        intro k hk
        exact if_neg (by rintro rfl; exact hi hk)
      have hrest := ih hn { d with source := d.source.write i m }
      rw [Attempt.runOn_ofExcept, hcells] at hrest
      rw [Attempt.runOn_bind_ok hstep]
      rcases hlast : (finalizeInPlace f.inMemory ks).runOn { d with source := d.source.write i m }
        with ⟨e | u, d'⟩ <;> rw [hlast] at hrest hkept <;> obtain ⟨hms, hbare⟩ := Prod.mk.inj hrest
      · rw [hms]
        exact Prod.ext rfl hbare
      · have hcell : d'.source.cell i = m := hkept.trans (if_pos rfl)
        rw [hms]
        refine Prod.ext ?_ hbare
        show Except.ok (m :: ks.map d'.source.cell) = Except.ok ((i :: ks).map d'.source.cell)
        rw [List.map_cons, hcell]

/-- An observation reaches the component at a place as it does one in a list, and no
    component elsewhere. -/
theorem observeInPlace_cases (hn : ks.Nodup) (k : Nat) (x : O) (d : Draws (Memory ω M) α) :
    (∃ e, observeIn f.toComponent (ks.map d.source.cell) k x = .error e ∧
        (observeInPlace f.inMemory ks k x).runOn d = (.error e, d)) ∨
      ∃ mem, observeIn f.toComponent (ks.map d.source.cell) k x = .ok (ks.map mem.cell) ∧
        (observeInPlace f.inMemory ks k x).runOn d = (.ok (), { d with source := mem }) ∧
        mem.source = d.source.source ∧ ∀ i ∉ ks, mem.cell i = d.source.cell i := by
  rw [observeIn, observeInPlace, List.getElem?_map]
  rcases hi : ks[k]? with _ | i
  · exact Or.inl ⟨.outOfRange, rfl, rfl⟩
  · have hstep : (Draws.onSource (Memory.onCell i (f.inMemory.observe x))).runOn d = _ :=
      runOn_onCell_replacedBy i (f.observe · x) d
    rw [Option.map_some]
    rcases hx : f.observe (d.source.cell i) x with e | m <;> rw [hx] at hstep
    · exact Or.inl ⟨e, congrArg (Except.map _) hx, hstep⟩
    · refine Or.inr ⟨d.source.write i m, ?_, hstep, rfl, ?_⟩
      · rw [Memory.map_write hn hi]
        exact congrArg (Except.map _) hx
      · intro i' hi'
        exact if_neg (by rintro rfl; exact hi' (List.mem_of_getElem? hi))

variable [Scalar α] {g : Generator ω α} {m : Mixture Nat α} {iteration : Nat}

theorem runOn_assignInPlace (x : O) (site : Site) (d : Draws (Memory ω M) α) :
    (m.assignInPlace f.inMemory g x site).runOn d =
      (Draws.besideMemory ((m.mapModels d.source.cell).assign f.toComponent g x site)).runOn d := by
  rw [Mixture.assignInPlace, Attempt.runOn_bind_ok (Attempt.runOn_get d), f.component_inMemory]

/-- Observations are routed to places as they are to components. -/
theorem routeInPlace_shown (hn : ks.Nodup) (hm : ∀ i ∈ m.models, i ∉ ks) {j : Nat} {xs : List O}
    (d : Draws (Memory ω M) α) :
    (route f.toComponent g (m.mapModels d.source.cell) iteration (ks.map d.source.cell) j xs).runOn
        d.bare =
      Draws.shownAt ks ((routeInPlace f.inMemory g m iteration ks j xs).runOn d) := by
  induction xs generalizing j d with
  | nil => rfl
  | cons x xs ih =>
    rw [route, routeInPlace]
    have hplace := runOn_assignInPlace (f := f) (g := g) (m := m) x ⟨some iteration, some j⟩ d
    rw [Draws.besideMemory, Attempt.runOn_focus] at hplace
    rcases hassign : ((m.mapModels d.source.cell).assign f.toComponent g x
      ⟨some iteration, some j⟩).runOn d.bare with ⟨e | k, b⟩ <;> rw [hassign] at hplace
    · rw [Attempt.runOn_bind_error hassign, Attempt.runOn_bind_error hplace]
      rfl
    rw [Attempt.runOn_bind_ok hassign, Attempt.runOn_bind_ok hplace]
    obtain ⟨e, hpure, hobserve⟩ | ⟨mem, hpure, hobserve, hsource, hcells⟩ :=
      observeInPlace_cases (f := f) hn k x ⟨{ d.source with source := b.source }, b.weights⟩
    · have hobserved : (Attempt.ofExcept (observeIn f.toComponent (ks.map d.source.cell) k x) :
          Attempt (Draws ω α) α (List M)).runOn b = (.error e, b) := congrArg (·, b) hpure
      rw [Attempt.runOn_bind_error hobserved, Attempt.runOn_bind_error hobserve]
      rfl
    · have hobserved : (Attempt.ofExcept (observeIn f.toComponent (ks.map d.source.cell) k x) :
          Attempt (Draws ω α) α (List M)).runOn b = (.ok (ks.map mem.cell), b) :=
        congrArg (·, b) hpure
      -- the live components are elsewhere, and so they are scored as before
      have hlive : m.mapModels d.source.cell = m.mapModels mem.cell :=
        Mixture.mapModels_congr fun i hi => (hcells i (hm i hi)).symm
      have hbare : b = (⟨mem, b.weights⟩ : Draws (Memory ω M) α).bare :=
        congrArg (fun s => (⟨s, b.weights⟩ : Draws ω α)) hsource.symm
      rw [Attempt.runOn_bind_ok hobserved, Attempt.runOn_bind_ok hobserve, hlive, hbare]
      exact ih ⟨mem, b.weights⟩

/-! ## Iterations seen through their places -/

omit [Scalar α] in
theorem renewInPlace_shown (d : Draws (Memory ω M) α) :
    (renew f (m.mapModels d.source.cell) iteration).runOn d.bare =
      Draws.shown ((renewInPlace f.inMemory m iteration).runOn d) := by
  have hplaces : (Draws.onSource (f.inMemory.fromPosterior m.models)).runOn d = _ :=
    congrArg (fun r => (r.1, { d with source := r.2 }))
      (f.runOn_fromPosterior_inMemory m.models d.source)
  rw [renew, renewInPlace, Mixture.models_mapModels, Mixture.size_mapModels]
  have hmodels : (Draws.onSource (f.fromPosterior (m.models.map d.source.cell))).runOn d.bare =
    (((f.fromPosterior (m.models.map d.source.cell)).runOn d.source.source).1,
      ⟨((f.fromPosterior (m.models.map d.source.cell)).runOn d.source.source).2, d.weights⟩) := rfl
  rcases hf : (f.fromPosterior (m.models.map d.source.cell)).runOn d.source.source with ⟨e | ms, s⟩ <;>
    rw [hf] at hplaces hmodels
  · rw [Attempt.runOn_bind_error hplaces, Attempt.runOn_bind_error hmodels]
    rfl
  · rw [Attempt.runOn_bind_ok hplaces, Attempt.runOn_bind_ok hmodels, List.length_range']
    split
    · exact Prod.ext (congrArg Except.ok
        (Memory.map_cell_extend ms { d.source with source := s }).symm) rfl
    · rfl

/-- What a sweep finds out in place is what it finds out with the components themselves. -/
theorem sweepInPlace_shown {data : List O} {d : Draws (Memory ω M) α}
    (hm : ∀ i ∈ m.models, i < d.source.next) :
    (sweep f g (m.mapModels d.source.cell) iteration data).runOn d.bare =
      Draws.shown ((sweepInPlace f.inMemory g m iteration data).runOn d) := by
  have hrenew : (renew f (m.mapModels d.source.cell) iteration).runOn d.bare =
      Draws.shown ((renewInPlace f.inMemory m iteration).runOn d) := renewInPlace_shown d
  rw [sweep, sweepInPlace]
  rcases hr : (renewInPlace f.inMemory m iteration).runOn d with ⟨e | ks, d₁⟩ <;> rw [hr] at hrenew
  · rw [Attempt.runOn_bind_error hrenew, Attempt.runOn_bind_error hr]
    rfl
  obtain ⟨mem, hmem, -, rfl⟩ := renewInPlace_eq_ok.1 hr
  change _ = (Except.ok (ks.map mem.cell), (⟨mem.source, d.weights⟩ : Draws ω α)) at hrenew
  have hold : ∀ i ∈ m.models, mem.cell i = d.source.cell i := by
    intro i hi
    have hspares := f.inMemory_makesNew.spares m.models d.source
    rw [hmem] at hspares
    exact hspares.cell_eq i (hm i hi) (hm i hi)
  have hnew : ∀ i ∈ m.models, i ∉ ks := by
    intro i hi hik
    have hfirst := (f.inMemory_makesNew.new _ _ _ _ hmem i hik).1
    exact Nat.not_lt.2 hfirst (hm i hi)
  have hroute : (route f.toComponent g (m.mapModels mem.cell) iteration (ks.map mem.cell) 0
      data).runOn ⟨mem.source, d.weights⟩ =
      Draws.shownAt ks ((routeInPlace f.inMemory g m iteration ks 0 data).runOn
        { d with source := mem }) :=
    routeInPlace_shown (f.nodup_of_fromPosterior_inMemory hmem) hnew { d with source := mem }
  rw [Attempt.runOn_bind_ok hrenew, Attempt.runOn_bind_ok hr,
    ← Mixture.mapModels_congr hold]
  rcases hrun : (routeInPlace f.inMemory g m iteration ks 0 data).runOn { d with source := mem }
    with ⟨e | u, d₂⟩ <;> rw [hrun] at hroute
  · rw [Attempt.runOn_bind_error hroute, Attempt.runOn_bind_error hrun]
    rfl
  rw [Attempt.runOn_bind_ok hroute, Attempt.runOn_bind_ok hrun,
    finalizeInPlace_shown (f.nodup_of_fromPosterior_inMemory hmem) d₂]
  rcases hlast : (finalizeInPlace f.inMemory ks).runOn d₂ with ⟨e | u, d₃⟩
  · rw [Attempt.runOn_bind_error hlast]
    rfl
  · rw [Attempt.runOn_bind_ok hlast]
    rfl

end

namespace Chain

variable [Scalar α] {f : Family ω O M α} {g : Generator ω α} {ks : List Nat}
  {c : Chain (Memory ω M) O Nat α}

/-- There are components at all places that the chain knows. -/
structure Placed (c : Chain (Memory ω M) O Nat α) : Prop where
  models : ∀ i ∈ c.state.mixture.models, i < c.memory.next
  samples : ∀ ks ∈ c.samples, ∀ i ∈ ks, i < c.memory.next

theorem Placed.withDraws (hc : c.Placed) {d : Draws (Memory ω M) α}
    (hd : c.memory.Spares d.source) : (c.withDraws d).Placed where
  models i hi := Nat.lt_of_lt_of_le (hc.models i hi) hd.next_le
  samples ks hks i hi := Nat.lt_of_lt_of_le (hc.samples ks hks i hi) hd.next_le

/-- Components that are spared look as before. -/
theorem map_samples_of_spares (hc : c.Placed) {mem : Memory ω M} (h : c.memory.Spares mem) :
    c.samples.map (List.map mem.cell) = c.view.samples := by
  refine List.map_congr_left ?_
  intro ks hks
  refine List.map_congr_left ?_
  intro i hi
  exact h.cell_eq i (hc.samples ks hks i hi) (hc.samples ks hks i hi)

theorem mapModels_of_spares (hc : c.Placed) {mem : Memory ω M} (h : c.memory.Spares mem) :
    c.state.mixture.mapModels mem.cell = c.view.state.mixture :=
  Mixture.mapModels_congr fun i hi => h.cell_eq i (hc.models i hi) (hc.models i hi)

theorem view_withDraws (hc : c.Placed) {d : Draws (Memory ω M) α}
    (hd : c.memory.Spares d.source) : (c.withDraws d).view = c.view.withDraws d.bare := by
  calc (c.withDraws d).view
      = { c.view with
          state := ⟨c.state.mixture.mapModels d.source.cell, d.bare⟩
          samples := c.samples.map (List.map d.source.cell) } := rfl
    _ = c.view.withDraws d.bare := by rw [map_samples_of_spares hc hd, mapModels_of_spares hc hd]; rfl

theorem source_sampleInPlace (c : Chain (Memory ω M) O Nat α) (ks : List Nat) :
    (c.sampleInPlace ks).2.source = c.memory.source := by
  rw [sampleInPlace]
  split <;> rfl

/-- What is kept of components looks as they do, and has places. -/
theorem sampleInPlace_shown (hks : ∀ i ∈ ks, i < c.memory.next) :
    (c.sampleInPlace ks).1.map (c.sampleInPlace ks).2.cell = ks.map c.memory.cell ∧
      ∀ i ∈ (c.sampleInPlace ks).1, i < (c.sampleInPlace ks).2.next := by
  have hlen : (ks.map c.memory.cell).length = ks.length := List.length_map _
  rw [sampleInPlace]
  split
  · refine ⟨?_, ?_⟩
    · rw [← hlen]
      exact Memory.map_cell_extend (ks.map c.memory.cell) c.memory
    · intro i hi
      have hi' := (List.mem_range'_1.1 hi).2
      rwa [← hlen] at hi'
  · exact ⟨rfl, hks⟩

/-- The end of an iteration in place is the end of one with the components themselves. -/
theorem view_completeInPlace (hc : c.Placed) (hks : ∀ i ∈ ks, i < c.memory.next) :
    (c.completeInPlace f.count ks).view = c.view.complete f.count (ks.map c.memory.cell) := by
  have hspares : c.memory.Spares (c.sampleInPlace ks).2 := sampleInPlace_spares c ks
  have hcells : ks.map (c.sampleInPlace ks).2.cell = ks.map c.memory.cell := by
    refine List.map_congr_left ?_
    intro i hi
    exact hspares.cell_eq i (hks i hi) (hks i hi)
  have hcounts : ks.map (fun k => f.count ((c.sampleInPlace ks).2.cell k)) =
      (ks.map c.memory.cell).map f.count := by
    rw [← hcells, List.map_map]
    rfl
  have hmixture : (c.state.mixture.replace (fun k => f.count ((c.sampleInPlace ks).2.cell k))
        ks).mapModels (c.sampleInPlace ks).2.cell =
      c.view.state.mixture.replace f.count (ks.map c.memory.cell) := by
    rw [← mapModels_of_spares hc hspares, ← hcells]
    exact Mixture.mapModels_replace _ c.state.mixture (fun _ => rfl) ks
  have hsamples : (c.samplesAfter (c.sampleInPlace ks).1).map
        (List.map (c.sampleInPlace ks).2.cell) =
      c.view.samplesAfter (ks.map c.memory.cell) := by
    have hkeeps : c.view.plan.keeps c.view.iteration = c.plan.keeps c.iteration := rfl
    rw [samplesAfter, samplesAfter, hkeeps]
    split
    · rw [List.map_append, map_samples_of_spares hc hspares, List.map_singleton,
        (sampleInPlace_shown hks).1]
    · exact map_samples_of_spares hc hspares
  have hevents : c.completionEvents (fun k => f.count ((c.sampleInPlace ks).2.cell k)) ks =
      c.view.completionEvents f.count (ks.map c.memory.cell) := by
    have hlen : c.view.samples.length = c.samples.length := List.length_map _
    rw [completionEvents, completionEvents, hcounts, hlen]
    rfl
  calc (c.completeInPlace f.count ks).view
      = { c.view with
          state := ⟨(c.state.mixture.replace (fun k => f.count ((c.sampleInPlace ks).2.cell k))
            ks).mapModels (c.sampleInPlace ks).2.cell, ⟨(c.sampleInPlace ks).2.source, none⟩⟩
          samples := (c.samplesAfter (c.sampleInPlace ks).1).map
            (List.map (c.sampleInPlace ks).2.cell)
          iteration := c.iteration + 1
          journal := c.journal ++
            c.completionEvents (fun k => f.count ((c.sampleInPlace ks).2.cell k)) ks } := rfl
    _ = c.view.complete f.count (ks.map c.memory.cell) := by
      rw [hmixture, hsamples, hevents, source_sampleInPlace]
      rfl

theorem Placed.completeInPlace (hc : c.Placed) {count : M → Nat}
    (hlen : ks.length = c.state.mixture.size) (hks : ∀ i ∈ ks, i < c.memory.next) :
    (c.completeInPlace count ks).Placed := by
  have hspares : c.memory.Spares (c.sampleInPlace ks).2 := sampleInPlace_spares c ks
  have hmodels : (c.completeInPlace count ks).state.mixture.models = ks :=
    Mixture.models_replace hlen
  refine ⟨?_, ?_⟩
  · intro i hi
    rw [hmodels] at hi
    exact Nat.lt_of_lt_of_le (hks i hi) hspares.next_le
  · have hold : ∀ ks' ∈ c.samples, ∀ i ∈ ks', i < (c.sampleInPlace ks).2.next := by
      intro ks' hks' i hi
      exact Nat.lt_of_lt_of_le (hc.samples ks' hks' i hi) hspares.next_le
    show ∀ ks' ∈ c.samplesAfter (c.sampleInPlace ks).1, ∀ i ∈ ks', i < (c.sampleInPlace ks).2.next
    rw [samplesAfter]
    split
    · intro ks' hks'
      rcases List.mem_append.1 hks' with hks' | hks'
      · exact hold ks' hks'
      · obtain rfl := List.mem_singleton.1 hks'
        exact (sampleInPlace_shown hks).2
    · exact hold

/-- Whatever makes new components, there are components at all places after an iteration,
    whether it fails or not. -/
theorem iterateInPlace_placed {F : Factory ω O M α} (hF : F.MakesNew) (hc : c.Placed) :
    ((iterateInPlace F g).runOn c).2.Placed := by
  have hspares := (sweepInPlace_spares g c.state.mixture c.iteration hF c.data
    c.state.draws).memory
  rw [runOn_iterateInPlace]
  rcases hs : (sweepInPlace F g c.state.mixture c.iteration c.data).runOn c.state.draws
    with ⟨e | ks, d⟩ <;> rw [hs] at hspares
  · exact hc.withDraws hspares
  · obtain ⟨mem, hmem, hlen, hnext⟩ := exists_renewed_of_sweepInPlace hs
    exact (hc.withDraws hspares).completeInPlace hlen fun i hi =>
      Nat.lt_of_lt_of_le (hF.new _ _ _ _ hmem i hi).2 hnext

/-- **Seen with the components themselves an iteration in place is an iteration**: it ends
    in the same way and leaves behind what an iteration leaves behind. -/
theorem iterate_view (f : Family ω O M α) (g : Generator ω α) (hc : c.Placed) :
    (iterate f g).runOn c.view = ((iterateInPlace f.inMemory g).runOn c).map id view := by
  have hsweep : (sweep f g c.view.state.mixture c.view.iteration c.view.data).runOn
      c.view.state.draws =
        Draws.shown ((sweepInPlace f.inMemory g c.state.mixture c.iteration c.data).runOn
          c.state.draws) :=
    sweepInPlace_shown hc.models
  have hspares := (sweepInPlace_spares g c.state.mixture c.iteration f.inMemory_makesNew c.data
    c.state.draws).memory
  rw [runOn_iterate, hsweep, runOn_iterateInPlace]
  rcases hs : (sweepInPlace f.inMemory g c.state.mixture c.iteration c.data).runOn c.state.draws
    with ⟨e | ks, d⟩ <;> rw [hs] at hspares
  · exact congrArg (Except.error e, ·) (view_withDraws hc hspares).symm
  · obtain ⟨mem, hmem, -, hnext⟩ := exists_renewed_of_sweepInPlace hs
    have hplaces : ∀ i ∈ ks, i < (c.withDraws d).memory.next := fun i hi =>
      Nat.lt_of_lt_of_le (f.inMemory_makesNew.new _ _ _ _ hmem i hi).2 hnext
    refine congrArg (Except.ok (), ·) ?_
    show (c.view.withDraws d.bare).complete f.count (ks.map d.source.cell) =
      ((c.withDraws d).completeInPlace f.count ks).view
    rw [view_completeInPlace (hc.withDraws hspares) hplaces, view_withDraws hc hspares]
    rfl

/-- So are several of them. -/
theorem times_view (f : Family ω O M α) (g : Generator ω α) (n : Nat) (hc : c.Placed) :
    (iterateTimes f g n).runOn c.view =
      (((iterateInPlace f.inMemory g).times n).runOn c).map id view := by
  induction n generalizing c with
  | zero => rfl
  | succ n ih =>
    have hview := iterate_view f g hc
    have hplaced : ((iterateInPlace f.inMemory g).runOn c).2.Placed :=
      iterateInPlace_placed f.inMemory_makesNew hc
    rw [iterateTimes_succ, Attempt.times]
    rcases hr : (iterateInPlace f.inMemory g).runOn c with ⟨e | u, c'⟩ <;>
      rw [hr] at hview hplaced
    · rw [Attempt.runOn_bind_error hview, Attempt.runOn_bind_error hr]
      rfl
    · rw [Attempt.runOn_bind_ok hview, Attempt.runOn_bind_ok hr]
      exact ih hplaced

theorem view_finish (c : Chain (Memory ω M) O Nat α) : c.finish.view = c.view.finish := by
  have hlen : c.view.samples.length = c.samples.length := List.length_map _
  rw [finish, finish, hlen]
  rfl

/-- **So is a call**, and the samples that it returns look the same. -/
theorem cluster_view (f : Family ω O M α) (g : Generator ω α) (n : Option Int) (hc : c.Placed) :
    (cluster f g n).runOn c.view =
      (((clusterInPlace f.inMemory g n).runOn c).1.map
          (List.map (List.map ((clusterInPlace f.inMemory g n).runOn c).2.memory.cell)),
        ((clusterInPlace f.inMemory g n).runOn c).2.view) := by
  rcases Int.lt_trichotomy (n.getD c.plan.iterations) 0 with hn | hn | hn
  · have hcluster : (cluster f g n).runOn c.view = _ := runOn_cluster_of_neg hn
    rw [hcluster, clusterInPlace, runOn_call_of_neg hn]
    rfl
  · have hcluster : (cluster f g n).runOn c.view = _ := runOn_cluster_of_zero hn
    rw [hcluster, clusterInPlace, runOn_call_of_zero hn]
    rfl
  · have hbegin : (c.begin (n.getD c.plan.iterations).toNat).Placed := ⟨hc.models, hc.samples⟩
    have hopening : (c.begin (n.getD c.plan.iterations).toNat).view =
        c.view.begin (n.getD c.plan.iterations).toNat := rfl
    have hview := times_view f g (n.getD c.plan.iterations).toNat hbegin
    rw [hopening] at hview
    have hcluster : (cluster f g n).runOn c.view = _ := runOn_cluster_of_pos hn
    rw [hcluster, show c.view.plan.iterations = c.plan.iterations from rfl, hview, clusterInPlace,
      runOn_call_of_pos hn]
    rcases ((iterateInPlace f.inMemory g).times (n.getD c.plan.iterations).toNat).runOn
      (c.begin (n.getD c.plan.iterations).toNat) with ⟨e | u, c'⟩
    · rfl
    · exact congrArg (Except.ok c'.view.samples, ·) (view_finish c').symm

end Chain

end DirichletMixture
