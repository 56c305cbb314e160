/-
  DirichletMixture: what iterations in place leave alone.

  An iteration writes to the components that its factory has handed to it.  If these are
  new, whatever was there before stays as it was, however the iteration ends.

  * `Memory.Spares` says this of two memories, and `Factory.MakesNew` is what is asked of
    a factory; the factory of a family meets it;
  * `sweepInPlace_spares` and `iterateInPlace_spares`: sweeps and iterations spare what was
    there, so that samples and live components can be relied on;
  * `runOn_iterateInPlace` is an iteration in one step, and `iterateInPlace_eq_error`: a
    failing one leaves other draws and nothing else.
-/
import DirichletMixture.Chain.InPlace
import DirichletMixture.Proofs.Chain.Iteration
import DirichletMixture.Proofs.Chain.Reading

namespace DirichletMixture

variable {ω O M α β : Type}

/-! ## Memory that is spared -/

/-- The second memory has no fewer components than the first, and those that were at
    places below `n` are still there. -/
structure Memory.SparesBelow (n : Nat) (mem mem' : Memory ω M) : Prop where
  next_le : mem.next ≤ mem'.next
  cell_eq : ∀ k < n, k < mem.next → mem'.cell k = mem.cell k

/-- All components of the first memory are still there. -/
def Memory.Spares (mem mem' : Memory ω M) : Prop := mem.SparesBelow mem.next mem'

/-- What can be relied on of a factory: the components that are there stay as they are,
    even if it fails, and every component that it hands out is new. -/
structure Factory.MakesNew (F : Factory ω O M α) : Prop where
  spares : ∀ ks, (F.fromPosterior ks).Respects Memory.Spares
  new : ∀ ks mem ks' mem', (F.fromPosterior ks).runOn mem = (.ok ks', mem') →
    ∀ k ∈ ks', mem.next ≤ k ∧ k < mem'.next

namespace Memory

variable {n : Nat} {mem mem' : Memory ω M}

theorem SparesBelow.refl (mem : Memory ω M) : mem.SparesBelow n mem :=
  ⟨Nat.le_refl _, fun _ _ _ => rfl⟩

theorem SparesBelow.trans (mem mem' mem'' : Memory ω M) (h : mem.SparesBelow n mem')
    (h' : mem'.SparesBelow n mem'') : mem.SparesBelow n mem'' := by
  refine ⟨Nat.le_trans h.next_le h'.next_le, ?_⟩
  intro k hk hnext
  rw [h'.cell_eq k hk (Nat.lt_of_lt_of_le hnext h.next_le), h.cell_eq k hk hnext]

theorem Spares.below (h : mem.Spares mem') : mem.SparesBelow n mem' :=
  ⟨h.next_le, fun k _ hnext => h.cell_eq k hnext hnext⟩

theorem Spares.refl (mem : Memory ω M) : mem.Spares mem := SparesBelow.refl mem

theorem Spares.trans (mem mem' mem'' : Memory ω M) (h : mem.Spares mem')
    (h' : mem'.Spares mem'') : mem.Spares mem'' :=
  SparesBelow.trans mem mem' mem'' h h'.below

theorem onCell_sparesBelow {i : Nat} (hi : n ≤ i) (a : Attempt M α β) :
    (onCell i a : Attempt (Memory ω M) α β).Respects (SparesBelow n) := by
  intro mem
  refine ⟨Nat.le_refl _, ?_⟩
  intro k hk _
  exact if_neg (by omega)

theorem extend_spares (xs : List M) (mem : Memory ω M) : mem.Spares (mem.extend xs) := by
  refine ⟨Nat.le_add_right _ _, ?_⟩
  intro k hk _
  exact if_pos hk

end Memory

/-! ## Families in memory -/

theorem Family.runOn_fromPosterior_inMemory (f : Family ω O M α) (ks : List Nat)
    (mem : Memory ω M) :
    (f.inMemory.fromPosterior ks).runOn mem =
      match (f.fromPosterior (ks.map mem.cell)).runOn mem.source with
      | (.ok ms, s) =>
        (.ok (List.range' mem.next ms.length), ({ mem with source := s } : Memory ω M).extend ms)
      | (.error e, s) => (.error e, { mem with source := s }) := by
  simp only [inMemory, Attempt.runOn_bind_ok (Attempt.runOn_get mem)]
  rw [Attempt.runOn_bind, Memory.onSource, Attempt.runOn_focus]
  rcases (f.fromPosterior (ks.map mem.cell)).runOn mem.source with ⟨e | ms, s⟩ <;> rfl

/-- The factory of a family makes new components. -/
theorem Family.inMemory_makesNew (f : Family ω O M α) : f.inMemory.MakesNew where
  spares ks mem := by
    rw [f.runOn_fromPosterior_inMemory]
    rcases (f.fromPosterior (ks.map mem.cell)).runOn mem.source with ⟨e | ms, s⟩
    · exact ⟨Nat.le_refl _, fun _ _ _ => rfl⟩
    · obtain ⟨hnext, hcell⟩ := Memory.extend_spares ms { mem with source := s }
      exact ⟨hnext, hcell⟩
  new ks mem ks' mem' h := by
    rw [f.runOn_fromPosterior_inMemory] at h
    rcases hf : (f.fromPosterior (ks.map mem.cell)).runOn mem.source with ⟨e | ms, s⟩ <;>
      rw [hf] at h
    · cases h
    · obtain ⟨hks, rfl⟩ := Prod.mk.inj h
      obtain rfl := Except.ok.inj hks
      intro k hk
      exact List.mem_range'_1.1 hk

/-! ## Sweeps spare what was there -/

/-- The components at places below `n` are still there, and weights that were drawn are
    kept. -/
structure Draws.SparesBelow (n : Nat) (d d' : Draws (Memory ω M) α) : Prop where
  memory : d.source.SparesBelow n d'.source
  keeps : d.Keeps d'

namespace Draws

variable {n : Nat}

theorem SparesBelow.refl (d : Draws (Memory ω M) α) : d.SparesBelow n d :=
  ⟨.refl d.source, fun _ h => h⟩

theorem SparesBelow.trans (d d' d'' : Draws (Memory ω M) α) (h : d.SparesBelow n d')
    (h' : d'.SparesBelow n d'') : d.SparesBelow n d'' :=
  ⟨.trans _ _ _ h.memory h'.memory, fun w hw => h'.keeps w (h.keeps w hw)⟩

theorem onSource_sparesBelow {a : Attempt (Memory ω M) α β}
    (ha : a.Respects (Memory.SparesBelow n)) : (onSource a).Respects (SparesBelow n) := by
  intro d
  exact ⟨ha d.source, fun _ h => h⟩

theorem besideMemory_sparesBelow {a : Attempt (Draws ω α) α β} (ha : a.Respects Keeps) :
    (besideMemory a : Attempt (Draws (Memory ω M) α) α β).Respects (SparesBelow n) := by
  intro d
  exact ⟨⟨Nat.le_refl _, fun _ _ _ => rfl⟩, ha d.bare⟩

end Draws

section
variable {F : Factory ω O M α} {n : Nat} {ks : List Nat}

theorem observeInPlace_sparesBelow (hks : ∀ i ∈ ks, n ≤ i) (k : Nat) (x : O) :
    (observeInPlace F ks k x).Respects (Draws.SparesBelow n) := by
  unfold observeInPlace
  rcases hi : ks[k]? with _ | i
  · exact .throw Draws.SparesBelow.refl _
  · exact Draws.onSource_sparesBelow
      (Memory.onCell_sparesBelow (hks i (List.mem_of_getElem? hi)) _)

theorem finalizeInPlace_sparesBelow (hks : ∀ i ∈ ks, n ≤ i) :
    (finalizeInPlace F ks).Respects (Draws.SparesBelow n) := by
  induction ks with
  | nil => exact .pure Draws.SparesBelow.refl _
  | cons i ks ih =>
    obtain ⟨hi, hks⟩ := List.forall_mem_cons.1 hks
    refine .bind Draws.SparesBelow.trans
      (Draws.onSource_sparesBelow (Memory.onCell_sparesBelow hi _)) ?_
    intro u
    exact ih hks

variable [Scalar α] (g : Generator ω α) (m : Mixture Nat α) (iteration : Nat)

theorem assignInPlace_sparesBelow (x : O) (site : Site) :
    (m.assignInPlace F g x site).Respects (Draws.SparesBelow n) := by
  refine .bind_of_runOn Draws.SparesBelow.trans ?_ ?_
  · intro d
    exact .refl d
  · intro d d' d'' _
    exact Draws.besideMemory_sparesBelow
      (((d'.source.cell |> m.mapModels).assign_fills F.component g x site).imp Draws.Fills.keeps) d''

theorem routeInPlace_sparesBelow (hks : ∀ i ∈ ks, n ≤ i) (xs : List O) :
    ∀ j, (routeInPlace F g m iteration ks j xs).Respects (Draws.SparesBelow n) := by
  induction xs with
  | nil =>
    intro j
    exact .pure Draws.SparesBelow.refl _
  | cons x xs ih =>
    intro j
    refine .bind Draws.SparesBelow.trans (assignInPlace_sparesBelow g m x _) ?_
    intro k
    refine .bind Draws.SparesBelow.trans (observeInPlace_sparesBelow hks k x) ?_
    intro u
    exact ih (j + 1)

omit [Scalar α] in
variable {m iteration} in
theorem renewInPlace_eq_ok {d d' : Draws (Memory ω M) α} :
    (renewInPlace F m iteration).runOn d = (.ok ks, d') ↔
      ∃ mem, (F.fromPosterior m.models).runOn d.source = (.ok ks, mem) ∧
        ks.length = m.size ∧ d' = { d with source := mem } := by
  rw [renewInPlace, Attempt.runOn_bind_eq_ok]
  constructor
  · rintro ⟨drawn, d₁, hdraw, hcheck⟩
    obtain ⟨mem, hmem, rfl⟩ := Draws.runOn_onSource_eq.1 hdraw
    by_cases hlen : drawn.length = m.size
    · rw [if_pos hlen] at hcheck
      obtain ⟨hks, rfl⟩ := Prod.mk.inj hcheck
      obtain rfl := Except.ok.inj hks
      exact ⟨mem, hmem, hlen, rfl⟩
    · rw [if_neg hlen] at hcheck
      cases hcheck
  · rintro ⟨mem, hmem, hlen, rfl⟩
    refine ⟨ks, _, Draws.runOn_onSource_eq.2 ⟨mem, hmem, rfl⟩, ?_⟩
    rw [if_pos hlen]
    rfl

omit [Scalar α] in
theorem renewInPlace_spares (hF : F.MakesNew) (d : Draws (Memory ω M) α) :
    d.SparesBelow n ((renewInPlace F m iteration).runOn d).2 := by
  refine Attempt.Respects.bind Draws.SparesBelow.trans (Draws.onSource_sparesBelow
    ((hF.spares m.models).imp fun _ _ => Memory.Spares.below)) ?_ d
  intro ks
  split
  · exact .pure Draws.SparesBelow.refl _
  · exact .throw Draws.SparesBelow.refl _

/-- **A sweep spares what was there**, at whatever point it fails, and keeps weights that
    were drawn. -/
theorem sweepInPlace_spares (hF : F.MakesNew) (data : List O) (d : Draws (Memory ω M) α) :
    d.SparesBelow d.source.next ((sweepInPlace F g m iteration data).runOn d).2 := by
  have hrenew : d.SparesBelow d.source.next ((renewInPlace F m iteration).runOn d).2 :=
    renewInPlace_spares m iteration hF d
  rcases hr : (renewInPlace F m iteration).runOn d with ⟨e | ks, d₁⟩ <;> rw [hr] at hrenew
  · rw [sweepInPlace, Attempt.runOn_bind_error hr]
    exact hrenew
  · rw [sweepInPlace, Attempt.runOn_bind_ok hr]
    obtain ⟨mem, hmem, -, -⟩ := renewInPlace_eq_ok.1 hr
    -- all that is written from here on is at the places of the new components
    have hks : ∀ i ∈ ks, d.source.next ≤ i := fun i hi => (hF.new _ _ _ _ hmem i hi).1
    refine .trans _ _ _ hrenew (Attempt.Respects.bind Draws.SparesBelow.trans
      (routeInPlace_sparesBelow g m iteration hks data 0) ?_ d₁)
    intro u
    refine .bind Draws.SparesBelow.trans (finalizeInPlace_sparesBelow hks) ?_
    intro u
    exact .pure Draws.SparesBelow.refl _

end

/-! ## Iterations spare what was there -/

namespace Chain

variable [Scalar α] {F : Factory ω O M α} {g : Generator ω α} {ks : List Nat}
  {c c' : Chain (Memory ω M) O Nat α}

/-- The places of what may be kept of these components, and the memory with it. -/
def sampleInPlace (c : Chain (Memory ω M) O Nat α) (ks : List Nat) : List Nat × Memory ω M :=
  if c.plan.keeps c.iteration then
    (List.range' c.memory.next ks.length, c.memory.extend (ks.map c.memory.cell))
  else (ks, c.memory)

/-- The chain after an iteration that ended with the components at these places. -/
def completeInPlace (count : M → Nat) (c : Chain (Memory ω M) O Nat α) (ks : List Nat) :
    Chain (Memory ω M) O Nat α :=
  { (c.withDraws ⟨(c.sampleInPlace ks).2, c.state.draws.weights⟩).complete
      (fun k => count ((c.sampleInPlace ks).2.cell k)) ks with
    samples := c.samplesAfter (c.sampleInPlace ks).1 }

theorem sampleInPlace_spares (c : Chain (Memory ω M) O Nat α) (ks : List Nat) :
    c.memory.Spares (c.sampleInPlace ks).2 := by
  rw [sampleInPlace]
  split
  · exact Memory.extend_spares _ _
  · exact .refl _

theorem runOn_copiesToKeep (ks : List Nat) (c : Chain (Memory ω M) O Nat α) :
    (copiesToKeep ks).runOn c = (.ok (c.sampleInPlace ks).1,
      c.withDraws ⟨(c.sampleInPlace ks).2, c.state.draws.weights⟩) := by
  rw [copiesToKeep, Attempt.runOn_bind_ok (Attempt.runOn_get c), sampleInPlace]
  split
  · have hlen : (ks.map c.memory.cell).length = ks.length := List.length_map _
    rw [← hlen]
    rfl
  · rfl

/-- A sweep that ends well ends with the components that the factory has handed out. -/
theorem exists_renewed_of_sweepInPlace {m : Mixture Nat α} {iteration : Nat} {data : List O}
    {d d' : Draws (Memory ω M) α}
    (h : (sweepInPlace F g m iteration data).runOn d = (.ok ks, d')) :
    ∃ mem, (F.fromPosterior m.models).runOn d.source = (.ok ks, mem) ∧ ks.length = m.size ∧
      mem.next ≤ d'.source.next := by
  obtain ⟨ks₁, d₁, hrenew, hrest⟩ := Attempt.runOn_bind_eq_ok.1 h
  obtain ⟨u, d₂, hroute, hrest⟩ := Attempt.runOn_bind_eq_ok.1 hrest
  obtain ⟨u, d₃, hfinalize, hlast⟩ := Attempt.runOn_bind_eq_ok.1 hrest
  obtain ⟨hks, rfl⟩ := Prod.mk.inj hlast
  obtain rfl := Except.ok.inj hks
  obtain ⟨mem, hmem, hlen, rfl⟩ := renewInPlace_eq_ok.1 hrenew
  have hfirst : ∀ i ∈ ks₁, 0 ≤ i := fun i _ => Nat.zero_le i
  have hrouted := routeInPlace_sparesBelow (F := F) g m iteration hfirst data 0
    { d with source := mem }
  have hfinalized := finalizeInPlace_sparesBelow (F := F) hfirst d₂
  rw [hroute] at hrouted
  rw [hfinalize] at hfinalized
  exact ⟨mem, hmem, hlen, Nat.le_trans hrouted.memory.next_le hfinalized.memory.next_le⟩

/-- One iteration in place in one step. -/
theorem runOn_iterateInPlace (F : Factory ω O M α) (g : Generator ω α)
    (c : Chain (Memory ω M) O Nat α) :
    (iterateInPlace F g).runOn c =
      match (sweepInPlace F g c.state.mixture c.iteration c.data).runOn c.state.draws with
      | (.ok ks, d) => (.ok (), (c.withDraws d).completeInPlace F.count ks)
      | (.error e, d) => (.error e, c.withDraws d) := by
  rw [iterateInPlace, Attempt.runOn_bind_ok (Attempt.runOn_get c), runOn_onState_read_bind]
  rcases hs : (sweepInPlace F g c.state.mixture c.iteration c.data).runOn c.state.draws with
    ⟨e | ks, d⟩
  · rfl
  · obtain ⟨mem, -, hlen, -⟩ := exists_renewed_of_sweepInPlace hs
    refine (Attempt.runOn_bind_ok (runOn_copiesToKeep ks (c.withDraws d))).trans ?_
    rw [Attempt.runOn_bind_ok (Attempt.runOn_get _), runOn_conclude, mixture_withDraws,
      mixture_withDraws, if_pos hlen]
    rfl

/-- A failing iteration leaves nothing but other draws, and these spare what was there. -/
theorem iterateInPlace_eq_error {e : Fault α} :
    (iterateInPlace F g).runOn c = (.error e, c') ↔
      ∃ d, (sweepInPlace F g c.state.mixture c.iteration c.data).runOn c.state.draws =
          (.error e, d) ∧ c' = c.withDraws d := by
  rw [runOn_iterateInPlace]
  rcases (sweepInPlace F g c.state.mixture c.iteration c.data).runOn c.state.draws with
    ⟨e' | ks, d⟩
  · simp [eq_comm, and_assoc]
  · simp

/-- **An iteration spares what was there**, whether it fails or not: no component of the
    live mixture and of no sample is written to. -/
theorem iterateInPlace_spares (hF : F.MakesNew) :
    (iterateInPlace F g : Attempt (Chain (Memory ω M) O Nat α) α Unit).Respects
      fun c c' => c.memory.Spares c'.memory := by
  intro c
  have hsweep : c.memory.Spares _ :=
    (sweepInPlace_spares g c.state.mixture c.iteration hF c.data c.state.draws).memory
  rw [runOn_iterateInPlace]
  rcases hs : (sweepInPlace F g c.state.mixture c.iteration c.data).runOn c.state.draws with
    ⟨e | ks, d⟩ <;> rw [hs] at hsweep
  · exact hsweep
  · exact .trans _ _ _ hsweep (sampleInPlace_spares (c.withDraws d) ks)

/-- So do several of them. -/
theorem timesInPlace_spares (hF : F.MakesNew) (g : Generator ω α) (n : Nat) :
    ((iterateInPlace F g).times n).Respects
      fun c c' : Chain (Memory ω M) O Nat α => c.memory.Spares c'.memory := by
  refine Attempt.Respects.times
    (R := fun c c' : Chain (Memory ω M) O Nat α => c.memory.Spares c'.memory) ?_ ?_
    (iterateInPlace_spares hF) n
  · intro c
    exact .refl _
  · intro c c' c''
    exact .trans _ _ _

theorem timesInPlace_phase (F : Factory ω O M α) (g : Generator ω α) (n : Nat) :
    ((iterateInPlace F g).times n).Respects
      fun c c' : Chain (Memory ω M) O Nat α => c'.phase = c.phase := by
  refine Attempt.Respects.times
    (R := fun c c' : Chain (Memory ω M) O Nat α => c'.phase = c.phase) ?_ ?_ ?_ n
  · intro c
    rfl
  · intro c c' c'' h h'
    exact h'.trans h
  · intro c
    rw [runOn_iterateInPlace]
    rcases (sweepInPlace F g c.state.mixture c.iteration c.data).runOn c.state.draws with
      ⟨e | ks, d⟩ <;> rfl

end Chain

end DirichletMixture
