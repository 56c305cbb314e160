/-
  DirichletMixture: chains whose observations and components are translated.

  A chain never looks at its observations and components but through its family.  So if
  a second family does with translated ones what the first does with the originals, a
  chain of the second kind goes through the translations of the states of the first.

  * `Chain.translate` translates a chain, and `Request.map` what is asked of it;
  * `Family.TranslatesTo` says what two families have to agree in: how components are
    drawn, what they do with observations, and how these are scored, where faults may
    differ in what a function `u` forgets of them;
  * `iterate_translate`: one iteration carries over;
  * `after_translate`, `outcomes_translate` and `passes_translate`: all requests to a
    chain do, and `stopsAt_translate`: a failing iteration stops at the same observation.
-/
import DirichletMixture.Proofs.Chain.Destinations
import DirichletMixture.Proofs.Simulation

namespace DirichletMixture

variable {ω O O' M M' α : Type}

/-! ## Translations -/

/-- The reading with its point translated. -/
def Reading.map (φ : O → O') : Reading O → Reading O'
  | .weights => .weights
  | .score x k => .score (φ x) k
  | .scores x => .scores (φ x)
  | .normalized x => .normalized (φ x)
  | .assign x site => .assign (φ x) site

/-- The request with its point translated, if there is one. -/
def Request.map (φ : O → O') : Request O → Request O'
  | .iterate => .iterate
  | .cluster n => .cluster n
  | .read r => .read (r.map φ)

/-- The chain with its observations translated by `φ` and its components by `h`. -/
def Chain.translate [Scalar α] (φ : O → O') (h : M → M') (c : Chain ω O M α) :
    Chain ω O' M' α where
  plan := c.plan
  data := c.data.map φ
  state := ⟨c.state.mixture.mapModels h, c.state.draws⟩
  samples := c.samples.map (List.map h)
  iteration := c.iteration
  phase := c.phase
  journal := c.journal

/-- The completed iteration of the translated chain. -/
def Pass.translate [Scalar α] (φ : O → O') (h : M → M') (p : Pass ω O M α) : Pass ω O' M' α :=
  ⟨p.before.translate φ h, p.after.translate φ h⟩

namespace Mixture

variable (h : M → M') (m : Mixture M α)

@[simp] theorem models_mapModels : (m.mapModels h).models = m.models.map h := by
  simp only [models, mapModels, List.map_map]
  rfl

@[simp] theorem size_mapModels : (m.mapModels h).size = m.size := List.length_map _

@[simp] theorem totals_mapModels : (m.mapModels h).totals = m.totals := by
  simp only [totals, mapModels, List.map_map]
  rfl

theorem mapModels_ofModels (alpha0 : α) (ms : List M) :
    (ofModels alpha0 ms).mapModels h = ofModels alpha0 (ms.map h) := by
  have hclusters : (ms.mapIdx Cluster.fresh).map (Cluster.mapModel h) =
      (ms.map h).mapIdx Cluster.fresh := by
    refine List.ext_getElem (by simp) ?_
    intro k h₁ h₂
    simp [Cluster.fresh, Cluster.mapModel]
  simp only [ofModels, mapModels, hclusters, List.map_map]
  rfl

theorem map_count_map {count : M → Nat} {count' : M' → Nat}
    (hcount : ∀ m, count' (h m) = count m) (ms : List M) :
    (ms.map h).map count' = ms.map count := by
  rw [List.map_map]
  exact List.map_congr_left fun m _ => hcount m

theorem mapModels_replace {count : M → Nat} {count' : M' → Nat}
    (hcount : ∀ m, count' (h m) = count m) (ms : List M) :
    (m.replace count ms).mapModels h = (m.mapModels h).replace count' (ms.map h) := by
  have hclusters : (List.zipWith (fun c model => c.adopt model (count model)) m.clusters ms).map
        (Cluster.mapModel h) =
      List.zipWith (fun c model => c.adopt model (count' model))
        (m.clusters.map (Cluster.mapModel h)) (ms.map h) := by
    refine List.ext_getElem (by simp) ?_
    intro k h₁ h₂
    simp [Cluster.adopt, Cluster.mapModel, hcount]
  simp only [replace, mapModels, hclusters, map_count_map h hcount]

@[simp] theorem mapModels_id : m.mapModels id = m := by
  have hclusters : m.clusters.map (Cluster.mapModel id) = m.clusters := List.map_id m.clusters
  simp only [mapModels, hclusters]

end Mixture

@[simp] theorem Reading.map_id (r : Reading O) : r.map id = r := by
  cases r <;> rfl

@[simp] theorem Request.map_id (r : Request O) : r.map id = r := by
  cases r <;> simp [Request.map]

@[simp] theorem Chain.translate_id [Scalar α] (c : Chain ω O M α) : c.translate id id = c := by
  simp [Chain.translate]

@[simp] theorem Pass.translate_id [Scalar α] (p : Pass ω O M α) : p.translate id id = p := by
  simp [Pass.translate]

/-! ## Families that go together -/

variable [Scalar α]

open Attempt (CarriesOver)

/-- The family `f'` does with observations translated by `φ` and components translated
    by `h` what the family `f` does with the originals.  Where scores are read, faults
    agree in the eyes of `u`, which does not look at the site of a fault. -/
structure Family.TranslatesTo (u : Fault α → Fault α) (φ : O → O') (h : M → M')
    (g : Generator ω α) (f : Family ω O M α) (f' : Family ω O' M' α) : Prop where
  site : ∀ e e' s, u e = u e' → u (e.locate s) = u (e'.locate s)
  count : ∀ m, f'.count (h m) = f.count m
  observe : ∀ m x, f'.observe (h m) (φ x) = (f.observe m x).map h
  finalize : ∀ m, f'.finalize (h m) = (f.finalize m).map h
  fromPrior : ∀ n, f'.fromPrior n = List.map h <$> f.fromPrior n
  fromPosterior : ∀ ms, f'.fromPosterior (ms.map h) = List.map h <$> f.fromPosterior ms
  score : ∀ (m : Mixture M α) x k, CarriesOver u id id (m.score f.toComponent g x k).ignore
    ((m.mapModels h).score f'.toComponent g (φ x) k).ignore
  scores : ∀ (m : Mixture M α) x, CarriesOver u id id (m.scores f.toComponent g x).ignore
    ((m.mapModels h).scores f'.toComponent g (φ x)).ignore
  normalized : ∀ (m : Mixture M α) x, CarriesOver u id id (m.normalized f.toComponent g x)
    ((m.mapModels h).normalized f'.toComponent g (φ x))

namespace Family.TranslatesTo

variable {u : Fault α → Fault α} {φ : O → O'} {h : M → M'} {g : Generator ω α}
  {f : Family ω O M α} {f' : Family ω O' M' α} (t : TranslatesTo u φ h g f f')
include t

/-! ## One iteration -/

theorem assign (m : Mixture M α) (x : O) (site : Site) :
    CarriesOver u id id (m.assign f.toComponent g x site)
      ((m.mapModels h).assign f'.toComponent g (φ x) site) := by
  refine .mapFault ((t.normalized m x).bind ?_) ?_
  · intro p
    exact .refl _
  · intro e e' he
    exact t.site e e' site he

theorem renew (m : Mixture M α) (iteration : Nat) :
    CarriesOver u id (List.map h) (renew f m iteration)
      (DirichletMixture.renew f' (m.mapModels h) iteration) := by
  have hdraw : CarriesOver u id (List.map h) (f.fromPosterior m.models)
      (f'.fromPosterior (m.mapModels h).models) := by
    rw [Mixture.models_mapModels]
    exact .of_map (t.fromPosterior m.models)
  refine hdraw.onSource.bind ?_
  intro ms
  rw [List.length_map, Mixture.size_mapModels]
  split
  · exact .pure rfl
  · exact .throw _

theorem observeIn (ms : List M) (k : Nat) (x : O) :
    observeIn f'.toComponent (ms.map h) k (φ x) =
      (DirichletMixture.observeIn f.toComponent ms k x).map (List.map h) := by
  unfold DirichletMixture.observeIn
  rw [List.getElem?_map]
  rcases ms[k]? with _ | m
  · rfl
  · simp only [Option.map_some, t.observe]
    rcases f.observe m x with e | m'
    · rfl
    · simp [Except.map]

theorem route (m : Mixture M α) (iteration : Nat) (ms : List M) (j : Nat) (xs : List O) :
    CarriesOver u id (List.map h) (route f.toComponent g m iteration ms j xs)
      (DirichletMixture.route f'.toComponent g (m.mapModels h) iteration (ms.map h) j
        (xs.map φ)) := by
  induction xs generalizing ms j with
  | nil => exact .pure rfl
  | cons x xs ih =>
    refine (t.assign m x _).bind ?_
    intro k
    refine CarriesOver.bind (V := List.map h) (.ofExcept ?_) ?_
    · rw [id_eq, t.observeIn]
    · intro ms'
      exact ih ms' (j + 1)

theorem destinations (m : Mixture M α) (iteration j : Nat) (xs : List O) :
    CarriesOver u id id (destinations f.toComponent g m iteration j xs)
      (DirichletMixture.destinations f'.toComponent g (m.mapModels h) iteration j
        (xs.map φ)) := by
  induction xs generalizing j with
  | nil => exact .pure rfl
  | cons x xs ih =>
    refine (t.assign m x _).bind ?_
    intro k
    refine (ih (j + 1)).bind ?_
    intro z
    exact .pure rfl

theorem sweep (m : Mixture M α) (iteration : Nat) (data : List O) :
    CarriesOver u id (List.map h) (sweep f g m iteration data)
      (DirichletMixture.sweep f' g (m.mapModels h) iteration (data.map φ)) := by
  refine (t.renew m iteration).bind ?_
  intro ms
  refine (t.route m iteration ms 0 data).bind ?_
  intro ms
  refine .ofExcept ?_
  rw [mapM_map t.finalize]

end Family.TranslatesTo

namespace Chain

variable {φ : O → O'} {h : M → M'}

@[simp] theorem translate_withDraws (c : Chain ω O M α) (d : Draws ω α) :
    (c.withDraws d).translate φ h = (c.translate φ h).withDraws d := rfl

theorem translate_begin (c : Chain ω O M α) (n : Nat) :
    (c.begin n).translate φ h = (c.translate φ h).begin n := by
  simp [begin, report, openingEvents, translate]

theorem translate_finish (c : Chain ω O M α) :
    c.finish.translate φ h = (c.translate φ h).finish := by
  simp [finish, report, translate]

theorem translate_complete {count : M → Nat} {count' : M' → Nat}
    (hcount : ∀ m, count' (h m) = count m) (c : Chain ω O M α) (ms : List M) :
    (c.complete count ms).translate φ h = (c.translate φ h).complete count' (ms.map h) := by
  have hsamples : (c.samplesAfter ms).map (List.map h) =
      (c.translate φ h).samplesAfter (ms.map h) := by
    have hkeeps : (c.translate φ h).plan.keeps (c.translate φ h).iteration =
        c.plan.keeps c.iteration := rfl
    rw [samplesAfter, samplesAfter, hkeeps]
    split
    · exact List.map_append
    · rfl
  have hevents : (c.translate φ h).completionEvents count' (ms.map h) =
      c.completionEvents count ms := by
    simp only [completionEvents, translate, Mixture.map_count_map h hcount, List.length_map]
  have hmixture := Mixture.mapModels_replace h c.state.mixture hcount ms
  simp only [complete, hevents, ← hsamples]
  simp only [translate, State.replace, hmixture]

variable {u : Fault α → Fault α} {g : Generator ω α} {f : Family ω O M α}
  {f' : Family ω O' M' α} (t : f.TranslatesTo u φ h g f')
include t

/-- **An iteration carries over** to the translated chain. -/
theorem iterate_translate :
    CarriesOver u (translate φ h) id (iterate f g) (iterate f' g) := by
  intro c
  have hsweep := t.sweep c.state.mixture c.iteration c.data
  rcases hr : (iterate f g).runOn c with ⟨e | v, c'⟩
  · obtain ⟨d, hs, rfl⟩ := iterate_eq_error.1 hr
    obtain ⟨e', hs', he⟩ := hsweep.error hs
    have hr' : (iterate f' g).runOn (c.translate φ h) =
        (.error e', (c.translate φ h).withDraws d) := iterate_eq_error.2 ⟨d, hs', rfl⟩
    rw [hr']
    exact ⟨congrArg Except.error he, rfl⟩
  · obtain ⟨ms, d, hs, rfl⟩ := iterate_eq_ok.1 hr
    have hr' : (iterate f' g).runOn (c.translate φ h) =
        (.ok v, ((c.translate φ h).withDraws d).complete f'.count (ms.map h)) :=
      iterate_eq_ok.2 ⟨ms.map h, d, hsweep.ok hs, rfl⟩
    rw [hr', translate_complete t.count, translate_withDraws]
    exact ⟨rfl, rfl⟩

theorem iterateTimes_translate (n : Nat) :
    CarriesOver u (translate φ h) id (iterateTimes f g n) (iterateTimes f' g n) := by
  induction n with
  | zero => exact .pure rfl
  | succ n ih =>
    refine (iterate_translate t).bind ?_
    intro _
    exact ih

theorem cluster_translate (n : Option Int) :
    CarriesOver u (translate φ h) id (cluster f g n).ignore (cluster f' g n).ignore := by
  intro c
  have hn : n.getD (c.translate φ h).plan.iterations = n.getD c.plan.iterations := rfl
  rw [Attempt.runOn_ignore, Attempt.runOn_ignore]
  rcases Int.lt_trichotomy (n.getD c.plan.iterations) 0 with hneg | hzero | hpos
  · rw [runOn_cluster_of_neg hneg, runOn_cluster_of_neg (hn ▸ hneg), hn]
    exact ⟨rfl, rfl⟩
  · rw [runOn_cluster_of_zero hzero, runOn_cluster_of_zero (hn.trans hzero)]
    exact ⟨rfl, rfl⟩
  · rw [runOn_cluster_of_pos hpos, runOn_cluster_of_pos (hn.symm ▸ hpos), hn]
    generalize (n.getD c.plan.iterations).toNat = k
    have hruns := iterateTimes_translate t k
    rw [← translate_begin]
    rcases hr : (iterateTimes f g k).runOn (c.begin k) with ⟨e | v, c'⟩
    · obtain ⟨e', hr', he⟩ := hruns.error hr
      rw [hr']
      exact ⟨congrArg Except.error he, rfl⟩
    · rw [hruns.ok hr, translate_finish]
      exact ⟨rfl, rfl⟩

end Chain

namespace Family.TranslatesTo

variable {u : Fault α → Fault α} {φ : O → O'} {h : M → M'} {g : Generator ω α}
  {f : Family ω O M α} {f' : Family ω O' M' α} (t : TranslatesTo u φ h g f f')
include t

theorem read (m : Mixture M α) (r : Reading O) :
    CarriesOver u id id (r.perform f.toComponent g m)
      ((r.map φ).perform f'.toComponent g (m.mapModels h)) := by
  cases r with
  | weights => exact .refl _
  | score x k => exact t.score m x k
  | scores x => exact t.scores m x
  | normalized x => exact (t.normalized m x).ignore
  | assign x site => exact (t.assign m x site).ignore

/-- A request carries over to the translated chain. -/
theorem request (r : Request O) :
    CarriesOver u (Chain.translate φ h) id (r.perform f g) ((r.map φ).perform f' g) := by
  cases r with
  | iterate => exact Chain.iterate_translate t
  | cluster n => exact Chain.cluster_translate t n
  | read r =>
    intro c
    obtain ⟨hout, hdraws⟩ := t.read c.state.mixture r c.state.draws
    refine ⟨hout, ?_⟩
    have hstate := congrArg (fun d => (c.translate φ h).withDraws d) hdraws
    exact hstate

end Family.TranslatesTo

/-! ## Whole runs -/

namespace Chain

variable {φ : O → O'} {h : M → M'} {u : Fault α → Fault α} {g : Generator ω α}
  {f : Family ω O M α} {f' : Family ω O' M' α} (t : f.TranslatesTo u φ h g f')
include t

/-- A translated chain starts as the chain does. -/
theorem start_translate (plan : Plan α) (data : List O) (s : ω) :
    start f' plan (data.map φ) s =
      ((start f plan data s).1.map (translate φ h), (start f plan data s).2) := by
  have hstart : Mixture.start f' plan.clusters plan.alpha0 =
      Mixture.mapModels h <$> Mixture.start f plan.clusters plan.alpha0 := by
    unfold Mixture.start
    split
    · rfl
    split
    · rw [t.fromPrior, map_eq_pure_bind, map_eq_pure_bind, bind_assoc, bind_assoc]
      refine bind_congr fun ms => ?_
      rw [pure_bind, List.length_map]
      split
      · rw [pure_bind, Mixture.mapModels_ofModels]
      · rfl
    · rfl
  simp only [start, hstart, Attempt.runOn_map]
  rcases (Mixture.start f plan.clusters plan.alpha0).runOn s with ⟨e | m, s'⟩ <;> rfl

/-- **Requests carry over**: what they leave behind is the translated chain. -/
theorem after_translate (rs : List (Request O)) (c : Chain ω O M α) :
    after f' g (rs.map (Request.map φ)) (c.translate φ h) = (after f g rs c).translate φ h := by
  induction rs generalizing c with
  | nil => rfl
  | cons r rs ih =>
    rw [List.map_cons, after, (t.request r c).2, ih]
    rfl

/-- They end alike in the eyes of `u`. -/
theorem outcomes_translate (rs : List (Request O)) (c : Chain ω O M α) :
    (outcomes f' g (rs.map (Request.map φ)) (c.translate φ h)).map (Except.mapError u) =
      (outcomes f g rs c).map (Except.mapError u) := by
  induction rs generalizing c with
  | nil => rfl
  | cons r rs ih =>
    obtain ⟨hout, hstate⟩ := t.request r c
    rw [Except.map_id, id_eq] at hout
    simp only [List.map_cons, outcomes, hstate, hout, ih]

theorem passesIn_translate (n : Nat) (c : Chain ω O M α) :
    passesIn f' g n (c.translate φ h) = (passesIn f g n c).map (Pass.translate φ h) := by
  induction n generalizing c with
  | zero => rfl
  | succ n ih =>
    have hstep := iterate_translate t
    rcases hr : (iterate f g).runOn c with ⟨e | v, c'⟩
    · obtain ⟨e', hr', -⟩ := hstep.error hr
      rw [passesIn, passesIn, hr, hr']
      rfl
    · rw [passesIn, passesIn, hr, hstep.ok hr]
      rw [List.map_cons, ← ih]
      rfl

/-- They complete the translated iterations. -/
theorem passes_translate (rs : List (Request O)) (c : Chain ω O M α) :
    passes f' g (rs.map (Request.map φ)) (c.translate φ h) =
      (passes f g rs c).map (Pass.translate φ h) := by
  induction rs generalizing c with
  | nil => rfl
  | cons r rs ih =>
    have hone : (r.map φ).passes f' g (c.translate φ h) =
        (r.passes f g c).map (Pass.translate φ h) := by
      cases r with
      | iterate => exact passesIn_translate t 1 c
      | cluster n =>
        rw [Request.map, Request.passes, Request.passes, ← passesIn_translate t, translate_begin]
        rfl
      | read r => rfl
    rw [List.map_cons, passes, passes, List.map_append, hone, (t.request r c).2, ih]

/-- An iteration that finds no destination for some observation finds none for the
    translated one. -/
theorem StopsAt.translate {c : Chain ω O M α} {j : Nat} {e : Fault α} {d : Draws ω α}
    (hs : StopsAt f g c j e d) :
    ∃ e', StopsAt f' g (c.translate φ h) j e' d ∧ u e' = u e := by
  obtain ⟨x, fresh, d₁, ms, d₂, hx, hrenew, hroute, hassign⟩ := hs
  obtain ⟨e', hassign', he⟩ := (t.assign _ _ _).error hassign
  refine ⟨e', ⟨φ x, fresh.map h, d₁, ms.map h, d₂, ?_, (t.renew _ _).ok hrenew, ?_, hassign'⟩, he⟩
  · have hmap := congrArg (Option.map φ) hx
    simpa [Chain.translate] using hmap
  · have hroute' := (t.route _ _ _ _ _).ok hroute
    rw [List.map_take] at hroute'
    exact hroute'

end Chain

/-- Translated iterations draw the same destinations. -/
theorem Pass.destinations_translate {φ : O → O'} {h : M → M'} {u : Fault α → Fault α}
    {g : Generator ω α} {f : Family ω O M α} {f' : Family ω O' M' α}
    (t : f.TranslatesTo u φ h g f') (p : Pass ω O M α) :
    (p.translate φ h).destinations f' g = p.destinations f g := by
  have hcarries : CarriesOver u id id (p.before.drawDestinations f g)
      ((p.before.translate φ h).drawDestinations f' g) := by
    refine (t.renew _ _).bind ?_
    intro ms
    exact t.destinations _ _ _ _
  rw [Pass.destinations, Pass.destinations]
  rcases hr : (p.before.drawDestinations f g).runOn p.before.state.draws with ⟨e | z, d⟩
  · obtain ⟨e', hr', -⟩ := hcarries.error hr
    rw [id_eq] at hr'
    simp only [Pass.translate, Chain.translate] at hr' ⊢
    rw [hr']
  · have hr' := hcarries.ok hr
    rw [id_eq] at hr'
    simp only [Pass.translate, Chain.translate] at hr' ⊢
    rw [hr']
    rfl

end DirichletMixture
