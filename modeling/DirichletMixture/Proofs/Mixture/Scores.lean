/-
  DirichletMixture: scores, apart from the drawing of the weights.

  Whatever scores points first asks for the weights of the iteration.  Once these are
  known, scores are functions of them and of the live components, and nothing else is
  drawn for them.

  * `Mixture.drawWeights` draws weights, whether there are some or not, and
    `weights_eq_ok` says when the weights are found and when they are drawn;
  * `Mixture.scoreFor` and `Mixture.scoresFor` are the scores for known weights, and
    `scoreFor_of_scoresFor` compares them;
  * `assign_eq_ok` and `assign_eq_error` take the draw of a destination apart.
-/
import DirichletMixture.Chain.Sweep
import DirichletMixture.Proofs.Attempt

namespace DirichletMixture

variable {ω O M α β : Type}

/-! ## Draws -/

theorem Draws.runOn_onSource_eq {a : Attempt ω α β} {d d' : Draws ω α}
    {r : Except (Fault α) β} :
    (onSource a).runOn d = (r, d') ↔
      ∃ s, a.runOn d.source = (r, s) ∧ d' = { d with source := s } := by
  rw [onSource, Attempt.runOn_focus]
  rcases a.runOn d.source with ⟨r', s⟩
  constructor
  · intro h
    cases h
    exact ⟨s, rfl, rfl⟩
  · rintro ⟨s', h, rfl⟩
    cases h
    rfl

theorem atPlace?_eq_some {xs : List β} {k : Nat} {x : β} (h : xs[k]? = some x) :
    atPlace? xs k = some x := by
  rw [atPlace?, place?_natCast (List.getElem?_eq_some_iff.1 h).1, Option.bind_some, h]

namespace Mixture

variable [Scalar α]

/-! ## Weights -/

/-- New weights for the clusters as they are occupied. -/
def drawWeights (g : Generator ω α) (m : Mixture M α) : Attempt ω α (List α) :=
  breakStick g m.alpha0 (m.occupancy.map (Nat.cast : Nat → α))

variable {g : Generator ω α} {m : Mixture M α} {d d' : Draws ω α} {w : List α} {e : Fault α}

theorem runOn_weights_of_some (h : d.weights = some w) :
    (m.weights g).runOn d = (.ok w, d) := by
  simp only [weights, Attempt.runOn_of, h]

theorem runOn_weights_of_none (h : d.weights = none) :
    (m.weights g).runOn d =
      match (m.drawWeights g).runOn d.source with
      | (.ok w, s) => (.ok w, ⟨s, some w⟩)
      | (.error e, s) => (.error e, ⟨s, none⟩) := by
  simp only [weights, Attempt.runOn_of, h]
  rfl

theorem length_of_breakFrom {alpha0 total remainder : α} {counts : List α} {s s' : ω}
    (h : (breakFrom g alpha0 total remainder counts).runOn s = (.ok w, s')) :
    w.length = counts.length := by
  induction counts generalizing total remainder w s with
  | nil => cases h; rfl
  | cons n counts ih =>
    obtain ⟨share, s₁, -, hrest⟩ := Attempt.runOn_bind_eq_ok.1 h
    obtain ⟨pieces, s₂, hpieces, hlast⟩ := Attempt.runOn_bind_eq_ok.1 hrest
    cases hlast
    rw [List.length_cons, List.length_cons, ih hpieces]

/-- There is one weight for each cluster. -/
theorem length_of_drawWeights {s s' : ω} (h : (m.drawWeights g).runOn s = (.ok w, s')) :
    w.length = m.occupancy.length := by
  rw [length_of_breakFrom h, List.length_map]

/-- The weights are found, or drawn and kept. -/
theorem weights_eq_ok : (m.weights g).runOn d = (.ok w, d') ↔
    d.weights = some w ∧ d' = d ∨
      d.weights = none ∧ ∃ s, (m.drawWeights g).runOn d.source = (.ok w, s) ∧ d' = ⟨s, some w⟩ := by
  rcases hw : d.weights with _ | w₀
  · rw [runOn_weights_of_none hw]
    rcases (m.drawWeights g).runOn d.source with ⟨e | w₁, s⟩
    · simp
    · simp only [Prod.mk.injEq, Except.ok.injEq, eq_comm (b := d')]
      constructor
      · rintro ⟨rfl, hd⟩
        exact Or.inr ⟨trivial, s, ⟨rfl, rfl⟩, hd⟩
      · rintro (⟨h, -⟩ | ⟨-, s', ⟨rfl, rfl⟩, hd⟩)
        · cases h
        · exact ⟨rfl, hd⟩
  · rw [runOn_weights_of_some hw]
    simp [eq_comm]

/-- No weights come about if there are none and the draw fails. -/
theorem weights_eq_error : (m.weights g).runOn d = (.error e, d') ↔
    d.weights = none ∧ ∃ s, (m.drawWeights g).runOn d.source = (.error e, s) ∧ d' = ⟨s, none⟩ := by
  rcases hw : d.weights with _ | w₀
  · rw [runOn_weights_of_none hw]
    rcases (m.drawWeights g).runOn d.source with ⟨e₁ | w₁, s⟩
    · simp only [Prod.mk.injEq, Except.error.injEq, eq_comm (b := d')]
      constructor
      · rintro ⟨rfl, hd⟩
        exact ⟨trivial, s, ⟨rfl, rfl⟩, hd⟩
      · rintro ⟨-, s', ⟨rfl, rfl⟩, hd⟩
        exact ⟨rfl, hd⟩
    · simp
  · rw [runOn_weights_of_some hw]
    simp

/-- Weights that came about are kept. -/
theorem weights_of_weights_eq_ok (h : (m.weights g).runOn d = (.ok w, d')) :
    d'.weights = some w := by
  rcases weights_eq_ok.1 h with ⟨hw, rfl⟩ | ⟨-, s, -, rfl⟩
  · exact hw
  · rfl

/-! ## Scores for known weights -/

/-- The score of the cluster at a place. -/
def scoreFor (c : Component O M α) (m : Mixture M α) (w : List α) (x : O) (k : Int) :
    Except (Fault α) α :=
  match atPlace? w k, atPlace? m.clusters k with
  | some weight, some cluster => weigh c x weight cluster
  | _, _ => .error .outOfRange

/-- The scores of all clusters. -/
def scoresFor (c : Component O M α) (m : Mixture M α) (w : List α) (x : O) :
    Except (Fault α) (List α) :=
  (w.zip m.clusters).mapM fun p => weigh c x p.1 p.2

variable {c : Component O M α} {x : O}

theorem score_eq (k : Int) :
    m.score c g x k = m.weights g >>= fun w => Attempt.ofExcept (m.scoreFor c w x k) := by
  rw [score]
  refine bind_congr fun w => ?_
  rw [scoreFor]
  rcases atPlace? w k with _ | weight
  · rfl
  rcases atPlace? m.clusters k with _ | cluster
  · rfl
  show (Attempt.ofExcept (c.density cluster.model x) >>= fun p => pure (weight * p)) =
    Attempt.ofExcept (weigh c x weight cluster)
  rw [weigh]
  rcases c.density cluster.model x with e | p <;> rfl

theorem scores_eq :
    m.scores c g x = m.weights g >>= fun w => Attempt.ofExcept (m.scoresFor c w x) := rfl

theorem normalized_eq : m.normalized c g x =
    m.weights g >>= fun w => Attempt.ofExcept ((m.scoresFor c w x).bind normalizeByMax) := by
  rw [normalized, scores_eq, bind_assoc]
  refine bind_congr fun w => ?_
  exact Attempt.ofExcept_bind_ofExcept _ _

/-- A score among all of them is that of the cluster at its place. -/
theorem exists_cluster_of_scoresFor {ps : List α} (h : m.scoresFor c w x = .ok ps) {k : Nat}
    {p : α} (hp : ps[k]? = some p) :
    ∃ weight cluster, w[k]? = some weight ∧ m.clusters[k]? = some cluster ∧
      weigh c x weight cluster = .ok p := by
  obtain ⟨⟨weight, cluster⟩, hzip, hweigh⟩ := exists_getElem?_of_mapM_eq_ok h hp
  obtain ⟨hweight, hcluster⟩ := List.getElem?_zip_eq_some.1 hzip
  exact ⟨weight, cluster, hweight, hcluster, hweigh⟩

theorem scoreFor_of_scoresFor {ps : List α} (h : m.scoresFor c w x = .ok ps) {k : Nat} {p : α}
    (hp : ps[k]? = some p) : m.scoreFor c w x k = .ok p := by
  obtain ⟨weight, cluster, hweight, hcluster, hweigh⟩ := exists_cluster_of_scoresFor h hp
  rw [scoreFor, atPlace?_eq_some hweight, atPlace?_eq_some hcluster]
  exact hweigh

/-- A score is a weight times a likelihood. -/
theorem exists_mul_of_scoresFor {ps : List α} (h : m.scoresFor c w x = .ok ps) {k : Nat} {p : α}
    (hp : ps[k]? = some p) :
    ∃ weight model q, w[k]? = some weight ∧ m.models[k]? = some model ∧
      c.density model x = .ok q ∧ p = weight * q := by
  obtain ⟨weight, cluster, hweight, hcluster, hweigh⟩ := exists_cluster_of_scoresFor h hp
  obtain ⟨q, hq, rfl⟩ := map_eq_ok.1 hweigh
  refine ⟨weight, cluster.model, q, hweight, ?_, hq, rfl⟩
  rw [models, List.getElem?_map, hcluster, Option.map_some]

theorem length_of_scoresFor {ps : List α} (hw : w.length = m.size)
    (h : m.scoresFor c w x = .ok ps) : ps.length = m.size := by
  have hlen := length_of_mapM_eq_ok h
  rw [List.length_zip, hw] at hlen
  exact hlen.symm.trans (Nat.min_self _)

/-- A point that has all likelihoods has all scores. -/
theorem exists_scoresFor (w : List α)
    (hx : ∀ model ∈ m.models, ∃ q, c.density model x = .ok q) :
    ∃ ps, m.scoresFor c w x = .ok ps := by
  refine exists_mapM_eq_ok ?_
  rintro ⟨weight, cluster⟩ hmem
  obtain ⟨q, hq⟩ := hx _ (List.mem_map_of_mem (List.of_mem_zip hmem).2)
  exact ⟨_, map_eq_ok.2 ⟨q, hq, rfl⟩⟩

/-- A point that has no likelihood under any component has no scores. -/
theorem scoresFor_eq_error (hw : w.length = m.size) (hm : 0 < m.size)
    (hx : ∀ model ∈ m.models, c.density model x = .error e) : m.scoresFor c w x = .error e := by
  unfold scoresFor
  rcases hclusters : m.clusters with _ | ⟨cluster, clusters⟩
  · rw [size, hclusters] at hm
    cases hm
  rcases w with _ | ⟨weight, w⟩
  · rw [← hw] at hm
    cases hm
  have hdensity : c.density cluster.model x = .error e := by
    refine hx _ ?_
    rw [models, hclusters]
    exact List.mem_cons_self
  rw [List.zip_cons_cons, List.mapM_cons, weigh, hdensity]
  rfl

/-! ## Destinations -/

/-- A destination is an index that is drawn from the normalized scores. -/
theorem assign_eq_ok {site : Site} {k : Nat} :
    (m.assign c g x site).runOn d = (.ok k, d') ↔
      ∃ w d₁ p s, (m.weights g).runOn d = (.ok w, d₁) ∧
        (m.scoresFor c w x).bind normalizeByMax = .ok p ∧
        (drawIndex g p).runOn d₁.source = (.ok k, s) ∧ d' = { d₁ with source := s } := by
  rw [assign, Attempt.runOn_mapFault_eq_ok, normalized_eq]
  constructor
  · intro h
    obtain ⟨p, d₁, hp, hdraw⟩ := Attempt.runOn_bind_eq_ok.1 h
    obtain ⟨w, d₂, hw, hlast⟩ := Attempt.runOn_bind_eq_ok.1 hp
    obtain ⟨hscores, rfl⟩ := Prod.mk.inj hlast
    obtain ⟨s, hk, rfl⟩ := Draws.runOn_onSource_eq.1 hdraw
    exact ⟨w, d₂, p, s, hw, hscores, hk, rfl⟩
  · rintro ⟨w, d₁, p, s, hw, hscores, hk, rfl⟩
    refine Attempt.runOn_bind_eq_ok.2 ⟨p, d₁, ?_, Draws.runOn_onSource_eq.2 ⟨s, hk, rfl⟩⟩
    rw [Attempt.runOn_bind_ok hw, hscores]
    rfl

/-- There is no destination if there are no weights, or if the scores cannot be taken or
    drawn from; the site is noted. -/
theorem assign_eq_error {site : Site} :
    (m.assign c g x site).runOn d = (.error e, d') ↔
      ∃ e', e'.locate site = e ∧
        ((m.weights g).runOn d = (.error e', d') ∨
          ∃ w d₁, (m.weights g).runOn d = (.ok w, d₁) ∧
            ((m.scoresFor c w x).bind normalizeByMax = .error e' ∧ d' = d₁ ∨
              ∃ p s, (m.scoresFor c w x).bind normalizeByMax = .ok p ∧
                (drawIndex g p).runOn d₁.source = (.error e', s) ∧
                d' = { d₁ with source := s })) := by
  rw [assign, Attempt.runOn_mapFault_eq_error, normalized_eq]
  refine exists_congr fun e' => ?_
  rw [and_comm, and_congr_right_iff]
  rintro -
  constructor
  · intro h
    rcases Attempt.runOn_bind_eq_error.1 h with hp | ⟨p, d₁, hp, hdraw⟩
    · rcases Attempt.runOn_bind_eq_error.1 hp with hw | ⟨w, d₁, hw, hlast⟩
      · exact Or.inl hw
      · obtain ⟨hscores, rfl⟩ := Prod.mk.inj hlast
        exact Or.inr ⟨w, d₁, hw, Or.inl ⟨hscores, rfl⟩⟩
    · obtain ⟨w, d₂, hw, hlast⟩ := Attempt.runOn_bind_eq_ok.1 hp
      obtain ⟨hscores, rfl⟩ := Prod.mk.inj hlast
      obtain ⟨s, hs, rfl⟩ := Draws.runOn_onSource_eq.1 hdraw
      exact Or.inr ⟨w, d₂, hw, Or.inr ⟨p, s, hscores, hs, rfl⟩⟩
  · rintro (hw | ⟨w, d₁, hw, ⟨hscores, rfl⟩ | ⟨p, s, hscores, hs, rfl⟩⟩)
    · exact Attempt.runOn_bind_error (Attempt.runOn_bind_error hw)
    · refine Attempt.runOn_bind_error ?_
      rw [Attempt.runOn_bind_ok hw, hscores]
      rfl
    · refine Attempt.runOn_bind_eq_error.2 (Or.inr ⟨p, d₁, ?_, ?_⟩)
      · rw [Attempt.runOn_bind_ok hw, hscores]
        rfl
      · exact Draws.runOn_onSource_eq.2 ⟨s, hs, rfl⟩

end Mixture

end DirichletMixture
