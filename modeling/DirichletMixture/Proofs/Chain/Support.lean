/-
  DirichletMixture: observations go where they can have come from.

  The destination of an observation is drawn with probability proportional to its scores
  under the components that were live when the iteration began.  In exact arithmetic a
  component without weight, or under which the observation has no likelihood, is never
  drawn.

  * `Chain.Supported` says that the live component at a place has a positive weight and
    gives an observation a positive likelihood;
  * `supported_of_routesTo`: an iteration routes observations to such places only;
  * `Pass.tally`: the tallies that an iteration leaves behind hold what was routed to their
    places, and `destinations_are_supported` says what this means for samples of tallies.
-/
import DirichletMixture.Proofs.Exact.Basic
import DirichletMixture.Proofs.Chain.Conservation
import DirichletMixture.Proofs.Chain.Destinations
import DirichletMixture.Proofs.Chain.Tallies
import DirichletMixture.Proofs.Generator.Seeded
import DirichletMixture.Proofs.Weights.Support

namespace DirichletMixture

variable {ω O M K : Type}

/-! ## Shares -/

theorem exists_getElem?_of_mem_share {k : Nat} {z : List Nat} {xs : List O} {x : O}
    (h : x ∈ share k z xs) : ∃ j : Nat, z[j]? = some k ∧ xs[j]? = some x := by
  obtain ⟨⟨i, y⟩, hmem, rfl⟩ := List.mem_map.1 h
  obtain ⟨hzip, hi⟩ := List.mem_filter.1 hmem
  obtain rfl : i = k := by simpa using hi
  obtain ⟨j, hj⟩ := List.getElem?_of_mem hzip
  exact ⟨j, List.getElem?_zip_eq_some.1 hj⟩

section
variable [Exact K] {f : Family ω O M K} {g : Generator ω K}

/-! ## One destination -/

/-- The place `k` has a positive weight in the next iteration, and the component that is
    live there gives the observation at the position `j` a positive likelihood. -/
def Chain.Supported (f : Family ω O M K) (g : Generator ω K) (c : Chain ω O M K) (j k : Nat) :
    Prop :=
  ∃ x w weight m q, c.data[j]? = some x ∧ HasWeights f g c w ∧ w[k]? = some weight ∧
    0 < weight ∧ c.state.mixture.models[k]? = some m ∧ f.density m x = .ok q ∧ 0 < q

/-- A destination has a positive score. -/
theorem exists_pos_of_assign (hg : g.UnitUniform) {c : Component O M K} {m : Mixture M K} {x : O}
    {site : Site} {k : Nat} {d d' : Draws ω K}
    (h : (m.assign c g x site).runOn d = (.ok k, d')) :
    ∃ w weight model q, ((m.weights g).runOn d).1 = .ok w ∧ w[k]? = some weight ∧
      m.models[k]? = some model ∧ c.density model x = .ok q ∧ 0 < weight * q := by
  obtain ⟨w, d₁, p, s, hw, hnormalized, hk, -⟩ := Mixture.assign_eq_ok.1 h
  obtain ⟨ps, hps, hnormalize⟩ := bind_eq_ok.1 hnormalized
  obtain ⟨y, hy, hpos⟩ := exists_pos_of_drawIndex hg hk
  -- what is positive as a part of the largest score is positive as a score
  obtain ⟨largest, hlargest, rfl⟩ := normalizeByMax_eq_ok hnormalize
  obtain ⟨score, hscore, rfl⟩ := Option.map_eq_some_iff.1 (List.getElem?_map ▸ hy)
  obtain ⟨weight, model, q, hweight, hmodel, hq, rfl⟩ := Mixture.exists_mul_of_scoresFor hps hscore
  exact ⟨w, weight, model, q, by rw [hw], hweight, hmodel, hq,
    (div_pos_iff_of_pos_right hlargest).1 hpos⟩

/-- **An iteration routes observations to places that support them**, if no likelihood is
    negative. -/
theorem supported_of_routesTo (hg : g.UnitUniform)
    (hf : ∀ m x q, f.density m x = .ok q → 0 ≤ q) {c : Chain ω O M K} {j k : Nat}
    (h : Chain.RoutesTo f g c j k) : c.Supported f g j k := by
  obtain ⟨x, ms, d, d', hcomes, hassign⟩ := h
  obtain ⟨w, weight, m, q, hw, hweight, hm, hq, hpos⟩ := exists_pos_of_assign hg hassign
  have hq0 : 0 < q := (hf m x q hq).lt_of_ne (right_ne_zero_of_mul hpos.ne').symm
  exact ⟨x, w, weight, m, q, hcomes.1, hcomes.hasWeights_iff.2 hw, hweight,
    (mul_pos_iff_of_pos_right hq0).1 hpos, hm, hq, hq0⟩

end

/-! ## Tallies -/

section
variable [Scalar K] {density : Nat → O → Except (Fault K) K} {size : Option Nat}
  {get : ω → List Nat} {put : List Nat → ω → ω} {g : Generator ω K}

omit [Scalar K] in
theorem Tally.observeAll_eq (density : Nat → O → Except (Fault K) K) (t : Tally O)
    (xs : List O) :
    (Tally.component density).observeAll t xs =
      .ok { t with observed := t.observed ++ xs } := by
  induction xs generalizing t with
  | nil => rw [List.append_nil]; rfl
  | cons x xs ih =>
    show (Tally.component density).observeAll { t with observed := t.observed ++ [x] } xs = _
    rw [ih, List.append_assoc, List.singleton_append]

omit [Scalar K] in
theorem Tally.eq_fresh_of_getElem? {n k : Nat} {t : Tally O}
    (h : (Tally.freshList n)[k]? = some t) : t = Tally.fresh k := by
  obtain ⟨hk, rfl⟩ := List.getElem?_eq_some_iff.1 h
  simp [Tally.freshList]

/-- The tally that an iteration leaves behind at a place. -/
theorem Pass.tally {p : Pass ω O (Tally O) K} {u : Unit}
    (h : (Chain.iterate ((tabulated density size).focus get put) g).runOn p.before =
      (.ok u, p.after)) {k : Nat} {t : Tally O} (ht : p.models[k]? = some t) :
    t = ⟨k, share k (p.destinations ((tabulated density size).focus get put) g) p.before.data,
      1⟩ := by
  obtain ⟨fresh, s, hfresh, -, hrouted⟩ := Pass.routed h
  obtain ⟨n, rfl⟩ := exists_freshList_of_fromPosterior density size
    (Prod.ext (Prod.mk.inj hfresh).1 rfl :
      ((tabulated density size).fromPosterior p.before.state.mixture.models).runOn
        (get p.before.state.draws.source) = (.ok fresh, _))
  obtain ⟨t₀, t₁, ht₀, hobserve, hfinalize⟩ := hrouted.exists_absorbed ht
  obtain rfl := Tally.eq_fresh_of_getElem? ht₀
  have hobserve' := (Tally.observeAll_eq density (Tally.fresh k) _).symm.trans hobserve
  obtain rfl := Except.ok.inj hobserve'
  exact (Except.ok.inj hfinalize).symm

variable {plan : Plan K} {data : List O} {s s' : ω} {c₀ c : Chain ω O (Tally O) K}
  {ps : List (Pass ω O (Tally O) K)}

/-- Live tallies know their places. -/
theorem Chain.Leads.tally_index
    (h : start ((tabulated density size).focus get put) plan data s = (.ok c₀, s'))
    (hrun : Leads ((tabulated density size).focus get put) g c₀ ps c) {k : Nat} {t : Tally O}
    (ht : c.state.mixture.models[k]? = some t) : t.index = k := by
  rw [hrun.mixture] at ht
  rcases hlast : ps.getLast? with _ | p <;> rw [hlast] at ht
  · have hprior := (Prod.mk.inj (fromPrior_of_start h)).1
    obtain hmodels := Except.ok.inj hprior
    change c₀.state.mixture.models[k]? = some t at ht
    rw [← hmodels] at ht
    rw [Tally.eq_fresh_of_getElem? ht]
    rfl
  · obtain ⟨-, hiterate⟩ := hrun.of_mem (List.mem_of_getLast? hlast)
    rw [Pass.tally hiterate ht]

end

namespace Chain

variable [Exact K]

/-- **Destinations are supported.**  In exact arithmetic, let uniform draws lie between
    zero, included, and one, and let no likelihood be negative.  Whenever an iteration of
    any chain routes an observation, also if it fails later on, the component that is live
    at the destination has a positive weight and gives the observation a positive
    likelihood.  This holds of all destinations of all iterations that requests complete.
    So the tally at a place of a sample has observed nothing that is impossible at this
    place. -/
theorem destinations_are_supported (g : Generator ω K) (hg : g.UnitUniform) :
    (∀ (f : Family ω O M K), (∀ m x q, f.density m x = .ok q → 0 ≤ q) →
      (∀ c j k, RoutesTo f g c j k → c.Supported f g j k) ∧
      ∀ rs c₀, ∀ p ∈ passes f g rs c₀, ∀ j k : Nat,
        (p.destinations f g)[j]? = some k → p.before.Supported f g j k) ∧
    ∀ (density : Nat → O → Except (Fault K) K) (size : Option Nat) (get : ω → List Nat)
      (put : List Nat → ω → ω), (∀ k x q, density k x = .ok q → 0 ≤ q) →
      ∀ plan data s s' c₀,
        start ((tabulated density size).focus get put) plan data s = (.ok c₀, s') →
        ∀ rs, ∀ sample ∈ (after ((tabulated density size).focus get put) g rs c₀).samples,
        ∀ (k : Nat) t, sample[k]? = some t → ∀ x ∈ t.observed,
          ∃ q, density k x = .ok q ∧ 0 < q := by
  constructor
  · intro f hf
    refine ⟨fun c j k h => supported_of_routesTo hg hf h, ?_⟩
    intro rs c₀ p hp j k hk
    obtain ⟨-, hiterate⟩ := (leads_after f g rs c₀).of_mem hp
    exact supported_of_routesTo hg hf (Pass.routesTo hiterate hk)
  · intro density size get put hdensity plan data s s' c₀ h rs sample hsample k t ht x hx
    have hrun := leads_after ((tabulated density size).focus get put) g rs c₀
    obtain ⟨-, -, hi, hs⟩ := start_blank h
    obtain ⟨p, hp, rfl⟩ := (hrun.accounted hi hs).samples sample hsample
    obtain ⟨⟨qs, hbefore⟩, hiterate⟩ := hrun.of_mem hp
    rw [Pass.tally hiterate ht] at hx
    obtain ⟨j, hj, hxj⟩ := exists_getElem?_of_mem_share hx
    obtain ⟨y, -, -, m, q, hy, -, -, -, hm, hq, hpos⟩ := supported_of_routesTo hg
      (fun m x q hq => hdensity m.index x q hq) (Pass.routesTo hiterate hj)
    obtain rfl : y = x := Option.some.inj (hy.symm.trans hxj)
    refine ⟨q, ?_, hpos⟩
    rw [← hbefore.tally_index h hm]
    exact hq

/-- Two tallies and the number 2, which is impossible at the first of them: the first
    iteration routes it to the second one, where it is possible, and so does every sample. -/
theorem two_goes_where_it_is_possible :
    (∃ p, (passes (evenTallies nearby) Script.seeded [.cluster none]
        (ofEvenTallies (Plan.exactPair (K := ℚ) 0 1 3 Nat.one_pos) [0, 2, 1] 0))[0]? = some p ∧
      p.before.Supported (evenTallies nearby) Script.seeded 1 1) ∧
    ∀ sample ∈ (after (evenTallies nearby) Script.seeded [.cluster none]
        (ofEvenTallies (Plan.exactPair (K := ℚ) 0 1 3 Nat.one_pos) [0, 2, 1] 0)).samples,
      ∀ t, sample[0]? = some t → 2 ∉ t.observed := by
  obtain ⟨hruns, hsamples⟩ := destinations_are_supported (O := Nat) (M := Tally Nat)
    (Script.seeded (K := ℚ)) Script.unitUniform_seeded
  constructor
  · have hdest : (passes (evenTallies nearby) Script.seeded [.cluster none]
        (ofEvenTallies (Plan.exactPair (K := ℚ) 0 1 3 Nat.one_pos) [0, 2, 1] 0))[0]?.map
          (fun p => (p.destinations (evenTallies nearby) Script.seeded)[1]?) = some (some 1) := by
      decide +kernel
    obtain ⟨p, hp, hone⟩ := Option.map_eq_some_iff.1 hdest
    obtain ⟨-, hall⟩ := hruns (evenTallies nearby) fun t x q hq => nearby_nonneg hq
    exact ⟨p, hp, hall [.cluster none] _ p (List.mem_of_getElem? hp) 1 1 hone⟩
  · intro sample hsample t ht htwo
    obtain ⟨q, hq, hpos⟩ := hsamples nearby none _ _ (fun k x q hq => nearby_nonneg hq) _ _ _ _ _
      (start_evenTallies nearby (Plan.exactPair 0 1 3 Nat.one_pos) [0, 2, 1] 0) [.cluster none]
      sample hsample 0 t ht 2 htwo
    obtain rfl := Except.ok.inj hq
    exact lt_irrefl _ hpos

end Chain

end DirichletMixture
