/-
  DirichletMixture: the destinations that an iteration draws.

  What an iteration makes of the data is settled by the destinations that it draws for
  them.  If it finds none for an observation, those before it have been routed.

  * `Chain.drawDestinations` draws the destinations of the next iteration, and
    `Pass.destinations` are those of a completed one;
  * `Pass.routed`: a completed iteration has routed the data to its destinations;
  * `Chain.RoutesTo` says where the next iteration routes an observation, whether it is
    completed or not, and `Chain.HasWeights` with which weights, which
    `weights_of_route` does not change;
  * `Chain.StopsAt` says that the next iteration finds no destination for some
    observation, and `iterate_eq_error_of_stopsAt` that it fails then.
-/
import DirichletMixture.Proofs.Chain.Requests
import DirichletMixture.Proofs.Chain.Routing

namespace DirichletMixture

variable {ω O M α : Type} [Scalar α]

namespace Chain

variable (f : Family ω O M α) (g : Generator ω α)

/-- The destinations that the next iteration draws for the data. -/
def drawDestinations (c : Chain ω O M α) : Attempt (Draws ω α) α (List Nat) := do
  let _ ← renew f c.state.mixture c.iteration
  destinations f.toComponent g c.state.mixture c.iteration 0 c.data

/-- The next iteration draws fresh components, routes the observations before the position
    `j`, and comes to the one at `j`, which is `x`, with the components `ms` and the draws
    `d`. -/
def ComesTo (c : Chain ω O M α) (j : Nat) (x : O) (ms : List M) (d : Draws ω α) : Prop :=
  c.data[j]? = some x ∧ ∃ fresh d₁,
    (renew f c.state.mixture c.iteration).runOn c.state.draws = (.ok fresh, d₁) ∧
    (route f.toComponent g c.state.mixture c.iteration fresh 0 (c.data.take j)).runOn d₁ =
      (.ok ms, d)

/-- The next iteration routes the observation at the position `j` to the component `k`. -/
def RoutesTo (c : Chain ω O M α) (j k : Nat) : Prop :=
  ∃ x ms d d', ComesTo f g c j x ms d ∧
    (c.state.mixture.assign f.toComponent g x ⟨some c.iteration, some j⟩).runOn d = (.ok k, d')

/-- The weights of the next iteration: those that there are, or else those that are drawn
    once the fresh components are drawn. -/
def HasWeights (c : Chain ω O M α) (w : List α) : Prop :=
  ∃ fresh d d',
    (renew f c.state.mixture c.iteration).runOn c.state.draws = (.ok fresh, d) ∧
    (c.state.mixture.weights g).runOn d = (.ok w, d')

/-- The next iteration routes the observations before the position `j` and then finds no
    destination for the one at `j`, for the reason `e`; it leaves the draws `d`. -/
def StopsAt (c : Chain ω O M α) (j : Nat) (e : Fault α) (d : Draws ω α) : Prop :=
  ∃ x fresh d₁ ms d₂, c.data[j]? = some x ∧
    (renew f c.state.mixture c.iteration).runOn c.state.draws = (.ok fresh, d₁) ∧
    (route f.toComponent g c.state.mixture c.iteration fresh 0 (c.data.take j)).runOn d₁ =
      (.ok ms, d₂) ∧
    (c.state.mixture.assign f.toComponent g x ⟨some c.iteration, some j⟩).runOn d₂ = (.error e, d)

end Chain

/-- The destinations that a completed iteration has drawn for the data. -/
def Pass.destinations (f : Family ω O M α) (g : Generator ω α) (p : Pass ω O M α) : List Nat :=
  match ((p.before.drawDestinations f g).runOn p.before.state.draws).1 with
  | .ok z => z
  | .error _ => []

variable {f : Family ω O M α} {g : Generator ω α}

/-- **A completed iteration** has drawn fresh components and routed the data to the
    destinations that it has drawn. -/
theorem Pass.routed {p : Pass ω O M α} {u : Unit}
    (h : (Chain.iterate f g).runOn p.before = (.ok u, p.after)) :
    ∃ fresh s,
      (f.fromPosterior p.before.state.mixture.models).runOn p.before.state.draws.source =
        (.ok fresh, s) ∧
      fresh.length = p.before.state.mixture.size ∧
      Routed f.toComponent p.before.data (p.destinations f g) fresh p.models := by
  obtain ⟨ms, d, hsweep, hafter⟩ := Chain.iterate_eq_ok.1 h
  obtain ⟨fresh, s, z, hfresh, hlen, hz, hrouted⟩ := exists_routed_of_sweep hsweep
  have hrenew : (renew f p.before.state.mixture p.before.iteration).runOn p.before.state.draws =
      (.ok fresh, { p.before.state.draws with source := s }) :=
    renew_eq_ok.2 ⟨s, hfresh, hlen, rfl⟩
  have hdest : p.destinations f g = z := by
    rw [Pass.destinations, Chain.drawDestinations, Attempt.runOn_bind_ok hrenew, hz]
  have hmodels : p.models = ms := by
    rw [Pass.models, hafter]
    exact Mixture.models_replace (hrouted.length.trans hlen)
  rw [hdest, hmodels]
  exact ⟨fresh, s, hfresh, hlen, hrouted⟩

/-! ## The weights of an iteration -/

theorem weights_of_assign {c : Component O M α} {m : Mixture M α} {x : O} {site : Site} {k : Nat}
    {d d' : Draws ω α} (h : (m.assign c g x site).runOn d = (.ok k, d')) :
    ((m.weights g).runOn d').1 = ((m.weights g).runOn d).1 := by
  obtain ⟨w, d₁, p, s, hw, -, -, rfl⟩ := Mixture.assign_eq_ok.1 h
  have hkept := Mixture.weights_of_weights_eq_ok hw
  rw [hw, Mixture.runOn_weights_of_some (d := { d₁ with source := s }) hkept]

/-- **All observations of an iteration meet the same weights.** -/
theorem weights_of_route {c : Component O M α} {m : Mixture M α} {iteration : Nat}
    {ms ms' : List M} {j : Nat} {xs : List O} {d d' : Draws ω α}
    (h : (route c g m iteration ms j xs).runOn d = (.ok ms', d')) :
    ((m.weights g).runOn d').1 = ((m.weights g).runOn d).1 := by
  induction xs generalizing ms j d with
  | nil => cases h; rfl
  | cons x xs ih =>
    obtain ⟨k, d₁, hk, hrest⟩ := Attempt.runOn_bind_eq_ok.1 h
    obtain ⟨ms₁, d₂, hobserve, hroute⟩ := Attempt.runOn_bind_eq_ok.1 hrest
    obtain ⟨-, rfl⟩ := Prod.mk.inj hobserve
    rw [ih hroute, weights_of_assign hk]

/-- An iteration comes to an observation with the weights that it has had all along. -/
theorem Chain.ComesTo.hasWeights_iff {c : Chain ω O M α} {j : Nat} {x : O} {ms : List M}
    {d : Draws ω α} (h : ComesTo f g c j x ms d) {w : List α} :
    HasWeights f g c w ↔ ((c.state.mixture.weights g).runOn d).1 = .ok w := by
  obtain ⟨-, fresh, d₁, hrenew, hroute⟩ := h
  rw [weights_of_route hroute]
  constructor
  · rintro ⟨fresh', d₂, d₃, hrenew', hw⟩
    rw [hrenew] at hrenew'
    obtain ⟨-, rfl⟩ := Prod.mk.inj hrenew'
    rw [hw]
  · intro hw
    exact ⟨fresh, d₁, _, hrenew, Prod.ext hw rfl⟩

/-- There is a weight for each cluster, and the weights were drawn for the mixture. -/
theorem Chain.HasWeights.exists_drawWeights {c : Chain ω O M α} {w : List α}
    (h : HasWeights f g c w) (hc : c.state.Sound g) :
    w.length = c.state.mixture.size ∧
      ∃ t t', (c.state.mixture.drawWeights g).runOn t = (.ok w, t') := by
  obtain ⟨fresh, d, d', hrenew, hweights⟩ := h
  have hfills := renew_fills f g c.state.mixture c.iteration c.state.draws
  have hfills' := c.state.mixture.weights_fills g d
  rw [hrenew] at hfills
  rw [hweights] at hfills'
  exact hc.exists_drawWeights (hfills.trans _ _ _ hfills')
    (Mixture.weights_of_weights_eq_ok hweights)

/-! ## The destinations of a completed iteration -/

/-- Routing comes to every observation, and draws the destination of the list there. -/
theorem exists_assign_of_route {c : Component O M α} {m : Mixture M α} {iteration : Nat}
    {ms ms' : List M} {j : Nat} {xs : List O} {z : List Nat} {d d' d'' : Draws ω α}
    (h : (route c g m iteration ms j xs).runOn d = (.ok ms', d'))
    (hz : (destinations c g m iteration j xs).runOn d = (.ok z, d'')) {i k : Nat}
    (hk : z[i]? = some k) :
    ∃ x ms₁ d₁ d₂, xs[i]? = some x ∧
      (route c g m iteration ms j (xs.take i)).runOn d = (.ok ms₁, d₁) ∧
      (m.assign c g x ⟨some iteration, some (j + i : Nat)⟩).runOn d₁ = (.ok k, d₂) := by
  induction xs generalizing ms j d z i with
  | nil =>
    cases hz
    cases hk
  | cons x xs ih =>
    obtain ⟨k₁, d₁, hassign, hrest⟩ := Attempt.runOn_bind_eq_ok.1 h
    obtain ⟨ms₁, d₂, hobserve, hroute⟩ := Attempt.runOn_bind_eq_ok.1 hrest
    obtain ⟨k₂, d₃, hassign', hrest'⟩ := Attempt.runOn_bind_eq_ok.1 hz
    obtain ⟨z', d₄, hz', hlast⟩ := Attempt.runOn_bind_eq_ok.1 hrest'
    cases hlast
    rw [hassign] at hassign'
    cases hassign'
    cases i with
    | zero =>
      cases hk
      exact ⟨x, ms, d, d₁, rfl, rfl, hassign⟩
    | succ i =>
      obtain ⟨-, rfl⟩ := Prod.mk.inj hobserve
      obtain ⟨y, ms₂, d₅, d₆, hy, hbefore, hlast⟩ := ih hroute hz' hk
      have hpos : j + 1 + i = j + (i + 1) := by omega
      rw [hpos] at hlast
      refine ⟨y, ms₂, d₅, d₆, hy, ?_, hlast⟩
      rw [List.take_succ_cons, route, Attempt.runOn_bind_ok hassign,
        Attempt.runOn_bind_ok hobserve, hbefore]

/-- The destinations of a completed iteration are those that it routes to. -/
theorem Pass.routesTo {p : Pass ω O M α} {u : Unit}
    (h : (Chain.iterate f g).runOn p.before = (.ok u, p.after)) {j k : Nat}
    (hk : (p.destinations f g)[j]? = some k) : Chain.RoutesTo f g p.before j k := by
  obtain ⟨ms, d, hsweep, -⟩ := Chain.iterate_eq_ok.1 h
  obtain ⟨fresh, d₁, hrenew, hrest⟩ := Attempt.runOn_bind_eq_ok.1 hsweep
  obtain ⟨ms', d₂, hroute, -⟩ := Attempt.runOn_bind_eq_ok.1 hrest
  obtain ⟨z, hz, -⟩ := exists_destinations_of_route hroute
  rw [Pass.destinations, Chain.drawDestinations, Attempt.runOn_bind_ok hrenew, hz] at hk
  obtain ⟨x, ms₁, d₃, d₄, hx, hbefore, hassign⟩ := exists_assign_of_route hroute hz hk
  rw [Nat.zero_add] at hassign
  exact ⟨x, ms₁, d₃, d₄, ⟨hx, fresh, d₁, hrenew, hbefore⟩, hassign⟩

/-! ## Iterations that fail -/

theorem route_append (c : Component O M α) (m : Mixture M α) (iteration : Nat)
    (ms : List M) (j : Nat) (xs ys : List O) :
    route c g m iteration ms j (xs ++ ys) =
      (do let ms ← route c g m iteration ms j xs
          route c g m iteration ms (j + xs.length) ys) := by
  induction xs generalizing ms j with
  | nil => rfl
  | cons x xs ih =>
    simp only [List.cons_append, route, bind_assoc, List.length_cons]
    refine bind_congr fun k => bind_congr fun ms' => ?_
    rw [ih, Nat.add_assoc, Nat.add_comm 1]

/-- Routing fails exactly if, for some position, the observations before it can be routed
    and the one at the position cannot: there is no destination for it, or the component
    that it goes to does not take it. -/
theorem route_eq_error {c : Component O M α} {m : Mixture M α} {iteration : Nat} {ms : List M}
    {j : Nat} {xs : List O} {e : Fault α} {d d' : Draws ω α}
    (h : (route c g m iteration ms j xs).runOn d = (.error e, d')) :
    ∃ i x ms₁ d₁, xs[i]? = some x ∧
      (route c g m iteration ms j (xs.take i)).runOn d = (.ok ms₁, d₁) ∧
      ((m.assign c g x ⟨some iteration, some (j + i : Nat)⟩).runOn d₁ = (.error e, d') ∨
        ∃ k, (m.assign c g x ⟨some iteration, some (j + i : Nat)⟩).runOn d₁ = (.ok k, d') ∧
          observeIn c ms₁ k x = .error e) := by
  induction xs generalizing ms j d with
  | nil => cases h
  | cons x xs ih =>
    rw [route] at h
    rcases Attempt.runOn_bind_eq_error.1 h with hassign | ⟨k, d₁, hassign, hrest⟩
    · exact ⟨0, x, ms, d, rfl, rfl, Or.inl hassign⟩
    rcases Attempt.runOn_bind_eq_error.1 hrest with hobserve | ⟨ms₁, d₂, hobserve, hroute⟩
    · obtain ⟨hrefuses, rfl⟩ := Prod.mk.inj hobserve
      exact ⟨0, x, ms, d, rfl, rfl, Or.inr ⟨k, hassign, hrefuses⟩⟩
    · obtain ⟨i, y, ms₂, d₃, hy, hbefore, hlast⟩ := ih hroute
      have hpos : j + 1 + i = j + (i + 1) := by omega
      rw [hpos] at hlast
      refine ⟨i + 1, y, ms₂, d₃, hy, ?_, hlast⟩
      rw [List.take_succ_cons, route, Attempt.runOn_bind_ok hassign,
        Attempt.runOn_bind_ok hobserve, hbefore]

namespace Chain

variable {c : Chain ω O M α} {j : Nat} {e : Fault α} {d : Draws ω α}

theorem stopsAt_iff : StopsAt f g c j e d ↔ ∃ x ms d₁, ComesTo f g c j x ms d₁ ∧
    (c.state.mixture.assign f.toComponent g x ⟨some c.iteration, some j⟩).runOn d₁ =
      (.error e, d) := by
  constructor
  · rintro ⟨x, fresh, d₁, ms, d₂, hx, hrenew, hroute, hassign⟩
    exact ⟨x, ms, d₂, ⟨hx, fresh, d₁, hrenew, hroute⟩, hassign⟩
  · rintro ⟨x, ms, d₂, ⟨hx, fresh, d₁, hrenew, hroute⟩, hassign⟩
    exact ⟨x, fresh, d₁, ms, d₂, hx, hrenew, hroute, hassign⟩

/-- An iteration that finds no destination for an observation fails for that reason. -/
theorem iterate_eq_error_of_stopsAt (h : StopsAt f g c j e d) :
    (iterate f g).runOn c = (.error e, c.withDraws d) := by
  obtain ⟨x, fresh, d₁, ms, d₂, hx, hrenew, hroute, hassign⟩ := h
  obtain ⟨hj, rfl⟩ := List.getElem?_eq_some_iff.1 hx
  have hdata : c.data = c.data.take j ++ c.data[j] :: c.data.drop (j + 1) := by
    rw [List.getElem_cons_drop, List.take_append_drop]
  have hlen : 0 + (c.data.take j).length = j := by
    rw [List.length_take]; omega
  refine iterate_eq_error.2 ⟨d, ?_, rfl⟩
  rw [sweep, Attempt.runOn_bind_ok hrenew]
  refine Attempt.runOn_bind_error ?_
  rw [hdata, route_append, Attempt.runOn_bind_ok hroute, hlen, route,
    Attempt.runOn_bind_error hassign]

end Chain

end DirichletMixture
