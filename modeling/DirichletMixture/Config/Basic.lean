/-
  DirichletMixture: the configuration of a run.

  A configuration is made from settings, one for each field, and a field may be
  given anything.  The fields are checked in a fixed order, and the first that
  does not fit is reported.  What is accepted fits everywhere afterwards.

  * `Settings` holds what was given, `Settings.ofFields` reads it from named
    fields;
  * `Config.accept` checks the settings;
  * `Config.plan` is what the sampler needs, and `Config.policy` what emission
    needs.
-/
import DirichletMixture.Chain.Basic
import DirichletMixture.Emission.Policy

namespace DirichletMixture

variable {α : Type} [Scalar α]

/-! ## Settings -/

structure Settings (α : Type) where
  /-- A source of randomness, or a seed for one. -/
  source : Setting α
  clusters : Setting α
  alpha0 : Setting α
  thin : Setting α
  burnin : Setting α
  iterations : Setting α
  emitMostLikely : Setting α
  /-- The share from which on a cluster gets a point otherwise. -/
  threshold : Setting α

namespace Settings

/-- The settings with a given number of clusters and nothing else said. -/
def withClusters (clusters : Setting α) : Settings α where
  source := .int 0
  clusters := clusters
  alpha0 := .real 1
  thin := .int 1
  burnin := .int 0
  iterations := .int 100
  emitMostLikely := .flag true
  threshold := .real half

/-- The settings after a named field was given a value. -/
def put (s : Settings α) (name : String) (x : Setting α) : Except (Fault α) (Settings α) :=
  if name = "rng" then .ok { s with source := x }
  else if name = IntegerField.clusters.name then .ok { s with clusters := x }
  else if name = "alpha0" then .ok { s with alpha0 := x }
  else if name = IntegerField.thin.name then .ok { s with thin := x }
  else if name = IntegerField.burnin.name then .ok { s with burnin := x }
  else if name = IntegerField.iterations.name then .ok { s with iterations := x }
  else if name = "emit_most_likely" then .ok { s with emitMostLikely := x }
  else if name = "threshold" then .ok { s with threshold := x }
  else .error .wrongKind

/-- The settings given by named fields; the number of clusters has to be among
    them. -/
def ofFields (fields : List (String × Setting α)) : Except (Fault α) (Settings α) :=
  match fields.lookup IntegerField.clusters.name with
  | none => .error .wrongKind
  | some clusters => fields.foldlM (fun s f => s.put f.1 f.2) (withClusters clusters)

end Settings

/-! ## Checks -/

/-- A source of randomness is a generator, or a seed, which is a whole number not
    below zero; truth values count as numbers. -/
def checkSource : Setting α → Except (Fault α) Unit
  | .generator | .flag _ => .ok ()
  | .int n => if n < 0 then .error .negativeSeed else .ok ()
  | given => .error (.notGenerator given)

theorem toNat_pos {n : Int} (h : 0 < n) : 0 < n.toNat := Int.pos_iff_toNat_pos.1 h

/-- The whole number above zero that a field has to hold. -/
def checkPositive (field : IntegerField) (given : Setting α) :
    Except (Fault α) { n : Nat // 0 < n } :=
  match given with
  | .int n =>
    if h : 0 < n then .ok ⟨n.toNat, toNat_pos h⟩ else .error (.refuse (.notPositive field given))
  | _ => .error (.refuse (.notPositive field given))

/-- The whole number not below zero that a field has to hold. -/
def checkNatural (field : IntegerField) (given : Setting α) : Except (Fault α) Nat :=
  match given with
  | .int n => if 0 ≤ n then .ok n.toNat else .error (.refuse (.negative field given))
  | _ => .error (.refuse (.negative field given))

/-- Whether a value can be tested for being finite: numbers can, unless they are
    whole and do not fit into 64 bits. -/
def isTestable : Setting α → Bool
  | .flag _ | .real _ => true
  | .int n => decide (-Int.pow 2 63 ≤ n) && decide (n < Int.pow 2 64)
  | _ => false

/-- Whether a value is finite.  Lists are tested entry by entry, and there is an
    answer if there is just one entry. -/
def checkFinite (given : Setting α) : Except (Fault α) Bool :=
  match given.nested.entries? with
  | none => .error .notArray
  | some xs =>
    if xs.all isTestable then
      match xs.map Setting.number? with
      | [some x] => .ok (Scalar.isFinite x)
      | _ => .error .misshapen
    else .error .wrongKind

/-- The finite positive number that the concentration has to be. -/
def checkConcentration (given : Setting α) :
    Except (Fault α) { x : α // Scalar.isFinite x = true ∧ 0 < x } := do
  if ← checkFinite given then
    match given.number? with
    | none => .error .wrongKind
    | some x =>
      if h : Scalar.isFinite x = true ∧ 0 < x then .ok ⟨x, h⟩
      else .error (.refuse (.concentration given))
  else .error (.refuse (.concentration given))

/-! ## Configurations -/

/-- An accepted configuration. -/
structure Config (α : Type) [Scalar α] where
  plan : Plan α
  alpha0Given : Setting α
  emitMostLikely : Bool
  /-- The threshold as it was given, whether it is used or not. -/
  threshold : Setting α

namespace Config

def accept (s : Settings α) : Except (Fault α) (Config α) := do
  checkSource s.source
  let clusters ← checkPositive .clusters s.clusters
  let thin ← checkPositive .thin s.thin
  let burnin ← checkNatural .burnin s.burnin
  let iterations ← checkNatural .iterations s.iterations
  let alpha0 ← checkConcentration s.alpha0
  let _ ← checkThreshold s.threshold
  pure {
    plan := {
      clusters := clusters.1
      clusters_pos := clusters.2
      alpha0 := alpha0.1
      alpha0_finite := alpha0.2.1
      alpha0_pos := alpha0.2.2
      thin := thin.1
      thin_pos := thin.2
      burnin, iterations }
    alpha0Given := s.alpha0
    emitMostLikely := s.emitMostLikely.isTrue
    threshold := s.threshold }

/-- How points are handed out.  A policy checks its threshold anew. -/
def policy (c : Config α) : Except (Fault α) (Policy α) :=
  if c.emitMostLikely then Policy.make .mostLikely Policy.defaultThreshold
  else Policy.make .threshold c.threshold

end Config

end DirichletMixture
