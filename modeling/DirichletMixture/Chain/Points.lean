/-
  DirichletMixture: clustering points in one go.

  * `Chain.journey` starts a chain and makes one call for the planned iterations;
  * `clusterPoints` first checks the settings and whether the log file can be
    opened, and does the rest inside a run log if there is one, so that settings
    that are refused leave no file.
-/
import DirichletMixture.Chain.Run
import DirichletMixture.Config.Basic
import DirichletMixture.RunLog.Session

namespace DirichletMixture

variable {ω O M α : Type} [Scalar α]

/-- What becomes of a chain from its start to the end of its first call. -/
structure Journey (ω M α : Type) where
  outcome : Except (Fault α) (List (List M))
  source : ω
  journal : List (Event α)

/-- A chain that is started and run as planned. -/
def Chain.journey (f : Family ω O M α) (g : Generator ω α) (plan : Plan α) (data : List O)
    (s : ω) : Journey ω M α :=
  match Chain.start f plan data s with
  | (.error e, s) => ⟨.error e, s, []⟩
  | (.ok c, _) =>
    let last := (Chain.cluster f g none).runOn c
    ⟨last.1, last.2.state.draws.source, last.2.journal⟩

/-- What becomes of points that are clustered. -/
structure Clustering (ω M α : Type) where
  outcome : Except (Fault α) (List (List M))
  source : ω
  world : World

/-- The configuration made from settings, if the log file can be opened. -/
def prepare (settings : Settings α) (log : Option RunLog) : Except (Fault α) (Config α) := do
  let c ← Config.accept settings
  match log with
  | none => pure c
  | some l => l.checkFile.map fun _ => c

/-- Clusters points with a configuration made from settings, inside a run log if
    there is one; `clock` tells the time of each report. -/
def clusterPoints [Written α] (f : Family ω O M α) (g : Generator ω α) (settings : Settings α)
    (data : List O) (log : Option RunLog) (clock : Nat → String) (s : ω) (w : World) :
    Clustering ω M α :=
  match prepare settings log with
  | .error e => ⟨.error e, s, w⟩
  | .ok c =>
    let j := Chain.journey f g c.plan data s
    let report := World.logAll (j.journal.mapIdx fun i e => e.record (clock i))
    ⟨j.outcome, j.source,
      match log with
      | none => report w
      | some l => l.around report w⟩

end DirichletMixture
