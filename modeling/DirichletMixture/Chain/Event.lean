/-
  DirichletMixture: what a run reports.

  * `Event` lists what can be reported, with its numbers;
  * `Event.record` is the log record of an event at some time.
-/
import DirichletMixture.Decimal.Written
import DirichletMixture.RunLog.Record

namespace DirichletMixture

/-- Something that happened in a run. -/
inductive Event (α : Type) where
  | noObservations
  /-- A call begins, with so many iterations to do. -/
  | started (iterations clusters : Nat) (alpha0 : α) (burnin thin observations : Nat)
  /-- The components of an iteration were kept, which makes so many samples. -/
  | captured (iteration samples : Nat)
  | updated (occupancy : List Nat)
  /-- An iteration was completed with so many occupied components. -/
  | completed (iteration active : Nat)
  /-- A call ends, with so many samples and iterations altogether. -/
  | finished (samples iterations : Nat)

namespace Event

variable {α : Type}

def level : Event α → Level
  | .noObservations => .warning
  | .started _ _ _ _ _ _ | .captured _ _ | .finished _ _ => .info
  | .updated _ | .completed _ _ => .debug

/-- Who reports an event: the mixture its updates, the sampler everything else. -/
def logger : Event α → String
  | .updated _ => Record.package ++ ".state"
  | _ => Record.package ++ ".clusterer"

/-- Whole numbers in brackets. -/
def writeCounts (ns : List Nat) : String :=
  "[" ++ ", ".intercalate (ns.map toString) ++ "]"

def text [Written α] : Event α → String
  | .noObservations => "no observations: every sample will be drawn from the prior"
  | .started iterations clusters alpha0 burnin thin observations =>
    "sampling " ++ toString iterations ++ " iterations (K=" ++ toString clusters ++
      ", alpha0=" ++ Written.general alpha0 ++ ", burnin=" ++ toString burnin ++
      ", thin=" ++ toString thin ++ ", n=" ++ toString observations ++ ")"
  | .captured iteration samples =>
    "iteration " ++ toString iteration ++ ": captured sample " ++ toString samples
  | .updated occupancy => "state updated: occupancy=" ++ writeCounts occupancy
  | .completed iteration active =>
    "iteration " ++ toString iteration ++ ": active components=" ++ toString active
  | .finished samples iterations =>
    "done: " ++ toString samples ++ " samples after " ++ toString iterations ++ " iterations"

def record [Written α] (time : String) (e : Event α) : Record :=
  ⟨e.level, time, e.logger, e.text⟩

end Event

end DirichletMixture
