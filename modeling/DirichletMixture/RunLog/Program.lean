/-
  DirichletMixture: programs that use run logs.

  A program prints, gives records to loggers, and does some of this inside run logs, one
  inside the other or one after the other.  It may fail; what failed is caught somewhere or
  ends the whole program, and every run log on the way is left.

  * `Utterance` is one thing that a program says, and `Utterance.perform` says it;
  * `Program.run` is how a program ends and the world that it leaves behind;
  * `Program.logs` are the run logs of a program.
-/
import DirichletMixture.RunLog.Session

namespace DirichletMixture

/-- Text for one of the two streams, or a record. -/
inductive Utterance where
  | print (text : String)
  | message (text : String)
  | record (r : Record)
deriving DecidableEq, Repr

def Utterance.perform (w : World) : Utterance → World
  | print text => w.print text
  | message text => w.printMessage text
  | record r => w.log r

/-- What can be done with run logs; `ε` are the failures. -/
inductive Program (ε : Type) where
  | skip
  | say (u : Utterance)
  | fail (e : ε)
  /-- One after the other, the second only if the first does not fail. -/
  | andThen (p q : Program ε)
  | inside (l : RunLog) (body : Program ε)
  /-- One program, and the other if it fails. -/
  | rescue (p q : Program ε)

namespace Program

variable {ε : Type} (opens : RunLog → Except ε Unit)

/-- How the program ends, and the world after it; `opens` tells whether the file of a log can
    be opened. -/
def run : Program ε → World → Except ε Unit × World
  | skip, w => (.ok (), w)
  | say u, w => (.ok (), u.perform w)
  | fail e, w => (.error e, w)
  | andThen p q, w =>
    match run p w with
    | (.ok (), w) => run q w
    | (.error e, w) => (.error e, w)
  | inside l body, w =>
    match opens l with
    | .ok () => (l.during (fun w => run body w) w).map RunLog.passOn id
    | .error e => (.error e, w)
  | rescue p q, w =>
    match run p w with
    | (.ok (), w) => (.ok (), w)
    | (.error _, w) => run q w

/-- All run logs of a program. -/
def logs : Program ε → List RunLog
  | skip | say _ | fail _ => []
  | andThen p q | rescue p q => p.logs ++ q.logs
  | inside l body => l :: body.logs

end Program

end DirichletMixture
