/-
  DirichletMixture: the log of a run.

  While a run log is entered, both streams are one tee over the stream for
  ordinary output and the log file, the package's logger has the level of the
  run log, and its records go to the same file.

  * `RunLog.basePath` is the path of the log without its extension;
  * `RunLog.checkFile` says whether the log file can be opened; there is a single
    folder, and the folders around it;
  * `RunLog.enter` empties the file and sets all this up, `RunLog.leave` puts back
    what was there before;
  * `RunLog.during` does something inside a run log, however it ends, and
    `RunLog.around` something that has no outcome.
-/
import DirichletMixture.Fault
import DirichletMixture.RunLog.World
import DirichletMixture.Text.Path

namespace DirichletMixture

/-- The log of a run, and what to put back when it is left. -/
structure RunLog where
  /-- The path without extension. -/
  base : String
  level : Level
  /-- The streams that were in place when the log was last entered. -/
  streams : Option (Stream × Stream)
  /-- While the file is attached to the logger, the level that the logger had. -/
  attached : Option Level

namespace RunLog

/-- A log that was never entered. -/
def make (base : String) (level : Level) : RunLog := ⟨base, level, none, none⟩

/-- The level of a log for which none is named. -/
def defaultLevel : Level := Level.info

def path (l : RunLog) : String := l.base ++ ".log"

/-- The log file, which is the same for all paths that lead to the same place. -/
def file (l : RunLog) : String := Path.direct l.path

/-- The greatest number of bytes in the name of a file or folder. -/
def maxName : Nat := 255

/-- The greatest number of bytes in a path. -/
def maxPath : Nat := 4095

/-- Whether a name is too long for a file or folder. -/
def isLongName (name : List Char) : Bool := decide (maxName < (String.ofList name).utf8ByteSize)

/-- Whether the log file can be opened: its path holds no null character and leads
    through no folder but those around the one that the files are in, and neither
    the path nor a name on the way is too long. -/
def checkFile {α : Type} (l : RunLog) : Except (Fault α) Unit :=
  if l.path.toList.contains (Char.ofNat 0) then .error .brokenPath
  else if maxPath < l.path.utf8ByteSize then .error .longName
  else
    match (Path.folders l.path).find? (· ≠ ['.', '.']) with
    | some folder => .error (if isLongName folder then .longName else .noFolder)
    | none => if (Path.names l.path).getLast?.any isLongName then .error .longName else .ok ()

/-- The path that a given path stands for: the path without its extension, or if
    it is empty or missing, a name made from the time. -/
def basePath (time : String) : Option String → String
  | none => "dpm_" ++ time
  | some p => if p = "" then "dpm_" ++ time else Path.stem p

def enter (l : RunLog) (w : World) : RunLog × World :=
  ({ l with streams := some (w.stdout, w.stderr), attached := some w.level },
    { w.truncate l.file with
      stdout := .tee w.stdout l.file
      stderr := .tee w.stdout l.file
      level := l.level
      handlers := l.file :: w.handlers })

/-- The world after the file was taken off the logger. -/
def detach (l : RunLog) (w : World) : World :=
  match l.attached with
  | none => w
  | some level => { w with level := level, handlers := w.handlers.erase l.file }

/-- The world after the streams were put back. -/
def restore (l : RunLog) (w : World) : World :=
  match l.streams with
  | none => w
  | some (stdout, stderr) => { w with stdout := stdout, stderr := stderr }

/-- The log and the world after it was left; a log that is left again only puts
    back the streams. -/
def leave (l : RunLog) (w : World) : RunLog × World :=
  ({ l with attached := none }, l.restore (l.detach w))

/-- Does something inside a log, which is left however that ends. -/
def during {γ : Type} (l : RunLog) (act : World → γ × World) (w : World) : γ × World :=
  let (l, w) := l.enter w
  let (r, w) := act w
  (r, (l.leave w).2)

/-- The world after something was done inside a log. -/
def around (l : RunLog) (act : World → World) (w : World) : World :=
  (l.during (fun w => ((), act w)) w).2

/-- Whether a failure inside a log ends with it. -/
def swallows : Bool := false

/-- How something inside a log ends for those outside of it. -/
def passOn {ε : Type} (r : Except ε Unit) : Except ε Unit := if swallows then .ok () else r

end RunLog

end DirichletMixture
