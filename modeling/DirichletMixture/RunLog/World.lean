/-
  DirichletMixture: what a run log touches.

  Printed text goes to a stream: one of the two terminals, or a tee that passes
  the text on to another stream and then adds it to a file.  Records go to the
  files that are attached to the package's logger.

  * `World` holds the terminals, the two current streams, the level of the
    package's logger, the attached files and the texts of all files;
  * `Stream.write` writes to a stream, and `Stream.put` is the world after that;
  * `World.log` writes a record, if its level is high enough.
-/
import DirichletMixture.RunLog.Record

namespace DirichletMixture

/-- The places that text ends up in when nothing is in between. -/
inductive Terminal where
  | out
  | err
deriving DecidableEq, Repr

/-- Where text is written to. -/
inductive Stream where
  | terminal (t : Terminal)
  /-- Another stream, and a file besides. -/
  | tee (target : Stream) (file : String)
deriving DecidableEq, Repr

/-- What a run log can see and change. -/
structure World where
  out : String
  err : String
  stdout : Stream
  stderr : Stream
  level : Level
  /-- The files attached to the package's logger, the latest first. -/
  handlers : List String
  /-- The files with their texts, in the order in which they came into being. -/
  files : List (String × String)

namespace World

/-- A world with these files, in which nothing was printed and nothing is
    attached. -/
def fresh (level : Level) (files : List (String × String)) : World where
  out := ""
  err := ""
  stdout := .terminal .out
  stderr := .terminal .err
  level := level
  handlers := []
  files := files

/-! ## Files -/

/-- The files after the text of one of them was changed; a file that is not there
    comes into being with no text. -/
def changeFile (change : String → String) (file : String) :
    List (String × String) → List (String × String)
  | [] => [(file, change "")]
  | (name, text) :: rest =>
    if name = file then (name, change text) :: rest
    else (name, text) :: changeFile change file rest

def append (file text : String) (w : World) : World :=
  { w with files := changeFile (· ++ text) file w.files }

def truncate (file : String) (w : World) : World :=
  { w with files := changeFile (fun _ => "") file w.files }

/-- The text of a file; no text if there is no such file. -/
def text (file : String) (w : World) : String := (w.files.lookup file).getD ""

end World

/-! ## Printing -/

/-- The world after a text was written to a terminal. -/
def Terminal.put (text : String) (w : World) : Terminal → World
  | .out => { w with out := w.out ++ text }
  | .err => { w with err := w.err ++ text }

/-- What writing a text to a stream gives back, the number of its characters, and the
    world after that. -/
def Stream.write (text : String) (w : World) : Stream → Nat × World
  | .terminal t => (text.length, t.put text w)
  | .tee target file => (text.length, (target.write text w).2.append file text)

def Stream.put (text : String) (w : World) (s : Stream) : World := (s.write text w).2

namespace World

/-- Ordinary output. -/
def print (text : String) (w : World) : World := w.stdout.put text w

/-- A message. -/
def printMessage (text : String) (w : World) : World := w.stderr.put text w

/-! ## Records -/

/-- The level from which on the package's records are kept: a logger without a
    level of its own keeps warnings. -/
def threshold (w : World) : Level := if w.level = 0 then Level.warning else w.level

/-- Whether a record is kept.  Levels up to zero are never kept, and loggers
    outside the package keep warnings. -/
def keeps (w : World) (r : Record) : Bool :=
  decide (0 < r.level) && decide ((if r.isPackage then w.threshold else Level.warning) ≤ r.level)

def destinations (w : World) (r : Record) : List String :=
  if r.isPackage then w.handlers else []

/-- The world after a record was given to its logger.  A kept record that goes to
    no file is printed as a message, if it is a warning at least. -/
def log (r : Record) (w : World) : World :=
  if w.keeps r then
    match w.destinations r with
    | [] => if Level.warning ≤ r.level then w.printMessage (r.text ++ "\n") else w
    | files => files.foldl (fun w file => w.append file r.line) w
  else w

def logAll (rs : List Record) (w : World) : World := rs.foldl (fun w r => w.log r) w

end World

end DirichletMixture
