/-
  DirichletMixture: log records.

  A record has a level, the time at which it was made, the name of the logger that it
  was given to, and a text.
  The loggers of the package form one family under a common name.

  * `Level.write` is the name of a level, or its number if it has none;
  * `Record.line` is the line that a log file holds for a record;
  * `Record.isPackage` tells the package's own records from others.
-/

namespace DirichletMixture

/-- How important a record is. -/
abbrev Level := Int

namespace Level

/-- Details of every iteration. -/
def debug : Level := 10

/-- The course of a run. -/
def info : Level := 20

/-- What is likely a mistake. -/
def warning : Level := 30

/-- A failure. -/
def error : Level := 40

/-- A failure that ends everything. -/
def critical : Level := 50

/-- A level in a log line. -/
def write (l : Level) : String :=
  if l = debug then "DEBUG"
  else if l = info then "INFO"
  else if l = warning then "WARNING"
  else if l = error then "ERROR"
  else if l = critical then "CRITICAL"
  else "Level " ++ toString l

end Level

structure Record where
  level : Level
  /-- When it was made, as log lines show it. -/
  time : String
  /-- The logger that it was given to. -/
  logger : String
  text : String
deriving DecidableEq, Repr

namespace Record

/-- The name of the package's logger. -/
def package : String := "dpm_cluster"

/-- The line of a log file. -/
def line (r : Record) : String :=
  "[" ++ r.level.write ++ " " ++ r.time ++ "] " ++ r.logger ++ ": " ++ r.text ++ "\n"

/-- Whether a name belongs to the package's logger or one below it. -/
def isPackageName (name : String) : Bool :=
  name == package || (package ++ ".").toList.isPrefixOf name.toList

/-- Whether the record was given to a logger of the package. -/
def isPackage (r : Record) : Bool := isPackageName r.logger

end Record

end DirichletMixture
