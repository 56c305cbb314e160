/-
  DirichletMixture: paths of files.

  The extension of a path is what follows the last point of its last component,
  with that point.  Points at the start of the component are part of the name
  and begin no extension.

  * `Path.stem` is the path without its extension;
  * `Path.direct` is the direct way to the same place, one spelling for paths that
    differ only in components that lead nowhere;
  * `Path.folders` lists the folders that it leads through.
-/

namespace DirichletMixture

namespace Path

/-- The path up to and including its last slash, and its last component. -/
def splitName (cs : List Char) : List Char × List Char :=
  let name := (cs.reverse.takeWhile (· ≠ '/')).reverse
  (cs.take (cs.length - name.length), name)

/-- What stands before the last point; none if there is no point. -/
def beforeLastPoint (cs : List Char) : Option (List Char) :=
  match cs.reverse.dropWhile (· ≠ '.') with
  | [] => none
  | _ :: rest => some rest.reverse

/-- A component without its extension: the points at its start are set aside,
    and the rest is cut at its last point. -/
def stemName (name : List Char) : List Char :=
  let points := name.takeWhile (· = '.')
  let rest := name.dropWhile (· = '.')
  points ++ (beforeLastPoint rest).getD rest

/-- A path without the extension of its last component. -/
def stem (path : String) : String :=
  let (folder, name) := splitName path.toList
  String.ofList (folder ++ stemName name)

/-- The components of a path, at least one, some of which may be empty. -/
def components : List Char → List (List Char)
  | [] => [[]]
  | c :: cs =>
    match components cs with
    | [] => [[c]]
    | name :: names => if c = '/' then [] :: name :: names else (c :: name) :: names

/-- Whether a component leads on to another place: an empty component and a single
    point stay where they are. -/
def leadsOn (name : List Char) : Bool := name ≠ [] ∧ name ≠ ['.']

/-- The components of a path that lead on, in order. -/
def names (path : String) : List (List Char) := (components path.toList).filter leadsOn

/-- A path without the components that lead nowhere; a slash at its start stays. -/
def direct (path : String) : String :=
  String.ofList ((if path.toList.head? = some '/' then ['/'] else []) ++
    ['/'].intercalate (names path))

/-- The folders that a path leads through. -/
def folders (path : String) : List (List Char) := (names path).dropLast

end Path

end DirichletMixture
