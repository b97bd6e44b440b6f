import CompletionServer.Text.Blank

/-!
# Paths

A path is where it starts and the names after that. Empty names and the name `.` say nothing and are
dropped; `..` is kept, because what it means depends on what the name before it stands for.
-/

namespace CompletionServer

/-- Where a path starts: where one is, at the root, or at the root that two slashes name. -/
inductive Root where
  | here
  | single
  | double
deriving DecidableEq, Repr, Inhabited

/-- A path. -/
structure Path where
  root : Root
  names : List String
deriving DecidableEq, Repr, Inhabited

namespace Path

/-- The names between the slashes of a text that say something. -/
def namesOf (s : List Char) : List String :=
  ((Text.splitWhere (· == '/') s).map String.ofList).filter fun name ↦ name != "" && name != "."

/-- The start of a written path. Three slashes and more are as good as one. -/
def rootOf : List Char → Root
  | '/' :: '/' :: '/' :: _ => .single
  | '/' :: '/' :: _ => .double
  | '/' :: _ => .single
  | _ => .here

/-- The path that a text writes. -/
def ofString (s : String) : Path := ⟨rootOf s.toList, namesOf s.toList⟩

/-- The written form of a path. -/
def text (p : Path) : String :=
  let names := "/".intercalate p.names
  match p.root with
  | .here => if p.names.isEmpty then "." else names
  | .single => "/" ++ names
  | .double => "//" ++ names

/-- The path with more names after it. -/
def append (p : Path) (names : List String) : Path := { p with names := p.names ++ names }

/-- The paths of the directories around the one that is meant, from the root on. -/
def ancestors (p : Path) : List Path :=
  (List.range p.names.length).map fun n ↦ { p with names := p.names.take n }

end Path

end CompletionServer
