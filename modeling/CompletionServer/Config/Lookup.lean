import CompletionServer.Config.Error
import CompletionServer.Environment

/-!
# Finding the configuration file

A variable may name the file, which then must exist. Otherwise it is looked for in the root of the
workspace, under two names. A path that is too long to be looked for ends the search.
-/

namespace CompletionServer.Config

/-- The variable that names the file. -/
def fileVariable : String := "COMPLETIONLS_CONFIG"

/-- The names of the file in a workspace. -/
def fileNames : List String := [".completionls.yml", ".completionls.yaml"]

/-- The places of the file in a workspace. -/
def placesIn (workspace : Option Path) : List Path :=
  match workspace with
  | none => []
  | some root => fileNames.map fun name ↦ root.append [name]

/-- The path that the variable names, if it is set and not empty. -/
def named? (e : Environment) : Option Path :=
  ((e.get? fileVariable).filter (· != "")).map Path.ofString

/-- The first path at which there is a file. -/
def firstFile (e : Environment) : List Path → Except ConfigFault (Option Path)
  | [] => .ok none
  | path :: rest =>
    if e.isTooLong path then .error (.tooLong path.text)
    else if e.isFile path then .ok (some path)
    else firstFile e rest

/-- The configuration file, if there is one. -/
def findFile (e : Environment) (workspace : Option Path) : Except ConfigFault (Option Path) :=
  match named? e with
  | none => firstFile e (placesIn workspace)
  | some path => do
    match e.expandHome path with
    | none => .error .noHome
    | some path =>
      match ← firstFile e [path] with
      | some file => .ok (some file)
      | none => .error (.refused (.missingFile path.text))

end CompletionServer.Config
