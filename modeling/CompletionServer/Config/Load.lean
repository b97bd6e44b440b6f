import CompletionServer.Config.Lookup
import CompletionServer.Config.Parse
import CompletionServer.Yaml.File

/-!
# Loading the configuration

The configuration comes from the file, unless the client gave providers of its own: then it comes
from these, and only the path of the file is kept. The file is read and must be in order all the
same.
-/

namespace CompletionServer.Config

/-- The value of a file. -/
def decodeFile (path : Path) (bytes : List UInt8) : Except ConfigFault Value :=
  match Yaml.readFile bytes with
  | .ok v => .ok v
  | .error (.malformed e) => .error (.refused (.malformedFile path.text e))
  | .error (.impossible f) => .error (.scalar f)
  | .error (.unreadable f) => .error (.encoding f)

/-- The configuration of a file. An empty file is as good as one without providers. -/
def ofFile (e : Environment) (path : Path) : Except ConfigFault Config := do
  let v ← decodeFile path ((e.read? path).getD [])
  let config ← parse (if v.isTruthy then v else .map [])
  return { config with source := some path }

/-- The configuration for a workspace and the options of a client. -/
def load (e : Environment) (workspace : Option Path) (options : Value) :
    Except ConfigFault Config := do
  let config ←
    match ← findFile e workspace with
    | none => pure {}
    | some path => ofFile e path
  match options.entries?.map (Value.get? "providers") with
  | some (some _) =>
    let own ← parse options
    return { own with source := config.source }
  | _ => return config

end CompletionServer.Config
