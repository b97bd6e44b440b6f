import CompletionServer.Backend.Absent
import CompletionServer.Config.Lookup
import CompletionServer.Session.Basic
import CompletionServer.Session.Wire

/-!
# The command

Serves one client on standard input and output until it says so or the input ends. Of the
surroundings only what a message can need is read: three settings, the accounts, the files that may
hold the configuration, and what lies at the paths of backends. No programs are started here: every
backend counts as one that cannot be started.
-/

namespace CompletionServer.Command

/-- The text of a file, empty if it cannot be read. -/
def textOf (path : String) : IO (List Char) := do
  try return Text.Utf8.decodeLenient (← IO.FS.readBinFile path).toList
  catch _ => return []

/-- The settings that a session looks at, as far as they are set. -/
def settings : IO (List (String × String)) := do
  let found ← [Config.fileVariable, "HOME", "DEBUG"].mapM fun name ↦ do
    return (← IO.getEnv name).map fun text ↦ (name, text)
  return found.filterMap id

/-- The surroundings without files. -/
def surroundings : IO Environment := do
  return {
    settings := ← settings
    accounts := Environment.accountsOf (← textOf "/etc/passwd") }

/-- The paths at which a message may ask for the configuration. -/
def places (e : Environment) (m : Message) : List Path :=
  match Config.named? e with
  | some path => (e.expandHome path).toList
  | none =>
    match Session.workspaceRoot m.params with
    | .ok root => Config.placesIn root
    | .error _ => []

/-- Whether there is something at a path. -/
def isThere (path : Path) : IO Bool := do
  try (← IO.FS.realPath path.text).pathExists
  catch _ => return false

/-- Whether there is a directory at a path. -/
def isDirectory (path : Path) : IO Bool := do
  try (← IO.FS.realPath path.text).isDir
  catch _ => return false

/-- The surroundings with the files at some paths. -/
def withFiles (e : Environment) (paths : List Path) : IO Environment := do
  let files ← paths.filterMapM fun path ↦ do
    try return some (path, (← IO.FS.readBinFile path.text).toList)
    catch _ => return none
  let directories ← (paths.flatMap Path.ancestors).filterM isDirectory
  return { e with
    isDirectory := directories.contains
    read? := fun path ↦ files.lookup path }

/-- The paths that tell why the backends of a session cannot be started. -/
def launchPlaces (s : Session) : List Path :=
  (s.capabilities.getD []).flatMap fun c ↦
    match c.2.provider with
    | .backend b => Backend.placesOf b.arguments b.directory
    | .fixed .. => []

/-- The surroundings with what lies at some paths, the content of files left out. -/
def withPlaces (e : Environment) (paths : List Path) : IO Environment := do
  let directories ← paths.filterM isDirectory
  let there ← paths.filterM isThere
  return { e with
    isDirectory := directories.contains
    read? := fun path ↦
      if there.contains path && !directories.contains path then some [] else none }

/-- The surroundings for a message to a session. -/
def around (e : Environment) (s : Session) (m : Message) : IO Environment :=
  if m.method == "initialize" then withFiles e (places e m) else withPlaces e (launchPlaces s)

/-- The lines of a header, up to the blank one; none at the end of the input. -/
partial def readHeader (stdin : IO.FS.Stream) : IO (Option (List (List Char))) := do
  let line ← stdin.getLine
  if line.isEmpty then return none
  let line := Text.trim line.toList
  if line.isEmpty then return some []
  return (← readHeader stdin).map (line :: ·)

/-- Exactly `count` bytes, or as many as there are. -/
partial def readBody (stdin : IO.FS.Stream) (count : Nat) : IO (List UInt8) := do
  if count == 0 then return []
  let bytes ← stdin.read count.toUSize
  if bytes.isEmpty then return []
  return bytes.toList ++ (← readBody stdin (count - bytes.size))

/-- Serves a session from a state on. -/
partial def serve (e : Environment) (stdin stdout : IO.FS.Stream) (s : Session) : IO Unit := do
  match ← readHeader stdin with
  | none => return
  | some header =>
    match Wire.decode (← readBody stdin ((Wire.contentLength? header).getD 0)) with
    | none => serve e stdin stdout s
    | some m =>
      if m.method == "exit" then return
      let here ← around e s m
      let turn := s.take here (Backend.absent here) false m
      for sent in turn.sent do stdout.putStr (Wire.encode sent)
      stdout.flush
      serve e stdin stdout turn.after

end CompletionServer.Command

/-- Serves the client on standard input and output. -/
def main : IO Unit := do
  CompletionServer.Command.serve (← CompletionServer.Command.surroundings) (← IO.getStdin)
    (← IO.getStdout) {}
