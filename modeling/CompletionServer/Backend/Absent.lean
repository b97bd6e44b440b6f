import CompletionServer.Backend.Run
import CompletionServer.Environment

/-!
# Programs that cannot be started

Where no programs are installed, starting one always fails. Why it does depends on what lies at the
directory that the program was to run in, and then on what lies at the path of the program: a name
without slashes is looked for among the installed programs, of which there are none. A NUL in the
directory or an argument comes before all that.
-/

namespace CompletionServer.Backend

/-- What is wrong with a path as that of a directory. -/
def directoryDefect? (e : Environment) (p : Path) : Option PathDefect :=
  if e.leadsToDirectory p then none
  else if e.isTooLong p then some .tooLong
  else if e.isFile p || p.ancestors.any e.isFile then some .notDirectory
  else some .missing

/-- The path of a program that is written with slashes, for one that runs in `directory`. -/
def programPath (directory : Option Path) (written : String) : Path :=
  let p := Path.ofString written
  match p.root, directory with
  | .here, some d => d.append p.names
  | _, _ => p

/-- What is wrong with a path as that of a program: nothing that is there can be run. -/
def programDefect (e : Environment) (p : Path) : PathDefect :=
  if e.leadsToDirectory p || e.isFile p then .denied
  else if e.meetsLongName p then .tooLong
  else if p.ancestors.any e.isFile then .notDirectory
  else .missing

/-- The names without slashes that are those of directories wherever they are looked for. -/
def directoryNames : List String := ["", ".", ".."]

/-- What is wrong with a written program that is to run in a directory that is there. -/
def writtenDefect (e : Environment) (written : String) (directory : Option Path) : PathDefect :=
  if isLongPath written then .tooLong
  else if written.toList.contains '/' then programDefect e (programPath directory written)
  else if directoryNames.contains written then .denied
  else if isLongName written then .tooLong
  else .missing

/-- Why a program cannot be started in `directory`. -/
def startFault (e : Environment) (written : String) (directory : Option Path) : String :=
  match directory.bind fun d ↦ (directoryDefect? e d).map (PathDefect.message d.text) with
  | some message => message
  | none => (writtenDefect e written directory).message written

/-- Whether a text holds the character that ends a text for the system. -/
def holdsNul (s : String) : Bool := s.toList.contains '\x00'

/-- No program can be started. -/
def absent (e : Environment) : Programs := fun _ arguments directory ↦
  if (directory.toList.map Path.text ++ arguments).any holdsNul then .embeddedNul
  else .refused (startFault e (arguments.headD "") directory)

/-- The paths on which it depends why a program cannot be started. -/
def placesOf (arguments : List String) (directory : Option Path) : List Path :=
  let target := programPath directory (arguments.headD "")
  (directory.toList ++ [target]).flatMap fun p ↦ p :: p.ancestors

end CompletionServer.Backend
