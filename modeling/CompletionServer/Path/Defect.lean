import CompletionServer.Path
import CompletionServer.Text.Quoted

/-!
# What is wrong with a path

The reasons for which the system turns a path down, each with its number and its text. A name takes
at most 255 bytes and a written path at most 4095.
-/

namespace CompletionServer

/-- What is wrong with a path. -/
inductive PathDefect where
  | missing
  | denied
  | notDirectory
  | tooLong
deriving DecidableEq, Repr, Inhabited

namespace PathDefect

/-- The number of a defect among those of the system. -/
def code : PathDefect → Nat
  | .missing => 2
  | .denied => 13
  | .notDirectory => 20
  | .tooLong => 36

def text : PathDefect → String
  | .missing => "No such file or directory"
  | .denied => "Permission denied"
  | .notDirectory => "Not a directory"
  | .tooLong => "File name too long"

/-- What is said about a written path. -/
def message (written : String) (d : PathDefect) : String :=
  s!"[Errno {d.code}] {d.text}: {Text.quoted written}"

end PathDefect

/-- Whether a name takes more bytes than a name may. -/
def isLongName (name : String) : Bool := 255 < name.utf8ByteSize

/-- Whether a written path takes more bytes than a path may. -/
def isLongPath (written : String) : Bool := 4095 < written.utf8ByteSize

end CompletionServer
