import CompletionServer.Keyed
import CompletionServer.Path.Defect

/-!
# Surroundings

What a session finds when it looks around: settings, the home directories of accounts, files and
directories.
-/

namespace CompletionServer

structure Environment where
  settings : List (String × String) := []
  /-- The home directories by the names of accounts. -/
  accounts : List (String × String) := []
  /-- The bytes of the file at a path, if there is one. -/
  read? : Path → Option (List UInt8) := fun _ ↦ none
  isDirectory : Path → Bool := fun _ ↦ false
deriving Inhabited

/-- How much a session says about itself. -/
inductive LogLevel where
  | debug
  | warning
deriving DecidableEq, Repr, Inhabited

namespace Environment

/-- Whether there is a file at a path. -/
def isFile (e : Environment) (p : Path) : Bool := (e.read? p).isSome

/-- Whether a path leads to a directory. One that only leads back from here does. -/
def leadsToDirectory (e : Environment) (p : Path) : Bool :=
  e.isDirectory p || (p.root == .here && p.names.all (· == ".."))

/-- Whether the way to a path comes upon a name that is too long: a name is only looked for where a
directory is. -/
def meetsLongName (e : Environment) (p : Path) : Bool :=
  (p.ancestors.zip p.names).any fun step ↦ isLongName step.2 && e.leadsToDirectory step.1

/-- Whether a path is turned down for its length. -/
def isTooLong (e : Environment) (p : Path) : Bool := isLongPath p.text || e.meetsLongName p

/-- The text of a variable, if it is set. -/
def get? (e : Environment) (name : String) : Option String :=
  Keyed.find? (· == ·) name e.settings

/-- Everything is said if the variable `DEBUG` is set and not empty. -/
def logLevel (e : Environment) : LogLevel :=
  if (e.get? "DEBUG").any (· != "") then .debug else .warning

/-- The accounts of a text with one on each line, whose first field is the name and whose sixth is
the home directory. -/
def accountsOf (text : List Char) : List (String × String) :=
  (Text.splitWhere (· == '\n') text).filterMap fun line ↦
    match (Text.splitWhere (· == ':') line).map String.ofList with
    | name :: _ :: _ :: _ :: _ :: home :: _ => some (name, home)
    | _ => none

/-- The home directory that a name after a tilde means, without slashes at its end: that of the
account, or one's own for no name at all. -/
def home? (e : Environment) (name : String) : Option String :=
  let found := if name == "" then e.get? "HOME" else Keyed.find? (· == ·) name e.accounts
  found.map fun home ↦
    let kept := (home.toList.reverse.dropWhile (· == '/')).reverse
    if kept.isEmpty then "/" else String.ofList kept

/-- The path with a leading tilde replaced by the home directory that it means; none if there is no
such directory. -/
def expandHome (e : Environment) (p : Path) : Option Path :=
  match p.root, p.names with
  | .here, first :: rest =>
    match first.toList with
    | '~' :: name => do
      let home ← e.home? (String.ofList name)
      if home.startsWith "~" then none else some ((Path.ofString home).append rest)
    | _ => some p
  | _, _ => some p

end Environment

end CompletionServer
