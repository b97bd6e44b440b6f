import CompletionServer.Config.Basic
import CompletionServer.Glob.Basic
import CompletionServer.Uri.Basic

/-!
# Which documents a provider serves

A provider serves a document if one of its filters accepts it, or if it has no filters. A filter
asks for the language, then for the scheme of the URI, then for a pattern on the path; the URI is
looked at only as far as that, and a URI that is none stops the selection there.
-/

namespace CompletionServer

/-- Why a selection cannot be made. -/
inductive SelectionError where
  | uri (e : Uri.Error)
  | pattern (written : String) (e : Glob.Error)
deriving DecidableEq, Repr

def SelectionError.message : SelectionError → String
  | .uri e => e.message
  | .pattern written e => e.message written.toList

namespace Filter

open Text

/-- Whether a condition on a text is met; one that is not given always is. -/
def meets (condition : Value) (found : Option (List Point)) : Bool :=
  !condition.isTruthy || (condition.points?.isSome && condition.points? == found)

/-- The path of a document, with slashes alone between its parts. -/
def slashed (path : String) : List Char := path.toList.map fun c ↦ if c == '\\' then '/' else c

/-- Whether the pattern of a filter accepts a document. -/
def acceptsPath (f : Filter) (uri : String) : Except SelectionError Bool :=
  match f.pattern.filter (· != "") with
  | none => .ok true
  | some pattern => do
    let path ← (Uri.fileName uri).mapError .uri
    (Glob.accepts pattern.toList (slashed path)).mapError (.pattern pattern)

/-- Whether the scheme that a filter asks for is that of a document. -/
def acceptsScheme (f : Filter) (uri : String) : Except SelectionError Bool :=
  if f.scheme.isTruthy then
    return meets f.scheme ((← (Uri.scheme? uri).mapError .uri).map pointsOf)
  else .ok true

/-- Whether a filter accepts a document. -/
def accepts (f : Filter) (uri : String) (language : Option (List Point)) :
    Except SelectionError Bool :=
  if meets f.language language then do
    if ← f.acceptsScheme uri then f.acceptsPath uri else return false
  else .ok false

end Filter

/-- Whether one of the filters accepts a document; the first that does decides. -/
def anyAccepts (uri : String) (language : Option (List Text.Point)) :
    List Filter → Except SelectionError Bool
  | [] => .ok false
  | f :: rest => do
    if ← f.accepts uri language then return true else anyAccepts uri language rest

/-- Whether a provider with these filters serves a document. -/
def selects (filters : List Filter) (uri : String) (language : Option (List Text.Point)) :
    Except SelectionError Bool :=
  if filters.isEmpty then .ok true else anyAccepts uri language filters

end CompletionServer
