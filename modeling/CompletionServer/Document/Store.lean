import CompletionServer.Document.Edit
import CompletionServer.Keyed
import CompletionServer.Uri.Basic

/-!
# Open documents

The documents that a client has open, by their URIs. Two URIs that differ only in what is written
with percent signs name the same document.
-/

namespace CompletionServer

/-- An open document. -/
structure Document where
  language : List Text.Point
  text : List Text.Point
deriving DecidableEq, Repr, Inhabited

/-- The open documents. -/
abbrev Documents := List (String × Document)

namespace Documents

/-- The key of a URI: the URI with its percent signs decoded. -/
def keyOf (uri : String) : String := String.ofList (Uri.percentDecode uri.toList)

/-- The open document with a URI. -/
def find? (ds : Documents) (uri : String) : Option Document :=
  Keyed.find? (· == ·) (keyOf uri) ds

/-- Opens a document, in place of one with the same URI. -/
def opened (ds : Documents) (uri : String) (d : Document) : Documents :=
  Keyed.put (· == ·) (keyOf uri) d ds

/-- Closes a document. -/
def closed (ds : Documents) (uri : String) : Documents := Keyed.erase (· == ·) (keyOf uri) ds

/-- Changes a document; none if it is not open. No changes can be made to any document. -/
def changed? (e : ColumnEncoding) (ds : Documents) (uri : String) (changes : List Change) :
    Option Documents :=
  match changes, ds.find? uri with
  | [], _ => some ds
  | _, some d => some (ds.opened uri { d with text := changes.foldl (Change.apply e) d.text })
  | _, none => none

theorem find?_opened (ds : Documents) (uri : String) (d : Document) (u : String) :
    (ds.opened uri d).find? u = if keyOf u = keyOf uri then some d else ds.find? u :=
  Keyed.find?_put ..

theorem find?_closed (ds : Documents) (uri u : String) :
    (ds.closed uri).find? u = if keyOf u = keyOf uri then none else ds.find? u :=
  Keyed.find?_erase ..

end Documents

end CompletionServer
