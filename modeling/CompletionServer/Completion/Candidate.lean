import CompletionServer.Value.Text

/-!
# Candidates

What a backend answers with: raw candidates, each a mapping of texts. Backends write the names of
the fields in Pascal case or in camel case; a field that is missing or null in the one is looked for
in the other, and is empty if it is in neither.
-/

namespace CompletionServer.Completion

/-- One raw candidate. -/
structure Candidate where
  completionText : String
  displayText : String
  returnType : String
  description : String
  kind : String
  snippet : String
deriving DecidableEq, Repr, Inhabited

namespace Candidate

/-- The names of the fields, in Pascal case and in camel case. -/
def fieldNames : List (String × String) :=
  [("CompletionText", "completionText"), ("DisplayText", "displayText"),
    ("ReturnType", "returnType"), ("Description", "description"), ("Kind", "kind"),
    ("Snippet", "snippet")]

/-- The value of a field that goes by two names, null where there is none. -/
def fieldValue (pascal camel : String) (entries : List (Value × Value)) : Value :=
  match Value.get pascal entries with
  | .null => Value.get camel entries
  | v => v

/-- The text of a field that goes by two names. -/
def readField (pascal camel : String) (entries : List (Value × Value)) : String :=
  match fieldValue pascal camel entries with
  | .null => ""
  | v => v.text

/-- The candidate that a mapping describes. -/
def ofEntries (entries : List (Value × Value)) : Candidate where
  completionText := readField "CompletionText" "completionText" entries
  displayText := readField "DisplayText" "displayText" entries
  returnType := readField "ReturnType" "returnType" entries
  description := readField "Description" "description" entries
  kind := readField "Kind" "kind" entries
  snippet := readField "Snippet" "snippet" entries

/-- Whether all fields of a mapping that describes a candidate have a text. -/
def areWritable (entries : List (Value × Value)) : Bool :=
  fieldNames.all fun name ↦ (fieldValue name.1 name.2 entries).isWritable

/-- The candidate as it is without snippets. -/
def withoutSnippet (c : Candidate) : Candidate := { c with snippet := "" }

end Candidate

end CompletionServer.Completion
