import CompletionServer.Json.Writer
import CompletionServer.Numeral

/-!
# Queries and requests

A query is what a client asks: completion at a place of a document, counted from zero. A request is
what a backend is asked: the same place counted from the base of that backend, and what the answer
should hold. A backend gets it as one line of JSON.
-/

namespace CompletionServer.Completion

/-- A place at which completion is asked for. -/
structure Query where
  fileName : String
  line : Numeral
  column : Numeral
  wantsSnippets : Bool := false
  buffer : Option (List Text.Point) := none
deriving Inhabited

/-- What a backend is asked. -/
structure Request where
  fileName : String
  line : Numeral
  column : Numeral
  wantKind : Bool := true
  wantDocumentation : Bool := true
  wantReturnType : Bool := true
  wantSnippet : Bool := false
  buffer : Option (List Text.Point) := none
deriving Inhabited

/-- The query of a client that says whether it supports snippets. -/
def Query.withSupport (q : Query) (snippetSupport : Option Bool) : Query :=
  { q with wantsSnippets := snippetSupport.getD q.wantsSnippets }

/-- The request for a query, with its place counted from `base`; none where a sum with a float is
out of range. -/
def Request.ofQuery? (base : Numeral) (q : Query) : Option Request := do
  return {
    fileName := q.fileName
    line := ← q.line.add? base
    column := ← q.column.add? base
    wantSnippet := q.wantsSnippets
    buffer := q.buffer }

/-- The request as a mapping. The buffer is in it only if there is one, be it empty. -/
def Request.toValue (r : Request) : Value :=
  .record <|
    [("fileName", .str r.fileName),
      ("line", r.line.toValue),
      ("column", r.column.toValue),
      ("wantKind", .bool r.wantKind),
      ("wantDocumentationForEveryCompletionResult", .bool r.wantDocumentation),
      ("wantReturnType", .bool r.wantReturnType),
      ("wantSnippet", .bool r.wantSnippet)]
    ++ match r.buffer with
      | none => []
      | some text => [("buffer", .ofPoints text)]

/-- The text that a backend gets. -/
def Request.payload (r : Request) : String := Json.write r.toValue

end CompletionServer.Completion
