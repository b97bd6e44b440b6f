import CompletionServer.Completion.Candidate
import CompletionServer.Json.Reader
import CompletionServer.Text.Blank
import CompletionServer.Text.Utf8

/-!
# What a backend answers

The output of a backend is JSON: a list of candidates, or a mapping with such a list under
`completions` or `Completions`. Blank output holds no candidates. In the list, what is no mapping is
skipped.
-/

namespace CompletionServer.Backend

open Completion

/-- Why an output is no answer. -/
inductive AnswerError where
  | json (e : Json.Error)
  | notList (kindName : String)
deriving DecidableEq, Repr

/-- The first of two values that counts as given, an empty list if neither does. -/
def firstGiven (a b : Value) : Value :=
  if a.isTruthy then a else if b.isTruthy then b else .list []

/-- The list of candidates in a decoded output. -/
def listIn (v : Value) : Value :=
  match v with
  | .map entries => firstGiven (Value.get "completions" entries) (Value.get "Completions" entries)
  | v => v

/-- The candidates of a decoded output. -/
def candidatesOf (v : Value) : Except AnswerError (List Candidate) :=
  match listIn v with
  | .list items => .ok ((items.filterMap Value.entries?).map Candidate.ofEntries)
  | v => .error (.notList v.kindName)

/-- The candidates of a text. -/
def readText (s : List Char) : Except AnswerError (List Candidate) :=
  match Text.trim s with
  | [] => .ok []
  | s => do candidatesOf (← (Json.read s).mapError .json)

/-- The candidates of an output. -/
def readOutput (stdout : List UInt8) : Except AnswerError (List Candidate) :=
  readText (Text.Utf8.decodeLenient stdout)

end CompletionServer.Backend
