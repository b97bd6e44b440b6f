import CompletionServer.Completion.Overload
import CompletionServer.Completion.Request

/-!
# Sources of candidates

A source is asked once for each query, with places counted from its own base. What it answers
becomes a list with one item for each label. Whatever stops the source stops the completion.
-/

namespace CompletionServer.Completion

/-- Something that answers requests with candidates, in a world `m`. -/
structure Source (m : Type → Type) where
  name : String
  positionBase : Numeral
  answer : Request → m (List Candidate)

/-- The list for an answer. -/
def listOf (candidates : List Candidate) : ItemList :=
  { items := collapse (candidates.map Item.ofCandidate) }

variable {ε : Type} {m : Type → Type} [Monad m]

/-- The list for a query. A client that says whether it supports snippets overrides what the query
says. `tooLarge` is the failure of a place out of range. -/
def Source.complete (source : Source (ExceptT ε m)) (tooLarge : ε) (q : Query)
    (snippetSupport : Option Bool) : ExceptT ε m ItemList := do
  match Request.ofQuery? source.positionBase (q.withSupport snippetSupport) with
  | none => throw tooLarge
  | some request => return listOf (← source.answer request)

/-- A source that answers every request alike, without snippets where none are wanted. -/
def fixedAnswer (candidates : List Candidate) (r : Request) : List Candidate :=
  if r.wantSnippet then candidates else candidates.map Candidate.withoutSnippet

end CompletionServer.Completion
