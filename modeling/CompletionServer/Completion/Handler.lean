import CompletionServer.Completion.Item
import CompletionServer.Keyed

/-!
# Several makers of lists

A request for completion goes to everything that can handle it, in order, and the lists are joined.
A label is shown once: an item whose label is there already is left out. Whatever stops a handler
stops the whole request.
-/

namespace CompletionServer.Completion

/-- Something that may answer requests of type `ρ`, in a world `m`. -/
structure Handler (ρ : Type) (m : Type → Type) where
  name : String
  /-- It answers requests for completion; others are never asked. -/
  completes : Bool := true
  canHandle : ρ → m Bool
  complete : ρ → m ItemList

/-- Handlers by their keys. -/
abbrev Handlers (ρ : Type) (m : Type → Type) := List (String × Handler ρ m)

/-- The items with one more, unless its label is there already. -/
def addItem (kept : List Item) (item : Item) : List Item :=
  if kept.any fun k ↦ k.label == item.label then kept else kept ++ [item]

namespace Handlers

variable {ρ : Type} {m : Type → Type}

/-- The handler under a key. -/
def find? (hs : Handlers ρ m) (key : String) : Option (Handler ρ m) :=
  Keyed.find? (· == ·) key hs

/-- The handlers of a kind, in order: those that answer requests for completion or those that do
not, or all of them. -/
def ofKind (hs : Handlers ρ m) (completes : Option Bool) : List (Handler ρ m) :=
  (hs.map Prod.snd).filter fun h ↦ completes.all fun c ↦ h.completes == c

variable [Monad m]

/-- The items so far with those of one more handler. -/
def addFrom (request : ρ) (kept : List Item) (h : Handler ρ m) : m (List Item) := do
  if ← h.canHandle request then return (← h.complete request).items.foldl addItem kept
  else return kept

/-- The joined list of all that can handle a request. -/
def complete (hs : Handlers ρ m) (request : ρ) : m ItemList := do
  return { items := ← (hs.ofKind (some true)).foldlM (addFrom request) [] }

end Handlers

end CompletionServer.Completion
