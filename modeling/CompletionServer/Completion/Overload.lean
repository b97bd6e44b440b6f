import CompletionServer.Completion.Item
import CompletionServer.Keyed

/-!
# Overloads

Several candidates may go by one label: the overloads of a method. A client is shown the first of
them, and its detail says how many others there are. Labels keep the order in which they first came.
-/

namespace CompletionServer.Completion

/-- Items that share a label: the first of them, and how many others there are. -/
structure Group where
  first : Item
  others : Nat
deriving Inhabited

/-- The groups with one more item. -/
def Group.add (groups : List (String × Group)) (item : Item) : List (String × Group) :=
  let group := match Keyed.find? (· == ·) item.label groups with
    | none => ⟨item, 0⟩
    | some g => { g with others := g.others + 1 }
  Keyed.put (· == ·) item.label group groups

/-- The items by their labels. -/
def groups (items : List Item) : List (String × Group) := items.foldl Group.add []

/-- How a detail names the number of items that it hides. -/
def overloadSuffix (hidden : Nat) : String := s!" (+ {hidden} overload(s))"

/-- The detail with a suffix; one that is absent reads as `None` then. -/
def suffixed (detail : Option String) (hidden : Nat) : String :=
  detail.getD "None" ++ overloadSuffix hidden

/-- The item that a group is shown as. -/
def Group.shown (g : Group) : Item :=
  if g.others = 0 then g.first
  else { g.first with detail := some (suffixed g.first.detail g.others) }

/-- One item for each label. -/
def collapse (items : List Item) : List Item := (groups items).map fun g ↦ g.2.shown

end CompletionServer.Completion
