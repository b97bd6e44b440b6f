import CompletionServer.Completion.Candidate
import CompletionServer.Completion.Kind

/-!
# Completion items

What a client is given: items with a label, a detail, a documentation, a kind, and the text to be
inserted. On the wire an item is a mapping from which everything absent is left out.
-/

namespace CompletionServer.Completion

/-- How a text is inserted: as it is, or as a snippet with places to fill in. -/
inductive InsertFormat where
  | plain
  | snippet
deriving DecidableEq, Repr, Inhabited

/-- The number of a format. -/
def InsertFormat.code : InsertFormat → Nat
  | .plain => 1
  | .snippet => 2

/-- The format with a number. -/
def InsertFormat.ofCode? : Nat → Option InsertFormat
  | 1 => some .plain
  | 2 => some .snippet
  | _ => none

/-- A completion item. -/
structure Item where
  label : String
  detail : Option String := none
  /-- A text, a mapping with markup, or null. -/
  documentation : Value := .null
  kind : Option ItemKind := none
  insertText : Option String := none
  insertFormat : Option InsertFormat := none
  /-- The other fields that the protocol knows. -/
  others : List (String × Value) := []
deriving Inhabited

/-- A list of items. It is never incomplete here, but other makers of lists may say so. -/
structure ItemList where
  isIncomplete : Bool := false
  items : List Item
deriving Inhabited

namespace Item

/-! ## From candidates -/

/-- The detail of a candidate: its display text, after its return type if it has one. -/
def detailOf (c : Candidate) : String :=
  if c.returnType = "" then c.displayText else c.returnType ++ " " ++ c.displayText

/-- The item for a candidate. Its snippet is inserted if it has one, else its completion text. -/
def ofCandidate (c : Candidate) : Item where
  label := c.completionText
  detail := some (detailOf c)
  documentation := .str c.description
  kind := some (kindOfTag (some c.kind))
  insertText := some (if c.snippet = "" then c.completionText else c.snippet)
  insertFormat := some (if c.snippet = "" then .plain else .snippet)

@[simp] theorem label_ofCandidate (c : Candidate) : (ofCandidate c).label = c.completionText := rfl

/-! ## On the wire -/

/-- The value with those entries only that have a name among `fields`, each as its function says; an
entry that is null is left out. What is no mapping stays as it is. -/
def pick (fields : List (String × (Value → Value))) (v : Value) : Value :=
  match v.entries? with
  | none => v
  | some entries =>
    .record <| fields.filterMap fun f ↦
      match Value.get f.1 entries with
      | .null => none
      | found => some (f.1, f.2 found)

/-- A place in a document. -/
def pickPlace : Value → Value := pick [("line", id), ("character", id)]

/-- A stretch of a document. -/
def pickRange : Value → Value := pick [("start", pickPlace), ("end", pickPlace)]

/-- An edit: of one stretch, or of one where the text is inserted and one that it replaces. -/
def pickEdit (v : Value) : Value :=
  match v.field "insert" with
  | .null => pick [("newText", id), ("range", pickRange)] v
  | _ => pick [("newText", id), ("insert", pickRange), ("replace", pickRange)] v

/-- Each item of a list. -/
def pickEach (pickItem : Value → Value) (v : Value) : Value :=
  match v.items? with
  | some items => .list (items.map pickItem)
  | none => v

/-- A text with markup. -/
def pickMarkup : Value → Value := pick [("kind", id), ("value", id)]

/-- The other fields of items, in the order in which they are written, and what is kept of each. -/
def otherFields : List (String × (Value → Value)) :=
  [("labelDetails", pick [("detail", id), ("description", id)]), ("tags", id), ("deprecated", id),
    ("preselect", id), ("sortText", id), ("filterText", id), ("insertTextMode", id),
    ("textEdit", pickEdit), ("textEditText", id), ("additionalTextEdits", pickEach pickEdit),
    ("commitCharacters", id),
    ("command", pick [("title", id), ("command", id), ("tooltip", id), ("arguments", id)]),
    ("data", id)]

/-- A field as it is written: not at all if it is null. -/
def writeField (name : String) : Value → List (String × Value)
  | .null => []
  | v => [(name, v)]

/-- An optional text, null where there is none. -/
def textOrNull : Option String → Value
  | none => .null
  | some s => .str s

/-- An optional number, null where there is none. -/
def codeOrNull : Option Nat → Value
  | none => .null
  | some n => .int n

/-- The item as a mapping. -/
def toValue (i : Item) : Value :=
  .record <|
    [("label", .str i.label)]
    ++ writeField "detail" (textOrNull i.detail)
    ++ writeField "documentation" i.documentation
    ++ writeField "kind" (codeOrNull (i.kind.map ItemKind.code))
    ++ writeField "insertText" (textOrNull i.insertText)
    ++ writeField "insertTextFormat" (codeOrNull (i.insertFormat.map InsertFormat.code))
    ++ i.others

/-- The item that a mapping describes. Fields that the protocol does not know are left out, and so
are those inside other fields. -/
def ofValue (v : Value) : Item where
  label := ((v.field "label").str?).getD ""
  detail := (v.field "detail").str?
  documentation := pickMarkup (v.field "documentation")
  kind := (v.field "kind").int?.bind fun n ↦ ItemKind.ofCode? n.toNat
  insertText := (v.field "insertText").str?
  insertFormat := (v.field "insertTextFormat").int?.bind fun n ↦ InsertFormat.ofCode? n.toNat
  others := otherFields.flatMap fun f ↦ writeField f.1 (f.2 (v.field f.1))

end Item

/-- The list as a mapping. -/
def ItemList.toValue (l : ItemList) : Value :=
  .record [("isIncomplete", .bool l.isIncomplete), ("items", .list (l.items.map Item.toValue))]

end CompletionServer.Completion
