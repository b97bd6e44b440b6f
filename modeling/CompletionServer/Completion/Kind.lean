/-!
# Kinds of completion items

The kinds that the protocol knows, with their numbers, and the tags by which backends name what a
candidate is.
-/

namespace CompletionServer.Completion

/-- What a completion item stands for. -/
inductive ItemKind where
  | text
  | method
  | function
  | construction
  | field
  | variableName
  | className
  | interface
  | moduleName
  | property
  | unit
  | value
  | enumeration
  | keyword
  | snippet
  | color
  | file
  | reference
  | folder
  | enumMember
  | constant
  | struct
  | event
  | operator
  | typeParameter
deriving DecidableEq, Repr, Inhabited

namespace ItemKind

/-- All kinds, in the order of their numbers. -/
def all : List ItemKind :=
  [.text, .method, .function, .construction, .field, .variableName, .className, .interface,
    .moduleName, .property, .unit, .value, .enumeration, .keyword, .snippet, .color, .file,
    .reference, .folder, .enumMember, .constant, .struct, .event, .operator, .typeParameter]

/-- The number of a kind, from one. -/
def code (k : ItemKind) : Nat := all.idxOf k + 1

/-- The kind with a number. -/
def ofCode? : Nat → Option ItemKind
  | 0 => none
  | n + 1 => all[n]?

theorem ofCode?_code (k : ItemKind) : ofCode? k.code = some k := by
  cases k <;> rfl

end ItemKind

/-! ## Tags -/

/-- The tags of backends. -/
def kindTags : List (String × ItemKind) :=
  [("Class", .className),
    ("Delegate", .function),
    ("Enum", .enumeration),
    ("Interface", .interface),
    ("Struct", .struct),
    ("Local", .variableName),
    ("Parameter", .variableName),
    ("RangeVariable", .variableName),
    ("Const", .constant),
    ("EnumMember", .enumeration),
    ("Event", .event),
    ("Field", .field),
    ("Method", .method),
    ("Property", .property),
    ("Label", .text),
    ("Keyword", .keyword),
    ("Namespace", .moduleName)]

/-- The kind of a candidate whose tag says nothing. -/
def defaultKind : ItemKind := .property

/-- The kind that a tag names, `defaultKind` for a tag that is missing or unknown. -/
def kindOfTag (tag : Option String) : ItemKind :=
  match tag with
  | none => defaultKind
  | some tag => (kindTags.lookup tag).getD defaultKind

end CompletionServer.Completion
