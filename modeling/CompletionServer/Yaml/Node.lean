import CompletionServer.Text.Point

/-!
# YAML nodes

What a YAML document is made of: scalars by their text, sequences and mappings, each with the tag
that says what it stands for. An alias is the node that it names, which may be one around it. So the
nodes of a document form a graph: they have numbers, and a collection holds the numbers of others.
-/

namespace CompletionServer.Yaml

/-- What a node stands for. -/
inductive Tag where
  | null
  | bool
  | int
  | float
  | timestamp
  | str
  | seq
  | map
  | binary
  | set
  | omap
  | pairs
  | merge
  | value
  | other (name : String)
deriving DecidableEq, Repr

/-- The stem of the tags of the language itself. -/
def tagStem : String := "tag:yaml.org,2002:"

/-- The tag with a full name. -/
def Tag.ofName (name : String) : Tag :=
  let known : List (String × Tag) :=
    [("null", .null), ("bool", .bool), ("int", .int), ("float", .float),
      ("timestamp", .timestamp), ("str", .str), ("seq", .seq), ("map", .map),
      ("binary", .binary), ("set", .set), ("omap", .omap), ("pairs", .pairs), ("merge", .merge),
      ("value", .value)]
  match known.find? fun k ↦ tagStem ++ k.1 == name with
  | some (_, t) => t
  | none => .other name

/-- A node of a YAML document. -/
inductive Node where
  | scalar (tag : Tag) (text : List Text.Point)
  | sequence (tag : Tag) (items : List Nat)
  | mapping (tag : Tag) (entries : List (Nat × Nat))
deriving DecidableEq, Repr

instance : Inhabited Node := ⟨.scalar .null []⟩

namespace Node

def tag : Node → Tag
  | .scalar t _ => t
  | .sequence t _ => t
  | .mapping t _ => t

/-- The node with another tag. -/
def withTag (t : Tag) : Node → Node
  | .scalar _ text => .scalar t text
  | .sequence _ items => .sequence t items
  | .mapping _ entries => .mapping t entries

end Node

/-- The nodes of a document by their numbers. -/
abbrev Graph := Array Node

/-- The node with a number. -/
def Graph.node (g : Graph) (n : Nat) : Node := g[n]?.getD default

/-- The graph with another node under a number. -/
def Graph.put (g : Graph) (n : Nat) (node : Node) : Graph := g.setIfInBounds n node

end CompletionServer.Yaml
