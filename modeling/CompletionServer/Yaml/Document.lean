import CompletionServer.Keyed
import CompletionServer.Value.Basic
import CompletionServer.Yaml.Graph
import CompletionServer.Yaml.Merge
import CompletionServer.Yaml.Scalar

/-!
# The value of a YAML document

First every node becomes a *part*: a scalar its value, a collection the numbers of the nodes in it.
Collections are empty at first and get their content level by level, and within a level in the order
of the text, so that of several faults the one nearest to the root is reported. A node becomes a
part only once, however many aliases name it.

Then the parts are put together, from the root on. A collection that contains itself is tied as a
knot.
-/

namespace CompletionServer.Yaml

open Text

/-! ## Parts -/

/-- What a node becomes. -/
inductive Part where
  /-- A scalar. All floats written `.nan` are one and the same key. -/
  | scalar (v : Value) (isNan : Bool)
  | list (items : List Nat)
  | map (entries : List (Nat × Nat))
  | set (members : List Nat)
  | pairs (entries : List (Nat × Nat))
deriving Inhabited

/-- The nodes, the parts that they have become, and the collections still without content. -/
structure Building where
  nodes : Graph
  parts : Array (Option Part)
  waiting : List Nat

abbrev Build := StateT Building (Except Fault)

def refuseNode {α : Type} (d : Defect) : Build α := throw d.fault

/-- The part that a node has become. -/
def partOf (parts : Array (Option Part)) (n : Nat) : Option Part := (parts[n]?).join

def putPart (n : Nat) (part : Part) : Build Unit :=
  modify fun b ↦ { b with parts := b.parts.setIfInBounds n (some part) }

/-! ## Scalars -/

/-- The text of a node with a tag of scalars: its own, or in a mapping that under the key `=`. -/
def scalarText (g : Graph) : (fuel : Nat) → Nat → Except Fault (List Point)
  | 0, _ => .error (Defect.fault .nodeKind)
  | fuel + 1, n =>
    match g.node n with
    | .scalar _ text => .ok text
    | .mapping _ entries =>
      match entries.find? fun e ↦ g.hasTag .value e.1 with
      | some (_, v) => scalarText g fuel v
      | none => .error (Defect.fault .nodeKind)
    | .sequence _ _ => .error (Defect.fault .nodeKind)

/-- The part that a node with a tag of scalars becomes. Moments must be scalars themselves. -/
def scalarPart (g : Graph) (n : Nat) : Except Fault Part := do
  let text ← scalarText g (g.size + 1) n
  match g.node n with
  | .mapping .timestamp _ => .error (.impossible .timestampKind)
  | node => return .scalar (← scalarValue node.tag text) (node.tag == .float && isNotANumber text)

/-! ## Collections -/

/-- A collection of a kind without its content, if the tag is one of collections. -/
def emptyPart? : Tag → Option Part
  | .seq => some (.list [])
  | .map => some (.map [])
  | .set => some (.set [])
  | .omap | .pairs => some (.pairs [])
  | _ => none

/-- Makes a node a part, unless it is one already. -/
def build (n : Nat) : Build Unit := do
  let b ← get
  if (partOf b.parts n).isNone then
    let tag := (b.nodes.node n).tag
    match emptyPart? tag with
    | some part =>
      putPart n part
      modify fun b ↦ { b with waiting := b.waiting ++ [n] }
    | none =>
      if tag.isScalar then putPart n (← scalarPart b.nodes n) else refuseNode .unknownTag

/-- Whether two nodes are the same key. -/
def sameKeyNode (parts : Array (Option Part)) (m n : Nat) : Bool :=
  m == n ||
    match partOf parts m, partOf parts n with
    | some (.scalar v vNan), some (.scalar w wNan) => Value.sameKey v w || (vNan && wNan)
    | _, _ => false

/-- The entries of a mapping, freed of those that merge something. -/
def ownEntries (n : Nat) : Build (List (Nat × Nat)) := do
  let b ← get
  let ((), nodes) ← (flatten (b.nodes.mergeCount + 1) n).run b.nodes
  set { b with nodes }
  match nodes.node n with
  | .mapping _ entries => return entries
  | _ => refuseNode .nodeKind

/-- Makes the keys and values of a mapping parts, each key before its value, and gives its entries,
one for each key. No collection can be a key. -/
def buildEntries (n : Nat) : Build (List (Nat × Nat)) := do
  (← ownEntries n).foldlM (fun kept e ↦ do
    build e.1
    match partOf (← get).parts e.1 with
    | some (.scalar _ _) => pure ()
    | _ => refuseNode .unhashableKey
    build e.2
    return Keyed.put (sameKeyNode (← get).parts) e.1 e.2 kept) []

/-- The items of a sequence. -/
def itemsOf (n : Nat) : Build (List Nat) := do
  match (← get).nodes.node n with
  | .sequence _ items => return items
  | _ => refuseNode .nodeKind

/-- Makes the key and the value of a mapping with one entry parts. -/
def buildPair (n : Nat) : Build (Nat × Nat) := do
  match (← get).nodes.node n with
  | .mapping _ [(k, v)] =>
    build k
    build v
    return (k, v)
  | .mapping _ _ => refuseNode .entryCount
  | _ => refuseNode .nodeKind

/-- Gives a collection its content. -/
def fill (n : Nat) : Build Unit := do
  match (← get).nodes.node n |>.tag with
  | .seq =>
    let items ← itemsOf n
    items.forM build
    putPart n (.list items)
  | .map => putPart n (.map (← buildEntries n))
  | .set => putPart n (.set ((← buildEntries n).map Prod.fst))
  | _ => putPart n (.pairs (← (← itemsOf n).mapM buildPair))

/-- Gives all waiting collections their content. Each node waits once at most, so the number of
nodes bounds the rounds. -/
def fillAll : (fuel : Nat) → Build Unit
  | 0 => pure ()
  | fuel + 1 => do
    match (← get).waiting with
    | [] => pure ()
    | n :: rest =>
      modify fun b ↦ { b with waiting := rest }
      fill n
      fillAll fuel

/-! ## Putting together -/

/-- A collection whose content means the knots with the labels `inner`: it is a knot if there are
any. Also the labels that the collection means then. -/
def tie (label : Label) (body : Value) (inner : List Label) : Value × List Label :=
  if inner.isEmpty then (body, []) else (.knot label body, inner.filter (· != label))

/-- The value of a node inside the collections `around`, and the labels of those that it means. The
collections are different, so the number of nodes bounds the depth. -/
def assemble (parts : Array (Option Part)) :
    (fuel : Nat) → (around : List Nat) → Nat → Value × List Label
  | 0, _, _ => (.null, [])
  | fuel + 1, around, n =>
    let inside := assemble parts fuel (n :: around)
    if around.contains n then (.again (n, 0), [(n, 0)])
    else match partOf parts n with
      | none => (.null, [])
      | some (.scalar v _) => (v, [])
      | some (.list items) =>
        let found := items.map inside
        tie (n, 0) (.list (found.map Prod.fst)) (found.flatMap Prod.snd)
      | some (.map entries) =>
        let found := entries.map fun e ↦ ((inside e.1).1, inside e.2)
        tie (n, 0) (.map (found.map fun e ↦ (e.1, e.2.1))) (found.flatMap (·.2.2))
      | some (.set members) => (.set (members.map fun m ↦ (inside m).1), [])
      | some (.pairs entries) =>
        let found := entries.zipIdx.map fun e ↦
          let (first, second) := (inside e.1.1, inside e.1.2)
          tie (n, e.2 + 1) (.pair first.1 second.1) (first.2 ++ second.2)
        tie (n, 0) (.list (found.map Prod.fst)) (found.flatMap Prod.snd)

/-- The value of the document with this root. -/
def valueOf (g : Graph) (root : Nat) : Except Fault Value := do
  let start : Building := ⟨g, Array.replicate g.size none, []⟩
  let ((), after) ← (do build root; fillAll (g.size + 1) : Build Unit).run start
  return (assemble after.parts (g.size + 1) [] root).1

/-! ## Reading -/

/-- The value of a text whose lines end in line feeds; null if it holds no document. -/
def read (s : Source) : Except Fault Value := do
  let (known, fault) := tokens s
  match ← graph known fault with
  | none => return .null
  | some (g, root) => valueOf g root

end CompletionServer.Yaml
