import CompletionServer.Yaml.Error
import CompletionServer.Yaml.Node

/-!
# Merging mappings

The entry `<<` of a mapping merges other mappings into it. Their entries go before its own, and
those of a later mapping in a list before those of an earlier one, so that the later entry for a key
is the one that counts.

A mapping that is merged is itself freed of its `<<` first, for good, wherever else it is used. An
entry is taken out before what it merges is looked at, so a mapping may even merge itself.
-/

namespace CompletionServer.Yaml

/-- Changes of a graph. -/
abbrev Merging := StateT Graph (Except Fault)

namespace Graph

/-- The entries of a mapping, none for other nodes. -/
def entries (g : Graph) (n : Nat) : List (Nat × Nat) :=
  match g.node n with
  | .mapping _ entries => entries
  | _ => []

/-- The graph with other entries for a mapping. -/
def putEntries (g : Graph) (n : Nat) (entries : List (Nat × Nat)) : Graph :=
  match g.node n with
  | .mapping tag _ => g.put n (.mapping tag entries)
  | _ => g

/-- Whether a node has a tag. -/
def hasTag (g : Graph) (tag : Tag) (n : Nat) : Bool := (g.node n).tag == tag

/-- What the first of the entries that merge something merges, and the other entries. -/
def takeMerge? (g : Graph) : List (Nat × Nat) → Option (Nat × List (Nat × Nat))
  | [] => none
  | (k, v) :: rest =>
    if g.hasTag .merge k then some (v, rest)
    else (takeMerge? g rest).map fun found ↦ (found.1, (k, v) :: found.2)

/-- Keys that are written `=` are that text. -/
def nameValueKeys (g : Graph) (entries : List (Nat × Nat)) : Graph :=
  entries.foldl (fun g e ↦ if g.hasTag .value e.1 then g.put e.1 ((g.node e.1).withTag .str) else g)
    g

/-- The number of entries that merge something. -/
def mergeCount (g : Graph) : Nat :=
  (List.range g.size).foldl (fun n i ↦ n + (g.entries i).countP fun e ↦ g.hasTag .merge e.1) 0

end Graph

/-- Frees a mapping of the entries that merge something. Each takes one of them out of the graph, so
their number bounds the rounds. -/
def flatten : (fuel : Nat) → (n : Nat) → Merging Unit
  | 0, _ => pure ()
  | fuel + 1, n => do
    let g ← get
    match g.takeMerge? (g.entries n) with
    | none => set (g.nameValueKeys (g.entries n))
    | some (v, others) =>
      set (g.putEntries n others)
      let merged ←
        match g.node v with
        | .mapping _ _ =>
          flatten fuel v
          pure ((← get).entries v)
        | .sequence _ items => do
          let each ← items.mapM fun item ↦ do
            match (← get).node item with
            | .mapping _ _ =>
              flatten fuel item
              return (← get).entries item
            | _ => throw (Defect.fault .mergeValue)
          pure each.reverse.flatten
        | .scalar _ _ => throw (Defect.fault .mergeValue)
      flatten fuel n
      modify fun g ↦ g.putEntries n (merged ++ g.entries n)

end CompletionServer.Yaml
