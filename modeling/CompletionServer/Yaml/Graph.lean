import CompletionServer.Keyed
import CompletionServer.Yaml.Schema
import CompletionServer.Yaml.Token.Lexer

/-!
# From tokens to the graph of a document

One function per rule of the grammar: a node with its anchor and its tag, the four kinds of
collections, sequences that stand at the column of their key, and single pairs in a flow sequence.
Wherever a node may be missing, an empty plain scalar takes its place.

A node has its number and its name as soon as its content begins, so an alias inside it finds it.
Tokens are asked for one by one. What is wrong with the text after the known tokens is met where one
more is asked for, so anything that is wrong with the known ones comes before it.
-/

namespace CompletionServer.Yaml

open Text

/-! ## Reading tokens -/

/-- The tokens still to be read and the fault after them, the nodes so far, the numbers of those
that have a name, and the handles of tags. -/
structure Remaining where
  tokens : List Token
  fault : Option Fault
  nodes : Graph
  anchors : List (String × Nat)
  handles : List (String × String)

abbrev Reading := StateT Remaining (Except Fault)

def refuse {α : Type} (d : Defect) : Reading α := throw d.fault

/-- The next token, none at the end. -/
def peek : Reading (Option Token) := do
  let r ← get
  match r.tokens, r.fault with
  | t :: _, _ => return some t
  | [], some f => throw f
  | [], none => return none

/-- Passes the next token. -/
def advance : Reading Unit := modify fun r ↦ { r with tokens := r.tokens.tail }

/-- Whether the next token is one of `ts`. -/
def isNext (ts : List Token) : Reading Bool := do
  match ← peek with
  | some t => return ts.contains t
  | none => return false

/-- Passes the token `t`, which must be the next. -/
def pass (t : Token) : Reading Unit := do
  if ← isNext [t] then advance else refuse .unexpectedToken

/-- Passes the token `t` if it is the next, and says so. -/
def accept (t : Token) : Reading Bool := do
  if ← isNext [t] then advance; return true else return false

/-! ## Nodes, anchors and tags -/

/-- A new node, and its number. -/
def add (node : Node) : Reading Nat := do
  let number := (← get).nodes.size
  modify fun r ↦ { r with nodes := r.nodes.push node }
  return number

/-- The scalar in place of a missing node. -/
def missing : Reading Nat := add (.scalar .null [])

/-- The node with a name. -/
def aliased (name : String) : Reading Nat := do
  match Keyed.find? (· == ·) name (← get).anchors with
  | some number => return number
  | none => refuse .undefinedAlias

/-- A new node that may have a name, which no other node has. -/
def addNamed (anchor : Option String) (node : Node) : Reading Nat := do
  match anchor with
  | none => add node
  | some name =>
    if (Keyed.find? (· == ·) name (← get).anchors).isSome then refuse .duplicateAnchor
    else
      let number ← add node
      modify fun r ↦ { r with anchors := Keyed.put (· == ·) name number r.anchors }
      return number

/-- A new collection that may have a name. It is empty until its content is read. -/
def addFilled {α : Type} (anchor : Option String) (ofContent : List α → Node)
    (read : Reading (List α)) : Reading Nat := do
  let number ← addNamed anchor (ofContent [])
  let content ← read
  modify fun r ↦ { r with nodes := r.nodes.put number (ofContent content) }
  return number

/-- The name of a tag with its handle written out. -/
def tagName (handle : Option String) (suffix : String) : Reading String := do
  match handle with
  | none => return suffix
  | some handle =>
    match Keyed.find? (· == ·) handle (← get).handles with
    | some stem => return stem ++ suffix
    | none => refuse .tagHandle

/-- An anchor, if one is next. -/
def anchor? : Reading (Option String) := do
  match ← peek with
  | some (.anchor name) => advance; return some name
  | _ => return none

/-- A tag, if one is next. -/
def tag? : Reading (Option (Option String × String)) := do
  match ← peek with
  | some (.tag handle suffix) => advance; return some (handle, suffix)
  | _ => return none

/-- The anchor and the tag of a node, in either order. -/
def properties : Reading (Option String × Option String) := do
  let first ← anchor?
  let tag ← tag?
  let anchor ← if first.isNone && tag.isSome then anchor? else pure first
  match tag with
  | none => return (anchor, none)
  | some (handle, suffix) => return (anchor, some (← tagName handle suffix))

/-- What a scalar stands for. A lone exclamation mark asks for what the text alone would. -/
def scalarTag (name : Option String) (plain : Bool) (text : List Point) : Tag :=
  match name with
  | none => if plain then resolve text else .str
  | some "!" => resolve text
  | some name => .ofName name

/-- What a collection stands for. -/
def collectionTag (name : Option String) (usual : Tag) : Tag :=
  match name with
  | none => usual
  | some "!" => usual
  | some name => .ofName name

/-! ## The grammar -/

mutual

/-- A node: an alias, or an anchor and a tag and then the content. Block collections may begin only
in a `block` context, sequences without indentation only where `indentless` says so. -/
def node (block indentless : Bool) : (fuel : Nat) → Reading Nat
  | 0 => refuse .unexpectedToken
  | fuel + 1 => do
    match ← peek with
    | some (.alias name) =>
      advance
      aliased name
    | _ =>
      let (anchor, tag) ← properties
      content block indentless anchor tag fuel

/-- The content of a node, which may be missing if the node has an anchor or a tag. -/
def content (block indentless : Bool) (anchor tag : Option String) : (fuel : Nat) → Reading Nat
  | 0 => refuse .unexpectedToken
  | fuel + 1 => do
    match ← peek with
    | some .blockEntry =>
      if indentless then
        addFilled anchor (.sequence (collectionTag tag .seq)) (indentlessItems fuel)
      else empty
    | some (.scalar text plain) =>
      advance
      addNamed anchor (.scalar (scalarTag tag plain text) text)
    | some .flowSequenceStart =>
      advance
      addFilled anchor (.sequence (collectionTag tag .seq)) (flowItems true fuel)
    | some .flowMappingStart =>
      advance
      addFilled anchor (.mapping (collectionTag tag .map)) (flowEntries true fuel)
    | some .blockSequenceStart =>
      if block then
        advance
        addFilled anchor (.sequence (collectionTag tag .seq)) (blockItems fuel)
      else empty
    | some .blockMappingStart =>
      if block then
        advance
        addFilled anchor (.mapping (collectionTag tag .map)) (blockEntries fuel)
      else empty
    | _ => empty
where
  empty : Reading Nat :=
    if anchor.isSome || tag.isSome then addNamed anchor (.scalar (scalarTag tag true []) [])
    else refuse .unexpectedToken

/-- The items of an indented block sequence, to its end. -/
def blockItems : (fuel : Nat) → Reading (List Nat)
  | 0 => refuse .unexpectedToken
  | fuel + 1 => do
    if ← accept .blockEntry then
      let item ←
        if ← isNext [.blockEntry, .blockEnd] then missing else node true false fuel
      return item :: (← blockItems fuel)
    else
      pass .blockEnd
      return []

/-- The items of a block sequence at the column of its key. -/
def indentlessItems : (fuel : Nat) → Reading (List Nat)
  | 0 => refuse .unexpectedToken
  | fuel + 1 => do
    if ← accept .blockEntry then
      let item ←
        if ← isNext [.blockEntry, .key, .value, .blockEnd] then missing
        else node true false fuel
      return item :: (← indentlessItems fuel)
    else return []

/-- The entries of a block mapping, to its end. -/
def blockEntries : (fuel : Nat) → Reading (List (Nat × Nat))
  | 0 => refuse .unexpectedToken
  | fuel + 1 => do
    if ← accept .key then
      let key ← blockPart fuel
      let value ← if ← accept .value then blockPart fuel else missing
      return (key, value) :: (← blockEntries fuel)
    else
      pass .blockEnd
      return []

/-- A key or a value of a block mapping. -/
def blockPart : (fuel : Nat) → Reading Nat
  | 0 => refuse .unexpectedToken
  | fuel + 1 => do
    if ← isNext [.key, .value, .blockEnd] then missing else node true true fuel

/-- The items of a flow sequence, to its end. -/
def flowItems (first : Bool) : (fuel : Nat) → Reading (List Nat)
  | 0 => refuse .unexpectedToken
  | fuel + 1 => do
    if ← accept .flowSequenceEnd then return []
    unless first do pass .flowEntry
    if ← accept .flowSequenceEnd then return []
    let item ←
      if ← accept .key then
        let key ← flowPart [.value, .flowEntry, .flowSequenceEnd] fuel
        let value ←
          if ← accept .value then flowPart [.flowEntry, .flowSequenceEnd] fuel
          else missing
        add (.mapping .map [(key, value)])
      else node false false fuel
    return item :: (← flowItems false fuel)

/-- The entries of a flow mapping, to its end. -/
def flowEntries (first : Bool) : (fuel : Nat) → Reading (List (Nat × Nat))
  | 0 => refuse .unexpectedToken
  | fuel + 1 => do
    if ← accept .flowMappingEnd then return []
    unless first do pass .flowEntry
    if ← accept .flowMappingEnd then return []
    let entry ←
      if ← accept .key then
        let key ← flowPart [.value, .flowEntry, .flowMappingEnd] fuel
        let value ←
          if ← accept .value then flowPart [.flowEntry, .flowMappingEnd] fuel
          else missing
        pure (key, value)
      else pure (← node false false fuel, ← missing)
    return entry :: (← flowEntries false fuel)

/-- A node inside a flow collection, missing where one of `ends` is next. -/
def flowPart (ends : List Token) : (fuel : Nat) → Reading Nat
  | 0 => refuse .unexpectedToken
  | fuel + 1 => do
    if ← isNext ends then missing else node false false fuel

end

/-! ## Documents -/

/-- The directives before a document: at most one version, which must be 1, and one stem for each
handle. -/
def directives (version : Bool) (handles : List (String × String)) :
    (fuel : Nat) → Reading (List (String × String))
  | 0 => refuse .unexpectedToken
  | fuel + 1 => do
    match ← peek with
    | some (.directive (.version major _)) =>
      advance
      if version || major != 1 then refuse .directive else directives true handles fuel
    | some (.directive (.tag handle stem)) =>
      advance
      if (Keyed.find? (· == ·) handle handles).isSome then refuse .directive
      else directives version (handles ++ [(handle, stem)]) fuel
    | some (.directive .other) =>
      advance
      directives version handles fuel
    | _ => return handles

/-- The handles that need no directive. -/
def usualHandles : List (String × String) := [("!", "!"), ("!!", tagStem)]

/-- The start of a document that is marked, and the directives before it. -/
def markedStart (fuel : Nat) : Reading Unit := do
  let own ← directives false [] fuel
  pass .documentStart
  modify fun r ↦ { r with handles := own ++ usualHandles }

/-- The first document, if there is one; its start may be marked, and must be after directives. -/
def firstDocument (fuel : Nat) : Reading (Option Nat) := do
  match ← peek with
  | none => return none
  | some (.directive _) | some .documentStart =>
    markedStart fuel
    match ← peek with
    | none | some (.directive _) | some .documentStart | some .documentEnd =>
      return some (← missing)
    | _ => return some (← node true false fuel)
  | _ => return some (← node true false fuel)

/-- Passes marks of the end of a document. -/
def passEnds : (fuel : Nat) → Reading Unit
  | 0 => pure ()
  | fuel + 1 => do if ← accept .documentEnd then passEnds fuel

/-- The number of the one document, if there is one. -/
def onlyDocument (fuel : Nat) : Reading (Option Nat) := do
  match ← firstDocument fuel with
  | none => return none
  | some number =>
    passEnds fuel
    if (← peek).isSome then
      markedStart fuel
      refuse .severalDocuments
    return some number

/-- The graph of a text with the number of its one document, if there is one. Every step into a node
takes at most four steps of fuel for each token, so the fuel never runs out. -/
def graph (tokens : List Token) (fault : Option Fault) : Except Fault (Option (Graph × Nat)) := do
  let start : Remaining := ⟨tokens, fault, #[], [], usualHandles⟩
  let (number, after) ← (onlyDocument (4 * tokens.length + 8)).run start
  return number.map (after.nodes, ·)

end CompletionServer.Yaml
