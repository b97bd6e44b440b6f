import CompletionServer.Text.Utf8
import CompletionServer.Yaml.ScalarText
import CompletionServer.Yaml.Token

/-!
# Cutting a YAML text into tokens

Two things make this more than cutting. Indentation opens and closes block collections, so the
lexer keeps a stack of the columns of open ones. And a key may stand before its `:` without a sign
of its own, so the lexer keeps, for every open flow collection and for the block around them, where
the last possible key began; when the `:` comes, the key token goes in there.

A token is known once no key token can go in before it any more. Tokens are asked for one by one,
and what is wrong with the text after the known ones matters only to those who ask for more. So the
answer is the known tokens, and the fault that is met after them if there is one.

Each round reads at least one character, so their number bounds the rounds.
-/

namespace CompletionServer.Yaml

open Text

/-- A place where a key may have begun: how many tokens came before it, and whether it must be one,
because it stands where the entries of a block mapping begin. -/
structure KeyPlace where
  tokens : Nat
  required : Bool
  index : Nat
  line : Nat
  column : Nat

/-- The state of the lexer. -/
structure Lexer where
  source : Source
  /-- The columns of the open block collections, innermost first. -/
  columns : List Nat
  /-- The possible key of the innermost open flow collection first, that of the block last. -/
  keys : List (Option KeyPlace)
  /-- Whether a simple key may begin here. -/
  allowKey : Bool
  tokens : Array Token

namespace Lexer

def ofSource (s : Source) : Lexer := ⟨s, [], [none], true, #[]⟩

/-- Whether a flow collection is open. -/
def inFlow (l : Lexer) : Bool := 1 < l.keys.length

/-- The column of the innermost open block collection; one less than any if there is none. -/
def indent (l : Lexer) : Int :=
  match l.columns with
  | [] => -1
  | column :: _ => column

def push (l : Lexer) (t : Token) : Lexer := { l with tokens := l.tokens.push t }

def insert (l : Lexer) (place : Nat) (t : Token) : Lexer :=
  { l with tokens := l.tokens.take place ++ #[t] ++ l.tokens.drop place }

def fail {α : Type} (l : Lexer) (d : Defect) : Except Fault α := l.source.fail d

/-! ## Indentation and keys -/

/-- Closes the block collections that are indented by more than `column`. -/
def close (column : Int) (l : Lexer) : Lexer :=
  if l.inFlow then l
  else
    let closed := (l.columns.takeWhile fun c : Nat ↦ decide (column < (c : Int))).length
    { l with
      columns := l.columns.drop closed
      tokens := l.tokens ++ Array.replicate closed Token.blockEnd }

/-- Opens a block collection at `column` if that is farther in than the innermost open one. -/
def open? (l : Lexer) (column : Nat) : Option Lexer :=
  if l.indent < column then some { l with columns := column :: l.columns } else none

/-- Gives up the possible key of the innermost collection. -/
def forgetKey (l : Lexer) : Except Fault Lexer :=
  match l.keys with
  | some key :: rest =>
    if key.required then l.fail .simpleKey else .ok { l with keys := none :: rest }
  | _ => .ok l

/-- Remembers that a key may begin here. -/
def rememberKey (l : Lexer) : Except Fault Lexer :=
  if l.allowKey then do
    let l ← l.forgetKey
    let s := l.source
    let required := !l.inFlow && l.indent == s.column
    let key : KeyPlace := ⟨l.tokens.size, required, s.index, s.line, s.column⟩
    return { l with keys := some key :: l.keys.drop 1 }
  else return l

/-- A key ends on the line it begins on, within 1024 characters. -/
def isStale (s : Source) (key : KeyPlace) : Bool :=
  key.line != s.line || 1024 < s.index - key.index

/-- Gives up the keys that can no longer be ended. -/
def forgetStale (l : Lexer) : Except Fault Lexer :=
  let stale := fun key ↦ isStale l.source key
  if l.keys.any fun key ↦ (key.map fun k ↦ stale k && k.required).getD false then l.fail .simpleKey
  else .ok { l with keys := l.keys.map fun key ↦ key.filter fun k ↦ !stale k }

/-! ## Between tokens -/

/-- Goes to the next token, over spaces, comments and line ends. Outside flow collections a line end
lets a simple key begin. -/
def toToken : (fuel : Nat) → Lexer → Lexer
  | 0, l => l
  | fuel + 1, l =>
    let s := (l.source.skip (· == ' ')).skipComment
    match s.lineBreak? with
    | none => { l with source := s }
    | some (_, s) => toToken fuel { l with source := s, allowKey := l.allowKey || !l.inFlow }

/-- A byte order mark at the start of the text does not count. -/
def skipMark (l : Lexer) : Lexer :=
  if l.source.index == 0 && l.source.rest.head? == some '\uFEFF' then
    { l with source := l.source.next }
  else l

/-! ## Directives, anchors and tags -/

/-- The characters of names of directives, anchors and handles. -/
def isWord (c : Char) : Bool := c.isAlphanum || c == '-' || c == '_'

/-- The characters of tags. -/
def isTagChar (c : Char) : Bool := c.isAlphanum || "-;/?:@&=+$,_.!~*'()[]%".toList.contains c

/-- The bytes of a written tag. -/
def tagBytes : (s : Source) → List Char → Except Fault (List UInt8)
  | _, [] => .ok []
  | s, '%' :: a :: b :: rest =>
    match hexDigit? a, hexDigit? b with
    | some high, some low => return (high * 16 + low).toUInt8 :: (← tagBytes s rest)
    | _, _ => s.fail .tag
  | s, c :: rest =>
    if c == '%' then s.fail .tag
    else return String.utf8EncodeChar c ++ (← tagBytes s rest)

/-- A tag or a part of one, at least one character long. -/
def tagText (s : Source) : Except Fault (String × Source) := do
  let (written, after) := s.span isTagChar
  if written.isEmpty then s.fail .tag
  else
    let bytes ← tagBytes s written
    match Utf8.decode bytes with
    | .ok text => return (String.ofList text, after)
    | .error _ => s.fail .tag

/-- A handle: one exclamation mark, or a word between two. -/
def tagHandle (s : Source) : Except Fault (String × Source) :=
  match s.rest with
  | '!' :: ' ' :: _ => .ok ("!", s.next)
  | '!' :: rest =>
    let word := rest.takeWhile isWord
    match rest.drop word.length with
    | '!' :: _ => .ok (String.ofList ('!' :: word ++ ['!']), s.drop (word.length + 2))
    | _ => s.fail .tag
  | _ => s.fail .tag

/-- A whole number of ASCII digits. -/
def directiveNumber (s : Source) : Except Fault (Nat × Source) :=
  let (digits, after) := s.span isDigit
  match digits.isEmpty, readDigits 10 asciiDigit? digits with
  | false, some n => .ok (n, after)
  | _, _ => s.fail .directive

/-- A directive, from its sign to the end of its line. -/
def directive (s : Source) : Except Fault (Directive × Source) := do
  let (name, s) := s.next.span isWord
  if name.isEmpty || !atSpace s.rest then s.fail .directive
  let (found, s) ←
    if name == "YAML".toList then
      let (major, s) ← directiveNumber (s.skip (· == ' '))
      if s.rest.head? != some '.' then s.fail .directive
      let (minor, s) ← directiveNumber s.next
      if !atSpace s.rest then s.fail .directive
      pure (Directive.version major minor, s)
    else if name == "TAG".toList then
      let (handle, s) ← tagHandle (s.skip (· == ' '))
      if s.rest.head? != some ' ' then s.fail .directive
      let (stem, s) ← tagText (s.skip (· == ' '))
      if !atSpace s.rest then s.fail .directive
      pure (Directive.tag handle stem, s)
    else pure (Directive.other, s.skip fun c ↦ !isBreak c)
  return (found, ← skipLineRest .directive s)

/-- The name of an anchor or an alias, from its sign. -/
def anchorName (s : Source) : Except Fault (String × Source) :=
  let (name, after) := s.next.span isWord
  let ends := atGap after.rest
    || (after.rest.head?.map fun c ↦ "?:,]\x7d%@\x60".toList.contains c).getD false
  if name.isEmpty || !ends then s.fail .anchor else .ok (String.ofList name, after)

/-- Whether a handle stands before the next space: another exclamation mark does. -/
def hasHandle (rest : List Char) : Bool :=
  (rest.takeWhile fun c ↦ c != ' ' && !isBreak c).contains '!'

/-- A tag, from its sign. -/
def tag (s : Source) : Except Fault (Token × Source) := do
  let (found, after) ←
    match s.rest.drop 1 with
    | '<' :: _ =>
      let (suffix, after) ← tagText (s.drop 2)
      if after.rest.head? == some '>' then pure (Token.tag none suffix, after.next)
      else s.fail .tag
    | rest =>
      if atGap rest then pure (Token.tag none "!", s.next)
      else if hasHandle rest then
        let (handle, after) ← tagHandle s
        let (suffix, after) ← tagText after
        pure (Token.tag (some handle) suffix, after)
      else
        let (suffix, after) ← tagText s.next
        pure (Token.tag (some "!") suffix, after)
  if atSpace after.rest then return (found, after) else s.fail .tag

/-! ## One token -/

/-- Reads a token of `width` characters that ends all that was open. -/
def boundary (l : Lexer) : Except Fault Lexer := do
  let l ← (l.close (-1)).forgetKey
  return { l with allowKey := false }

/-- Opens a flow collection. -/
def openFlow (l : Lexer) (t : Token) : Except Fault Lexer := do
  let l ← l.rememberKey
  return { l.push t with keys := none :: l.keys, allowKey := true, source := l.source.next }

/-- Closes a flow collection. -/
def closeFlow (l : Lexer) (t : Token) : Except Fault Lexer := do
  let l ← l.forgetKey
  if l.inFlow then
    return { l.push t with keys := l.keys.drop 1, allowKey := false, source := l.source.next }
  else l.fail .unexpectedToken

/-- An entry of a flow collection ends. -/
def flowEntry (l : Lexer) : Except Fault Lexer := do
  let l ← l.forgetKey
  return { l.push .flowEntry with allowKey := true, source := l.source.next }

/-- An entry of a block sequence begins. -/
def blockEntry (l : Lexer) : Except Fault Lexer := do
  if !l.inFlow && !l.allowKey then l.fail .indentation
  let l := if l.inFlow then l else
    match l.open? l.source.column with
    | some l => l.push .blockSequenceStart
    | none => l
  let l ← l.forgetKey
  return { l.push .blockEntry with allowKey := true, source := l.source.next }

/-- A key with a sign of its own begins. -/
def explicitKey (l : Lexer) : Except Fault Lexer := do
  if !l.inFlow && !l.allowKey then l.fail .indentation
  let l := if l.inFlow then l else
    match l.open? l.source.column with
    | some l => l.push .blockMappingStart
    | none => l
  let l ← l.forgetKey
  return { l.push .key with allowKey := !l.inFlow, source := l.source.next }

/-- A value begins. If a key may have begun before, it did. -/
def value (l : Lexer) : Except Fault Lexer := do
  match l.keys with
  | some key :: rest =>
    let l := { l with keys := none :: rest }
    let l := l.insert key.tokens .key
    let l := if l.inFlow then l else
      match l.open? key.column with
      | some l => l.insert key.tokens .blockMappingStart
      | none => l
    return { l.push .value with allowKey := false, source := l.source.next }
  | _ =>
    if !l.inFlow && !l.allowKey then l.fail .indentation
    let l := if l.inFlow then l else
      match l.open? l.source.column with
      | some l => l.push .blockMappingStart
      | none => l
    return { l.push .value with allowKey := !l.inFlow, source := l.source.next }

/-- Reads a token that a simple key may begin with. -/
def mayBeKey (l : Lexer) (read : Source → Except Fault (Token × Source)) : Except Fault Lexer := do
  let l ← l.rememberKey
  let (t, source) ← read l.source
  return { l.push t with allowKey := false, source }

/-- Whether a plain scalar can begin with these characters. -/
def startsPlain (inFlow : Bool) (s : List Char) : Bool :=
  match s with
  | [] => false
  | c :: rest =>
    (!isGap c && !isBreak c && !("-?:,[]\x7b\x7d#&*!|>'\"%@\x60".toList.contains c))
      || (!atGap rest && (c == '-' || (!inFlow && (c == '?' || c == ':'))))

/-- Reads the token that stands here. -/
def fetch (l : Lexer) : Except Fault Lexer :=
  let s := l.source
  let block (folded : Bool) : Except Fault Lexer := do
    let l ← { l with allowKey := true }.forgetKey
    let (text, source) ← blockScalar folded l.indent l.source
    return { l.push (.scalar text false) with source }
  let quoted (double : Bool) : Except Fault Lexer :=
    l.mayBeKey fun s ↦ do
      let (text, after) ← quotedScalar double s
      return (.scalar text false, after)
  let plain : Except Fault Lexer :=
    if startsPlain l.inFlow s.rest then do
      let l ← l.rememberKey
      let (text, source, broke) := plainScalar l.inFlow (l.indent + 1) l.source
      return { l.push (.scalar text true) with allowKey := broke, source }
    else l.fail .tokenStart
  match s.rest with
  | [] => .ok l
  | c :: rest =>
    if c == '%' && s.column == 0 then do
      let l ← l.boundary
      let (d, source) ← directive l.source
      return { l.push (.directive d) with source }
    else if (c == '-' || c == '.') && s.column == 0 && atMarker s.rest then do
      let l ← l.boundary
      return { l.push (if c == '-' then .documentStart else .documentEnd) with
        source := l.source.drop 3 }
    else if c == '[' then l.openFlow .flowSequenceStart
    else if c == '\x7b' then l.openFlow .flowMappingStart
    else if c == ']' then l.closeFlow .flowSequenceEnd
    else if c == '\x7d' then l.closeFlow .flowMappingEnd
    else if c == ',' then l.flowEntry
    else if c == '-' && atGap rest then l.blockEntry
    else if c == '?' && (l.inFlow || atGap rest) then l.explicitKey
    else if c == ':' && (l.inFlow || atGap rest) then l.value
    else if c == '*' then l.mayBeKey fun s ↦ do
      let (name, after) ← anchorName s
      return (.alias name, after)
    else if c == '&' then l.mayBeKey fun s ↦ do
      let (name, after) ← anchorName s
      return (.anchor name, after)
    else if c == '!' then l.mayBeKey tag
    else if c == '|' && !l.inFlow then block false
    else if c == '>' && !l.inFlow then block true
    else if c == '\'' then quoted false
    else if c == '"' then quoted true
    else plain

/-! ## All tokens -/

/-- The number of tokens that are known: a key may begin before the others. -/
def known (l : Lexer) : Nat :=
  l.keys.foldl (fun n key ↦ match key with | some k => min n k.tokens | none => n) l.tokens.size

/-- Goes to the next token, closes what ends there, and reads it. None is left at the end of the
text, where everything ends. A token that runs into what cannot be read is none. -/
def advance (l : Lexer) : Except Fault (Lexer × Bool) := do
  let l := toToken (l.source.rest.length + 1) l
  if let some f := l.source.barrier? then throw f
  let l ← l.forgetStale
  let l := l.close l.source.column
  if l.source.rest.isEmpty then return (← (l.close (-1)).forgetKey, false)
  let l ← l.fetch
  match l.source.barrier? with
  | some f => throw f
  | none => return (l, true)

/-- The known tokens from here on and the fault after them. So many are known already. -/
def run : (fuel : Nat) → (found : Nat) → Lexer → List Token × Option Fault
  | 0, found, l => ((l.tokens.take found).toList, some (l.source.fault .tokenStart))
  | fuel + 1, found, l =>
    match l.forgetStale with
    | .error f => ((l.tokens.take found).toList, some f)
    | .ok l =>
      match l.advance with
      | .error f => ((l.tokens.take l.known).toList, some f)
      | .ok (l, false) => (l.tokens.toList, none)
      | .ok (after, true) => run fuel l.known after

end Lexer

/-- The known tokens of a text whose lines end in line feeds, and the fault after them. -/
def tokens (s : Source) : List Token × Option Fault :=
  Lexer.run (s.rest.length + 2) 0 (Lexer.ofSource s).skipMark

end CompletionServer.Yaml
