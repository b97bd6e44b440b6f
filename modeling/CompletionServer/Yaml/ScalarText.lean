import CompletionServer.Text.Digit
import CompletionServer.Yaml.Source

/-!
# The text of scalars

A scalar is plain, quoted or a block. In all of them line ends are folded or kept by rules that this
module states: inside plain and quoted scalars a single line end counts as a space and of several
the first does not count; a block scalar keeps its lines or folds those that are not more indented.

The readers go forward by at least one character in each round, so the number of characters left
bounds their rounds.
-/

namespace CompletionServer.Yaml

open Text

/-- What a line end between two parts of a scalar counts for, and the line ends after it. -/
def foldBreak (first : Char) (others : List Char) : List Char :=
  if first != '\n' then first :: others
  else if others.isEmpty then [' ']
  else others

/-! ## Plain scalars -/

/-- Whether `c` ends a plain scalar inside a flow collection. -/
def endsInFlow (c : Char) : Bool := ",?[]\x7b\x7d".toList.contains c

/-- A stretch of a plain scalar without gaps. -/
def plainStretch (inFlow : Bool) : List Char → List Char
  | [] => []
  | c :: rest =>
    let colonEnds := match rest with
      | [] => true
      | d :: _ => isGap d || isBreak d || (inFlow && ",[]\x7b\x7d".toList.contains d)
    if isGap c || isBreak c || (c == ':' && colonEnds) || (inFlow && endsInFlow c) then []
    else c :: plainStretch inFlow rest

/-- Line ends and spaces after the first line end of a gap; nothing if a document marker follows
one of them. -/
def plainBreaks : (fuel : Nat) → Source → Option (List Char) × Source
  | 0, s => (some [], s)
  | fuel + 1, s =>
    if s.rest.head? == some ' ' then plainBreaks fuel s.next
    else match s.lineBreak? with
      | none => (some [], s)
      | some (c, s) =>
        if atMarker s.rest then (none, s)
        else
          let (others, s) := plainBreaks fuel s
          (others.map (c :: ·), s)

/-- The gap after a stretch: what it counts for, the place after it, and whether a line ends in it.
-/
def plainGap (s : Source) : List Char × Source × Bool :=
  let (spaces, s) := s.span (· == ' ')
  match s.lineBreak? with
  | none => (spaces, s, false)
  | some (first, s) =>
    if atMarker s.rest then ([], s, true)
    else match plainBreaks (s.rest.length + 1) s with
      | (none, s) => ([], s, true)
      | (some others, s) => (foldBreak first others, s, true)

/-- The stretches of a plain scalar, the place after it, and whether a line ends right before that
place. `gap` is what the gap before this stretch counts for. -/
def plainFrom (inFlow : Bool) (indent : Int) :
    (fuel : Nat) → (gap : List Char) → (broke : Bool) → Source → List Char × Source × Bool
  | 0, _, broke, s => ([], s, broke)
  | fuel + 1, gap, broke, s =>
    let stretch := plainStretch inFlow s.rest
    if s.rest.head? == some '#' || stretch.isEmpty then ([], s, broke)
    else
      let (nextGap, after, broke) := plainGap (s.drop stretch.length)
      if nextGap.isEmpty || after.rest.head? == some '#' || (!inFlow && after.column < indent) then
        (gap ++ stretch, after, broke)
      else
        let (others, after, broke) := plainFrom inFlow indent fuel nextGap broke after
        (gap ++ stretch ++ others, after, broke)

/-- A plain scalar whose later lines are indented by at least `indent`. -/
def plainScalar (inFlow : Bool) (indent : Int) (s : Source) : List Point × Source × Bool :=
  let (text, after, broke) := plainFrom inFlow indent (s.rest.length + 1) [] false s
  (points text, after, broke)

/-! ## Quoted scalars -/

/-- The characters that escapes of one letter stand for. -/
def escapeOf? : Char → Option Char
  | '0' => some '\x00'
  | 'a' => some '\x07'
  | 'b' => some '\x08'
  | 't' => some '\t'
  | '\t' => some '\t'
  | 'n' => some '\n'
  | 'v' => some '\x0b'
  | 'f' => some '\x0c'
  | 'r' => some '\r'
  | 'e' => some '\x1b'
  | ' ' => some ' '
  | '"' => some '"'
  | '\\' => some '\\'
  | '/' => some '/'
  | 'N' => some '\x85'
  | '_' => some '\u00a0'
  | 'L' => some '\u2028'
  | 'P' => some '\u2029'
  | _ => none

/-- The number of digits of an escape by code point. -/
def escapeDigits? : Char → Option Nat
  | 'x' => some 2
  | 'u' => some 4
  | 'U' => some 8
  | _ => none

/-- The line ends after the first of a gap in a quoted scalar. -/
def quotedBreaks : (fuel : Nat) → Source → Except Fault (List Char × Source)
  | 0, s => .ok ([], s)
  | fuel + 1, s =>
    if atMarker s.rest then s.fail .documentMarker
    else
      let s := s.skip isGap
      match s.lineBreak? with
      | none => .ok ([], s)
      | some (c, s) => do
        let (others, s) ← quotedBreaks fuel s
        return (c :: others, s)

/-- An escape, from the character after the backslash. -/
def quotedEscape (s : Source) : Except Fault (List Point × Source) :=
  match s.rest with
  | [] => s.fail .unclosedQuote
  | c :: rest =>
    match escapeOf? c, escapeDigits? c with
    | some d, _ => .ok ([ .char d], s.next)
    | none, some count =>
      let digits := rest.take count
      match readDigits 16 hexDigit? digits with
      | none => s.fail .escape
      | some n =>
        if digits.length < count then s.fail .escape
        else if 0x110000 ≤ n then .error (.impossible (.codePoint n))
        else .ok ([ .ofNat n], s.drop (count + 1))
    | none, none =>
      match s.lineBreak? with
      | none => s.fail .escape
      | some (_, s) => do
        let (breaks, s) ← quotedBreaks (s.rest.length + 1) s
        return (points breaks, s)

/-- A gap in a quoted scalar. -/
def quotedGap (s : Source) : Except Fault (List Char × Source) := do
  let (gap, s) := s.span isGap
  match s.lineBreak? with
  | none => if s.rest.isEmpty then s.fail .unclosedQuote else return (gap, s)
  | some (first, s) =>
    let (others, s) ← quotedBreaks (s.rest.length + 1) s
    return (foldBreak first others, s)

/-- The rest of a quoted scalar. -/
def quotedFrom (double : Bool) : (fuel : Nat) → Source → Except Fault (List Point × Source)
  | 0, s => s.fail .unclosedQuote
  | fuel + 1, s =>
    match s.rest with
    | [] => s.fail .unclosedQuote
    | c :: rest => do
      if isGap c || isBreak c then
        let (gap, s) ← quotedGap s
        let (others, s) ← quotedFrom double fuel s
        return (points gap ++ others, s)
      else if double && c == '\\' then
        let (found, s) ← quotedEscape s.next
        let (others, s) ← quotedFrom double fuel s
        return (found ++ others, s)
      else if double && c == '"' then return ([], s.next)
      else if !double && c == '\'' then
        if rest.head? == some '\'' then
          let (others, s) ← quotedFrom double fuel (s.drop 2)
          return (.char '\'' :: others, s)
        else return ([], s.next)
      else
        let (others, s) ← quotedFrom double fuel s.next
        return (.char c :: others, s)

/-- A quoted scalar, from its opening quote. -/
def quotedScalar (double : Bool) (s : Source) : Except Fault (List Point × Source) :=
  quotedFrom double (s.rest.length + 1) s.next

/-! ## Block scalars -/

/-- What happens to the line ends at the end of a block scalar. -/
inductive Chomping where
  | strip
  | clip
  | keep
deriving DecidableEq, Repr

def chomping? : Char → Option Chomping
  | '+' => some .keep
  | '-' => some .strip
  | _ => none

/-- The digit of an indentation indicator, which is not zero. -/
def indentation? (s : Source) : Except Fault (Option Nat × Source) :=
  match s.rest.head?.bind asciiDigit? with
  | none => .ok (none, s)
  | some 0 => s.fail .blockHeader
  | some n => .ok (some n, s.next)

/-- The indicators after the sign of a block scalar, in either order. -/
def blockHeader (s : Source) : Except Fault (Chomping × Option Nat × Source) := do
  let (chomping, increment, s) ←
    match s.rest.head?.bind chomping? with
    | some chomping =>
      let (increment, s) ← indentation? s.next
      pure (chomping, increment, s)
    | none =>
      let (increment, s) ← indentation? s
      match increment, s.rest.head?.bind chomping? with
      | some _, some chomping => pure (chomping, increment, s.next)
      | _, _ => pure (Chomping.clip, increment, s)
  if atSpace s.rest then return (chomping, increment, s) else s.fail .blockHeader

/-- The place after the rest of a line, which may hold spaces and a comment only. -/
def skipLineRest (d : Defect) (s : Source) : Except Fault Source := do
  let s := (s.skip (· == ' ')).skipComment
  if !atLineEnd s.rest then s.fail d
  return match s.lineBreak? with
    | none => s
    | some (_, s) => s

/-- Empty lines before the first line of a block scalar, and the widest indentation among them and
that line. -/
def leadingBreaks : (fuel : Nat) → (widest : Nat) → Source → List Char × Nat × Source
  | 0, widest, s => ([], widest, s)
  | fuel + 1, widest, s =>
    if s.rest.head? == some ' ' then leadingBreaks fuel (max widest s.next.column) s.next
    else match s.lineBreak? with
      | none => ([], widest, s)
      | some (c, s) =>
        let (others, widest, s) := leadingBreaks fuel widest s
        (c :: others, widest, s)

/-- The place after spaces, as far as column `indent`. -/
def skipIndent (indent : Int) : (fuel : Nat) → Source → Source
  | 0, s => s
  | fuel + 1, s =>
    if s.column < indent && s.rest.head? == some ' ' then skipIndent indent fuel s.next else s

/-- Empty lines within a block scalar. -/
def blockBreaks (indent : Int) : (fuel : Nat) → Source → List Char × Source
  | 0, s => ([], s)
  | fuel + 1, s =>
    let s := skipIndent indent (s.rest.length + 1) s
    match s.lineBreak? with
    | none => ([], s)
    | some (c, s) =>
      let (others, s) := blockBreaks indent fuel s
      (c :: others, s)

/-- The lines of a block scalar: its text up to its last line, the line end after that, the empty
lines after that, and the place after them. `breaks` are the empty lines before this line. -/
def blockLines (folded : Bool) (indent : Int) :
    (fuel : Nat) → (breaks : List Char) → Source → List Char × List Char × List Char × Source
  | 0, breaks, s => ([], [], breaks, s)
  | fuel + 1, breaks, s =>
    if s.column != indent || s.rest.isEmpty then ([], [], breaks, s)
    else
      let startsFlush := !(s.rest.head?.map isGap).getD false
      let (line, s) := s.span fun c ↦ !isBreak c
      let (lineEnd, s) := match s.lineBreak? with
        | none => ([], s)
        | some (c, s) => ([c], s)
      let (nextBreaks, s) := blockBreaks indent (s.rest.length + 1) s
      if s.column == indent && !s.rest.isEmpty then
        let nextFlush := !(s.rest.head?.map isGap).getD false
        let joint :=
          if folded && lineEnd == ['\n'] && startsFlush && nextFlush then
            if nextBreaks.isEmpty then [' '] else []
          else lineEnd
        let (others, lastEnd, trailing, s) := blockLines folded indent fuel nextBreaks s
        (breaks ++ line ++ joint ++ others, lastEnd, trailing, s)
      else (breaks ++ line, lineEnd, nextBreaks, s)

/-- A block scalar, from its sign, inside a block collection indented by `parent`. -/
def blockScalar (folded : Bool) (parent : Int) (s : Source) :
    Except Fault (List Point × Source) := do
  let (chomping, increment, s) ← blockHeader s.next
  let s ← skipLineRest .blockHeader s
  let least := max 1 (parent + 1)
  let fuel := s.rest.length + 1
  let (indent, breaks, s) := match increment with
    | some n =>
      let indent := least + n - 1
      let (breaks, s) := blockBreaks indent fuel s
      (indent, breaks, s)
    | none =>
      let (breaks, widest, s) := leadingBreaks fuel 0 s
      (max least (widest : Int), breaks, s)
  let (text, lastEnd, trailing, s) := blockLines folded indent fuel breaks s
  let ending := match chomping with
    | .strip => []
    | .clip => lastEnd
    | .keep => lastEnd ++ trailing
  return (points (text ++ ending), s)

end CompletionServer.Yaml
