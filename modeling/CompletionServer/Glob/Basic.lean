import CompletionServer.Glob.Notation
import CompletionServer.Text.Place

/-!
# Glob patterns

A pattern says which paths it accepts: `*` any part of one path segment, `**` any part of the path,
`**/` any number of leading segments, `?` one character within a segment, `{a,b}` one of several
patterns, and `[abc]`, `[a-z]` and `[!abc]` one character in or not in a class. Everything else
stands for itself.

A pattern is written out as a path expression and then read as one. A class body is carried over as
it stands, with a leading `!` as `^` and all backslashes escaped, so it is the notation of
expressions that says what a body means and where an empty one ends.
-/

namespace CompletionServer.Glob

/-- Why a text is no pattern. -/
inductive Error where
  | unclosedBracket
  | unclosedBrace
  | expression (d : Defect) (written : List Char) (position : Nat)
deriving DecidableEq, Repr

/-! ## Written expressions -/

/-- The characters with a meaning of their own in expressions, and the blanks of ASCII. -/
def isSpecial (c : Char) : Bool :=
  "()[]\x7b\x7d?*+-|^$\\.&~# \t\n\r\x0b\x0c".toList.contains c

/-- A character that stands for itself. -/
def literal (c : Char) : List Char := if isSpecial c then ['\\', c] else [c]

/-- A class with the body of a pattern's bracket. -/
def bracket (body : List Char) : List Char :=
  let escaped := body.flatMap fun c ↦ if c == '\\' then ['\\', '\\'] else [c]
  let marked := match escaped with
    | '!' :: rest => '^' :: rest
    | '^' :: rest => '\\' :: '^' :: rest
    | body => body
  '[' :: marked ++ [']']

/-- The expression for a pattern, inside `depth` braces and, if `body` is given, inside a bracket
with that much of its body read. -/
def spelledFrom : (depth : Nat) → (body : Option (List Char)) → List Char →
    Except Error (List Char)
  | _, some _, [] => .error .unclosedBracket
  | depth, some body, c :: rest =>
    if c == ']' then return bracket body ++ (← spelledFrom depth none rest)
    else spelledFrom depth (some (body ++ [c])) rest
  | 0, none, [] => .ok []
  | _ + 1, none, [] => .error .unclosedBrace
  | depth, none, '*' :: '*' :: '/' :: rest =>
    return "(?:.*/)?".toList ++ (← spelledFrom depth none rest)
  | depth, none, '*' :: '*' :: rest => return ".*".toList ++ (← spelledFrom depth none rest)
  | depth, none, '*' :: rest => return "[^/]*".toList ++ (← spelledFrom depth none rest)
  | depth, none, '?' :: rest => return "[^/]".toList ++ (← spelledFrom depth none rest)
  | depth, none, '\x7b' :: rest => return "(?:".toList ++ (← spelledFrom (depth + 1) none rest)
  | depth + 1, none, '\x7d' :: rest => return ')' :: (← spelledFrom depth none rest)
  | depth + 1, none, ',' :: rest => return '|' :: (← spelledFrom (depth + 1) none rest)
  | depth, none, '[' :: rest => spelledFrom depth (some []) rest
  | depth, none, c :: rest => return literal c ++ (← spelledFrom depth none rest)

/-- The written expression for a pattern. -/
def spelled (pattern : List Char) : Except Error (List Char) := spelledFrom 0 none pattern

/-! ## Patterns -/

/-- The expression that a pattern stands for. -/
def compile (pattern : List Char) : Except Error Expr := do
  let written ← spelled pattern
  (expression written).mapError fun stop ↦
    .expression stop.defect written (Text.placeOf written stop.left)

/-- Whether a pattern accepts a path. -/
def accepts (pattern path : List Char) : Except Error Bool :=
  return (← compile pattern).accepts path

theorem accepts_of_compile {pattern : List Char} {e : Expr} (h : compile pattern = .ok e)
    (path : List Char) : accepts pattern path = .ok (e.accepts path) := by
  rw [accepts, h]
  rfl

/-! ## Wording -/

def Defect.message : Defect → String
  | .unterminatedClass => "unterminated character set"
  | .badRange low high => s!"bad character range {String.ofList low}-{String.ofList high}"
  | .missingParenthesis => "missing ), unterminated subpattern"
  | .unbalancedParenthesis => "unbalanced parenthesis"

/-- The place of a defect, with its line if the expression has several. -/
def placeText (written : List Char) (position : Nat) : String :=
  let lines :=
    if written.contains '\n' then
      let (line, column) := Text.lineColumn (written.take position)
      s!" (line {line}, column {column})"
    else ""
  s!"at position {position}" ++ lines

/-- The message about a pattern that is none. -/
def Error.message (pattern : List Char) : Error → String
  | .unclosedBracket => "Unclosed '[' in glob pattern: " ++ String.ofList pattern
  | .unclosedBrace => "Unclosed '\x7b' in glob pattern: " ++ String.ofList pattern
  | .expression d written position =>
    s!"Invalid glob pattern {String.ofList pattern}: {d.message} {placeText written position}"

end CompletionServer.Glob
