import CompletionServer.Glob.Basic
import Mathlib.Computability.Language

/-!
# The language of a pattern

What a pattern means, without any path expression: a pattern is cut into tokens from left to right,
each token stands for a set of texts, and tokens that follow each other stand for the texts that are
put together from theirs. A group in braces stands for the union of its alternatives. While a group
is open, what was read before it waits, `OpenGroup`, so that groups may be nested to any depth.

A pattern is well formed if every bracket is closed and has a body with ascending ranges, and every
brace is closed. Braces that close nothing and commas outside braces stand for themselves.
-/

namespace CompletionServer.Glob

/-! ## Tokens -/

/-- A part of a pattern. -/
inductive Token where
  /-- Two asterisks and a slash. -/
  | deep
  /-- Two asterisks. -/
  | anything
  /-- One asterisk. -/
  | within
  /-- A question mark. -/
  | single
  | opening
  | closing
  | comma
  /-- A bracket with what stands in it. -/
  | bracket (body : List Char)
  /-- A bracket that is never closed. -/
  | unclosed
  | char (c : Char)
deriving DecidableEq, Repr

/-- The tokens of a pattern, inside a bracket if `body` is given, with that much of its body
read. -/
def tokensFrom : (body : Option (List Char)) → List Char → List Token
  | some _, [] => [.unclosed]
  | some body, c :: rest =>
    if c = ']' then .bracket body :: tokensFrom none rest else tokensFrom (some (body ++ [c])) rest
  | none, [] => []
  | none, '*' :: '*' :: '/' :: rest => .deep :: tokensFrom none rest
  | none, '*' :: '*' :: rest => .anything :: tokensFrom none rest
  | none, '*' :: rest => .within :: tokensFrom none rest
  | none, '?' :: rest => .single :: tokensFrom none rest
  | none, '\x7b' :: rest => .opening :: tokensFrom none rest
  | none, '\x7d' :: rest => .closing :: tokensFrom none rest
  | none, ',' :: rest => .comma :: tokensFrom none rest
  | none, '[' :: rest => tokensFrom (some []) rest
  | none, c :: rest => .char c :: tokensFrom none rest

/-- The tokens of a pattern. -/
def tokens (pattern : List Char) : List Token := tokensFrom none pattern

/-! ## Brackets -/

/-- Whether a character is one of those that are listed, or in one of the ranges. -/
def isListed (c : Char) : List Char → Bool
  | low :: '-' :: high :: rest => (low ≤ c && c ≤ high) || isListed c rest
  | d :: rest => c == d || isListed c rest
  | [] => false

/-- Whether no range starts after its end. -/
def isAscending : List Char → Bool
  | low :: '-' :: high :: rest => low ≤ high && isAscending rest
  | _ :: rest => isAscending rest
  | [] => true

/-- Whether a bracket with this body accepts a character. -/
def bracketHas (c : Char) : (body : List Char) → Bool
  | '!' :: rest => !isListed c rest
  | body => isListed c body

/-- Whether something is listed between brackets, in ascending ranges. -/
def isSoundBody : (body : List Char) → Bool
  | '!' :: rest => !rest.isEmpty && isAscending rest
  | body => !body.isEmpty && isAscending body

/-! ## Well-formed patterns -/

/-- Whether a token may stand in a well-formed pattern. -/
def Token.isSound : Token → Bool
  | .unclosed => false
  | .bracket body => isSoundBody body
  | _ => true

/-- The number of braces that are open after tokens. A brace that closes nothing changes nothing. -/
def depthAfter : (depth : ℕ) → List Token → ℕ
  | depth, [] => depth
  | depth, .opening :: ts => depthAfter (depth + 1) ts
  | depth, .closing :: ts => depthAfter (depth - 1) ts
  | depth, _ :: ts => depthAfter depth ts

/-- A pattern in which all brackets and braces are in order. -/
structure WellFormed (pattern : List Char) : Prop where
  sound : ∀ t ∈ tokens pattern, t.isSound = true
  closed : depthAfter 0 (tokens pattern) = 0

instance (pattern : List Char) : Decidable (WellFormed pattern) :=
  decidable_of_iff
    ((∀ t ∈ tokens pattern, t.isSound = true) ∧ depthAfter 0 (tokens pattern) = 0)
    ⟨fun h ↦ ⟨h.1, h.2⟩, fun h ↦ ⟨h.1, h.2⟩⟩

/-! ## Languages -/

/-- The texts that a token stands for, outside braces. -/
def Token.language : Token → Language Char
  | .deep => {s | s = [] ∨ ∃ t, s = t ++ ['/']}
  | .anything => {_s | True}
  | .within => {s | '/' ∉ s}
  | .single => {s | ∃ c, c ≠ '/' ∧ s = [c]}
  | .opening => {['\x7b']}
  | .closing => {['\x7d']}
  | .comma => {[',']}
  | .bracket body => {s | ∃ c, bracketHas c body = true ∧ s = [c]}
  | .unclosed => 0
  | .char c => {[c]}

/-- A group that is not closed yet: the texts that what stands before it accepts, and the union of
the alternatives that are complete. -/
structure OpenGroup where
  before : Language Char
  alternatives : Language Char

/-- The texts that a pattern accepts, from those that the part which was read accepts: since the
last comma or brace inside the innermost of the open groups, or since the start. -/
def languageFrom : (groups : List OpenGroup) → (read : Language Char) → List Token → Language Char
  | _, read, [] => read
  | groups, read, .opening :: ts => languageFrom (⟨read, 0⟩ :: groups) 1 ts
  | g :: groups, read, .closing :: ts =>
    languageFrom groups (g.before * (g.alternatives + read)) ts
  | g :: groups, read, .comma :: ts =>
    languageFrom (⟨g.before, g.alternatives + read⟩ :: groups) 1 ts
  | groups, read, t :: ts => languageFrom groups (read * t.language) ts

/-- The texts that a pattern accepts. -/
def language (pattern : List Char) : Language Char := languageFrom [] 1 (tokens pattern)

end CompletionServer.Glob
