import CompletionServer.Glob.Expression

/-!
# The notation of path expressions

The written form of the expressions that patterns stand for: `.` for every character but a line
feed, bracketed classes, `*` after a class for any number of its characters, `(?:` and `)` around
alternatives with `|` between them, `?` after a group that may be missing, and a backslash before a
character that stands for itself.

A bracket right after the opening one, or after its `^`, does not close a class: it is a member.
-/

namespace CompletionServer.Glob

/-- What is wrong with a written expression. -/
inductive Defect where
  | unterminatedClass
  | badRange (low high : List Char)
  | missingParenthesis
  | unbalancedParenthesis
deriving DecidableEq, Repr

/-- A defect with `left` characters unread. -/
structure Stop where
  defect : Defect
  left : Nat
deriving DecidableEq, Repr

/-! ## Classes -/

/-- A character of a class with its written form. -/
def classChar (c : Char) (rest : List Char) : Char × List Char × List Char :=
  match c, rest with
  | '\\', d :: rest => (d, ['\\', d], rest)
  | c, rest => (c, [c], rest)

/-- The members of a class up to its closing bracket. `start` counts the characters left from the
opening bracket on, and `first` says that no member has been read. -/
def classMembers (start : Nat) :
    (fuel : Nat) → (first : Bool) → List Char → Except Stop (List Member × List Char)
  | 0, _, _ => .error ⟨.unterminatedClass, start⟩
  | _, _, [] => .error ⟨.unterminatedClass, start⟩
  | fuel + 1, first, c :: rest =>
    if c == ']' && !first then .ok ([], rest)
    else
      let (low, lowText, afterLow) := classChar c rest
      match afterLow with
      | ['-'] => .error ⟨.unterminatedClass, start⟩
      | '-' :: ']' :: rest => .ok ([.single low, .single '-'], rest)
      | '-' :: d :: rest' =>
        let (high, highText, afterHigh) := classChar d rest'
        if high < low then .error ⟨.badRange lowText highText, rest.length + 1⟩
        else do
          let (members, left) ← classMembers start fuel false afterHigh
          return (.range low high :: members, left)
      | afterLow => do
        let (members, left) ← classMembers start fuel false afterLow
        return (.single low :: members, left)

/-- A class, from the characters after its opening bracket. -/
def classBody (rest : List Char) : Except Stop (CharClass × List Char) := do
  let (negated, body) := match rest with
    | '^' :: body => (true, body)
    | body => (false, body)
  let (members, left) ← classMembers (rest.length + 1) (body.length + 1) true body
  return (⟨negated, members⟩, left)

/-! ## Expressions -/

/-- A class that any number of characters may be taken from, if `*` follows it. -/
def repeated (k : CharClass) : List Char → Expr × List Char
  | '*' :: rest => (.many k, rest)
  | rest => (.one k, rest)

mutual

/-- Alternatives, up to a closing parenthesis or the end. -/
def alternatives : (fuel : Nat) → List Char → Except Stop (Expr × List Char)
  | 0, s => .error ⟨.missingParenthesis, s.length⟩
  | fuel + 1, s => do
    let (first, rest) ← sequence fuel s
    match rest with
    | '|' :: rest =>
      let (others, left) ← alternatives fuel rest
      return (.alt first others, left)
    | rest => return (first, rest)

/-- A sequence, up to a bar, a closing parenthesis or the end. -/
def sequence : (fuel : Nat) → List Char → Except Stop (Expr × List Char)
  | 0, s => .error ⟨.missingParenthesis, s.length⟩
  | fuel + 1, s =>
    match s with
    | [] => .ok (.empty, [])
    | '|' :: rest => .ok (.empty, '|' :: rest)
    | ')' :: rest => .ok (.empty, ')' :: rest)
    | '(' :: '?' :: ':' :: rest => do
      let (inner, rest) ← alternatives fuel rest
      match rest with
      | ')' :: '?' :: rest =>
        let (others, left) ← sequence fuel rest
        return (.seq (.alt inner .empty) others, left)
      | ')' :: rest =>
        let (others, left) ← sequence fuel rest
        return (.seq inner others, left)
      | _ => .error ⟨.missingParenthesis, s.length⟩
    | '.' :: rest => atom fuel (.except '\n') rest
    | '[' :: rest => do
      let (k, rest) ← classBody rest
      atom fuel k rest
    | '\\' :: c :: rest => atom fuel (.one c) rest
    | c :: rest => atom fuel (.one c) rest

/-- A class, repeated or not, and the rest of its sequence. -/
def atom : (fuel : Nat) → CharClass → List Char → Except Stop (Expr × List Char)
  | 0, _, s => .error ⟨.missingParenthesis, s.length⟩
  | fuel + 1, k, s => do
    let (first, rest) := repeated k s
    let (others, left) ← sequence fuel rest
    return (.seq first others, left)

end

theorem sequence_dot (rest : List Char) (fuel : Nat) :
    sequence (fuel + 1) ('.' :: rest) = atom fuel (.except '\n') rest := by
  rw [sequence]

/-- The expression that a text writes. No character takes more than three steps of fuel. -/
def expression (s : List Char) : Except Stop Expr := do
  let (e, rest) ← alternatives (3 * s.length + 3) s
  match rest with
  | [] => return e
  | rest => .error ⟨.unbalancedParenthesis, rest.length⟩

end CompletionServer.Glob
