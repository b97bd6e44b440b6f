/-!
# Path expressions

A pattern for paths is read as an expression over classes of characters: one character of a class,
any number of them, a sequence, an alternative. `Expr.accepts` decides whether an expression accepts
a whole text. It does not search: it carries the set of positions that some match of the part so far
can end at, as one mark per position, so its work is the size of the expression times the length of
the text.
-/

namespace CompletionServer.Glob

/-! ## Classes of characters -/

/-- A member of a class: one character, or all from `low` to `high`. -/
inductive Member where
  | single (c : Char)
  | range (low high : Char)
deriving DecidableEq, Repr

def Member.has (c : Char) : Member → Bool
  | .single d => c == d
  | .range low high => low ≤ c && c ≤ high

/-- The characters that are members, or all others. -/
structure CharClass where
  negated : Bool
  members : List Member
deriving DecidableEq, Repr

namespace CharClass

def has (k : CharClass) (c : Char) : Bool := k.members.any (Member.has c) != k.negated

/-- A single character. -/
def one (c : Char) : CharClass := ⟨false, [.single c]⟩

/-- Every character but one. -/
def except (c : Char) : CharClass := ⟨true, [.single c]⟩

@[simp] theorem has_one (c d : Char) : (one c).has d = (d == c) := by
  simp [has, one, Member.has]

@[simp] theorem has_except (c d : Char) : (except c).has d = (d != c) := by
  simp [has, except, Member.has, bne]

end CharClass

/-! ## Expressions -/

/-- What a text may look like. -/
inductive Expr where
  | empty
  | one (k : CharClass)
  | many (k : CharClass)
  | seq (first second : Expr)
  | alt (first second : Expr)
deriving DecidableEq, Repr

/-- The texts that an expression accepts. -/
inductive Expr.Accepts : Expr → List Char → Prop where
  | empty : Accepts .empty []
  | one {k : CharClass} {c : Char} (h : k.has c = true) : Accepts (.one k) [c]
  | many {k : CharClass} {s : List Char} (h : ∀ c ∈ s, k.has c = true) : Accepts (.many k) s
  | seq {e f : Expr} {s t : List Char} (hs : Accepts e s) (ht : Accepts f t) :
      Accepts (.seq e f) (s ++ t)
  | altLeft {e f : Expr} {s : List Char} (h : Accepts e s) : Accepts (.alt e f) s
  | altRight {e f : Expr} {s : List Char} (h : Accepts f s) : Accepts (.alt e f) s

/-! ## Marked positions

A list of marks goes with a text: the first mark is for its start, and each character is followed by
one more. -/

/-- The marks moved over one character of a class. -/
def shift (k : CharClass) (s : List Char) (marks : List Bool) : List Bool :=
  false :: List.zipWith (fun m c ↦ m && k.has c) marks s

/-- The marks moved over any number of characters of a class; `carried` is whether a match comes in
from the left. -/
def spread (k : CharClass) : (carried : Bool) → List Char → List Bool → List Bool
  | _, _, [] => []
  | carried, [], m :: _ => [carried || m]
  | carried, c :: s, m :: marks => (carried || m) :: spread k ((carried || m) && k.has c) s marks

/-- The positions where a match of `e` can end that starts at a marked position. -/
def Expr.ends (s : List Char) : Expr → List Bool → List Bool
  | .empty, marks => marks
  | .one k, marks => shift k s marks
  | .many k, marks => spread k false s marks
  | .seq e f, marks => f.ends s (e.ends s marks)
  | .alt e f, marks => List.zipWith (· || ·) (e.ends s marks) (f.ends s marks)

/-- The marks with the start of the text alone. -/
def startMarks (s : List Char) : List Bool := true :: List.replicate s.length false

/-- Whether the expression accepts the whole text. -/
def Expr.accepts (e : Expr) (s : List Char) : Bool :=
  ((e.ends s (startMarks s)).getLast?).getD false

end CompletionServer.Glob
