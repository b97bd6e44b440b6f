import CompletionServer.Proofs.Glob.Bracket
import CompletionServer.Proofs.Glob.Written

/-!
# Reading what is written

The reader of expressions finds the tokens of a pattern again in what is written for them, and every
token becomes one expression, `Advances.token`, whatever the reader makes of what follows. Enough
fuel is a condition on the length of what is left to read, `Parses`, so that it never has to be
counted.

A token ends where it was meant to end, since nothing is written that starts with an asterisk or a
question mark, `head?_written`: these would belong to what stands before them.
-/

namespace CompletionServer.Glob

/-! ## Expressions of tokens -/

/-- The expression that a token is read as, outside braces. -/
def Token.expr : Token → Expr
  | .deep => .alt (.seq (.many (.except '\n')) (.seq (.one (.one '/')) .empty)) .empty
  | .anything => .many (.except '\n')
  | .within => .many (.except '/')
  | .single => .one (.except '/')
  | .closing => .one (.one '\x7d')
  | .comma => .one (.one ',')
  | .bracket body => .one (classOf body)
  | .char c => .one (.one c)
  | .opening | .unclosed => .empty

/-! ## Sequences -/

/-- That a sequence is read from a text, with enough fuel, and `left` stays unread. -/
def Parses (s : List Char) (e : Expr) (left : List Char) : Prop :=
  ∀ fuel, 3 * s.length + 2 ≤ fuel → sequence fuel s = .ok (e, left)

/-- The same for alternatives. -/
def ParsesAll (s : List Char) (e : Expr) (left : List Char) : Prop :=
  ∀ fuel, 3 * s.length + 3 ≤ fuel → alternatives fuel s = .ok (e, left)

/-- That the reader of a sequence, with enough fuel, goes on with `rest` and puts `first` before
what it reads there, whatever this is and even if it is nothing. -/
def Advances (s : List Char) (first : Expr) (rest : List Char) : Prop :=
  ∀ fuel, 3 * s.length + 2 ≤ fuel → ∃ fuel', 3 * rest.length + 2 ≤ fuel' ∧
    sequence fuel s = do
      let (others, left) ← sequence fuel' rest
      return (.seq first others, left)

theorem parses_nil : Parses [] .empty [] := by
  intro fuel hfuel
  obtain ⟨fuel, rfl⟩ : ∃ k, fuel = k + 1 := Nat.exists_eq_add_one.mpr (by omega)
  rw [sequence]

theorem parses_closing (rest : List Char) : Parses (')' :: rest) .empty (')' :: rest) := by
  intro fuel hfuel
  obtain ⟨fuel, rfl⟩ : ∃ k, fuel = k + 1 := Nat.exists_eq_add_one.mpr (by omega)
  rw [sequence]

theorem parses_bar (rest : List Char) : Parses ('|' :: rest) .empty ('|' :: rest) := by
  intro fuel hfuel
  obtain ⟨fuel, rfl⟩ : ∃ k, fuel = k + 1 := Nat.exists_eq_add_one.mpr (by omega)
  rw [sequence]

theorem Parses.of_advances {s rest left : List Char} {first e : Expr}
    (hadvances : Advances s first rest) (h : Parses rest e left) :
    Parses s (.seq first e) left := by
  intro fuel hfuel
  obtain ⟨fuel', hfuel', hsequence⟩ := hadvances fuel hfuel
  rw [hsequence, h fuel' hfuel']
  rfl

/-- A class that is taken once. -/
theorem Advances.one {s rest : List Char} {k : CharClass}
    (hstep : ∀ fuel, sequence (fuel + 1) s = atom fuel k rest) (hlen : rest.length < s.length)
    (hstar : rest.head? ≠ some '*') : Advances s (.one k) rest := by
  intro fuel hfuel
  obtain ⟨fuel, rfl⟩ : ∃ k, fuel = k + 2 := Nat.exists_eq_add_of_le' (by omega)
  have hrep : repeated k rest = (.one k, rest) := by
    unfold repeated
    split
    · exact absurd rfl hstar
    · rfl
  exact ⟨fuel, by omega, by rw [hstep, atom, hrep]⟩

/-- A class that any number of characters may be taken from. -/
theorem Advances.many {s rest : List Char} {k : CharClass}
    (hstep : ∀ fuel, sequence (fuel + 1) s = atom fuel k ('*' :: rest))
    (hlen : rest.length < s.length) : Advances s (.many k) rest := by
  intro fuel hfuel
  obtain ⟨fuel, rfl⟩ : ∃ k, fuel = k + 2 := Nat.exists_eq_add_of_le' (by omega)
  exact ⟨fuel, by omega, by rw [hstep, atom, repeated]⟩

/-- A group, with everything up to the parenthesis that closes it. -/
theorem Advances.group {s rest : List Char} {inner : Expr}
    (hinner : ParsesAll s inner (')' :: rest)) (hlen : rest.length ≤ s.length)
    (hopt : rest.head? ≠ some '?') : Advances ('(' :: '?' :: ':' :: s) inner rest := by
  intro fuel hfuel
  rw [List.length_cons, List.length_cons, List.length_cons] at hfuel
  obtain ⟨fuel, rfl⟩ : ∃ k, fuel = k + 1 := Nat.exists_eq_add_one.mpr (by omega)
  refine ⟨fuel, by omega, ?_⟩
  rw [sequence, hinner fuel (by omega)]
  dsimp only [bind, Except.bind]
  split
  · next rest heq => exact absurd (congrArg (fun l ↦ l.tail.head?) heq) hopt
  · next heq =>
    obtain ⟨-, rfl⟩ := List.cons.inj heq
    rfl
  · next hne => exact absurd rfl (hne rest)

/-- A group that may be missing. -/
theorem Advances.optional {s rest : List Char} {inner : Expr}
    (hinner : ParsesAll s inner (')' :: '?' :: rest)) (hlen : rest.length ≤ s.length) :
    Advances ('(' :: '?' :: ':' :: s) (.alt inner .empty) rest := by
  intro fuel hfuel
  rw [List.length_cons, List.length_cons, List.length_cons] at hfuel
  obtain ⟨fuel, rfl⟩ : ∃ k, fuel = k + 1 := Nat.exists_eq_add_one.mpr (by omega)
  refine ⟨fuel, by omega, ?_⟩
  rw [sequence, hinner fuel (by omega)]
  rfl

/-- The last of some alternatives. -/
theorem ParsesAll.last {s left : List Char} {e : Expr} (h : Parses s e left)
    (hbar : left.head? ≠ some '|') : ParsesAll s e left := by
  intro fuel hfuel
  obtain ⟨fuel, rfl⟩ : ∃ k, fuel = k + 1 := Nat.exists_eq_add_one.mpr (by omega)
  rw [alternatives, h fuel (by omega)]
  dsimp only [bind, Except.bind]
  split
  · exact absurd rfl hbar
  · rfl

/-- One of several alternatives, and the others. -/
theorem ParsesAll.more {s rest left : List Char} {e f : Expr} (h : Parses s e ('|' :: rest))
    (hlen : rest.length < s.length) (hrest : ParsesAll rest f left) :
    ParsesAll s (.alt e f) left := by
  intro fuel hfuel
  obtain ⟨fuel, rfl⟩ : ∃ k, fuel = k + 1 := Nat.exists_eq_add_one.mpr (by omega)
  rw [alternatives, h fuel (by omega)]
  simp only [bind, Except.bind, hrest fuel (by omega)]
  rfl

/-! ## Tokens -/

/-- A character that stands for itself is read as itself, escaped or not. -/
theorem sequence_literal (c : Char) (rest : List Char) (fuel : ℕ) :
    sequence (fuel + 1) (literal c ++ rest) = atom fuel (.one c) rest := by
  by_cases h : isSpecial c = true
  · rw [literal, if_pos h]
    change sequence (fuel + 1) ('\\' :: c :: rest) = _
    rw [sequence]
  · rw [literal, if_neg h]
    change sequence (fuel + 1) (c :: rest) = _
    have hne (d : Char) (hd : isSpecial d = true) : c ≠ d := fun hcd ↦ h (hcd ▸ hd)
    rw [sequence]
    · exact hne '|' (by decide)
    · exact hne ')' (by decide)
    · exact fun _ hcd ↦ absurd hcd (hne '(' (by decide))
    · exact hne '.' (by decide)
    · exact hne '[' (by decide)
    · exact fun _ _ hcd ↦ absurd hcd (hne '\\' (by decide))

theorem length_literal_pos (c : Char) : 0 < (literal c).length := by
  unfold literal
  split
  · exact Nat.succ_pos 1
  · exact Nat.succ_pos 0

theorem sequence_class {inner rest : List Char} {k : CharClass}
    (h : classBody inner = .ok (k, rest)) (fuel : ℕ) :
    sequence (fuel + 1) ('[' :: inner) = atom fuel k rest := by
  rw [sequence, h]
  rfl

/-- The class of all characters of a segment. -/
theorem classBody_segment (rest : List Char) :
    classBody ('^' :: '/' :: ']' :: rest) = .ok (.except '/', rest) := rfl

theorem Advances.literal {rest : List Char} (c : Char) (hstar : rest.head? ≠ some '*') :
    Advances (Glob.literal c ++ rest) (.one (.one c)) rest := by
  have hpos := length_literal_pos c
  exact .one (sequence_literal c rest) (by rw [List.length_append]; omega) hstar

/-- The group of leading segments. -/
theorem Advances.deep (rest : List Char) :
    Advances (Token.deep.written ++ rest) Token.deep.expr rest := by
  have hslash : Parses ('/' :: ')' :: '?' :: rest) (.seq (.one (.one '/')) .empty)
      (')' :: '?' :: rest) :=
    .of_advances (.literal '/' (by simp)) (parses_closing ('?' :: rest))
  have hinner : Parses ('.' :: '*' :: '/' :: ')' :: '?' :: rest)
      (.seq (.many (.except '\n')) (.seq (.one (.one '/')) .empty)) (')' :: '?' :: rest) :=
    .of_advances (.many (sequence_dot _) (by simp)) hslash
  have hlen : rest.length ≤ ('.' :: '*' :: '/' :: ')' :: '?' :: rest).length := by
    simp only [List.length_cons]
    omega
  exact .optional (.last hinner (by simp)) hlen

/-- A token is read as its expression, if nothing that follows it belongs to it. -/
theorem Advances.token {depth : ℕ} {t : Token} {rest : List Char} (hatom : t.IsAtom depth)
    (horder : t.InOrder) (hstar : rest.head? ≠ some '*') :
    Advances (t.written ++ rest) t.expr rest := by
  cases t with
  | opening => cases hatom
  | unclosed => cases horder
  | deep => exact .deep rest
  | anything =>
    have hlen : rest.length < ('.' :: '*' :: rest).length := by
      simp only [List.length_cons]
      omega
    exact .many (sequence_dot _) hlen
  | within =>
    have hlen : rest.length < ('[' :: '^' :: '/' :: ']' :: '*' :: rest).length := by
      simp only [List.length_cons]
      omega
    exact .many (sequence_class (classBody_segment _)) hlen
  | single =>
    have hlen : rest.length < ('[' :: '^' :: '/' :: ']' :: rest).length := by
      simp only [List.length_cons]
      omega
    exact .one (sequence_class (classBody_segment _)) hlen hstar
  | closing => exact .literal '\x7d' hstar
  | comma => exact .literal ',' hstar
  | char c => exact .literal c hstar
  | bracket body =>
    obtain ⟨hclosed, hsound⟩ := horder
    obtain ⟨inner, hinner, hclass⟩ := classBody_bracket hclosed hsound rest
    have hpos : 0 < (Glob.bracket body).length := Nat.succ_pos _
    have hlen : rest.length < (Glob.bracket body ++ rest).length := by
      rw [List.length_append]
      omega
    refine .one (fun fuel ↦ ?_) hlen hstar
    change sequence _ (Glob.bracket body ++ rest) = _
    rw [hinner, sequence_class hclass]

/-- What is written for a character does not belong to what stands before it. -/
theorem head?_literal_append {c d : Char} (hd : isSpecial d = true) (hslash : d ≠ '\\')
    (rest : List Char) : (literal c ++ rest).head? ≠ some d := by
  unfold literal
  split
  · simpa using Ne.symm hslash
  · next hc =>
    have hne : c ≠ d := fun hcd ↦ hc (hcd ▸ hd)
    simpa using hne

/-- Nothing that is written starts with a sign that would belong to what stands before it. -/
theorem head?_written {d : Char} (hd : d = '*' ∨ d = '?') (depth : ℕ) {ts : List Token}
    (hclosed : .unclosed ∉ ts) : (written depth ts).head? ≠ some d := by
  have hspecial : isSpecial d = true := by rcases hd with rfl | rfl <;> decide
  have hne : ∀ c ∈ ['(', '.', '[', ')', '|', '\\'], c ≠ d := by
    rcases hd with rfl | rfl <;> simp
  have hliteral (c : Char) (rest : List Char) : (literal c ++ rest).head? ≠ some d :=
    head?_literal_append hspecial (Ne.symm (hne '\\' (by simp))) rest
  have hcons {c : Char} (hc : c ∈ ['(', '.', '[', ')', '|', '\\']) (rest : List Char) :
      (c :: rest).head? ≠ some d := by
    simpa using hne c hc
  cases ts with
  | nil => simp [written]
  | cons t ts =>
    cases t with
    | unclosed => exact absurd List.mem_cons_self hclosed
    | opening => exact hcons (c := '(') (by simp) _
    | closing =>
      cases depth with
      | zero => exact hliteral _ _
      | succ depth => exact hcons (c := ')') (by simp) _
    | comma =>
      cases depth with
      | zero => exact hliteral _ _
      | succ depth => exact hcons (c := '|') (by simp) _
    | deep =>
      rw [written_atom (t := .deep) trivial]
      exact hcons (c := '(') (by simp) _
    | anything =>
      rw [written_atom (t := .anything) trivial]
      exact hcons (c := '.') (by simp) _
    | within =>
      rw [written_atom (t := .within) trivial]
      exact hcons (c := '[') (by simp) _
    | single =>
      rw [written_atom (t := .single) trivial]
      exact hcons (c := '[') (by simp) _
    | bracket body =>
      rw [written_atom (t := .bracket body) trivial]
      exact hcons (c := '[') (by simp) _
    | char c =>
      rw [written_atom (t := .char c) trivial]
      exact hliteral _ _

end CompletionServer.Glob
