import CompletionServer.Proofs.Glob.Language

/-!
# What is written for a pattern

The written expression of a pattern is put together token by token, `spelledFrom_eq`, and there is
one exactly if all brackets and braces are closed. Only the tokens of braces look at the depth: a
comma or a closing brace means something inside braces and stands for itself outside.
-/

namespace CompletionServer.Glob

/-! ## Tokens in order -/

/-- A token that may be read again once it is written. -/
def Token.InOrder : Token → Prop
  | .unclosed => False
  | .bracket body => ']' ∉ body ∧ isSoundBody body = true
  | _ => True

/-- A bracket that is closed ends at the first closing bracket. -/
theorem closing_notMem_of_mem_tokensFrom {body : Option (List Char)} {text b : List Char}
    (hbody : ']' ∉ body.getD []) (h : .bracket b ∈ tokensFrom body text) : ']' ∉ b := by
  fun_induction tokensFrom body text with
  | case1 | case4 => simp at h
  | case2 read rest ih =>
    rcases List.mem_cons.mp h with h | h
    · cases h
      exact hbody
    · exact ih List.not_mem_nil h
  | case3 read c rest hc ih => exact ih (by simpa [Ne.symm hc] using hbody) h
  | case12 rest ih => exact ih List.not_mem_nil h
  | case5 rest ih | case6 rest _ ih | case7 rest _ _ ih | case8 rest ih | case9 rest ih
  | case10 rest ih | case11 rest ih | case13 c rest _ _ _ _ _ _ _ _ ih =>
    exact ih List.not_mem_nil ((List.mem_cons.mp h).resolve_left (by simp))

/-- The sound tokens of a pattern are in order. -/
theorem inOrder_of_isSound {pattern : List Char} {t : Token} (ht : t ∈ tokens pattern)
    (hsound : t.isSound = true) : t.InOrder := by
  cases t with
  | unclosed => cases hsound
  | bracket body => exact ⟨closing_notMem_of_mem_tokensFrom (by simp) ht, hsound⟩
  | _ => trivial

theorem WellFormed.inOrder {pattern : List Char} (h : WellFormed pattern) :
    ∀ t ∈ tokens pattern, t.InOrder :=
  fun t ht ↦ inOrder_of_isSound ht (h.sound t ht)

/-! ## Written tokens -/

/-- A token as it is written outside braces. -/
def Token.written : Token → List Char
  | .deep => "(?:.*/)?".toList
  | .anything => ".*".toList
  | .within => "[^/]*".toList
  | .single => "[^/]".toList
  | .opening => "(?:".toList
  | .closing => literal '\x7d'
  | .comma => literal ','
  | .bracket body => Glob.bracket body
  | .unclosed => []
  | .char c => literal c

/-- Tokens as they are written inside `depth` braces. -/
def written : (depth : ℕ) → List Token → List Char
  | _, [] => []
  | depth, .opening :: ts => Token.opening.written ++ written (depth + 1) ts
  | depth + 1, .closing :: ts => ')' :: written depth ts
  | depth + 1, .comma :: ts => '|' :: written (depth + 1) ts
  | depth, t :: ts => t.written ++ written depth ts

/-- A token that stands for itself inside `depth` braces, whatever comes before it. -/
def Token.IsAtom (depth : ℕ) : Token → Prop
  | .opening => False
  | .closing | .comma => depth = 0
  | _ => True

theorem written_atom {depth : ℕ} {t : Token} (ht : t.IsAtom depth) (ts : List Token) :
    written depth (t :: ts) = t.written ++ written depth ts := by
  cases depth <;> cases t <;> first | rfl | cases ht

theorem depthAfter_atom {depth : ℕ} {t : Token} (ht : t.IsAtom depth) (ts : List Token) :
    depthAfter depth (t :: ts) = depthAfter depth ts := by
  cases depth <;> cases t <;> first | rfl | cases ht

theorem languageFrom_atom {groups : List OpenGroup} {t : Token} (ht : t.IsAtom groups.length)
    (read : Language Char) (ts : List Token) :
    languageFrom groups read (t :: ts) = languageFrom groups (read * t.language) ts := by
  cases groups <;> cases t <;> first | rfl | cases ht

/-! ## Written patterns -/

/-- What is written for tokens inside `depth` braces, if their brackets and braces are closed. -/
def spelledAs (depth : ℕ) (ts : List Token) : Except Error (List Char) :=
  if .unclosed ∈ ts then .error .unclosedBracket
  else if depthAfter depth ts = 0 then .ok (written depth ts)
  else .error .unclosedBrace

/-- One token is written, and then the others. -/
theorem spelledAs_cons {depth d : ℕ} {t : Token} {ts : List Token} {w : List Char}
    (ht : t ≠ .unclosed) (hdepth : depthAfter depth (t :: ts) = depthAfter d ts)
    (hwritten : written depth (t :: ts) = w ++ written d ts) :
    spelledAs depth (t :: ts) = do return w ++ (← spelledAs d ts) := by
  have hmem : .unclosed ∈ t :: ts ↔ .unclosed ∈ ts := by
    rw [List.mem_cons, or_iff_right (Ne.symm ht)]
  unfold spelledAs
  simp only [hmem, hdepth, hwritten]
  split
  · rfl
  · split
    · rfl
    · rfl

theorem spelledAs_atom {depth : ℕ} {t : Token} (ht : t.IsAtom depth) (hclosed : t ≠ .unclosed)
    (ts : List Token) : spelledAs depth (t :: ts) = do return t.written ++ (← spelledAs depth ts) :=
  spelledAs_cons hclosed (depthAfter_atom ht ts) (written_atom ht ts)

/-- **The written expression of a pattern** is that of its tokens. -/
theorem spelledFrom_eq (depth : ℕ) (body : Option (List Char)) (text : List Char) :
    spelledFrom depth body text = spelledAs depth (tokensFrom body text) := by
  -- The cases are those of `tokensFrom`: 1 to 3 inside a bracket, 5 to 13 by what comes first.
  fun_induction tokensFrom body text generalizing depth with
  | case1 => rw [spelledFrom, spelledAs, if_pos List.mem_cons_self]
  | case2 read rest ih =>
    rw [spelledAs_atom (t := .bracket read) trivial nofun, ← ih, spelledFrom]
    rfl
  | case3 read c rest hc ih => rw [spelledFrom, if_neg (by simpa using hc), ih]
  | case4 =>
    cases depth with
    | zero => rfl
    | succ depth => rfl
  | case5 rest ih =>
    rw [spelledAs_atom (t := .deep) trivial nofun, ← ih, spelledFrom]
    rfl
  | case6 rest hdeep ih =>
    rw [spelledAs_atom (t := .anything) trivial nofun, ← ih, spelledFrom]
    · rfl
    · exact hdeep
  | case7 rest hdeep hany ih =>
    rw [spelledAs_atom (t := .within) trivial nofun, ← ih, spelledFrom]
    · rfl
    · exact hdeep
    · exact hany
  | case8 rest ih =>
    rw [spelledAs_atom (t := .single) trivial nofun, ← ih, spelledFrom]
    rfl
  | case9 rest ih =>
    rw [spelledAs_cons (t := .opening) (d := depth + 1) nofun rfl rfl, ← ih, spelledFrom]
    rfl
  -- A closing brace or a comma is a literal at depth zero and a sign of its group below.
  | case10 rest ih =>
    cases depth with
    | zero =>
      rw [spelledAs_atom (t := .closing) rfl nofun, ← ih, spelledFrom] <;> first | rfl | simp
    | succ depth =>
      rw [spelledAs_cons (t := .closing) (d := depth) nofun rfl rfl (w := [')']), ← ih,
        spelledFrom]
      rfl
  | case11 rest ih =>
    cases depth with
    | zero =>
      rw [spelledAs_atom (t := .comma) rfl nofun, ← ih, spelledFrom] <;> first | rfl | simp
    | succ depth =>
      rw [spelledAs_cons (t := .comma) (d := depth + 1) nofun rfl rfl (w := ['|']), ← ih,
        spelledFrom]
      rfl
  | case12 rest ih => rw [spelledFrom, ih]
  | case13 c rest hdeep hany hstar hsingle hopening hclosing hcomma hbracket ih =>
    rw [spelledAs_atom (t := .char c) trivial nofun, ← ih,
      spelledFrom.eq_13 depth c rest hdeep hany hstar hsingle hopening hbracket
        (fun _ _ ↦ hclosing) (fun _ _ ↦ hcomma)]
    rfl

/-- A pattern whose brackets and braces are closed is written as its tokens. -/
theorem spelled_eq_ok {pattern : List Char} (hbrackets : .unclosed ∉ tokens pattern)
    (hbraces : depthAfter 0 (tokens pattern) = 0) :
    spelled pattern = .ok (written 0 (tokens pattern)) := by
  rw [spelled, spelledFrom_eq, ← tokens, spelledAs, if_neg hbrackets, if_pos hbraces]

theorem WellFormed.spelled_eq {pattern : List Char} (h : WellFormed pattern) :
    spelled pattern = .ok (written 0 (tokens pattern)) :=
  spelled_eq_ok (fun hmem ↦ nomatch h.sound _ hmem) h.closed

/-- Nothing is written for a pattern in which a bracket or a brace is left open. -/
theorem exists_spelled_eq_error {pattern : List Char}
    (h : .unclosed ∈ tokens pattern ∨ depthAfter 0 (tokens pattern) ≠ 0) :
    ∃ e, spelled pattern = .error e := by
  rw [spelled, spelledFrom_eq, ← tokens, spelledAs]
  split
  · exact ⟨_, rfl⟩
  · next hbrackets =>
    rw [if_neg (h.resolve_left hbrackets)]
    exact ⟨_, rfl⟩

end CompletionServer.Glob
