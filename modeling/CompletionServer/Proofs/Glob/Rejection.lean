import CompletionServer.Proofs.Glob.Nesting

/-!
# Patterns that are rejected

A bracket or a brace that is left open is noticed while the expression is written. What is wrong in a
bracket is left to the reader of expressions, who must come to it: nothing that stands before it may
keep the reader from going on, however the groups are nested, `fails_or_reads`.

The reader takes an empty bracket for a class that begins with its closing bracket. This class goes
on to the next bracket that is written, so the defect shows only if there is none. If there is one,
the class `Overruns` what the pattern meant, and the pattern may be accepted.
-/

namespace CompletionServer.Glob

/-! ## Classes that are not closed -/

/-- Whether a class is closed in a text, by a bracket that is not escaped and not its first
character. -/
def hasClosing : (first : Bool) → List Char → Bool
  | _, [] => false
  | _, '\\' :: _ :: rest => hasClosing false rest
  | first, c :: rest => (c == ']' && !first) || hasClosing false rest

theorem hasClosing_classChar {first : Bool} {c : Char} {rest : List Char}
    (h : hasClosing first (c :: rest) = false) :
    hasClosing false (classChar c rest).2.2 = false := by
  unfold classChar
  split
  · exact h
  · next hescape =>
    rw [hasClosing] at h
    · exact (Bool.or_eq_false_iff.mp h).2
    · exact hescape

/-- Members are read only up to a bracket that closes their class. -/
theorem classMembers_ne_ok {start fuel : ℕ} {first : Bool} {s : List Char}
    (h : hasClosing first s = false) (found : List Member × List Char) :
    classMembers start fuel first s ≠ .ok found := by
  -- What is left behind a member that was read is not closed either.
  induction fuel generalizing first s found with
  | zero => exact nofun
  | succ fuel ih =>
    cases s with
    | nil => exact nofun
    | cons c rest =>
      intro hok
      have hafter := hasClosing_classChar h
      rw [classMembers] at hok
      split at hok
      · next hclosing =>
        obtain ⟨rfl, rfl⟩ : c = ']' ∧ first = false := by simpa using hclosing
        cases h
      · revert hok hafter
        generalize classChar c rest = char
        obtain ⟨low, lowText, afterLow⟩ := char
        intro hafter hok
        dsimp only at hok hafter
        split at hok
        · cases hok
        · cases hafter
        · next d rest' _ =>
          have hhigh : hasClosing false (classChar d rest').2.2 = false :=
            hasClosing_classChar (by simpa [hasClosing] using hafter)
          split at hok
          · cases hok
          · obtain ⟨_, hmembers, -⟩ := exists_of_bind_eq_ok hok
            exact ih hhigh _ hmembers
        · obtain ⟨_, hmembers, -⟩ := exists_of_bind_eq_ok hok
          exact ih hafter _ hmembers

/-- Whether a token is written with a bracket that closes a class. -/
def Token.isClass : Token → Bool
  | .within | .single | .bracket _ => true
  | _ => false

theorem hasClosing_literal (c : Char) (rest : List Char) :
    hasClosing false (literal c ++ rest) = hasClosing false rest := by
  by_cases h : isSpecial c = true
  · rw [literal, if_pos h]
    rfl
  · have hne (d : Char) (hd : isSpecial d = true) : c ≠ d := fun hcd ↦ h (hcd ▸ hd)
    rw [literal, if_neg h, List.singleton_append, hasClosing]
    · simp [hne ']' (by decide)]
    · exact fun _ _ hc ↦ absurd hc (hne '\\' (by decide))

/-- Nothing closes a class in what is written for tokens that are no classes. -/
theorem hasClosing_written {ts : List Token} (hclass : ∀ t ∈ ts, t.isClass = false) (depth : ℕ) :
    hasClosing false (written depth ts) = false := by
  induction ts generalizing depth with
  | nil => rfl
  | cons t ts ih =>
    obtain ⟨ht, hts⟩ := List.forall_mem_cons.mp hclass
    have hrest := ih hts depth
    cases t with
    | within | single | bracket => cases ht
    | opening => exact ih hts (depth + 1)
    | closing =>
      cases depth with
      | zero => exact (hasClosing_literal _ _).trans hrest
      | succ depth => exact ih hts depth
    | comma =>
      cases depth with
      | zero => exact (hasClosing_literal _ _).trans hrest
      | succ depth => exact hrest
    | deep => rw [written_atom (t := .deep) trivial]; exact hrest
    | anything => rw [written_atom (t := .anything) trivial]; exact hrest
    | unclosed => rw [written_atom (t := .unclosed) trivial]; exact hrest
    | char c =>
      rw [written_atom (t := .char c) trivial]
      exact (hasClosing_literal c _).trans hrest

/-- **What is written for a bracket that is not sound is no class**: its ranges do not ascend, or it
is empty and nothing that follows closes it. -/
theorem exists_classBody_ne_ok {body rest : List Char} (hclosed : ']' ∉ body)
    (hsound : isSoundBody body = false) (hrest : listedIn body = [] → hasClosing false rest = false) :
    ∃ inner, bracket body ++ rest = '[' :: inner ∧ ∀ found, classBody inner ≠ .ok found := by
  obtain ⟨inner, start, fuel, hinner, hfuel, hiff⟩ := exists_classBody_bracket_iff body rest
  refine ⟨inner, hinner, fun ⟨k, left⟩ hok ↦ ?_⟩
  obtain ⟨members, -, hmembers⟩ := (hiff k left).mp hok
  by_cases hempty : listedIn body = []
  · -- The closing bracket of an empty body is read as its first member.
    rw [hempty] at hmembers
    have hunclosed : hasClosing true (']' :: rest) = false := hrest hempty
    exact classMembers_ne_ok hunclosed _ hmembers
  · have hasc : isAscending (listedIn body) = false := by
      by_contra hasc
      rw [isSoundBody_iff.mpr ⟨hempty, by simpa using hasc⟩] at hsound
      cases hsound
    obtain ⟨stop, hstop⟩ := exists_classMembers_escaped (closing_notMem_listedIn hclosed) rest start
      true (fun _ ↦ hempty) hfuel
    rw [hasc, hmembers] at hstop
    cases hstop

/-! ## Texts that are not read -/

/-- That no sequence is read from a text, with enough fuel. -/
def Fails (s : List Char) : Prop :=
  ∀ fuel, 3 * s.length + 2 ≤ fuel → ∀ found, sequence fuel s ≠ .ok found

/-- The same for alternatives. -/
def FailsAll (s : List Char) : Prop :=
  ∀ fuel, 3 * s.length + 3 ≤ fuel → ∀ found, alternatives fuel s ≠ .ok found

theorem Fails.of_advances {s rest : List Char} {first : Expr} (hadvances : Advances s first rest)
    (h : Fails rest) : Fails s := by
  intro fuel hfuel found hok
  obtain ⟨fuel', hfuel', hsequence⟩ := hadvances fuel hfuel
  rw [hsequence] at hok
  obtain ⟨_, hrest, -⟩ := exists_of_bind_eq_ok hok
  exact h fuel' hfuel' _ hrest

theorem Fails.group {s : List Char} (h : FailsAll s) : Fails ('(' :: '?' :: ':' :: s) := by
  intro fuel hfuel found hok
  rw [List.length_cons, List.length_cons, List.length_cons] at hfuel
  obtain ⟨fuel, rfl⟩ : ∃ k, fuel = k + 1 := Nat.exists_eq_add_one.mpr (by omega)
  rw [sequence] at hok
  obtain ⟨_, hinner, -⟩ := exists_of_bind_eq_ok hok
  exact h fuel (by omega) _ hinner

theorem Fails.class {inner : List Char} (h : ∀ found, classBody inner ≠ .ok found) :
    Fails ('[' :: inner) := by
  intro fuel hfuel found hok
  obtain ⟨fuel, rfl⟩ : ∃ k, fuel = k + 1 := Nat.exists_eq_add_one.mpr (by omega)
  rw [sequence] at hok
  obtain ⟨_, hclass, -⟩ := exists_of_bind_eq_ok hok
  exact h _ hclass

theorem FailsAll.first {s : List Char} (h : Fails s) : FailsAll s := by
  intro fuel hfuel found hok
  obtain ⟨fuel, rfl⟩ : ∃ k, fuel = k + 1 := Nat.exists_eq_add_one.mpr (by omega)
  rw [alternatives] at hok
  obtain ⟨_, hfirst, -⟩ := exists_of_bind_eq_ok hok
  exact h fuel (by omega) _ hfirst

theorem FailsAll.more {s rest : List Char} {e : Expr} (hfirst : Parses s e ('|' :: rest))
    (hlen : rest.length < s.length) (h : FailsAll rest) : FailsAll s := by
  intro fuel hfuel found hok
  obtain ⟨fuel, rfl⟩ : ∃ k, fuel = k + 1 := Nat.exists_eq_add_one.mpr (by omega)
  rw [alternatives, hfirst fuel (by omega)] at hok
  obtain ⟨_, hread, hok⟩ := exists_of_bind_eq_ok hok
  cases hread
  obtain ⟨_, hrest, -⟩ := exists_of_bind_eq_ok hok
  exact h fuel (by omega) _ hrest

/-- What is written for a bracket that is not sound is not read. -/
theorem fails_bracket {body : List Char} {after : List Token} (hclosed : ']' ∉ body)
    (hsound : isSoundBody body = false)
    (hafter : listedIn body = [] → ∀ t ∈ after, t.isClass = false) (depth : ℕ) :
    Fails (written depth (.bracket body :: after)) := by
  have hrest : listedIn body = [] → hasClosing false (written depth after) = false :=
    fun hempty ↦ hasClosing_written (hafter hempty) depth
  obtain ⟨inner, hinner, hclass⟩ := exists_classBody_ne_ok hclosed hsound hrest
  rw [written_atom (t := .bracket body) trivial]
  change Fails (bracket body ++ written depth after)
  rw [hinner]
  exact .class hclass

/-! ## Nested groups -/

/-- What is read of tokens, where their end is left. -/
theorem Reads.exists_read {part : Part} {depth : ℕ} {before rest faulty : List Token} {e : Expr}
    (h : Reads part depth (before ++ faulty) e (rest ++ faulty)) : ∃ read, before = read ++ rest := by
  obtain ⟨read, hread⟩ := h.suffix
  rw [← List.append_assoc] at hread
  exact ⟨read, (List.append_cancel_right hread).symm⟩

/-- **The reader comes to what it cannot read, or stops before it.** Of tokens in order, with
something behind them that is not read, a sequence is not read or ends at a comma or a brace among
these tokens, and alternatives are not read or end at a brace among them. -/
theorem fails_or_reads {faulty : List Token} (hfaulty : ∀ depth, Fails (written depth faulty))
    (hclosed : .unclosed ∉ faulty) {n depth : ℕ} {before : List Token} (hlen : before.length ≤ n)
    (horder : ∀ t ∈ before, t.InOrder) :
    (Fails (written depth (before ++ faulty)) ∨
      ∃ e rest, rest ≠ [] ∧ Reads .sequence depth (before ++ faulty) e (rest ++ faulty)) ∧
    (FailsAll (written (depth + 1) (before ++ faulty)) ∨
      ∃ e rest, Reads .alternatives depth (before ++ faulty) e (rest ++ faulty)) := by
  have hmem {own : List Token} (hown : ∀ t ∈ own, t.InOrder) : .unclosed ∉ own ++ faulty := by
    rw [List.mem_append, not_or]
    exact ⟨fun h ↦ hown _ h, hclosed⟩
  -- By induction on the number of tokens, not on the list: alternatives begin with a sequence of the
  -- same tokens, and what follows a group is a suffix that only its length bounds.
  induction n generalizing before depth with
  | zero =>
    obtain rfl := List.length_eq_zero_iff.mp (Nat.le_zero.mp hlen)
    exact ⟨.inl (hfaulty depth), .inl (.first (hfaulty (depth + 1)))⟩
  | succ n ih =>
    have hseq (depth : ℕ) : Fails (written depth (before ++ faulty)) ∨ ∃ e rest, rest ≠ [] ∧
        Reads .sequence depth (before ++ faulty) e (rest ++ faulty) := by
      cases before with
      | nil => exact .inl (hfaulty depth)
      | cons t before =>
        have hbefore : before.length ≤ n := Nat.le_of_succ_le_succ hlen
        obtain ⟨ht, hown⟩ := List.forall_mem_cons.mp horder
        by_cases hatom : t.IsAtom depth
        · rw [List.cons_append, written_atom hatom]
          have hhead := head?_written (.inl rfl) depth (hmem hown)
          rcases (ih hbefore hown).1 with hfails | ⟨e, rest, hne, h⟩
          · exact .inl (.of_advances (.token hatom ht hhead) hfails)
          · exact .inr ⟨_, rest, hne, .atom hatom h⟩
        · cases t with
          | opening =>
            rcases (ih hbefore hown).2 with hfails | ⟨inner, rest, hinner⟩
            · exact .inl (.group hfails)
            · obtain ⟨read, rfl⟩ := hinner.exists_read
              obtain ⟨hread, hrest⟩ := List.forall_mem_append.mp hown
              have hparsed := hinner.parses (List.append_assoc ..) hread (hmem hown)
              have hadvances := Advances.group hparsed hinner.length_written_le
                (head?_written (.inr rfl) depth (hmem hrest))
              rw [List.length_append] at hbefore
              rcases (ih (Nat.le_of_add_left_le hbefore) hrest).1 with hfails | ⟨e, left, hne, h⟩
              · exact .inl (.of_advances hadvances hfails)
              · exact .inr ⟨_, left, hne, .group hinner h⟩
          | closing =>
            obtain ⟨depth, rfl⟩ := Nat.exists_eq_succ_of_ne_zero hatom
            exact .inr ⟨_, _, List.cons_ne_nil _ _, .closing⟩
          | comma =>
            obtain ⟨depth, rfl⟩ := Nat.exists_eq_succ_of_ne_zero hatom
            exact .inr ⟨_, _, List.cons_ne_nil _ _, .comma⟩
          | _ => exact absurd trivial hatom
    refine ⟨hseq depth, ?_⟩
    rcases hseq (depth + 1) with hfails | ⟨e, rest, hne, h⟩
    · exact .inl (.first hfails)
    · obtain ⟨t, rest, rfl⟩ := List.exists_cons_of_ne_nil hne
      obtain ⟨-, left, hleft⟩ := h.exists_of_left_ne_nil (List.cons_ne_nil _ _)
      rcases hleft with hleft | hleft
      · obtain ⟨rfl, -⟩ := List.cons.inj hleft
        exact .inr ⟨e, rest, .last h⟩
      · obtain ⟨rfl, -⟩ := List.cons.inj hleft
        obtain ⟨read, rfl⟩ := h.exists_read
        obtain ⟨hread, hrest⟩ := List.forall_mem_append.mp horder
        obtain ⟨-, hrest⟩ := List.forall_mem_cons.mp hrest
        have hparsed := h.parses (List.append_assoc ..) hread (hmem horder)
        rw [List.length_append, List.length_cons] at hlen
        rcases (ih (by omega) hrest).2 with hfails | ⟨f, left, hf⟩
        · exact .inl (.more hparsed h.length_written_le hfails)
        · exact .inr ⟨_, left, .more h hf⟩

/-! ## Whole patterns -/

/-- Whether the first bracket that is not sound is empty, with a class behind it. -/
def overrunsFrom : List Token → Bool
  | [] => false
  | .bracket body :: ts =>
    if isSoundBody body then overrunsFrom ts else (listedIn body).isEmpty && ts.any Token.isClass
  | _ :: ts => overrunsFrom ts

/-- **Patterns with an empty bracket that may go unnoticed**: all brackets and braces are closed,
and the first bracket that is not sound is empty but not the last class that is written. -/
structure Overruns (pattern : List Char) : Prop where
  brackets : .unclosed ∉ tokens pattern
  braces : depthAfter 0 (tokens pattern) = 0
  empty : overrunsFrom (tokens pattern) = true

instance (pattern : List Char) : Decidable (Overruns pattern) :=
  decidable_of_iff (.unclosed ∉ tokens pattern ∧ depthAfter 0 (tokens pattern) = 0 ∧
      overrunsFrom (tokens pattern) = true)
    ⟨fun h ↦ ⟨h.1, h.2.1, h.2.2⟩, fun h ↦ ⟨h.brackets, h.braces, h.empty⟩⟩

/-- The first bracket that is not sound, with nothing behind it that could close it if it is
empty. -/
theorem exists_first_unsound {ts : List Token} (hclosed : .unclosed ∉ ts)
    (hunsound : ∃ t ∈ ts, t.isSound = false) (hover : overrunsFrom ts = false) :
    ∃ before body after, ts = before ++ .bracket body :: after ∧
      (∀ t ∈ before, t.isSound = true) ∧ isSoundBody body = false ∧
      (listedIn body = [] → ∀ t ∈ after, t.isClass = false) := by
  induction ts with
  | nil =>
    obtain ⟨t, ht, -⟩ := hunsound
    cases ht
  | cons t ts ih =>
    by_cases hsound : t.isSound = true
    · have hrest : ∃ t ∈ ts, t.isSound = false := by
        obtain ⟨u, hu, hunsound⟩ := hunsound
        rcases List.mem_cons.mp hu with rfl | hu
        · rw [hsound] at hunsound
          cases hunsound
        · exact ⟨u, hu, hunsound⟩
      have hover : overrunsFrom ts = false := by
        cases t with
        | bracket body => exact (if_pos hsound).symm.trans hover
        | _ => exact hover
      obtain ⟨before, body, after, rfl, hbefore, hbody, hafter⟩ :=
        ih (List.not_mem_of_not_mem_cons hclosed) hrest hover
      exact ⟨t :: before, body, after, rfl, List.forall_mem_cons.mpr ⟨hsound, hbefore⟩, hbody, hafter⟩
    · cases t with
      | unclosed => exact absurd List.mem_cons_self hclosed
      | bracket body =>
        have hclass := (if_neg hsound).symm.trans hover
        rw [Bool.and_eq_false_iff, List.isEmpty_eq_false_iff, List.any_eq_false] at hclass
        refine ⟨[], body, ts, rfl, nofun, by simpa [Token.isSound] using hsound, fun hempty ↦ ?_⟩
        simpa using hclass.resolve_left (absurd hempty)
      | _ => exact absurd rfl hsound

/-- A text that does not begin with a sequence is no expression. -/
theorem exists_expression_eq_error {s : List Char} (h : Fails s) :
    ∃ stop, expression s = .error stop := by
  cases hexpression : expression s with
  | error stop => exact ⟨stop, rfl⟩
  | ok e =>
    rw [expression] at hexpression
    obtain ⟨_, hread, -⟩ := exists_of_bind_eq_ok hexpression
    exact absurd hread (FailsAll.first h _ (Nat.le_refl _) _)

/-- **A pattern that is not well formed does not compile**, whatever stands before and behind what is
wrong with it, unless an empty bracket of it overruns. -/
theorem exists_compile_eq_error {pattern : List Char} (hwell : ¬WellFormed pattern)
    (hover : ¬Overruns pattern) : ∃ e, compile pattern = .error e := by
  rw [compile]
  by_cases hopen : .unclosed ∈ tokens pattern ∨ depthAfter 0 (tokens pattern) ≠ 0
  · obtain ⟨e, he⟩ := exists_spelled_eq_error hopen
    rw [he]
    exact ⟨e, rfl⟩
  · obtain ⟨hbrackets, hbraces⟩ := not_or.mp hopen
    have hbraces := not_not.mp hbraces
    have hunsound : ∃ t ∈ tokens pattern, t.isSound = false := by
      by_contra hsound
      refine hwell ⟨fun t ht ↦ ?_, hbraces⟩
      by_contra ht'
      exact hsound ⟨t, ht, by simpa using ht'⟩
    have hempty : overrunsFrom (tokens pattern) = false := by
      by_contra hempty
      exact hover ⟨hbrackets, hbraces, by simpa using hempty⟩
    obtain ⟨before, body, after, htokens, hbefore, hbody, hafter⟩ :=
      exists_first_unsound hbrackets hunsound hempty
    have hmem : ∀ t ∈ before ++ .bracket body :: after, t ∈ tokens pattern :=
      fun t ht ↦ htokens ▸ ht
    have horder : ∀ t ∈ before, t.InOrder :=
      fun t ht ↦ inOrder_of_isSound (hmem t (List.mem_append_left _ ht)) (hbefore t ht)
    have hbracket : .bracket body ∈ tokens pattern := hmem _ (by simp)
    have hfaulty := fails_bracket (closing_notMem_of_mem_tokensFrom (by simp) hbracket) hbody hafter
    have hclosed : .unclosed ∉ .bracket body :: after :=
      fun h ↦ hbrackets (hmem _ (List.mem_append_right before h))
    have hfails : Fails (written 0 (tokens pattern)) := by
      rw [htokens]
      -- Outside braces a sequence ends with the pattern, which is behind the bracket.
      rcases (fails_or_reads hfaulty hclosed (Nat.le_refl _) horder).1 with h | ⟨e, rest, -, h⟩
      · exact h
      · exact absurd h.left_eq_nil (by simp)
    obtain ⟨stop, hstop⟩ := exists_expression_eq_error hfails
    rw [spelled_eq_ok hbrackets hbraces]
    change ∃ e, (expression (written 0 (tokens pattern))).mapError _ = .error e
    rw [hstop]
    exact ⟨_, rfl⟩

end CompletionServer.Glob
