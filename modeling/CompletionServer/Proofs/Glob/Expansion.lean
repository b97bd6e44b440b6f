import CompletionServer.Proofs.Glob.Acceptance
import Mathlib.Algebra.BigOperators.Ring.List

/-!
# Alternatives and their expansions

What a pattern accepts is put together from what its parts accept: `accepted_append` for parts that
follow each other, `accepted_group` for the alternatives of a group. So a pattern with a group
accepts a path exactly if it does with one of the alternatives alone in the braces,
`accepts_group_iff`.

The braces around a single alternative can then go, unless something runs together that they kept
apart. Two asterisks are not one asterisk twice, and two asterisks before a slash are no part of the
path with a slash behind it: `not_accepts_joinedAsterisks`.
-/

namespace CompletionServer.Glob

/-! ## Texts that follow each other -/

/-- Whether a token would take in a character that follows it. -/
def Token.takesIn : Token → Char → Bool
  | .within, c => c == '*'
  | .anything, c => c == '/'
  | _, _ => false

/-- That tokens end before a text, which is that nothing of the text would belong to the last of
them. -/
def EndBefore (ts : List Token) (text : List Char) : Prop :=
  ∀ t ∈ ts.getLast?, ∀ c ∈ text.head?, t.takesIn c = false

instance (ts : List Token) (text : List Char) : Decidable (EndBefore ts text) :=
  decidable_of_iff ((ts.getLast?.all fun t ↦ text.head?.all fun c ↦ !t.takesIn c) = true)
    (by simp [EndBefore, Option.all_eq_true])

theorem EndBefore.tail {t : Token} {ts : List Token} {text : List Char}
    (h : EndBefore (t :: ts) text) : EndBefore ts text := by
  intro last hlast
  refine h last ?_
  rw [List.getLast?_cons, hlast]
  rfl

/-- Signs other than an asterisk and a slash belong to no token before them. -/
theorem endBefore_cons {c : Char} (hstar : c ≠ '*') (hslash : c ≠ '/') (ts : List Token)
    (text : List Char) : EndBefore ts (c :: text) := by
  intro t _ d hd
  obtain rfl : c = d := Option.some.inj hd
  cases t with
  | within => exact beq_false_of_ne hstar
  | anything => exact beq_false_of_ne hslash
  | _ => rfl

theorem tokensFrom_within {text : List Char} (h : text.head? ≠ some '*') :
    tokensFrom none ('*' :: text) = .within :: tokensFrom none text := by
  rw [tokensFrom]
  · rintro rest rfl
    exact h rfl
  · rintro rest rfl
    exact h rfl

theorem tokensFrom_anything {text : List Char} (h : text.head? ≠ some '/') :
    tokensFrom none ('*' :: '*' :: text) = .anything :: tokensFrom none text := by
  rw [tokensFrom]
  rintro rest rfl
  exact h rfl

/-- A text goes on as it starts; only if it is empty does it matter what follows it. -/
theorem head?_append_ne {c : Char} {s t : List Char} (hs : s.head? ≠ some c)
    (ht : s = [] → t.head? ≠ some c) : (s ++ t).head? ≠ some c := by
  cases s with
  | nil => exact ht rfl
  | cons d s => exact hs

theorem tokensFrom_append {body : Option (List Char)} {s t : List Char}
    (hclosed' : .unclosed ∉ tokensFrom body s) (hends : EndBefore (tokensFrom body s) t) :
    tokensFrom body (s ++ t) = tokensFrom body s ++ tokens t := by
  -- The cases are those of `tokensFrom`: 1 to 3 inside a bracket, 5 to 13 by what comes first.
  fun_induction tokensFrom body s with
  | case1 => exact absurd List.mem_cons_self hclosed'
  | case2 read rest ih =>
    rw [List.cons_append, tokensFrom, if_pos rfl,
      ih (List.not_mem_of_not_mem_cons hclosed') hends.tail, List.cons_append]
  | case3 read c rest hc ih =>
    rw [List.cons_append, tokensFrom, if_neg hc, ih hclosed' hends]
  | case4 => rfl
  | case6 rest hdeep ih =>
    have hhead : (rest ++ t).head? ≠ some '/' := by
      refine head?_append_ne (fun h ↦ ?_) ?_
      · obtain ⟨more, rfl⟩ := List.head?_eq_some_iff.mp h
        exact hdeep more rfl
      · rintro rfl h
        exact absurd (hends .anything rfl '/' h) (by decide)
    rw [List.cons_append, List.cons_append, tokensFrom_anything hhead,
      ih (List.not_mem_of_not_mem_cons hclosed') hends.tail, List.cons_append]
  | case7 rest hdeep hany ih =>
    have hhead : (rest ++ t).head? ≠ some '*' := by
      refine head?_append_ne (fun h ↦ ?_) ?_
      · obtain ⟨more, rfl⟩ := List.head?_eq_some_iff.mp h
        exact hany more rfl
      · rintro rfl h
        exact absurd (hends .within rfl '*' h) (by decide)
    rw [List.cons_append, tokensFrom_within hhead,
      ih (List.not_mem_of_not_mem_cons hclosed') hends.tail, List.cons_append]
  | case12 rest ih => rw [List.cons_append, tokensFrom, ih hclosed' hends]
  | case5 rest ih | case8 rest ih | case9 rest ih | case10 rest ih | case11 rest ih =>
    simp only [List.cons_append]
    rw [tokensFrom, ih (List.not_mem_of_not_mem_cons hclosed') hends.tail]
  | case13 c rest _ _ hstar hsingle hopening hclosing hcomma hbracket ih =>
    rw [List.cons_append, tokensFrom,
      ih (List.not_mem_of_not_mem_cons hclosed') hends.tail, List.cons_append]
    · exact fun _ hc ↦ absurd hc hstar
    · exact fun _ hc ↦ absurd hc hstar
    · exact hstar
    · exact hsingle
    · exact hopening
    · exact hclosing
    · exact hcomma
    · exact hbracket

/-- **The tokens of two texts**, if those of the first end before the second. -/
theorem tokens_append {s t : List Char} (hclosed : .unclosed ∉ tokens s)
    (hends : EndBefore (tokens s) t) : tokens (s ++ t) = tokens s ++ tokens t :=
  tokensFrom_append hclosed hends

theorem depthAfter_append (depth : ℕ) (ts us : List Token) :
    depthAfter depth (ts ++ us) = depthAfter (depthAfter depth ts) us := by
  induction ts generalizing depth with
  | nil => rfl
  | cons t ts ih =>
    cases t with
    | _ => exact ih _

/-! ## Derivations for more tokens -/

namespace Reads

variable {part : Part} {depth : ℕ} {ts us left : List Token} {e f : Expr}

/-- What stops before the end does so whatever follows. -/
theorem frame (h : Reads part depth ts e left) (hne : part = .sequence → left ≠ [])
    (more : List Token) : Reads part depth (ts ++ more) e (left ++ more) := by
  induction h with
  | nil => exact absurd rfl (hne rfl)
  | closing => exact .closing
  | comma => exact .comma
  | atom ht _ ih => exact .atom ht (ih hne)
  | group _ _ ihinner ih => exact .group (ihinner nofun) (ih hne)
  | last _ ih => exact .last (ih fun _ ↦ List.cons_ne_nil _ _)
  | more _ _ ih ihrest => exact .more (ih fun _ ↦ List.cons_ne_nil _ _) (ihrest nofun)

/-- **A sequence after a sequence** is read as one, of the texts that are put together from theirs. -/
theorem append (h : Reads .sequence depth ts e []) (h' : Reads .sequence depth us f left) :
    ∃ g, Reads .sequence depth (ts ++ us) g left ∧ g.language = e.language * f.language := by
  generalize hpart : Part.sequence = part at h
  generalize hend : ([] : List Token) = stop at h
  induction h with
  | nil => exact ⟨f, h', by rw [Expr.language_empty, one_mul]⟩
  | closing | comma => cases hend
  | atom ht _ ih =>
    obtain ⟨g, hg, hlanguage⟩ := ih h' hpart hend
    exact ⟨_, .atom ht hg, by rw [Expr.language_seq, Expr.language_seq, hlanguage, mul_assoc]⟩
  | group hinner _ _ ih =>
    obtain ⟨g, hg, hlanguage⟩ := ih h' hpart hend
    refine ⟨_, .group (hinner.frame nofun us) hg, ?_⟩
    rw [Expr.language_seq, Expr.language_seq, hlanguage, mul_assoc]
  | last | more => cases hpart

end Reads

/-! ## Alternatives -/

/-- Whether all braces are closed, none closes more than the `depth` that are open before, and no
comma stands outside them. -/
def isBalanced : (depth : ℕ) → List Token → Bool
  | depth, [] => depth == 0
  | depth, .opening :: ts => isBalanced (depth + 1) ts
  | 0, .closing :: _ => false
  | 0, .comma :: _ => false
  | depth + 1, .closing :: ts => isBalanced depth ts
  | depth, _ :: ts => isBalanced depth ts

/-- A text that is one alternative of a group. -/
structure IsAlternative (text : List Char) : Prop where
  brackets : .unclosed ∉ tokens text
  braces : isBalanced 0 (tokens text) = true

instance (text : List Char) : Decidable (IsAlternative text) :=
  decidable_of_iff (.unclosed ∉ tokens text ∧ isBalanced 0 (tokens text) = true)
    ⟨fun h ↦ ⟨h.1, h.2⟩, fun h ↦ ⟨h.brackets, h.braces⟩⟩

theorem Token.IsAtom.anywhere {depth : ℕ} {t : Token} (h : t.IsAtom (depth + 1)) (k : ℕ) :
    t.IsAtom k := by
  cases t with
  | closing | comma => cases h
  | opening => exact h
  | _ => trivial

theorem isBalanced_atom {depth : ℕ} {t : Token} (ht : t.IsAtom (depth + 1)) (k : ℕ)
    (ts : List Token) : isBalanced k (t :: ts) = isBalanced k ts := by
  cases k <;> cases t <;> first | rfl | cases ht

/-- What is balanced has no brace or comma that stands for itself. -/
theorem isAtom_of_isBalanced {t : Token} {ts : List Token} (h : isBalanced 0 (t :: ts) = true)
    (ht : t.IsAtom 0) : t.IsAtom 1 := by
  cases t with
  | closing | comma => cases h
  | opening => exact ht
  | _ => trivial

theorem depthAfter_of_isBalanced {k : ℕ} {ts : List Token} (h : isBalanced k ts = true) :
    depthAfter k ts = 0 := by
  induction ts generalizing k with
  | nil =>
    cases k with
    | zero => rfl
    | succ k => cases h
  | cons t ts ih =>
    by_cases hatom : t.IsAtom 1
    · rw [isBalanced_atom hatom] at h
      rw [depthAfter_atom (hatom.anywhere k)]
      exact ih h
    · cases t with
      | opening => exact ih h
      | closing =>
        cases k with
        | zero => cases h
        | succ k => exact ih h
      | comma =>
        cases k with
        | zero => cases h
        | succ k => exact ih h
      | _ => exact absurd trivial hatom

namespace Reads

variable {part : Part} {depth : ℕ} {ts left : List Token} {e : Expr}

/-- Inside braces a part takes nothing from the balance. -/
theorem isBalanced_eq (h : Reads part depth ts e left) (hinside : part.inside depth ≠ 0) (k : ℕ) :
    isBalanced (part.inside k) ts = isBalanced k left := by
  induction h generalizing k with
  | nil | closing | comma => rfl
  | @atom depth t ts left e ht _ ih =>
    obtain ⟨d, rfl⟩ : ∃ d, depth = d + 1 := Nat.exists_eq_succ_of_ne_zero hinside
    exact (isBalanced_atom ht k ts).trans (ih hinside k)
  | group _ _ ihinner ih => exact (ihinner (Nat.succ_ne_zero _) k).trans (ih hinside k)
  | last _ ih => exact ih (Nat.succ_ne_zero _) (k + 1)
  | more _ _ ih ihrest =>
    exact (ih (Nat.succ_ne_zero _) (k + 1)).trans (ihrest (Nat.succ_ne_zero _) k)

/-- What is balanced is read inside one more brace as it is outside. -/
theorem raise (h : Reads part depth ts e left)
    (hbalanced : part.inside depth = 0 → isBalanced 0 ts = true) :
    Reads part (depth + 1) ts e left := by
  induction h with
  | nil => exact .nil
  | closing => exact .closing
  | comma => exact .comma
  | @atom depth t ts left e ht _ ih =>
    cases depth with
    | zero =>
      have hatom := isAtom_of_isBalanced (hbalanced rfl) ht
      refine .atom hatom (ih fun _ ↦ ?_)
      rw [← isBalanced_atom hatom]
      exact hbalanced rfl
    | succ depth => exact .atom (ht.anywhere _) (ih fun h ↦ absurd h (Nat.succ_ne_zero depth))
  | @group depth ts rest left inner e hinner _ ihinner ih =>
    refine .group (ihinner fun h ↦ absurd h (Nat.succ_ne_zero depth)) (ih ?_)
    intro hdepth
    exact (hinner.isBalanced_eq (Nat.succ_ne_zero depth) 0).symm.trans (hbalanced hdepth)
  | @last depth ts left e _ ih => exact .last (ih fun h ↦ absurd h (Nat.succ_ne_zero depth))
  | @more depth ts rest left e f _ _ ih ihrest =>
    exact .more (ih fun h ↦ absurd h (Nat.succ_ne_zero depth))
      (ihrest fun h ↦ absurd h (Nat.succ_ne_zero depth))

end Reads

/-! ## What is accepted -/

/-- The paths that a pattern accepts. -/
def accepted (pattern : List Char) : Language Char := {path | accepts pattern path = .ok true}

theorem mem_accepted {pattern path : List Char} :
    path ∈ accepted pattern ↔ accepts pattern path = .ok true := Iff.rfl

/-- A pattern whose tokens are a sequence accepts the texts of this. -/
theorem accepted_eq_language {pattern : List Char} (hwell : WellFormed pattern) {e : Expr}
    (h : Reads .sequence 0 (tokens pattern) e []) : accepted pattern = e.language := by
  ext path
  exact accepts_eq_ok_true_iff (compile_eq_ok hwell h)

/-- The tokens of a well-formed pattern are a sequence. -/
theorem WellFormed.exists_reads {pattern : List Char} (h : WellFormed pattern) :
    ∃ e, Reads .sequence 0 (tokens pattern) e [] ∧ accepted pattern = e.language := by
  obtain ⟨e, left, hreads⟩ := (Glob.exists_reads (Nat.le_refl _)).1 h.closed
  obtain rfl := hreads.left_eq_nil
  exact ⟨e, hreads, accepted_eq_language h hreads⟩

theorem WellFormed.append {s t : List Char} (hs : WellFormed s) (ht : WellFormed t)
    (hends : EndBefore (tokens s) t) : WellFormed (s ++ t) := by
  have htokens := tokens_append (fun h ↦ nomatch hs.sound _ h) hends
  constructor
  · rw [htokens]
    exact List.forall_mem_append.mpr ⟨hs.sound, ht.sound⟩
  · rw [htokens, depthAfter_append, hs.closed]
    exact ht.closed

/-- **Patterns that follow each other** accept the paths that are put together from theirs. -/
theorem accepted_append {s t : List Char} (hs : WellFormed s) (ht : WellFormed t)
    (hends : EndBefore (tokens s) t) : accepted (s ++ t) = accepted s * accepted t := by
  obtain ⟨e, he, hse⟩ := hs.exists_reads
  obtain ⟨f, hf, htf⟩ := ht.exists_reads
  obtain ⟨g, hg, hlanguage⟩ := he.append hf
  rw [← tokens_append (fun h ↦ nomatch hs.sound _ h) hends] at hg
  rw [accepted_eq_language (hs.append ht hends) hg, hlanguage, hse, htf]

/-! ## Groups -/

/-- The alternatives of a group, with the brace that closes it. -/
def alternation (alternatives : List (List Char)) : List Char :=
  [','].intercalate alternatives ++ ['\x7d']

/-- A group with alternatives. -/
def group (alternatives : List (List Char)) : List Char := '\x7b' :: alternation alternatives

theorem alternation_singleton (p : List Char) : alternation [p] = p ++ ['\x7d'] := by
  simp [alternation]

theorem alternation_cons_cons (p q : List Char) (alternatives : List (List Char)) :
    alternation (p :: q :: alternatives) = p ++ ',' :: alternation (q :: alternatives) := by
  simp [alternation, List.intercalate]

namespace IsAlternative

variable {p : List Char}

/-- An alternative is a pattern of its own. -/
theorem wellFormed (h : IsAlternative p) (hsound : ∀ t ∈ tokens p, t.isSound = true) :
    WellFormed p := ⟨hsound, depthAfter_of_isBalanced h.braces⟩

/-- The tokens of an alternative end where those of its group go on. -/
theorem tokens_append_cons (h : IsAlternative p) {c : Char} (hc : c = ',' ∨ c = '\x7d')
    (text : List Char) : tokens (p ++ c :: text) = tokens p ++ tokens (c :: text) := by
  refine tokens_append h.brackets (endBefore_cons ?_ ?_ _ _)
  · rcases hc with rfl | rfl <;> decide
  · rcases hc with rfl | rfl <;> decide

/-- **The tokens of alternatives** are those of each of them, with a comma between any two. -/
theorem tokens_alternation_cons_cons (h : IsAlternative p) (q : List Char)
    (alternatives : List (List Char)) : tokens (alternation (p :: q :: alternatives))
      = tokens p ++ .comma :: tokens (alternation (q :: alternatives)) := by
  rw [alternation_cons_cons, h.tokens_append_cons (.inl rfl)]
  rfl

theorem tokens_alternation_singleton (h : IsAlternative p) :
    tokens (alternation [p]) = tokens p ++ [.closing] := by
  rw [alternation_singleton, h.tokens_append_cons (.inr rfl)]
  rfl

end IsAlternative

/-! ### Their tokens -/

section

variable {alternatives : List (List Char)}

theorem mem_or_sign_of_mem_alternation (hne : alternatives ≠ [])
    (hall : ∀ p ∈ alternatives, IsAlternative p) {t : Token}
    (ht : t ∈ tokens (alternation alternatives)) :
    (∃ p ∈ alternatives, t ∈ tokens p) ∨ t = .comma ∨ t = .closing := by
  induction alternatives with
  | nil => exact absurd rfl hne
  | cons p rest ih =>
    obtain ⟨hp, hrest⟩ := List.forall_mem_cons.mp hall
    cases rest with
    | nil =>
      rw [hp.tokens_alternation_singleton, List.mem_append, List.mem_singleton] at ht
      rcases ht with ht | ht
      · exact .inl ⟨p, List.mem_cons_self, ht⟩
      · exact .inr (.inr ht)
    | cons q rest =>
      rw [hp.tokens_alternation_cons_cons, List.mem_append, List.mem_cons] at ht
      rcases ht with ht | ht | ht
      · exact .inl ⟨p, List.mem_cons_self, ht⟩
      · exact .inr (.inl ht)
      · refine (ih (List.cons_ne_nil q rest) hrest ht).imp_left ?_
        rintro ⟨r, hr, htr⟩
        exact ⟨r, List.mem_cons_of_mem p hr, htr⟩

theorem mem_tokens_alternation (hall : ∀ p ∈ alternatives, IsAlternative p) {p : List Char}
    (hp : p ∈ alternatives) {t : Token} (ht : t ∈ tokens p) :
    t ∈ tokens (alternation alternatives) := by
  induction alternatives with
  | nil => cases hp
  | cons q rest ih =>
    obtain ⟨hq, hrest⟩ := List.forall_mem_cons.mp hall
    cases rest with
    | nil =>
      obtain rfl := List.mem_singleton.mp hp
      rw [hq.tokens_alternation_singleton]
      exact List.mem_append_left _ ht
    | cons r rest =>
      rw [hq.tokens_alternation_cons_cons]
      rcases List.mem_cons.mp hp with rfl | hp
      · exact List.mem_append_left _ ht
      · exact List.mem_append_right _ (List.mem_cons_of_mem _ (ih hrest hp))

theorem tokens_group (alternatives : List (List Char)) :
    tokens (group alternatives) = .opening :: tokens (alternation alternatives) := rfl

theorem unclosed_notMem_group (hne : alternatives ≠ [])
    (hall : ∀ p ∈ alternatives, IsAlternative p) : .unclosed ∉ tokens (group alternatives) := by
  rw [tokens_group, List.mem_cons, not_or]
  refine ⟨nofun, fun h ↦ ?_⟩
  rcases mem_or_sign_of_mem_alternation hne hall h with ⟨p, hp, h⟩ | h | h
  · exact (hall p hp).brackets h
  · cases h
  · cases h

/-- A group ends with its brace, to which nothing that follows belongs. -/
theorem endBefore_group (hne : alternatives ≠ [])
    (hall : ∀ p ∈ alternatives, IsAlternative p) (text : List Char) :
    EndBefore (tokens (group alternatives)) text := by
  have hlast : (tokens (alternation alternatives)).getLast? = some .closing := by
    induction alternatives with
    | nil => exact absurd rfl hne
    | cons p rest ih =>
      obtain ⟨hp, hrest⟩ := List.forall_mem_cons.mp hall
      cases rest with
      | nil => rw [hp.tokens_alternation_singleton, List.getLast?_concat]
      | cons q rest =>
        rw [hp.tokens_alternation_cons_cons, List.getLast?_append, List.getLast?_cons,
          ih (List.cons_ne_nil q rest) hrest]
        rfl
  intro t ht
  rw [tokens_group, List.getLast?_cons, hlast] at ht
  obtain rfl : Token.closing = t := Option.some.inj ht
  exact fun _ _ ↦ rfl

/-! ### Their paths -/

/-- An alternative with a sign of its group behind it. -/
theorem IsAlternative.exists_reads_sign {p : List Char} (h : IsAlternative p) (hwell : WellFormed p)
    {t : Token} (ts : List Token) (hsign : Reads .sequence 1 (t :: ts) .empty (t :: ts)) :
    ∃ g, Reads .sequence 1 (tokens p ++ t :: ts) g (t :: ts) ∧ g.language = accepted p := by
  obtain ⟨e, he, haccepted⟩ := hwell.exists_reads
  obtain ⟨g, hg, hlanguage⟩ := (he.raise fun _ ↦ h.braces).append hsign
  refine ⟨g, hg, ?_⟩
  rw [hlanguage, Expr.language_empty, mul_one, haccepted]

/-- **Alternatives are read** as the union of what each of them accepts. -/
theorem exists_reads_alternation (hne : alternatives ≠ [])
    (hall : ∀ p ∈ alternatives, IsAlternative p) (hwell : ∀ p ∈ alternatives, WellFormed p) :
    ∃ inner, Reads .alternatives 0 (tokens (alternation alternatives)) inner [] ∧
      inner.language = (alternatives.map accepted).sum := by
  induction alternatives with
  | nil => exact absurd rfl hne
  | cons p rest ih =>
    obtain ⟨hp, hrest⟩ := List.forall_mem_cons.mp hall
    obtain ⟨hpwell, hrestwell⟩ := List.forall_mem_cons.mp hwell
    cases rest with
    | nil =>
      obtain ⟨g, hg, hlanguage⟩ := hp.exists_reads_sign hpwell [] .closing
      rw [← hp.tokens_alternation_singleton] at hg
      exact ⟨g, .last hg, by rw [hlanguage, List.map_singleton, List.sum_singleton]⟩
    | cons q rest =>
      obtain ⟨inner, hinner, hsum⟩ := ih (List.cons_ne_nil q rest) hrest hrestwell
      obtain ⟨g, hg, hlanguage⟩ := hp.exists_reads_sign hpwell
        (tokens (alternation (q :: rest))) .comma
      rw [← hp.tokens_alternation_cons_cons] at hg
      refine ⟨_, .more hg hinner, ?_⟩
      rw [Expr.language_alt, hlanguage, hsum]
      rfl

theorem wellFormed_group (hne : alternatives ≠ []) (hall : ∀ p ∈ alternatives, IsAlternative p)
    (hwell : ∀ p ∈ alternatives, WellFormed p) : WellFormed (group alternatives) := by
  constructor
  · intro t ht
    rcases List.mem_cons.mp ht with rfl | ht
    · rfl
    rcases mem_or_sign_of_mem_alternation hne hall ht with ⟨p, hp, ht⟩ | rfl | rfl
    · exact (hwell p hp).sound t ht
    · rfl
    · rfl
  · obtain ⟨inner, hinner, -⟩ := exists_reads_alternation hne hall hwell
    exact hinner.depthAfter_eq

/-- **A group** accepts what one of its alternatives accepts. -/
theorem accepted_group (hne : alternatives ≠ []) (hall : ∀ p ∈ alternatives, IsAlternative p)
    (hwell : ∀ p ∈ alternatives, WellFormed p) :
    accepted (group alternatives) = (alternatives.map accepted).sum := by
  obtain ⟨inner, hinner, hlanguage⟩ := exists_reads_alternation hne hall hwell
  have hgroup : Reads .sequence 0 (tokens (group alternatives)) (.seq inner .empty) [] :=
    .group hinner .nil
  rw [accepted_eq_language (wellFormed_group hne hall hwell) hgroup, Expr.language_seq,
    Expr.language_empty, mul_one, hlanguage]

end

/-! ## Patterns with a group -/

/-- **That a group stands behind a text**, outside all brackets and other braces. -/
structure IsGroup (before : List Char) (alternatives : List (List Char)) : Prop where
  brackets : .unclosed ∉ tokens before
  braces : depthAfter 0 (tokens before) = 0
  nonempty : alternatives ≠ []
  isAlternative : ∀ p ∈ alternatives, IsAlternative p

namespace IsGroup

variable {before behind : List Char} {alternatives : List (List Char)}

theorem tokens_eq (h : IsGroup before alternatives) (behind : List Char) :
    tokens (before ++ group alternatives ++ behind)
      = tokens before ++ (tokens (group alternatives) ++ tokens behind) := by
  have hopening : EndBefore (tokens before) (group alternatives ++ behind) :=
    endBefore_cons (by decide) (by decide) _ _
  rw [List.append_assoc, tokens_append h.brackets hopening,
    tokens_append (unclosed_notMem_group h.nonempty h.isAlternative)
      (endBefore_group h.nonempty h.isAlternative behind)]

/-- The parts of a well-formed pattern with a group are well formed. -/
theorem wellFormed_parts (h : IsGroup before alternatives)
    (hwell : WellFormed (before ++ group alternatives ++ behind)) :
    WellFormed before ∧ (∀ p ∈ alternatives, WellFormed p) ∧ WellFormed behind := by
  have hsound := hwell.sound
  have hclosed := hwell.closed
  rw [h.tokens_eq] at hsound hclosed
  obtain ⟨hbefore, hafter⟩ := List.forall_mem_append.mp hsound
  obtain ⟨hgroup, hbehind⟩ := List.forall_mem_append.mp hafter
  have halternatives : ∀ p ∈ alternatives, WellFormed p := by
    intro p hp
    refine (h.isAlternative p hp).wellFormed fun t ht ↦ ?_
    exact hgroup t (List.mem_cons_of_mem _ (mem_tokens_alternation h.isAlternative hp ht))
  refine ⟨⟨hbefore, h.braces⟩, halternatives, hbehind, ?_⟩
  rwa [depthAfter_append, h.braces, depthAfter_append,
    (wellFormed_group h.nonempty h.isAlternative halternatives).closed] at hclosed

/-- **A pattern with a group** accepts the paths that are put together from those of its parts. -/
theorem accepted_eq (h : IsGroup before alternatives) (hbefore : WellFormed before)
    (hall : ∀ p ∈ alternatives, WellFormed p) (hbehind : WellFormed behind) :
    WellFormed (before ++ group alternatives ++ behind) ∧
      accepted (before ++ group alternatives ++ behind)
        = accepted before * (alternatives.map accepted).sum * accepted behind := by
  have hgroup := wellFormed_group h.nonempty h.isAlternative hall
  have hends := endBefore_group h.nonempty h.isAlternative behind
  have hopening : EndBefore (tokens before) (group alternatives ++ behind) :=
    endBefore_cons (by decide) (by decide) _ _
  rw [List.append_assoc]
  refine ⟨hbefore.append (hgroup.append hbehind hends) hopening, ?_⟩
  rw [accepted_append hbefore (hgroup.append hbehind hends) hopening,
    accepted_append hgroup hbehind hends, accepted_group h.nonempty h.isAlternative hall, mul_assoc]

/-- One of the alternatives alone in the braces is a group as well. -/
theorem single (h : IsGroup before alternatives) {p : List Char} (hp : p ∈ alternatives) :
    IsGroup before [p] where
  brackets := h.brackets
  braces := h.braces
  nonempty := List.cons_ne_nil p []
  isAlternative := List.forall_mem_singleton.mpr (h.isAlternative p hp)

end IsGroup

theorem mem_sum_map {f : List Char → Language Char} {alternatives : List (List Char)}
    {path : List Char} :
    path ∈ (alternatives.map f).sum ↔ ∃ p ∈ alternatives, path ∈ f p := by
  induction alternatives with
  | nil => simp [Language.notMem_zero]
  | cons p rest ih => simp [Language.mem_add, ih]

theorem WellFormed.exists_accepts_eq_ok {pattern : List Char} (h : WellFormed pattern)
    (path : List Char) : ∃ found, accepts pattern path = .ok found := by
  obtain ⟨e, he⟩ := (accepts_iff_mem_language h).1
  exact ⟨_, accepts_of_compile he path⟩

/-- Well-formed patterns that accept the same paths answer alike. -/
theorem accepts_congr {s t : List Char} (hs : WellFormed s) (ht : WellFormed t)
    (h : accepted s = accepted t) (path : List Char) : accepts s path = accepts t path := by
  obtain ⟨found, hfound⟩ := hs.exists_accepts_eq_ok path
  obtain ⟨found', hfound'⟩ := ht.exists_accepts_eq_ok path
  have hiff : accepts s path = .ok true ↔ accepts t path = .ok true := by
    rw [← mem_accepted, h, mem_accepted]
  rw [hfound, hfound', Except.ok.injEq, Except.ok.injEq] at hiff
  rw [hfound, hfound', Bool.eq_iff_iff.mpr hiff]

/-- **A group accepts what its alternatives accept in its place.** Any well-formed pattern with a
group accepts a path exactly if it does with one of the alternatives alone in the braces. Without
the braces this alternative accepts the same paths, if what stands before it and it itself end
before what follows them. -/
theorem accepts_group_iff {before behind : List Char} {alternatives : List (List Char)}
    (hwell : WellFormed (before ++ group alternatives ++ behind))
    (hgroup : IsGroup before alternatives) (path : List Char) :
    (∃ found, accepts (before ++ group alternatives ++ behind) path = .ok found ∧
      (found = true ↔
        ∃ p ∈ alternatives, accepts (before ++ group [p] ++ behind) path = .ok true)) ∧
    ∀ p ∈ alternatives,
      EndBefore (tokens before) (p ++ behind) → EndBefore (tokens p) behind →
        accepts (before ++ p ++ behind) path = accepts (before ++ group [p] ++ behind) path := by
  obtain ⟨hbefore, hall, hbehind⟩ := hgroup.wellFormed_parts hwell
  have hsingle {p : List Char} (hp : p ∈ alternatives) :
      WellFormed (before ++ group [p] ++ behind) ∧
        accepted (before ++ group [p] ++ behind)
          = accepted before * accepted p * accepted behind := by
    have heq := (hgroup.single hp).accepted_eq hbefore
      (List.forall_mem_singleton.mpr (hall p hp)) hbehind
    rwa [List.map_singleton, List.sum_singleton] at heq
  constructor
  · obtain ⟨found, hfound⟩ := hwell.exists_accepts_eq_ok path
    refine ⟨found, hfound, ?_⟩
    calc found = true
        ↔ path ∈ accepted (before ++ group alternatives ++ behind) := by
          rw [mem_accepted, hfound, Except.ok.injEq]
      _ ↔ path ∈ (alternatives.map fun p ↦ accepted before * accepted p * accepted behind).sum := by
          rw [(hgroup.accepted_eq hbefore hall hbehind).2, List.sum_map_mul_right,
            List.sum_map_mul_left]
      _ ↔ ∃ p ∈ alternatives, path ∈ accepted before * accepted p * accepted behind := mem_sum_map
      _ ↔ ∃ p ∈ alternatives, accepts (before ++ group [p] ++ behind) path = .ok true := by
          refine exists_congr fun p ↦ and_congr_right fun hp ↦ ?_
          rw [← (hsingle hp).2, mem_accepted]
  · intro p hp hleft hright
    have hrest := (hall p hp).append hbehind hright
    apply accepts_congr
    · rw [List.append_assoc]
      exact hbefore.append hrest hleft
    · exact (hsingle hp).1
    · rw [(hsingle hp).2, List.append_assoc, accepted_append hbefore hrest hleft,
        accepted_append (hall p hp) hbehind hright, mul_assoc]

/-- A group in the middle of a pattern, with a group and a bracket in its alternatives, one of which
is empty. The path is taken by the second of them, whose braces can go. -/
theorem accepts_group_threeAlternatives :
    (∃ p ∈ ["[,\x7b]*".toList, "t?\x7b,[a-z]\x7d".toList, []],
      accepts ("**/x-".toList ++ group [p] ++ ".cs".toList) "src/x-t1z.cs".toList = .ok true) ∧
    accepts ("**/x-".toList ++ "t?\x7b,[a-z]\x7d".toList ++ ".cs".toList) "src/x-t1z.cs".toList
      = accepts ("**/x-".toList ++ group ["t?\x7b,[a-z]\x7d".toList] ++ ".cs".toList)
        "src/x-t1z.cs".toList := by
  have hgroup : IsGroup "**/x-".toList ["[,\x7b]*".toList, "t?\x7b,[a-z]\x7d".toList, []] :=
    ⟨by decide, by decide, by decide, by decide⟩
  have hwell : WellFormed ("**/x-".toList
      ++ group ["[,\x7b]*".toList, "t?\x7b,[a-z]\x7d".toList, []] ++ ".cs".toList) := by
    decide
  obtain ⟨⟨found, hfound, hiff⟩, hsame⟩ :=
    accepts_group_iff hwell hgroup "src/x-t1z.cs".toList
  have hcomputed : accepts ("**/x-".toList
      ++ group ["[,\x7b]*".toList, "t?\x7b,[a-z]\x7d".toList, []] ++ ".cs".toList)
      "src/x-t1z.cs".toList = .ok true := by
    decide +kernel
  rw [hcomputed] at hfound
  cases hfound
  exact ⟨hiff.mp rfl, hsame _ (by simp) (by decide) (by decide)⟩

/-- An asterisk before a group and one in it stay within a segment. Without the braces they are two
asterisks, which do not. -/
theorem not_accepts_joinedAsterisks :
    ¬∀ (before behind : List Char) (alternatives : List (List Char)) (path : List Char),
      WellFormed (before ++ group alternatives ++ behind) → IsGroup before alternatives →
        (accepts (before ++ group alternatives ++ behind) path = .ok true ↔
          ∃ p ∈ alternatives, accepts (before ++ p ++ behind) path = .ok true) := by
  intro h
  have hgroup : IsGroup ['*'] [['*']] := ⟨by decide, by decide, by decide, by decide⟩
  have hexpanded : accepts (['*'] ++ ['*'] ++ []) "a/b".toList = .ok true := by decide +kernel
  have hgrouped := (h ['*'] [] [['*']] "a/b".toList (by decide) hgroup).mpr
    ⟨['*'], List.mem_singleton_self _, hexpanded⟩
  have hrefused : accepts (['*'] ++ group [['*']] ++ []) "a/b".toList = .ok false := by
    decide +kernel
  rw [hrefused] at hgrouped
  cases hgrouped

end CompletionServer.Glob
