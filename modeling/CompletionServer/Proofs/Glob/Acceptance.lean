import CompletionServer.Glob.Matching
import CompletionServer.Proofs.Glob.Nesting

/-!
# What patterns accept

A well-formed pattern accepts exactly the paths of its language, among those without line feeds,
`accepts_iff_mem_language`. The expression that is read stands for the language that was read so far
at every place of the pattern, `Reads.means`. Line feeds are left out since what accepts any
character in an expression accepts no line feed.
-/

namespace CompletionServer.Glob

/-! ## Paths without line feeds -/

/-- That two languages have the same texts among those without line feeds. -/
def Agree (L M : Language Char) : Prop := ∀ s : List Char, '\n' ∉ s → (s ∈ L ↔ s ∈ M)

namespace Agree

variable {L L' M M' : Language Char}

theorem refl (L : Language Char) : Agree L L := fun _ _ ↦ Iff.rfl

theorem trans {N : Language Char} (h : Agree L M) (h' : Agree M N) : Agree L N :=
  fun s hs ↦ (h s hs).trans (h' s hs)

theorem add (h : Agree L L') (h' : Agree M M') : Agree (L + M) (L' + M') := by
  intro s hs
  rw [Language.mem_add, Language.mem_add, h s hs, h' s hs]

theorem mul (h : Agree L L') (h' : Agree M M') : Agree (L * M) (L' * M') := by
  intro s hs
  rw [Language.mem_mul, Language.mem_mul]
  constructor
  · rintro ⟨t, ht, u, hu, rfl⟩
    rw [List.mem_append, not_or] at hs
    exact ⟨t, (h t hs.1).mp ht, u, (h' u hs.2).mp hu, rfl⟩
  · rintro ⟨t, ht, u, hu, rfl⟩
    rw [List.mem_append, not_or] at hs
    exact ⟨t, (h t hs.1).mpr ht, u, (h' u hs.2).mpr hu, rfl⟩

end Agree

/-! ## Languages of expressions -/

/-- The texts that an expression accepts. -/
def Expr.language (e : Expr) : Language Char := {s | e.Accepts s}

theorem Expr.mem_language {e : Expr} {s : List Char} : s ∈ e.language ↔ e.Accepts s := Iff.rfl

theorem Expr.language_empty : Expr.language .empty = 1 := by
  ext s
  rw [Expr.mem_language, Expr.accepts_empty_iff, Language.mem_one]

theorem Expr.language_seq (e f : Expr) : (Expr.seq e f).language = e.language * f.language := by
  ext s
  rw [Expr.mem_language, Expr.accepts_seq_iff, Language.mem_mul]
  constructor
  · rintro ⟨t, u, rfl, ht, hu⟩
    exact ⟨t, ht, u, hu, rfl⟩
  · rintro ⟨t, ht, u, hu, rfl⟩
    exact ⟨t, u, rfl, ht, hu⟩

theorem Expr.language_alt (e f : Expr) : (Expr.alt e f).language = e.language + f.language := by
  ext s
  rw [Expr.mem_language, Expr.accepts_alt_iff, Language.mem_add]
  rfl

/-! ## Tokens -/

theorem mem_language_one {k : CharClass} {s : List Char} :
    s ∈ (Expr.one k).language ↔ ∃ c, s = [c] ∧ k.has c = true := Expr.accepts_one_iff

theorem mem_language_many_except {c : Char} {s : List Char} :
    s ∈ (Expr.many (.except c)).language ↔ c ∉ s := by
  rw [Expr.mem_language, Expr.accepts_many_iff]
  simp only [CharClass.has_except, bne_iff_ne]
  exact ⟨fun h hc ↦ h c hc rfl, fun h d hd hdc ↦ h (hdc ▸ hd)⟩

theorem language_one_one (c : Char) : (Expr.one (.one c)).language = {[c]} := by
  ext s
  rw [mem_language_one]
  simp only [CharClass.has_one, beq_iff_eq]
  exact ⟨fun ⟨_, hs, hc⟩ ↦ hc ▸ hs, fun hs ↦ ⟨c, hs, rfl⟩⟩

/-- What is written for leading segments takes nothing, or any text up to a slash, but no line
feed. -/
theorem mem_language_leading {s : List Char} :
    s ∈ Token.deep.expr.language ↔ s = [] ∨ ∃ before, s = before ++ ['/'] ∧ '\n' ∉ before := by
  rw [Token.expr, Expr.language_alt, Expr.language_seq, Expr.language_seq, Expr.language_empty,
    mul_one, language_one_one, Language.mem_add, Language.mem_mul, Language.mem_one, or_comm]
  refine or_congr Iff.rfl ?_
  constructor
  · rintro ⟨before, hbefore, slash, rfl, rfl⟩
    exact ⟨before, rfl, mem_language_many_except.mp hbefore⟩
  · rintro ⟨before, rfl, hbefore⟩
    exact ⟨before, mem_language_many_except.mpr hbefore, ['/'], rfl, rfl⟩

/-- Leading segments. Without line feeds, any text may stand before the slash. -/
theorem agree_deep : Agree Token.deep.language Token.deep.expr.language := by
  intro s hs
  rw [mem_language_leading]
  refine or_congr Iff.rfl (exists_congr fun t ↦ ?_)
  exact ⟨fun ht ↦ ⟨ht, fun h ↦ hs (ht ▸ List.mem_append_left _ h)⟩, And.left⟩

/-- **The expression of a token** accepts what the token stands for. -/
theorem Token.agree_expr {depth : ℕ} {t : Token} (hatom : t.IsAtom depth) (horder : t.InOrder) :
    Agree t.language t.expr.language := by
  cases t with
  | opening => cases hatom
  | unclosed => cases horder
  | deep => exact agree_deep
  | anything =>
    intro s hs
    exact ⟨fun _ ↦ mem_language_many_except.mpr hs, fun _ ↦ trivial⟩
  | within =>
    intro s _
    exact mem_language_many_except.symm
  | single =>
    intro s _
    change (∃ c, c ≠ '/' ∧ s = [c]) ↔ s ∈ (Expr.one (.except '/')).language
    simp only [mem_language_one, CharClass.has_except, bne_iff_ne, and_comm]
  | bracket body =>
    intro s _
    change (∃ c, bracketHas c body = true ∧ s = [c]) ↔ s ∈ (Expr.one (classOf body)).language
    simp only [mem_language_one, has_classOf, and_comm]
  | closing | comma | char c =>
    rw [Token.expr, language_one_one]
    exact .refl _

/-! ## Open groups -/

/-- That two open groups stand for the same texts without line feeds. -/
structure OpenGroup.Agrees (g g' : OpenGroup) : Prop where
  before : Agree g.before g'.before
  alternatives : Agree g.alternatives g'.alternatives

theorem OpenGroup.Agrees.refl (g : OpenGroup) : g.Agrees g := ⟨.refl _, .refl _⟩

theorem languageFrom_congr {groups groups' : List OpenGroup} {read read' : Language Char}
    (hgroups : List.Forall₂ OpenGroup.Agrees groups groups') (hread : Agree read read')
    (ts : List Token) : Agree (languageFrom groups read ts) (languageFrom groups' read' ts) := by
  induction ts generalizing groups groups' read read' with
  | nil => exact hread
  | cons t ts ih =>
    by_cases hatom : t.IsAtom groups.length
    · rw [languageFrom_atom hatom, languageFrom_atom (hgroups.length_eq ▸ hatom)]
      exact ih hgroups (hread.mul (.refl _))
    · cases t with
      | opening => exact ih (.cons ⟨hread, .refl _⟩ hgroups) (.refl _)
      | closing =>
        cases hgroups with
        | nil => exact absurd rfl hatom
        | cons hg hgroups => exact ih hgroups (hg.before.mul (hg.alternatives.add hread))
      | comma =>
        cases hgroups with
        | nil => exact absurd rfl hatom
        | cons hg hgroups =>
          exact ih (.cons ⟨hg.before, hg.alternatives.add hread⟩ hgroups) (.refl _)
      | _ => exact absurd trivial hatom

theorem Agree.languageFrom {read read' : Language Char} (h : Agree read read')
    (groups : List OpenGroup) (ts : List Token) :
    Agree (languageFrom groups read ts) (languageFrom groups read' ts) :=
  languageFrom_congr (List.forall₂_same.mpr fun g _ ↦ .refl g) h ts

/-! ## Nested groups -/

/-- That an expression stands for the texts of a part: those of a sequence follow what was read
before, and those of alternatives follow what stands before their group, together with the
alternatives found already. -/
def Part.IsMeant : Part → (groups : List OpenGroup) → List Token → Expr → (left : List Token) → Prop
  | .sequence, groups, ts, e, left => ∀ read,
    Agree (languageFrom groups read ts) (languageFrom groups (read * e.language) left)
  | .alternatives, groups, ts, e, left => ∀ before found,
    Agree (languageFrom (⟨before, found⟩ :: groups) 1 ts)
      (languageFrom groups (before * (found + e.language)) left)

/-- **What is read for a part** stands for the texts of its tokens. -/
theorem Reads.means {part : Part} {depth : ℕ} {ts left : List Token} {e : Expr}
    (h : Reads part depth ts e left) (horder : ∀ t ∈ ts, t.InOrder) (groups : List OpenGroup)
    (hgroups : groups.length = depth) : part.IsMeant groups ts e left := by
  induction h generalizing groups with
  | nil | closing | comma =>
    intro read
    rw [Expr.language_empty, mul_one]
    exact .refl _
  | @atom depth t ts left e ht _ ih =>
    have hts : ∀ t ∈ ts, t.InOrder := fun t ht ↦ horder t (List.mem_cons_of_mem _ ht)
    intro read
    have hread : Agree (read * t.language * e.language) (read * (Expr.seq t.expr e).language) := by
      rw [Expr.language_seq, mul_assoc]
      exact (Agree.refl read).mul
        ((Token.agree_expr ht (horder t List.mem_cons_self)).mul (.refl e.language))
    rw [languageFrom_atom (hgroups ▸ ht)]
    exact (ih hts groups hgroups (read * t.language)).trans (hread.languageFrom groups left)
  | @group depth ts rest left inner e hinner h ihinner ih =>
    have hts : ∀ t ∈ ts, t.InOrder := fun t ht ↦ horder t (List.mem_cons_of_mem _ ht)
    have hrest : ∀ t ∈ rest, t.InOrder := fun t ht ↦ hts t (hinner.suffix.subset ht)
    intro read
    have hgroup := ihinner hts groups hgroups read 0
    rw [zero_add] at hgroup
    rw [Expr.language_seq, ← mul_assoc]
    exact hgroup.trans (ih hrest groups hgroups (read * inner.language))
  | last h ih =>
    intro before found
    have hread := ih horder (⟨before, found⟩ :: groups) (congrArg (· + 1) hgroups) 1
    rwa [one_mul] at hread
  | @more depth ts rest left e f h hrest ih ihrest =>
    have hts : ∀ t ∈ rest, t.InOrder :=
      fun t ht ↦ horder t (h.suffix.subset (List.mem_cons_of_mem _ ht))
    intro before found
    have hread := ih horder (⟨before, found⟩ :: groups) (congrArg (· + 1) hgroups) 1
    rw [one_mul] at hread
    rw [Expr.language_alt, ← add_assoc]
    exact hread.trans (ihrest hts groups hgroups before (found + e.language))

/-! ## Whole patterns -/

/-- A pattern whose tokens are a sequence compiles to the expression of this. -/
theorem compile_eq_ok {pattern : List Char} {e : Expr} (hwell : WellFormed pattern)
    (h : Reads .sequence 0 (tokens pattern) e []) : compile pattern = .ok e := by
  have hparses : Parses (written 0 (tokens pattern)) e [] :=
    h.parses (List.append_nil _).symm hwell.inOrder fun hmem ↦ hwell.inOrder _ hmem
  have hall : ParsesAll (written 0 (tokens pattern)) e [] := .last hparses (by simp)
  have hexpression : expression (written 0 (tokens pattern)) = .ok e := by
    rw [expression, hall _ (Nat.le_refl _)]
    rfl
  rw [compile, hwell.spelled_eq]
  change (expression (written 0 (tokens pattern))).mapError _ = _
  rw [hexpression]
  rfl

theorem accepts_eq_ok_true_iff {pattern : List Char} {e : Expr} (h : compile pattern = .ok e)
    {path : List Char} : accepts pattern path = .ok true ↔ e.Accepts path := by
  rw [accepts_of_compile h, Except.ok.injEq, Expr.accepts_eq_true_iff]

/-- **What a pattern accepts.** A well-formed pattern compiles, and it accepts a path without line
feeds exactly if the path belongs to the language of the pattern. -/
theorem accepts_iff_mem_language {pattern : List Char} (hwell : WellFormed pattern) :
    (∃ e, compile pattern = .ok e) ∧ ∀ path : List Char, '\n' ∉ path →
      ∃ accepted, accepts pattern path = .ok accepted ∧
        (accepted = true ↔ path ∈ language pattern) := by
  obtain ⟨e, left, h⟩ := (exists_reads (Nat.le_refl _)).1 hwell.closed
  obtain rfl := h.left_eq_nil
  have hcompile := compile_eq_ok hwell h
  refine ⟨⟨e, hcompile⟩, fun path hpath ↦ ⟨e.accepts path, ?_, ?_⟩⟩
  · rw [accepts, hcompile]
    rfl
  · have hmeans : Agree (language pattern) (1 * e.language) := h.means hwell.inOrder [] rfl 1
    rw [one_mul] at hmeans
    rw [Expr.accepts_eq_true_iff, hmeans path hpath]
    exact Iff.rfl

/-- A group in a group, brackets in both, and a brace that closes nothing. -/
theorem mem_language_nestedGroups :
    WellFormed "**/\x7bsrc\x7b,-?\x7d/[!0-9]\x7d,[^\\]*\x7d\x7d".toList ∧
      "lib/core/src-1/a,^z\x7d\x7d".toList ∈
        language "**/\x7bsrc\x7b,-?\x7d/[!0-9]\x7d,[^\\]*\x7d\x7d".toList := by
  have hwell : WellFormed "**/\x7bsrc\x7b,-?\x7d/[!0-9]\x7d,[^\\]*\x7d\x7d".toList := by decide
  obtain ⟨accepted, haccepts, hiff⟩ :=
    (accepts_iff_mem_language hwell).2 "lib/core/src-1/a,^z\x7d\x7d".toList (by decide)
  have hcomputed : accepts "**/\x7bsrc\x7b,-?\x7d/[!0-9]\x7d,[^\\]*\x7d\x7d".toList
      "lib/core/src-1/a,^z\x7d\x7d".toList = .ok true := by
    decide +kernel
  rw [hcomputed] at haccepts
  cases haccepts
  exact ⟨hwell, hiff.mp rfl⟩

end CompletionServer.Glob
