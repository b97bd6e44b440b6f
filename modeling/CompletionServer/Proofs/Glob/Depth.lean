import CompletionServer.Proofs.Glob.Acceptance

/-!
# Patterns at any depth

Two asterisks and a slash before a pattern let it accept a path at any depth: the path itself, or
what follows one of its slashes. How this composes with the pattern is not visible from the languages
of patterns, which leave line feeds out, so it is read off the expressions.

The group that is written for the asterisks takes every character but a line feed. A pattern
therefore accepts what follows a slash only if no line feed stands before that slash,
`accepts_at_depth_iff`, although one asterisk alone would take it: `not_accepts_behind_lineFeed`.
-/

namespace CompletionServer.Glob

/-! ## Expressions -/

/-- Behind leading segments an expression accepts a text, or what follows one of its slashes. -/
theorem Expr.accepts_seq_leading_iff {e : Expr} {s : List Char} :
    (Expr.seq Token.deep.expr e).Accepts s ↔ e.Accepts s ∨
      ∃ before behind, s = before ++ '/' :: behind ∧ '\n' ∉ before ∧ e.Accepts behind := by
  rw [Expr.accepts_seq_iff]
  constructor
  · rintro ⟨leading, behind, rfl, hleading, hbehind⟩
    rcases mem_language_leading.mp hleading with rfl | ⟨before, rfl, hbefore⟩
    · exact .inl hbehind
    · exact .inr ⟨before, behind, by rw [List.append_assoc]; rfl, hbefore, hbehind⟩
  · rintro (h | ⟨before, behind, rfl, hbefore, hbehind⟩)
    · exact ⟨[], s, rfl, mem_language_leading.mpr (.inl rfl), h⟩
    · refine ⟨before ++ ['/'], behind, by rw [List.append_assoc]; rfl, ?_, hbehind⟩
      exact mem_language_leading.mpr (.inr ⟨before, rfl, hbefore⟩)

/-! ## Patterns -/

theorem tokens_deep (pattern : List Char) :
    tokens ("**/".toList ++ pattern) = .deep :: tokens pattern := rfl

theorem WellFormed.deep {pattern : List Char} (h : WellFormed pattern) :
    WellFormed ("**/".toList ++ pattern) where
  sound := by
    rw [tokens_deep]
    exact List.forall_mem_cons.mpr ⟨rfl, h.sound⟩
  closed := by
    rw [tokens_deep]
    exact h.closed

/-- The expression of a well-formed pattern, alone and behind leading segments. -/
theorem WellFormed.exists_compile_deep {pattern : List Char} (h : WellFormed pattern) :
    ∃ e, compile pattern = .ok e ∧
      compile ("**/".toList ++ pattern) = .ok (.seq Token.deep.expr e) := by
  obtain ⟨e, left, hreads⟩ := (exists_reads (Nat.le_refl _)).1 h.closed
  obtain rfl := hreads.left_eq_nil
  refine ⟨e, compile_eq_ok h hreads, compile_eq_ok h.deep ?_⟩
  rw [tokens_deep]
  exact .atom trivial hreads

/-- **A pattern at any depth.** With two asterisks and a slash before it, a well-formed pattern
accepts a path exactly if it accepts the whole path, or what follows a slash that no line feed stands
before. -/
theorem accepts_at_depth_iff {pattern : List Char} (hwell : WellFormed pattern)
    (path : List Char) :
    ∃ accepted, accepts ("**/".toList ++ pattern) path = .ok accepted ∧
      (accepted = true ↔ accepts pattern path = .ok true ∨
        ∃ before behind, path = before ++ '/' :: behind ∧ '\n' ∉ before ∧
          accepts pattern behind = .ok true) := by
  obtain ⟨e, he, hdeep⟩ := hwell.exists_compile_deep
  refine ⟨_, accepts_of_compile hdeep path, ?_⟩
  rw [Expr.accepts_eq_true_iff, Expr.accepts_seq_leading_iff]
  simp only [accepts_eq_ok_true_iff he]

/-- A file two segments down, with a line feed in its own name. -/
theorem accepts_at_depth_twoSegments :
    WellFormed "[A-Z]*.\x7bcs,csx\x7d".toList ∧
      accepts "**/[A-Z]*.\x7bcs,csx\x7d".toList "src/app/Main\n.cs".toList = .ok true := by
  have hwell : WellFormed "[A-Z]*.\x7bcs,csx\x7d".toList := by decide
  obtain ⟨accepted, haccepts, hiff⟩ :=
    accepts_at_depth_iff hwell "src/app/Main\n.cs".toList
  have hbehind : accepts "[A-Z]*.\x7bcs,csx\x7d".toList "Main\n.cs".toList = .ok true := by
    decide +kernel
  have haccepted : accepted = true :=
    hiff.mpr (.inr ⟨"src/app".toList, "Main\n.cs".toList, rfl, by decide, hbehind⟩)
  exact ⟨hwell, haccepts.trans (congrArg Except.ok haccepted)⟩

/-- A directory with a line feed in its name hides all that is in it. -/
theorem not_accepts_behind_lineFeed :
    ¬∀ pattern path : List Char, WellFormed pattern →
      (accepts ("**/".toList ++ pattern) path = .ok true ↔
        accepts pattern path = .ok true ∨
          ∃ before behind, path = before ++ '/' :: behind ∧ accepts pattern behind = .ok true) := by
  intro h
  have hbehind : accepts "*.cs".toList "x.cs".toList = .ok true := by decide +kernel
  have hdeep := (h "*.cs".toList "a\nb/x.cs".toList (by decide)).mpr
    (.inr ⟨"a\nb".toList, "x.cs".toList, rfl, hbehind⟩)
  have hrefused : accepts ("**/".toList ++ "*.cs".toList) "a\nb/x.cs".toList = .ok false := by
    decide +kernel
  rw [hrefused] at hdeep
  cases hdeep

end CompletionServer.Glob
