import CompletionServer.Proofs.Glob.Acceptance
import CompletionServer.Proofs.Glob.Rejection

/-!
# Slashes in accepted paths

A pattern with no slash of its own and no two asterisks in a row stays within one segment of a path,
but for its brackets: these take any character that they say, and a slash is one. Ranges may hold it
(it stands between the point and the zero), and what is negated holds it unless it is listed.

So the slashes of an accepted path are counted against the brackets that take one. No more than one
token is used up for each, however the groups are nested, `slashes_are_of_brackets`.
-/

namespace CompletionServer.Glob

/-! ## What tokens are written as -/

/-- That the characters a token is made of are in a text. -/
def Token.IsFrom (text : List Char) : Token → Prop
  | .deep => '/' ∈ text
  | .anything => ['*', '*'] <:+: text
  | .char c => c ∈ text
  | _ => True

theorem Token.IsFrom.cons {text : List Char} {t : Token} (h : t.IsFrom text) (c : Char) :
    t.IsFrom (c :: text) := by
  cases t with
  | deep => exact List.mem_cons_of_mem c h
  | anything => exact h.trans (List.suffix_cons c text).isInfix
  | char d => exact List.mem_cons_of_mem c h
  | _ => trivial

theorem isFrom_of_mem_tokensFrom {body : Option (List Char)} {text : List Char} {t : Token}
    (h : t ∈ tokensFrom body text) : t.IsFrom text := by
  fun_induction tokensFrom body text with
  | case1 =>
    obtain rfl := List.mem_singleton.mp h
    trivial
  | case4 => cases h
  | case3 read c rest hc ih => exact (ih h).cons c
  | case12 rest ih => exact (ih h).cons '['
  | case5 rest ih =>
    rcases List.mem_cons.mp h with rfl | h
    · exact List.mem_cons_of_mem _ (List.mem_cons_of_mem _ List.mem_cons_self)
    · exact (((ih h).cons '/').cons '*').cons '*'
  | case6 rest hdeep ih =>
    rcases List.mem_cons.mp h with rfl | h
    · exact (List.prefix_append ['*', '*'] rest).isInfix
    · exact ((ih h).cons '*').cons '*'
  | case13 c rest _ _ _ _ _ _ _ _ ih =>
    rcases List.mem_cons.mp h with rfl | h
    · exact List.mem_cons_self
    · exact (ih h).cons c
  | case2 _ rest ih | case7 rest _ _ ih | case8 rest ih | case9 rest ih | case10 rest ih
  | case11 rest ih =>
    rcases List.mem_cons.mp h with rfl | h
    · trivial
    · exact (ih h).cons _

/-! ## Slashes -/

/-- Whether the one character that a token stands for may be a slash. -/
def Token.takesSlash : Token → Bool
  | .bracket body => bracketHas '/' body
  | .char c => c == '/'
  | _ => false

/-- That a token stays within a segment, or is a single character. -/
def Token.IsNarrow (t : Token) : Prop := t ≠ .deep ∧ t ≠ .anything

theorem count_slash_le_of_one {k : CharClass} {s : List Char} (h : (Expr.one k).Accepts s) :
    s.count '/' ≤ if k.has '/' then 1 else 0 := by
  obtain ⟨c, rfl, hc⟩ := Expr.accepts_one_iff.mp h
  by_cases hslash : c = '/'
  · subst hslash
    rw [hc]
    exact Nat.le_refl 1
  · rw [List.count_eq_zero.mpr (by simpa using Ne.symm hslash)]
    exact Nat.zero_le _

/-- **One token** takes at most one slash. -/
theorem Token.IsNarrow.count_slash_le {t : Token} (ht : t.IsNarrow) {s : List Char}
    (h : t.expr.Accepts s) : s.count '/' ≤ if t.takesSlash then 1 else 0 := by
  -- Each class that is written for a token has a slash exactly if the token takes one.
  cases t with
  | deep => exact absurd rfl ht.1
  | anything => exact absurd rfl ht.2
  | opening | unclosed =>
    obtain rfl := Expr.accepts_empty_iff.mp h
    exact Nat.le_refl 0
  | within =>
    have hnone : '/' ∉ s := mem_language_many_except.mp h
    rw [List.count_eq_zero.mpr hnone]
    exact Nat.zero_le _
  | bracket body =>
    rw [takesSlash, ← has_classOf]
    exact count_slash_le_of_one h
  | char c =>
    have hle := count_slash_le_of_one h
    rwa [CharClass.has_one, BEq.comm] at hle
  | single | closing | comma => exact count_slash_le_of_one h

/-- **Parts of tokens** take as many slashes as there are tokens used up that take one. -/
theorem Reads.count_slash_le {part : Part} {depth : ℕ} {ts left : List Token} {e : Expr}
    (h : Reads part depth ts e left) (hnarrow : ∀ t ∈ ts, t.IsNarrow) {s : List Char}
    (hs : e.Accepts s) :
    s.count '/' + left.countP Token.takesSlash ≤ ts.countP Token.takesSlash := by
  induction h generalizing s with
  | nil | closing | comma =>
    obtain rfl := Expr.accepts_empty_iff.mp hs
    exact Nat.le_of_eq (Nat.zero_add _)
  | @atom depth t ts left e ht h ih =>
    obtain ⟨ht', hts⟩ := List.forall_mem_cons.mp hnarrow
    obtain ⟨u, v, rfl, hu, hv⟩ := Expr.accepts_seq_iff.mp hs
    have hfirst := ht'.count_slash_le hu
    have hrest := ih hts hv
    rw [List.count_append, List.countP_cons]
    omega
  | @group depth ts rest left inner e hinner h ihinner ih =>
    obtain ⟨-, hts⟩ := List.forall_mem_cons.mp hnarrow
    obtain ⟨u, v, rfl, hu, hv⟩ := Expr.accepts_seq_iff.mp hs
    have hgroup := ihinner hts hu
    have hrest := ih (fun t ht ↦ hts t (hinner.suffix.subset ht)) hv
    rw [List.count_append, List.countP_cons]
    omega
  | @last depth ts left e h ih =>
    have hclosing := ih hnarrow hs
    rwa [List.countP_cons_of_neg (by decide)] at hclosing
  | @more depth ts rest left e f h hrest ih ihrest =>
    have hmem : ∀ t ∈ rest, t ∈ ts := fun t ht ↦
      h.suffix.subset (List.mem_cons_of_mem _ ht)
    have hrestle : rest.countP Token.takesSlash ≤ ts.countP Token.takesSlash :=
      ((List.suffix_cons _ _).trans h.suffix).sublist.countP_le
    have hleftle : left.countP Token.takesSlash ≤ rest.countP Token.takesSlash :=
      hrest.suffix.sublist.countP_le
    rcases Expr.accepts_alt_iff.mp hs with hs | hs
    · have hfirst := ih hnarrow hs
      rw [List.countP_cons_of_neg (by decide)] at hfirst
      omega
    · have hother := ihrest (fun t ht ↦ hnarrow t (hmem t ht)) hs
      omega

/-! ## Whole patterns -/

/-- **The slashes of an accepted path** are no more than the brackets that take one, if the pattern
has no slash of its own and no two asterisks in a row, and no empty bracket of it overruns. Without
such a bracket no path with a slash is accepted. -/
theorem slashes_are_of_brackets {pattern : List Char} {e : Expr} (hcompile : compile pattern = .ok e)
    (hover : ¬Overruns pattern) (hslash : '/' ∉ pattern) (hasterisks : ¬['*', '*'] <:+: pattern)
    (path : List Char) :
    ∃ found, accepts pattern path = .ok found ∧
      (found = true → path.count '/' ≤ (tokens pattern).countP Token.takesSlash) ∧
      ((∀ body, .bracket body ∈ tokens pattern → bracketHas '/' body = false) → '/' ∈ path →
        found = false) := by
  have hwell : WellFormed pattern := by
    by_contra hwell
    obtain ⟨stop, hstop⟩ := exists_compile_eq_error hwell hover
    rw [hcompile] at hstop
    cases hstop
  have hfrom : ∀ t ∈ tokens pattern, t.IsFrom pattern := fun t ht ↦ isFrom_of_mem_tokensFrom ht
  have hnarrow : ∀ t ∈ tokens pattern, t.IsNarrow := by
    intro t ht
    constructor
    · rintro rfl
      exact hslash (hfrom _ ht)
    · rintro rfl
      exact hasterisks (hfrom _ ht)
  have hcount {path : List Char} (h : accepts pattern path = .ok true) :
      path.count '/' ≤ (tokens pattern).countP Token.takesSlash := by
    obtain ⟨f, left, hreads⟩ := (exists_reads (Nat.le_refl _)).1 hwell.closed
    obtain rfl := hreads.left_eq_nil
    exact hreads.count_slash_le hnarrow
      ((accepts_eq_ok_true_iff (compile_eq_ok hwell hreads)).mp h)
  refine ⟨_, accepts_of_compile hcompile path, ?_, ?_⟩
  · intro hfound
    exact hcount ((accepts_of_compile hcompile path).trans (congrArg Except.ok hfound))
  · intro hbrackets hpath
    have hnone : (tokens pattern).countP Token.takesSlash = 0 := by
      rw [List.countP_eq_zero]
      intro t ht
      cases t with
      | bracket body => simpa [Token.takesSlash] using hbrackets body ht
      | char c =>
        have hc : c ≠ '/' := fun hc ↦ hslash (hc ▸ hfrom _ ht)
        simpa [Token.takesSlash] using hc
      | _ => exact Bool.false_ne_true
    by_contra hfound
    have haccepts := (accepts_of_compile hcompile path).trans
      (congrArg Except.ok (Bool.eq_true_of_not_eq_false hfound))
    have hzero := hcount haccepts
    rw [hnone, Nat.le_zero, List.count_eq_zero] at hzero
    exact hzero hpath

/-- Of two negated brackets one lists a range that holds the slash, so the other one alone can take
one. -/
theorem slashes_are_of_brackets_oneOfTwo :
    (∃ found, accepts "\x7b*[!.-9],?\x7d[!x]*".toList "ab/c/d".toList = .ok found ∧
      (found = true → 2 ≤ 1)) ∧
    accepts "\x7b*[!.-9],?\x7d[!x]*".toList "ab/c".toList = .ok true := by
  have hwell : WellFormed "\x7b*[!.-9],?\x7d[!x]*".toList := by decide
  obtain ⟨e, he⟩ := (accepts_iff_mem_language hwell).1
  obtain ⟨found, hfound, hcount, -⟩ := slashes_are_of_brackets he (by decide) (by decide) (by decide)
    "ab/c/d".toList
  exact ⟨⟨found, hfound, hcount⟩, by decide +kernel⟩

/-- A negated bracket takes the slash between two segments. -/
theorem not_refuses_slash_negatedBracket :
    ¬∀ (pattern path : List Char) (e : Expr), compile pattern = .ok e → '/' ∉ pattern →
      ¬['*', '*'] <:+: pattern → '/' ∈ path → accepts pattern path = .ok false := by
  intro h
  have hwell : WellFormed "a[!b]c".toList := by decide
  obtain ⟨e, he⟩ := (accepts_iff_mem_language hwell).1
  have hrefused := h "a[!b]c".toList "a/c".toList e he (by decide) (by decide) (by decide)
  have haccepted : accepts "a[!b]c".toList "a/c".toList = .ok true := by decide +kernel
  rw [haccepted] at hrefused
  cases hrefused

end CompletionServer.Glob
