import CompletionServer.Proofs.Config.Accepted
import CompletionServer.Proofs.Uri.Usable
import CompletionServer.Selector

/-!
# Selection in any order

A provider serves a document if one of its filters matches it, and so the order of the filters
should not matter. It does not for a document with a usable URI, `selects_any_order`. A text that is
not usable ends the selection at the first filter that looks at it, and a filter looks at it only if
the language is the one it asks for: there the order decides whether the selection ends before a
filter without further conditions is reached.
-/

namespace CompletionServer

variable {f : Filter} {filters : List Filter} {uri name : String} {scheme : Option String}
  {language : Option (List Text.Point)}

/-! ## Usable URIs -/

namespace Filter

/-- **That a filter matches a document** of this name, scheme and language. -/
structure Matches (f : Filter) (name : String) (scheme : Option String)
    (language : Option (List Text.Point)) : Prop where
  language : meets f.language language = true
  scheme : meets f.scheme (scheme.map Text.pointsOf) = true
  /-- The pattern, unless it is empty, accepts the name. -/
  pattern : ∀ pattern, f.pattern = some pattern → pattern ≠ "" →
    Glob.accepts pattern.toList (slashed name) = .ok true

theorem acceptsScheme_eq_ok (hscheme : Uri.scheme? uri = .ok scheme) :
    f.acceptsScheme uri = .ok (meets f.scheme (scheme.map Text.pointsOf)) := by
  rw [acceptsScheme, hscheme]
  split
  · rfl
  · next hfalsy => simp [meets, hfalsy]

theorem exists_acceptsPath_eq_ok_iff (hf : f.Compiles) (hname : Uri.fileName uri = .ok name) :
    ∃ b, f.acceptsPath uri = .ok b ∧ (b = true ↔ ∀ pattern, f.pattern = some pattern →
      pattern ≠ "" → Glob.accepts pattern.toList (slashed name) = .ok true) := by
  rw [acceptsPath, hname]
  split
  · next hnone =>
    refine ⟨true, rfl, iff_of_true rfl fun pattern hpattern hne ↦ ?_⟩
    rw [hpattern, Option.filter_some, if_pos (by simpa using hne)] at hnone
    cases hnone
  · next pattern hsome =>
    obtain ⟨hpattern, hne⟩ := Option.filter_eq_some_iff.mp hsome
    obtain ⟨e, he⟩ := hf pattern hpattern
    have hglob := Glob.accepts_of_compile he (slashed name)
    refine ⟨e.accepts (slashed name), mapError_eq_ok_iff.mpr hglob, ?_⟩
    constructor
    · intro haccepts other hother _
      cases hpattern.symm.trans hother
      rw [hglob, haccepts]
    · intro hall
      exact Except.ok.inj (hglob.symm.trans (hall pattern hpattern (by simpa using hne)))

/-- A filter accepts a document with a usable URI if it matches it, and else it does not. -/
theorem exists_accepts_eq_ok_iff (hf : f.Compiles) (hname : Uri.fileName uri = .ok name)
    (hscheme : Uri.scheme? uri = .ok scheme) (language : Option (List Text.Point)) :
    ∃ b, f.accepts uri language = .ok b ∧ (b = true ↔ f.Matches name scheme language) := by
  obtain ⟨b, hb, hpattern⟩ := exists_acceptsPath_eq_ok_iff hf hname
  rw [accepts, acceptsScheme_eq_ok hscheme, hb]
  by_cases hlanguage : meets f.language language = true
  · rw [if_pos hlanguage]
    cases hmeets : meets f.scheme (scheme.map Text.pointsOf) with
    | false =>
      refine ⟨false, rfl, iff_of_false Bool.false_ne_true fun hmatches ↦ ?_⟩
      exact Bool.false_ne_true (hmeets.symm.trans hmatches.scheme)
    | true =>
      refine ⟨b, rfl, fun h ↦ ⟨hlanguage, hmeets, hpattern.mp h⟩, fun h ↦ hpattern.mpr h.pattern⟩
  · rw [if_neg hlanguage]
    exact ⟨false, rfl, iff_of_false Bool.false_ne_true fun hmatches ↦ hlanguage hmatches.language⟩

end Filter

theorem exists_anyAccepts_eq_ok_iff (hfilters : ∀ f ∈ filters, f.Compiles)
    (hname : Uri.fileName uri = .ok name) (hscheme : Uri.scheme? uri = .ok scheme)
    (language : Option (List Text.Point)) :
    ∃ b, anyAccepts uri language filters = .ok b ∧
      (b = true ↔ ∃ f ∈ filters, f.Matches name scheme language) := by
  induction filters with
  | nil => exact ⟨false, rfl, by simp⟩
  | cons f filters ih =>
    obtain ⟨hf, hrest⟩ := List.forall_mem_cons.mp hfilters
    obtain ⟨first, hfirst, hmatches⟩ := Filter.exists_accepts_eq_ok_iff hf hname hscheme language
    obtain ⟨rest, hanyAccepts, hany⟩ := ih hrest
    rw [anyAccepts, hfirst, List.exists_mem_cons_iff, ← hmatches, ← hany]
    cases first with
    | true => exact ⟨true, rfl, by simp⟩
    | false => exact ⟨rest, hanyAccepts, by simp⟩

/-- Filters select a document with a usable URI if there are none or one matches. -/
theorem exists_selects_eq_ok_iff (hfilters : ∀ f ∈ filters, f.Compiles)
    (hname : Uri.fileName uri = .ok name) (hscheme : Uri.scheme? uri = .ok scheme)
    (language : Option (List Text.Point)) :
    ∃ b, selects filters uri language = .ok b ∧
      (b = true ↔ filters = [] ∨ ∃ f ∈ filters, f.Matches name scheme language) := by
  cases filters with
  | nil => exact ⟨true, rfl, iff_of_true rfl (.inl rfl)⟩
  | cons f filters =>
    obtain ⟨b, hb, hany⟩ := exists_anyAccepts_eq_ok_iff hfilters hname hscheme language
    exact ⟨b, hb, by rw [hany, or_iff_right (List.cons_ne_nil f filters)]⟩

/-! ## Texts that are not usable -/

/-- Whether a filter looks at the URI of a document, if the language is the one it asks for. -/
def Filter.asksUri (f : Filter) : Bool :=
  f.scheme.isTruthy || (f.pattern.filter (· != "")).isSome

/-- What the first filter of a language decides where a text is not usable, for the reason `e`; if no
filter is of the language, the answer is `otherwise`. -/
def decidedWithout (e : Uri.Error) (language : Option (List Text.Point)) (otherwise : Bool)
    (filters : List Filter) : Except SelectionError Bool :=
  match filters.find? fun f ↦ Filter.meets f.language language with
  | none => .ok otherwise
  | some f => if f.asksUri then .error (.uri e) else .ok true

variable {e : Uri.Error}

theorem Filter.accepts_of_error (hname : Uri.fileName uri = .error e)
    (hscheme : Uri.scheme? uri = .error e) (hlanguage : meets f.language language = true) :
    f.accepts uri language = if f.asksUri then .error (.uri e) else .ok true := by
  rw [accepts, if_pos hlanguage, acceptsScheme, acceptsPath, hname, hscheme, asksUri]
  by_cases hasks : f.scheme.isTruthy = true
  · rw [if_pos hasks, hasks]
    rfl
  · rw [if_neg hasks, eq_false_of_ne_true hasks]
    cases f.pattern.filter (· != "") with
    | none => rfl
    | some pattern => rfl

theorem anyAccepts_of_error (hname : Uri.fileName uri = .error e)
    (hscheme : Uri.scheme? uri = .error e) (language : Option (List Text.Point))
    (filters : List Filter) :
    anyAccepts uri language filters = decidedWithout e language false filters := by
  induction filters with
  | nil => rfl
  | cons f filters ih =>
    rw [anyAccepts, decidedWithout, List.find?_cons]
    by_cases hlanguage : Filter.meets f.language language = true
    · rw [Filter.accepts_of_error hname hscheme hlanguage, hlanguage]
      dsimp only
      split
      · rfl
      · rfl
    · rw [Filter.accepts, if_neg hlanguage, eq_false_of_ne_true hlanguage]
      exact ih

theorem selects_of_error (hname : Uri.fileName uri = .error e)
    (hscheme : Uri.scheme? uri = .error e) (language : Option (List Text.Point))
    (filters : List Filter) :
    selects filters uri language = decidedWithout e language filters.isEmpty filters := by
  cases filters with
  | nil => rfl
  | cons f filters => exact anyAccepts_of_error hname hscheme language (f :: filters)

/-- Something is decided in every order of the filters if none of the language looks at the URI. -/
theorem decidedWithout_of_perm_iff (selector : List Filter) (otherwise : Bool) :
    (∀ filters, filters.Perm selector → ∃ b, decidedWithout e language otherwise filters = .ok b) ↔
      ∀ f ∈ selector, Filter.meets f.language language = true → f.asksUri = false := by
  constructor
  · intro h f hf hlanguage
    -- The filter may stand first.
    obtain ⟨before, behind, rfl⟩ := List.append_of_mem hf
    obtain ⟨b, hb⟩ := h (f :: (before ++ behind)) List.perm_middle.symm
    rw [decidedWithout, List.find?_cons, hlanguage] at hb
    by_contra hasks
    dsimp only at hb
    rw [if_pos (by simpa using hasks)] at hb
    cases hb
  · intro h filters hperm
    rw [decidedWithout]
    split
    · exact ⟨otherwise, rfl⟩
    · next f hfound =>
      have hf : f ∈ selector := hperm.subset (List.mem_of_find?_eq_some hfound)
      have hlanguage : Filter.meets f.language language = true := by
        simpa using List.find?_some hfound
      rw [h f hf hlanguage]
      exact ⟨true, rfl⟩

/-! ## Accepted configurations -/

/-- **Selection in any order.** If a document has a usable URI, then it has a name and a scheme, and
a provider serves it if one of its filters matches, whatever their order is. A text that is not
usable has neither a name nor a scheme, and the first filter of the language decides: this is the
end of the selection if it looks at the URI. -/
theorem selects_any_order {v : Value} {c : Config} (h : Config.parse v = .ok c) {p : ProviderConfig}
    (hp : p ∈ c.providers) (uri : String) (language : Option (List Text.Point)) :
    (Uri.IsUsable uri ∧ ∃ name scheme served,
      Uri.fileName uri = .ok name ∧ Uri.scheme? uri = .ok scheme ∧
      (scheme ≠ some "file" → name = uri) ∧
      (served = true ↔ p.selector = [] ∨ ∃ f ∈ p.selector, f.Matches name scheme language) ∧
      ∀ filters, filters.Perm p.selector → selects filters uri language = .ok served) ∨
    (¬Uri.IsUsable uri ∧ ∃ e,
      Uri.fileName uri = .error e ∧ Uri.scheme? uri = .error e ∧
      (∀ filters, filters.Perm p.selector →
        selects filters uri language = decidedWithout e language filters.isEmpty filters) ∧
      ((∀ filters, filters.Perm p.selector → ∃ b, selects filters uri language = .ok b) ↔
        ∀ f ∈ p.selector, Filter.meets f.language language = true → f.asksUri = false)) := by
  by_cases husable : Uri.IsUsable uri
  · left
    obtain ⟨name, scheme, hname, hscheme, hother⟩ := Uri.exists_name_of_isUsable husable
    have hcompiles := (Config.accepted_of_parse h).compiles p hp
    obtain ⟨served, hserved, hmatches⟩ :=
      exists_selects_eq_ok_iff hcompiles hname hscheme language
    refine ⟨husable, name, scheme, served, hname, hscheme, hother, hmatches, ?_⟩
    intro filters hperm
    obtain ⟨b, hb, hiff⟩ := exists_selects_eq_ok_iff
      (fun f hf ↦ hcompiles f (hperm.subset hf)) hname hscheme language
    have hsame : b = true ↔ served = true := by
      rw [hiff, hmatches, ← List.isEmpty_iff, hperm.isEmpty_eq, List.isEmpty_iff]
      simp only [hperm.mem_iff]
    rw [hb, Bool.eq_iff_iff.mpr hsame]
  · right
    obtain ⟨e, hname, hscheme⟩ := Uri.exists_error_of_not_isUsable husable
    refine ⟨husable, e, hname, hscheme, ?_, ?_⟩
    · intro filters _
      exact selects_of_error hname hscheme language filters
    · rw [← decidedWithout_of_perm_iff p.selector p.selector.isEmpty]
      refine forall_congr' fun filters ↦ forall_congr' fun hperm ↦ ?_
      rw [selects_of_error hname hscheme language filters, hperm.isEmpty_eq]

/-- A provider of two filters, one for names and one for a language. -/
def nameOrLanguage : Value :=
  .record [("providers", .list [
    .record [("kind", .str "static"), ("selector", .list [
      .record [("pattern", .str "**/*.cs")], .record [("language", .str "csharp")]])]])]

/-- What the filters of `nameOrLanguage` select in their order, and in the other one. -/
theorem selects_nameOrLanguage : ∃ c p, Config.parse nameOrLanguage = .ok c ∧ p ∈ c.providers ∧
    selects p.selector "untitled:a/b.cs" none = .ok true ∧
    selects p.selector "file://[x" (some (Text.pointsOf "csharp")) = .error (.uri .brackets) ∧
    selects p.selector.reverse "file://[x" (some (Text.pointsOf "csharp")) = .ok true := by
  have hread : (Config.parse nameOrLanguage).map (fun c ↦ c.providers.map fun p ↦
      (selects p.selector "untitled:a/b.cs" none,
        selects p.selector "file://[x" (some (Text.pointsOf "csharp")),
        selects p.selector.reverse "file://[x" (some (Text.pointsOf "csharp"))))
      = .ok [(.ok true, .error (.uri .brackets), .ok true)] := by
    decide +kernel
  cases hparse : Config.parse nameOrLanguage with
  | error f =>
    rw [hparse] at hread
    cases hread
  | ok c =>
    rw [hparse] at hread
    obtain ⟨p, hp, hselects⟩ := List.mem_map.mp
      (Except.ok.inj hread ▸ List.mem_singleton_self _)
    exact ⟨c, p, rfl, hp, congrArg Prod.fst hselects, congrArg (·.2.1) hselects,
      congrArg (·.2.2) hselects⟩

/-- A document that is served by its name, whatever the order of the filters is, and a text that is
not usable. -/
theorem selects_any_order_nameOrLanguage : ∃ c p,
    Config.parse nameOrLanguage = .ok c ∧ p ∈ c.providers ∧
    (∀ filters, filters.Perm p.selector → selects filters "untitled:a/b.cs" none = .ok true) ∧
    ∃ e, Uri.scheme? "file://[x" = .error e ∧
      ∃ f ∈ p.selector,
        Filter.meets f.language (some (Text.pointsOf "csharp")) = true ∧ f.asksUri = true := by
  obtain ⟨c, p, hparse, hp, hnamed, hfails, -⟩ := selects_nameOrLanguage
  refine ⟨c, p, hparse, hp, ?_, ?_⟩
  · rcases selects_any_order hparse hp "untitled:a/b.cs" none with
      ⟨-, name, scheme, served, -, -, -, -, horder⟩ | ⟨-, e, hname, -⟩
    · have hserved := horder p.selector (List.Perm.refl _)
      rw [hnamed] at hserved
      cases hserved
      exact horder
    · have hcomputed : Uri.fileName "untitled:a/b.cs" = .ok "untitled:a/b.cs" := by decide +kernel
      cases hcomputed.symm.trans hname
  · rcases selects_any_order hparse hp "file://[x" (some (Text.pointsOf "csharp")) with
      ⟨-, name, scheme, served, hname, -⟩ | ⟨-, e, -, hscheme, -, hiff⟩
    · have hcomputed : Uri.fileName "file://[x" = .error .brackets := by decide +kernel
      cases hcomputed.symm.trans hname
    · refine ⟨e, hscheme, ?_⟩
      by_contra hnone
      obtain ⟨b, hb⟩ := hiff.mpr
        (fun f hf hlanguage ↦ eq_false_of_ne_true fun hasks ↦ hnone ⟨f, hf, hlanguage, hasks⟩)
        p.selector (List.Perm.refl _)
      cases hfails.symm.trans hb

/-- An open bracket leaves a file without a name, and makes the selection depend on the order. -/
theorem not_selects_any_order_openBracket :
    (¬∃ name, Uri.fileName "file://[x" = .ok name) ∧
    ¬∀ (v : Value) (c : Config) (p : ProviderConfig), Config.parse v = .ok c → p ∈ c.providers →
      ∀ (uri : String) (language : Option (List Text.Point)),
        ∃ served, ∀ filters, filters.Perm p.selector → selects filters uri language = .ok served := by
  constructor
  · rintro ⟨name, hname⟩
    have hcomputed : Uri.fileName "file://[x" = .error .brackets := by decide +kernel
    cases hcomputed.symm.trans hname
  · intro h
    obtain ⟨c, p, hparse, hp, -, hfails, -⟩ := selects_nameOrLanguage
    obtain ⟨served, hserved⟩ :=
      h nameOrLanguage c p hparse hp "file://[x" (some (Text.pointsOf "csharp"))
    cases hfails.symm.trans (hserved p.selector (List.Perm.refl _))

end CompletionServer
