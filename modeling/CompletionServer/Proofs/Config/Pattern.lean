import CompletionServer.Proofs.Config.Fault
import CompletionServer.Proofs.Glob.Rejection

/-!
# Patterns of configurations

A pattern that does not compile is a reason to refuse the configuration that holds it, wherever it
stands there, `compiles_of_holdsPattern`. So a malformed pattern is refused, `malformed_is_refused`,
unless an empty bracket of it overruns, and unless something else in the configuration cannot be
converted.
-/

namespace CompletionServer.Config

/-- That a configuration holds a pattern: the text of what is given as the pattern of a filter, in
one of its providers. -/
inductive HoldsPattern (v : Value) : (pattern : String) → Prop where
  | intro {provider filter : Value} {entries fields : List (Value × Value)} {pattern : String}
      (hprovider : provider ∈ providersIn v) (hentries : provider.entries? = some entries)
      (hfilter : filter ∈ filtersIn (listed "selector" entries))
      (hfields : filter.entries? = some fields) (hgiven : Value.get "pattern" fields ≠ .null)
      (htext : textOf (Value.get "pattern" fields) = .ok pattern) : HoldsPattern v pattern

/-- Each filter of a selector is read. -/
theorem exists_of_parseSelector {provider v : Value} {selector : List Filter}
    (h : parseSelector provider v = .ok selector) {filter : Value} (hfilter : filter ∈ filtersIn v) :
    ∃ f, parseFilter provider filter = .ok f := by
  unfold filtersIn at hfilter
  unfold parseSelector at h
  split at h
  · next hopened =>
    rw [hopened] at hfilter
    obtain rfl := List.mem_singleton.mp hfilter
    obtain ⟨f, hf, -⟩ := exists_of_bind_eq_ok h
    exact ⟨f, hf⟩
  · next items hopened =>
    rw [hopened] at hfilter
    exact exists_eq_ok_of_mem_of_mapM h hfilter
  · exact absurd h (refuseNamed_ne_ok _ _ _)

/-- The patterns of an accepted configuration compile. -/
theorem compiles_of_holdsPattern {v : Value} {c : Config} (h : parse v = .ok c) {pattern : String}
    (hpattern : HoldsPattern v pattern) : ∃ e, Glob.compile pattern.toList = .ok e := by
  obtain ⟨hprovider, hentries, hfilter, hfields, hgiven, htext⟩ := hpattern
  obtain ⟨whole, items, hwhole, hitems, hproviders, -⟩ := exists_of_parse h
  rw [providersIn, hwhole, Option.map_some, Option.bind_some, hitems, Option.getD_some] at hprovider
  obtain ⟨index, p, hp⟩ := exists_of_parseProviders hproviders hprovider
  obtain ⟨own, hown, hfrom⟩ := exists_readFrom hp
  cases hentries.symm.trans hown
  obtain ⟨f, hf⟩ := exists_of_parseSelector hfrom.selector hfilter
  obtain ⟨read, hread, hparsed⟩ := exists_of_parseFilter hf
  cases hfields.symm.trans hread
  rcases exists_of_parsePattern hparsed with ⟨hnull, -⟩ | ⟨text, e, hwritten, -, he⟩
  · exact absurd hnull hgiven
  · cases htext.symm.trans hwritten
    exact ⟨e, he⟩

/-- **A malformed pattern is rejected**, unless an empty bracket of it overruns: it does not compile,
and a configuration that holds it is refused, or a field of one of its providers holds a value that
cannot be converted. -/
theorem malformed_is_refused {pattern : String} (hwell : ¬Glob.WellFormed pattern.toList)
    (hover : ¬Glob.Overruns pattern.toList) :
    (∃ e, Glob.compile pattern.toList = .error e) ∧ ∀ v, HoldsPattern v pattern →
      (∃ refusal, parse v = .error (.refused refusal)) ∨
      ∃ c, parse v = .error (.conversion c) ∧ ∃ provider ∈ providersIn v, ∃ entries,
        provider.entries? = some entries ∧ Unconvertible entries c := by
  obtain ⟨e, he⟩ := Glob.exists_compile_eq_error hwell hover
  refine ⟨⟨e, he⟩, fun v hpattern ↦ ?_⟩
  have hfails := failsOnlyBy_parse v
  cases hparse : parse v with
  | ok config =>
    obtain ⟨compiled, hcompiled⟩ := compiles_of_holdsPattern hparse hpattern
    cases he.symm.trans hcompiled
  | error f =>
    rw [hparse] at hfails
    cases hfails with
    | refused refusal => exact .inl ⟨refusal, rfl⟩
    | conversion hc => exact .inr ⟨_, rfl, hc⟩

/-- A provider that serves the documents of one pattern. -/
def providerOf (pattern : String) : Value :=
  .record [("providers", .list [
    .record [("kind", .str "static"), ("selector", .record [("pattern", .str pattern)])]])]

theorem holdsPattern_providerOf (pattern : String) : HoldsPattern (providerOf pattern) pattern :=
  .intro List.mem_cons_self rfl List.mem_cons_self rfl nofun rfl

/-- An empty bracket in a group, with classes before it and none behind it. -/
theorem malformed_is_refused_emptyInGroup :
    ¬Glob.WellFormed "*/[a-z]\x7b[!],b\x7d".toList ∧
      ¬Glob.Overruns "*/[a-z]\x7b[!],b\x7d".toList ∧
      (∃ e, Glob.compile "*/[a-z]\x7b[!],b\x7d".toList = .error e) ∧
      ∃ f, parse (providerOf "*/[a-z]\x7b[!],b\x7d") = .error f := by
  have hwell : ¬Glob.WellFormed "*/[a-z]\x7b[!],b\x7d".toList := by decide
  have hover : ¬Glob.Overruns "*/[a-z]\x7b[!],b\x7d".toList := by decide
  obtain ⟨hcompile, hparse⟩ := malformed_is_refused hwell hover
  refine ⟨hwell, hover, hcompile, ?_⟩
  rcases hparse _ (holdsPattern_providerOf _) with ⟨refusal, h⟩ | ⟨c, h, -⟩
  · exact ⟨_, h⟩
  · exact ⟨_, h⟩

/-- An empty bracket that takes in the asterisk behind it. -/
theorem not_rejected_emptyBracket :
    ¬∀ pattern : String, ¬Glob.WellFormed pattern.toList →
      ∃ e, Glob.compile pattern.toList = .error e := by
  intro h
  obtain ⟨e, he⟩ := h "[]*" (by decide)
  have hcompiles : Glob.compile "[]*".toList =
      .ok (.seq (.many ⟨false, [.single ']', .single '[', .single '^', .single '/']⟩) .empty) := by
    decide +kernel
  cases he.symm.trans hcompiles

end CompletionServer.Config
