import CompletionServer.Config.Parse
import CompletionServer.Proofs.Success
import CompletionServer.Proofs.Value.Writable

/-!
# What providers are read from

The steps by which a provider is read are followed here once, `exists_readFrom`, and so are those of
a whole configuration, `exists_of_parse`. Whatever else is said about accepted providers is said of
the fields that they were read from, and does not look into the steps again.
-/

namespace CompletionServer.Config

/-! ## One provider -/

/-- What a provider goes by in messages: the name it is given, or its place. -/
def nameGiven (index : ℕ) (entries : List (Value × Value)) : Value :=
  (given? (Value.get "name" entries)).getD (.str s!"provider-{index}")

/-- That a provider is read from the entries of a mapping, field by field. -/
structure ReadFrom (index : ℕ) (entries : List (Value × Value)) (p : ProviderConfig) : Prop where
  name : textOf (nameGiven index entries) = .ok p.name
  kind : parseKind (nameGiven index entries)
    ((Value.get? "kind" entries).getD (.str "command")) = .ok p.kind
  command : arguments (commandOf (listed "command" entries)) = .ok p.command
  /-- A provider that runs a command is given one. -/
  isGiven : p.kind = .command → (commandOf (listed "command" entries)).isTruthy = true
  positionBase : parsePositionBase (nameGiven index entries)
    ((Value.get? "position_base" entries).getD (.int 0)) = .ok p.positionBase
  timeout : ∃ x, parseTimeout (nameGiven index entries)
    ((Value.get? "timeout" entries).getD (.float 10.0)) = .ok x ∧ p.timeout = .ofFloat x
  completions : parseCompletions (nameGiven index entries) (listed "completions" entries)
    = .ok p.completions
  selector : parseSelector (nameGiven index entries) (listed "selector" entries) = .ok p.selector

theorem refuseNamed_ne_ok {α : Type} (provider : Value) (e : String → ConfigError) (a : α) :
    refuseNamed provider e ≠ .ok a := by
  intro h
  obtain ⟨name, -, h⟩ := exists_of_bind_eq_ok h
  cases h

theorem exists_readFrom {index : ℕ} {v : Value} {p : ProviderConfig}
    (h : parseProvider index v = .ok p) :
    ∃ entries, v.entries? = some entries ∧ ReadFrom index entries p := by
  unfold parseProvider at h
  split at h
  · cases h
  · next entries hentries =>
    refine ⟨entries, hentries, ?_⟩
    dsimp only at h
    obtain ⟨kind, hkind, h⟩ := exists_of_bind_eq_ok h
    split at h
    · obtain ⟨_, hrefused, -⟩ := exists_of_bind_eq_ok h
      exact absurd hrefused (refuseNamed_ne_ok _ _ _)
    · next hgiven =>
      obtain ⟨positionBase, hpositionBase, h⟩ := exists_of_bind_eq_ok h
      obtain ⟨timeout, htimeout, h⟩ := exists_of_bind_eq_ok h
      obtain ⟨completions, hcompletions, h⟩ := exists_of_bind_eq_ok h
      obtain ⟨name, hname, h⟩ := exists_of_bind_eq_ok h
      obtain ⟨command, hcommand, h⟩ := exists_of_bind_eq_ok h
      obtain ⟨selector, hselector, h⟩ := exists_of_bind_eq_ok h
      cases h
      have hisGiven (hcommand : kind = .command) :
          (commandOf (listed "command" entries)).isTruthy = true :=
        Bool.of_not_eq_false fun hfalse ↦ hgiven ⟨hcommand, hfalse⟩
      exact {
        name := hname
        kind := hkind
        command := hcommand
        isGiven := hisGiven
        positionBase := hpositionBase
        timeout := ⟨timeout, htimeout, rfl⟩
        completions := hcompletions
        selector := hselector }

/-! ## Its fields -/

theorem command_or_static_of_parseKind {provider v : Value} {kind : ProviderKind}
    (h : parseKind provider v = .ok kind) : kind = .command ∨ kind = .static := by
  unfold parseKind at h
  split at h
  · exact .inl (Except.ok.inj h).symm
  · exact .inr (Except.ok.inj h).symm
  · obtain ⟨_, -, h⟩ := exists_of_bind_eq_ok h
    obtain ⟨_, -, h⟩ := exists_of_bind_eq_ok h
    cases h

/-- A command that counts as given has at least one argument. -/
theorem arguments_ne_nil {v : Value} {command : List String} (hv : v.isTruthy = true)
    (h : arguments v = .ok command) : command ≠ [] := by
  have hopened := Value.isTruthy_opened hv
  rintro rfl
  unfold arguments at h
  split at h
  · next items hitems =>
    rw [hitems] at hopened
    cases items with
    | nil => cases hopened
    | cons i items => exact cons_mapM_ne_ok_nil h
  · next items hitems =>
    rw [hitems] at hopened
    cases items with
    | nil => cases hopened
    | cons i items => exact cons_mapM_ne_ok_nil h
  · next entries hentries =>
    rw [hentries] at hopened
    cases entries with
    | nil => cases hopened
    | cons e entries => exact cons_mapM_ne_ok_nil h
  · exact cons_mapM_ne_ok_nil h
  · next bs hbs =>
    rw [hbs] at hopened
    cases bs with
    | nil => cases hopened
    | cons b bs => cases h
  · cases h

theorem isWritable_listed {entries : List (Value × Value)}
    (h : Value.areWritableEntries entries = true) (key : String) :
    (listed key entries).isWritable = true := by
  unfold listed given?
  split
  · exact Value.isWritable_get h key
  · rfl

/-- The fixed candidates of a mapping that has a text have texts. -/
theorem areWritable_of_parseCompletions {provider v : Value}
    {completions : List (List (Value × Value))} (hv : v.isWritable = true)
    (h : parseCompletions provider v = .ok completions) :
    completions.all Completion.Candidate.areWritable = true := by
  unfold parseCompletions at h
  split at h
  · next found hfound =>
    cases h
    obtain ⟨items, hitems, hmaps⟩ := Option.bind_eq_some_iff.mp hfound
    refine List.all_eq_true.mpr fun entries hentries ↦ ?_
    obtain ⟨i, hi, hientries⟩ := exists_of_mem_of_mapM_eq_some hmaps hentries
    exact Completion.Candidate.areWritable_of_entries
      (Value.areWritableEntries_of_entries? (Value.isWritable_of_items? hv hitems i hi) hientries)
  · exact absurd h (refuseNamed_ne_ok _ _ _)

/-! ## Its filters -/

/-- A pattern is not given, or it has a text that compiles. -/
theorem exists_of_parsePattern {provider v : Value} {found : Option String}
    (h : parsePattern provider v = .ok found) : v = .null ∧ found = none ∨
      ∃ pattern e, textOf v = .ok pattern ∧ found = some pattern ∧
        Glob.compile pattern.toList = .ok e := by
  unfold parsePattern at h
  split at h
  · cases h
    exact .inl ⟨rfl, rfl⟩
  · split at h
    · next hwritable =>
      split at h
      · next e he =>
        cases h
        exact .inr ⟨v.text, e, if_pos hwritable, rfl, he⟩
      · exact absurd h (refuseNamed_ne_ok _ _ _)
    · exact absurd h (refuseNamed_ne_ok _ _ _)

theorem exists_of_parseFilter {provider v : Value} {f : Filter}
    (h : parseFilter provider v = .ok f) : ∃ fields, v.entries? = some fields ∧
      parsePattern provider (Value.get "pattern" fields) = .ok f.pattern := by
  unfold parseFilter at h
  split at h
  · exact absurd h (refuseNamed_ne_ok _ _ _)
  · next fields hfields =>
    obtain ⟨unknown, -, h⟩ := exists_of_bind_eq_ok h
    dsimp only at h
    split at h
    · obtain ⟨pattern, hpattern, h⟩ := exists_of_bind_eq_ok h
      cases h
      exact ⟨fields, hfields, hpattern⟩
    · obtain ⟨_, hrefused, -⟩ := exists_of_bind_eq_ok h
      exact absurd hrefused (refuseNamed_ne_ok _ _ _)

/-! ## All providers -/

/-- Each value of a list of providers is one. -/
theorem exists_of_parseProviders {index : ℕ} {vs : List Value} {ps : List ProviderConfig}
    (h : parseProviders index vs = .ok ps) {v : Value} (hv : v ∈ vs) :
    ∃ i p, parseProvider i v = .ok p := by
  induction vs generalizing index ps with
  | nil => cases hv
  | cons w vs ih =>
    rw [parseProviders] at h
    obtain ⟨q, hq, h⟩ := exists_of_bind_eq_ok h
    obtain ⟨qs, hqs, -⟩ := exists_of_bind_eq_ok h
    rcases List.mem_cons.mp hv with rfl | hv
    · exact ⟨index, q, hq⟩
    · exact ih hqs hv

theorem exists_of_mem_parseProviders {index : ℕ} {vs : List Value} {ps : List ProviderConfig}
    (h : parseProviders index vs = .ok ps) {p : ProviderConfig} (hp : p ∈ ps) :
    ∃ i, ∃ v ∈ vs, parseProvider i v = .ok p := by
  induction vs generalizing index ps with
  | nil =>
    cases h
    cases hp
  | cons v vs ih =>
    rw [parseProviders] at h
    obtain ⟨q, hq, h⟩ := exists_of_bind_eq_ok h
    obtain ⟨qs, hqs, h⟩ := exists_of_bind_eq_ok h
    cases h
    rcases List.mem_cons.mp hp with rfl | hp
    · exact ⟨index, v, List.mem_cons_self, hq⟩
    · obtain ⟨i, w, hw, hread⟩ := ih hqs hp
      exact ⟨i, w, List.mem_cons_of_mem v hw, hread⟩

/-- What an accepted configuration is read from. -/
theorem exists_of_parse {v : Value} {c : Config} (h : parse v = .ok c) :
    ∃ entries items, v.entries? = some entries ∧
      (listed "providers" entries).items? = some items ∧
      parseProviders 0 items = .ok c.providers ∧
      (c.providers.map ProviderConfig.name).Nodup := by
  unfold parse at h
  split at h
  · cases h
  · next entries hentries =>
    split at h
    · next items hitems =>
      obtain ⟨providers, hproviders, h⟩ := exists_of_bind_eq_ok h
      split at h
      · next hnames =>
        cases h
        exact ⟨entries, items, hentries, hitems, hproviders, duplicates_eq_nil_iff.mp hnames⟩
      · cases h
    · cases h

/-- Each provider of an accepted configuration is read from a mapping of its own; if the
configuration has a text, so has the mapping. -/
theorem exists_readFrom_of_parse {v : Value} {c : Config} (h : parse v = .ok c)
    {p : ProviderConfig} (hp : p ∈ c.providers) :
    ∃ index entries, ReadFrom index entries p ∧
      (v.isWritable = true → Value.areWritableEntries entries = true) := by
  obtain ⟨entries, items, hentries, hitems, hproviders, -⟩ := exists_of_parse h
  obtain ⟨index, w, hw, hread⟩ := exists_of_mem_parseProviders hproviders hp
  obtain ⟨own, hown, hfrom⟩ := exists_readFrom hread
  refine ⟨index, own, hfrom, fun hv ↦ ?_⟩
  have hlisted := isWritable_listed (Value.areWritableEntries_of_entries? hv hentries) "providers"
  exact Value.areWritableEntries_of_entries? (Value.isWritable_of_items? hlisted hitems w hw) hown

end CompletionServer.Config
