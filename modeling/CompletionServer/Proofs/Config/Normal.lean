import CompletionServer.Proofs.Provider.Serving

/-!
# Normal forms of configurations

A configuration may be given in many ways: a command as one text, a filter without a list around it,
names left out, numbers for texts. What was read can be written as a value again, in one form for
all of them, with every field given. Reading takes that form to the configuration it was written
from, `parse_toValue_of_parse`.

What a provider must be for that is `IsNormal`, one field for each check. Providers that were read
are normal, and normal providers pass the checks unchanged.
-/

namespace CompletionServer

/-! ## Written configurations -/

/-- The filter as a mapping; what it does not ask for is null. -/
def Filter.toValue (f : Filter) : Value :=
  .record [("language", f.language), ("scheme", f.scheme),
    ("pattern", (f.pattern.map Value.str).getD .null)]

/-- The provider as a mapping in which every field is given. -/
def ProviderConfig.toValue (p : ProviderConfig) : Value :=
  .record [("name", .str p.name), ("kind", .str p.kind.name),
    ("command", .list (p.command.map Value.str)), ("position_base", p.positionBase.toValue),
    ("timeout", p.timeout.toValue), ("selector", .list (p.selector.map Filter.toValue)),
    ("completions", .list (p.completions.map Value.map))]

/-- The providers of the configuration as a mapping. -/
def Config.toValue (c : Config) : Value :=
  .record [("providers", .list (c.providers.map ProviderConfig.toValue))]

namespace Config

/-! ## Lists of values -/

/-- A list is read back where each of its elements is. -/
theorem mapM_eq_pure {m : Type → Type} [Monad m] [LawfulMonad m] {α β : Type} {f : α → m β}
    {g : β → α} {xs : List β} (h : ∀ x ∈ xs, f (g x) = pure x) : (xs.map g).mapM f = pure xs := by
  induction xs with
  | nil => rfl
  | cons x xs ih =>
    obtain ⟨hx, hxs⟩ := List.forall_mem_cons.mp h
    rw [List.map_cons, List.mapM_cons, hx, ih hxs, pure_bind, pure_bind]

theorem listed_eq {key : String} {entries : List (Value × Value)} (items : List Value)
    (h : Value.get? key entries = some (.list items)) : listed key entries = .list items := by
  rw [listed, Value.get, h, Option.getD_some]
  cases items <;> rfl

end Config

/-! ## Normal providers -/

/-- **That a provider is in normal form**: its fields are what they would be read as. -/
structure ProviderConfig.IsNormal (p : ProviderConfig) : Prop where
  name : p.name ≠ ""
  kind : p.kind = .command ∨ p.kind = .static
  command : p.kind = .command → p.command ≠ []
  positionBase : (Value.sameKey p.positionBase.toValue (.int 0)
    || Value.sameKey p.positionBase.toValue (.int 1)) = true
  timeout : ∃ x, p.timeout = .ofFloat x
  selector : ∀ f ∈ p.selector, f.Compiles

theorem Numeral.eq_toValue_of_ofValue? {v : Value} {n : Numeral} (h : ofValue? v = some n) :
    v = n.toValue := by
  unfold ofValue? at h
  split at h <;> cases h <;> rfl

namespace Config

/-- What was read is in normal form. -/
theorem ReadFrom.isNormal {index : ℕ} {entries : List (Value × Value)} {p : ProviderConfig}
    (h : ReadFrom index entries p) : p.IsNormal where
  name := h.name_ne_empty
  kind := command_or_static_of_parseKind h.kind
  command hkind := arguments_ne_nil (h.isGiven hkind) h.command
  positionBase := by
    have hbase := h.positionBase
    unfold parsePositionBase at hbase
    split at hbase
    · next hkey =>
      split at hbase
      · next n hn =>
        cases hbase
        rwa [Numeral.eq_toValue_of_ofValue? hn] at hkey
      · exact absurd hbase (refuseNamed_ne_ok _ _ _)
    · exact absurd hbase (refuseNamed_ne_ok _ _ _)
  timeout := h.timeout.imp fun _ hx ↦ hx.2
  selector := compiles_of_parseSelector h.selector

/-! ## Reading normal forms -/

theorem parseFilter_of_entries {provider v : Value} {fields : List (Value × Value)}
    {pattern : Option String} (hfields : v.entries? = some fields)
    (hknown : unknownKeys fields = .ok [])
    (hpattern : parsePattern provider (Value.get "pattern" fields) = .ok pattern) :
    parseFilter provider v
      = .ok ⟨Value.get "language" fields, Value.get "scheme" fields, pattern⟩ := by
  rw [parseFilter, hfields]
  dsimp only
  rw [hknown, hpattern]
  rfl

theorem parseFilter_toValue (provider : Value) {f : Filter} (h : f.Compiles) :
    parseFilter provider f.toValue = .ok f := by
  have hknown : unknownKeys [(.str "language", f.language), (.str "scheme", f.scheme),
      (.str "pattern", (f.pattern.map Value.str).getD .null)] = .ok [] := by
    simp [unknownKeys, filterKeys]
  have hpattern : parsePattern provider ((f.pattern.map Value.str).getD .null) = .ok f.pattern := by
    cases hf : f.pattern with
    | none => rfl
    | some pattern =>
      obtain ⟨e, he⟩ := h pattern hf
      rw [Option.map_some, Option.getD_some, parsePattern, if_pos (Value.isWritable_str pattern),
        Value.text_str, he]
      · rfl
      · exact nofun
  exact parseFilter_of_entries rfl hknown hpattern

/-- A provider is read from a mapping whose fields are read as its own. -/
theorem parseProvider_of_readFrom {index : ℕ} {v : Value} {entries : List (Value × Value)}
    {p : ProviderConfig} (hentries : v.entries? = some entries) (h : ReadFrom index entries p) :
    parseProvider index v = .ok p := by
  obtain ⟨hname, hkind, hcommand, hisGiven, hbase, ⟨x, hx, htimeout⟩, hcompletions, hselector⟩ := h
  unfold nameGiven at hname hkind hbase hx hcompletions hselector
  have hgiven : ¬(p.kind = .command ∧ (commandOf (listed "command" entries)).isTruthy = false) :=
    fun ⟨hcommand, hfalse⟩ ↦ Bool.false_ne_true (hfalse.symm.trans (hisGiven hcommand))
  rw [parseProvider, hentries]
  simp only [hkind, hbase, hx, hcompletions, hname, hcommand, hselector, bind, Except.bind, pure,
    Except.pure, if_neg hgiven, ← htimeout]

theorem readFrom_of_isNormal {p : ProviderConfig} (h : p.IsNormal) (index : ℕ) :
    ∃ entries, p.toValue.entries? = some entries ∧ ReadFrom index entries p := by
  refine ⟨_, rfl, ?_⟩
  obtain ⟨x, hx⟩ := h.timeout
  exact {
    name := by
      have hgiven : (Value.str p.name).isTruthy = true := bne_iff_ne.mpr h.name
      change textOf ((given? (.str p.name)).getD _) = _
      rw [given?, if_pos hgiven]
      rfl
    kind := by
      change parseKind _ (.str p.kind.name) = _
      rcases h.kind with hkind | hkind
      · rw [hkind]
        rfl
      · rw [hkind]
        rfl
    command := by
      rw [listed_eq (p.command.map Value.str) rfl]
      exact mapM_eq_pure fun argument _ ↦ textOf_str argument
    isGiven := fun hkind ↦ by
      rw [listed_eq (p.command.map Value.str) rfl]
      cases hargs : p.command with
      | nil => exact absurd hargs (h.command hkind)
      | cons first rest => rfl
    positionBase := by
      change parsePositionBase _ p.positionBase.toValue = _
      rw [parsePositionBase, if_pos h.positionBase, Numeral.ofValue?_toValue]
    timeout := by
      refine ⟨x, ?_, hx⟩
      change parseTimeout _ p.timeout.toValue = _
      rw [hx]
      rfl
    completions := by
      have hread : (p.completions.map Value.map).mapM Value.entries? = some p.completions :=
        mapM_eq_pure fun entries _ ↦ Value.entries?_map entries
      rw [listed_eq (p.completions.map Value.map) rfl, parseCompletions,
        Value.items?_list, Option.bind_some, hread]
    selector := by
      rw [listed_eq (p.selector.map Filter.toValue) rfl]
      exact mapM_eq_pure fun f hf ↦ parseFilter_toValue _ (h.selector f hf) }

/-! ## Normal configurations -/

theorem parseProviders_toValue {ps : List ProviderConfig} (h : ∀ p ∈ ps, p.IsNormal) (index : ℕ) :
    parseProviders index (ps.map ProviderConfig.toValue) = .ok ps := by
  induction ps generalizing index with
  | nil => rfl
  | cons p ps ih =>
    obtain ⟨hp, hps⟩ := List.forall_mem_cons.mp h
    obtain ⟨entries, hentries, hread⟩ := readFrom_of_isNormal hp index
    rw [List.map_cons, parseProviders, parseProvider_of_readFrom hentries hread, ih hps]
    rfl

theorem parse_toValue {c : Config} (h : ∀ p ∈ c.providers, p.IsNormal)
    (hnames : (c.providers.map ProviderConfig.name).Nodup) :
    parse c.toValue = .ok { providers := c.providers } := by
  have hentries : c.toValue.entries? = some [(.str "providers",
      .list (c.providers.map ProviderConfig.toValue))] := rfl
  rw [parse, hentries]
  dsimp only
  rw [listed_eq (c.providers.map ProviderConfig.toValue) rfl, Value.items?_list]
  dsimp only
  have hproviders : parseProviders 0 (c.providers.map ProviderConfig.toValue) = pure c.providers :=
    parseProviders_toValue h 0
  rw [hproviders, pure_bind, duplicates_eq_nil_iff.mpr hnames]
  rfl

/-- Only a file gives a configuration a path. -/
theorem source_of_parse {v : Value} {c : Config} (h : parse v = .ok c) : c.source = none := by
  unfold parse at h
  split at h
  · cases h
  · split at h
    · obtain ⟨providers, -, h⟩ := exists_of_bind_eq_ok h
      split at h
      · cases h
        rfl
      · cases h
    · cases h

/-- **Normal forms are read back.** What was accepted, however it was given, can be written with all
its fields, and reading that gives the same configuration. -/
theorem parse_toValue_of_parse {v : Value} {c : Config} (h : parse v = .ok c) :
    parse c.toValue = .ok c := by
  have hnormal : ∀ p ∈ c.providers, p.IsNormal := by
    intro p hp
    obtain ⟨index, entries, hread, -⟩ := exists_readFrom_of_parse h hp
    exact hread.isNormal
  have hc : c = { providers := c.providers } := by
    rw [← source_of_parse h]
  rw [parse_toValue hnormal (accepted_of_parse h).distinct, ← hc]

/-- Providers in many spellings: a command as one text, a filter without a list and with a number as
its pattern, a name left out, a truth value as a base, and numbers as a name and an argument. -/
def manySpellings : Value :=
  .record [("providers", .list [
    .record [("command", .str " run  me "), ("position_base", .bool true), ("completions", .null),
      ("selector", .record [("language", .str "c"), ("pattern", .int 5)])],
    .record [("name", .int 7), ("kind", .str "static"), ("command", .list [ .int 1, .bool false]),
      ("completions", .list [ .record [("Kind", .null)]])]])]

theorem parse_toValue_manySpellings : ∃ c, parse manySpellings = .ok c ∧
    c.providers.map (fun p ↦ (p.name, p.command)) = [("provider-0", ["run", "me"]),
      ("7", ["1", "False"])] ∧
    c.providers.map (fun p ↦ p.selector.map Filter.pattern) = [[some "5"], []] ∧
    parse c.toValue = .ok c := by
  have hread : (parse manySpellings).map (fun c ↦ (c.providers.map (fun p ↦ (p.name, p.command)),
      c.providers.map (fun p ↦ p.selector.map Filter.pattern)))
      = .ok ([("provider-0", ["run", "me"]), ("7", ["1", "False"])], [[some "5"], []]) := by
    decide +kernel
  cases hc : parse manySpellings with
  | error f =>
    rw [hc] at hread
    cases hread
  | ok c =>
    rw [hc] at hread
    have hread := Except.ok.inj hread
    exact ⟨c, rfl, congrArg Prod.fst hread, congrArg Prod.snd hread, parse_toValue_of_parse hc⟩

end Config

end CompletionServer
