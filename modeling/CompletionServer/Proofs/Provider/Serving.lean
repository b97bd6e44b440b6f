import CompletionServer.Proofs.Provider.Registered
import CompletionServer.Proofs.Value.NonEmpty

/-!
# Accepted configurations can be served

A configuration is checked in one place, and what was checked is relied on in others: capabilities
are told apart by the names of their providers, a program is started from its arguments, and patterns
are compiled each time a document is looked at. `isServable_of_parse` says that nothing which these
places rely on is left open by the checks.
-/

namespace CompletionServer

open Completion

/-! ## Names -/

namespace Config

theorem isTruthy_nameGiven (index : ℕ) (entries : List (Value × Value)) :
    (nameGiven index entries).isTruthy = true := by
  unfold nameGiven given?
  split
  · next hgiven => exact hgiven
  · rw [Option.getD_none, Value.isTruthy, bne_iff_ne]
    exact append_ne_empty _ Nat.repr_ne_empty

/-- A provider has a name, given or made up. -/
theorem ReadFrom.name_ne_empty {index : ℕ} {entries : List (Value × Value)} {p : ProviderConfig}
    (h : ReadFrom index entries p) : p.name ≠ "" := by
  have hname := h.name
  unfold textOf at hname
  split at hname
  · rw [← Except.ok.inj hname]
    exact Value.text_ne_empty (isTruthy_nameGiven index entries)
  · cases hname

end Config

/-! ## Registrations -/

/-- What a provider of a known kind is registered as. -/
def ProviderConfig.registration (directory : Option Path) (p : ProviderConfig) : Registration where
  selector := p.selector
  provider :=
    match p.kind with
    | .static => .fixed p.name p.positionBase (p.completions.map Candidate.ofEntries)
    | _ => .backend (p.backend directory)

theorem ProviderConfig.IsRegistered.eq_registration {directory : Option Path} {p : ProviderConfig}
    {r : Registration} (h : p.IsRegistered directory r) : r = p.registration directory := by
  obtain ⟨selector, provider⟩ := r
  obtain rfl : selector = p.selector := h.selector
  rcases h.provider_eq with ⟨hkind, rfl⟩ | ⟨hkind, rfl⟩
  · rw [registration, hkind]
  · rw [registration, hkind]

theorem eq_map_registration {directory : Option Path} {ps : List ProviderConfig}
    {rs : List Registration} (h : List.Forall₂ (ProviderConfig.IsRegistered directory) ps rs) :
    rs = ps.map (ProviderConfig.registration directory) := by
  induction h with
  | nil => rfl
  | cons hr _ ih => rw [List.map_cons, ← hr.eq_registration, ← ih]

/-! ## Configurations -/

/-- **That a configuration can be served.** -/
structure Config.IsServable (directory : Option Path) (c : Config) : Prop where
  /-- Every provider has a name. -/
  named : ∀ p ∈ c.providers, p.name ≠ ""
  distinct : (c.providers.map ProviderConfig.name).Nodup
  /-- A provider has a command with at least one argument, or it is static. -/
  kinds : ∀ p ∈ c.providers, p.kind = .command ∧ p.command ≠ [] ∨ p.kind = .static
  registered : registrations directory c
    = .ok (c.providers.map (ProviderConfig.registration directory))
  capable : ∃ cs, Capabilities.ofConfig directory c = .ok cs ∧ cs.length = c.providers.length
  /-- A filter with a pattern accepts a path, or it does not. -/
  decided : ∀ p ∈ c.providers, ∀ f ∈ p.selector, ∀ pattern, f.pattern = some pattern →
    ∀ path, ∃ accepted, Glob.accepts pattern.toList path = .ok accepted

/-- **What was accepted can be served**, whatever directory programs run in, if it was read from
values that have texts. -/
theorem isServable_of_parse {v : Value} {c : Config} (hv : v.isWritable = true)
    (h : Config.parse v = .ok c) (directory : Option Path) : c.IsServable directory := by
  have haccepted := Config.accepted_of_parse h
  -- Registrations and capabilities are lists of what is made of each provider.
  have hmade : ∀ p ∈ c.providers, ∃ provider, Provider.ofConfig directory p = .ok provider := by
    intro p hp
    obtain ⟨index, entries, hfrom, hwritable⟩ := Config.exists_readFrom_of_parse h hp
    exact exists_provider_of_readFrom hfrom (hwritable hv) directory
  constructor
  case named =>
    intro p hp
    obtain ⟨index, entries, hfrom, -⟩ := Config.exists_readFrom_of_parse h hp
    exact hfrom.name_ne_empty
  case distinct => exact haccepted.distinct
  case kinds =>
    intro p hp
    obtain ⟨index, entries, hfrom, -⟩ := Config.exists_readFrom_of_parse h hp
    refine (Config.command_or_static_of_parseKind hfrom.kind).imp_left fun hkind ↦ ⟨hkind, ?_⟩
    exact Config.arguments_ne_nil (hfrom.isGiven hkind) hfrom.command
  case registered =>
    obtain ⟨rs, hrs⟩ := exists_registrations_eq_ok hmade
    rw [hrs, eq_map_registration (isRegistered_of_registrations hrs)]
  case capable =>
    obtain ⟨cs, hcs⟩ := Capabilities.exists_ofConfig_eq_ok hmade
    obtain ⟨rs, hregistered, rfl⟩ := exists_registered_of_ofConfig haccepted hcs
    exact ⟨_, hcs, by rw [List.length_map, hregistered.length_eq]⟩
  case decided =>
    intro p hp f hf pattern hpattern path
    obtain ⟨e, he⟩ := haccepted.compiles p hp f hf pattern hpattern
    exact ⟨_, Glob.accepts_of_compile he path⟩

/-- A command given as one text, by a provider without a name, and a provider whose name is a
number. -/
def mixedProviders : Value :=
  .record [("providers", .list [
    .record [("command", .str " complete  --stdio"),
      ("selector", .record [("pattern", .str "**/*.\x7bcs,csx\x7d")])],
    .record [("name", .int 7), ("kind", .str "static"), ("completions", .list [
      .record [("CompletionText", .str "class")], .record [("CompletionText", .int 0)]])]])]

theorem isServable_mixedProviders :
    ∃ c, mixedProviders.isWritable = true ∧ Config.parse mixedProviders = .ok c ∧
      c.providers.map (fun p ↦ (p.name, p.kind, p.command, p.completions.length))
        = [("provider-0", .command, ["complete", "--stdio"], 0), ("7", .static, [], 2)] ∧
      c.IsServable none := by
  have hwritable : mixedProviders.isWritable = true := by decide +kernel
  have hread : (Config.parse mixedProviders).map (fun c ↦
      c.providers.map fun p ↦ (p.name, p.kind, p.command, p.completions.length))
        = .ok [("provider-0", .command, ["complete", "--stdio"], 0), ("7", .static, [], 2)] := by
    decide +kernel
  cases hparse : Config.parse mixedProviders with
  | error f =>
    rw [hparse] at hread
    cases hread
  | ok c =>
    rw [hparse] at hread
    exact ⟨c, hwritable, rfl, Except.ok.inj hread, isServable_of_parse hwritable hparse none⟩

end CompletionServer
