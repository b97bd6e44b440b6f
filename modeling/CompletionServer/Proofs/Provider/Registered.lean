import CompletionServer.Proofs.Config.Accepted
import CompletionServer.Session.Capability
import Mathlib.Data.List.Forall2
import Mathlib.Data.List.Nodup

/-!
# Registered providers

The capabilities of an accepted configuration are its providers, one by one and in their order:
since their names are distinct, none takes the place of another.

A provider of an accepted configuration can be made, unless its fixed candidates hold a whole number
that has no text: its kind is one of two, and its command is not empty. So there are capabilities for
every configuration that was read from values with a text, `exists_ofConfig_eq_ok`.
-/

namespace CompletionServer

open Completion

/-! ## Registrations -/

/-- That a registration is the one of a configured provider. -/
structure ProviderConfig.IsRegistered (directory : Option Path) (p : ProviderConfig)
    (r : Registration) : Prop where
  selector : r.selector = p.selector
  provider : Provider.ofConfig directory p = .ok r.provider

theorem isRegistered_of_registrationsOf {directory : Option Path} {ps : List ProviderConfig}
    (h : (registrationsOf directory ps).2 = none) :
    List.Forall₂ (ProviderConfig.IsRegistered directory) ps (registrationsOf directory ps).1 := by
  induction ps with
  | nil => exact .nil
  | cons p ps ih =>
    unfold registrationsOf at h ⊢
    split at h
    · cases h
    · next provider hprovider =>
      exact .cons ⟨rfl, hprovider⟩ (ih h)

theorem isRegistered_of_registrations {directory : Option Path} {config : Config}
    {rs : List Registration} (h : registrations directory config = .ok rs) :
    List.Forall₂ (ProviderConfig.IsRegistered directory) config.providers rs := by
  have hall (hnone : (registrationsOf directory config.providers).2 = none) :=
    isRegistered_of_registrationsOf hnone
  unfold registrations at h
  split at h
  · next found hfound =>
    cases h
    rw [hfound] at hall
    exact hall rfl
  · cases h

/-- The backend of a provider with a command. -/
def ProviderConfig.backend (directory : Option Path) (p : ProviderConfig) : Backend :=
  ⟨p.name, p.command, p.positionBase, p.timeout, directory⟩

/-- What a registered provider is, by its kind. -/
theorem ProviderConfig.IsRegistered.provider_eq {directory : Option Path} {p : ProviderConfig}
    {r : Registration} (h : p.IsRegistered directory r) :
    (p.kind = .command ∧ r.provider = .backend (p.backend directory)) ∨
      p.kind = .static ∧
        r.provider = .fixed p.name p.positionBase (p.completions.map Candidate.ofEntries) := by
  have hprovider := h.provider
  unfold Provider.ofConfig at hprovider
  split at hprovider
  · next hkind =>
    split at hprovider
    · next b hb =>
      unfold Backend.ofCommand? at hb
      split at hb
      · cases hb
      · obtain rfl := Option.some.inj hb
        exact .inl ⟨hkind, (Except.ok.inj hprovider).symm⟩
    · cases hprovider
  · next hkind =>
    split at hprovider
    · exact .inr ⟨hkind, (Except.ok.inj hprovider).symm⟩
    · cases hprovider
  · cases hprovider

/-! ## Providers that can be made -/

/-- A provider that is read from a mapping with a text can be made. -/
theorem exists_provider_of_readFrom {index : ℕ} {entries : List (Value × Value)}
    {p : ProviderConfig} (h : Config.ReadFrom index entries p)
    (hentries : Value.areWritableEntries entries = true) (directory : Option Path) :
    ∃ provider, Provider.ofConfig directory p = .ok provider := by
  unfold Provider.ofConfig
  rcases Config.command_or_static_of_parseKind h.kind with hkind | hkind
  · have hcommand : p.command ≠ [] := Config.arguments_ne_nil (h.isGiven hkind) h.command
    rw [hkind, Backend.ofCommand?, if_neg (by simpa using hcommand)]
    exact ⟨_, rfl⟩
  · have hwritable := Config.areWritable_of_parseCompletions
      (Config.isWritable_listed hentries "completions") h.completions
    rw [hkind, if_pos hwritable]
    exact ⟨_, rfl⟩

theorem registrationsOf_eq_none {directory : Option Path} {ps : List ProviderConfig}
    (h : ∀ p ∈ ps, ∃ provider, Provider.ofConfig directory p = .ok provider) :
    (registrationsOf directory ps).2 = none := by
  induction ps with
  | nil => rfl
  | cons p ps ih =>
    obtain ⟨provider, hprovider⟩ := h p List.mem_cons_self
    rw [registrationsOf, hprovider]
    exact ih fun q hq ↦ h q (List.mem_cons_of_mem p hq)

/-- A configuration whose providers can all be made has registrations. -/
theorem exists_registrations_eq_ok {directory : Option Path} {config : Config}
    (h : ∀ p ∈ config.providers, ∃ provider, Provider.ofConfig directory p = .ok provider) :
    ∃ rs, registrations directory config = .ok rs := by
  have hnone := registrationsOf_eq_none h
  unfold registrations
  split
  · next found _ => exact ⟨found, rfl⟩
  · next e hsome =>
    rw [hsome] at hnone
    cases hnone

theorem Capabilities.exists_ofConfig_eq_ok {directory : Option Path} {config : Config}
    (h : ∀ p ∈ config.providers, ∃ provider, Provider.ofConfig directory p = .ok provider) :
    ∃ cs, Capabilities.ofConfig directory config = .ok cs := by
  obtain ⟨rs, hrs⟩ := exists_registrations_eq_ok h
  rw [Capabilities.ofConfig, hrs]
  exact ⟨_, rfl⟩

/-! ## Capabilities -/

theorem append_completion_injective :
    Function.Injective fun name : String ↦ name ++ "_completion" := by
  intro a b h
  have hchars := congrArg String.toList h
  rw [String.toList_append, String.toList_append] at hchars
  exact String.toList_inj.mp (List.append_cancel_right hchars)

theorem map_name_eq {directory : Option Path} {ps : List ProviderConfig} {rs : List Registration}
    (h : List.Forall₂ (ProviderConfig.IsRegistered directory) ps rs) :
    rs.map (fun r ↦ r.provider.name) = ps.map ProviderConfig.name := by
  induction h with
  | nil => rfl
  | cons hr _ ih => rw [List.map_cons, List.map_cons, ih, Provider.name_ofConfig hr.provider]

/-- **The capabilities of an accepted configuration** are its providers, in their order. -/
theorem exists_registered_of_ofConfig {directory : Option Path} {config : Config}
    {cs : Capabilities} (hconfig : config.Accepted)
    (h : Capabilities.ofConfig directory config = .ok cs) :
    ∃ rs, List.Forall₂ (ProviderConfig.IsRegistered directory) config.providers rs ∧
      cs = rs.map fun r ↦ (Capability.name r, r) := by
  obtain ⟨rs, hrs, h⟩ := exists_of_bind_eq_ok h
  cases h
  have hregistered := isRegistered_of_registrations (mapError_eq_ok_iff.mp hrs)
  refine ⟨rs, hregistered, Keyed.ofList_of_nodup ?_⟩
  have hnames : (rs.map fun r ↦ r.provider.name).Nodup := by
    rw [map_name_eq hregistered]
    exact hconfig.distinct
  have hkeys := hnames.map append_completion_injective
  rw [List.map_map] at hkeys ⊢
  exact hkeys

end CompletionServer
