import CompletionServer.Config.Load
import CompletionServer.Proofs.Config.Provider

/-!
# Where a loaded configuration comes from

Two things go into a loaded configuration: what the file alone gives, and the options of the client.
If the options name providers these are the providers, whatever file there is, but they do not make
a file good that is refused: the file is looked for, decoded and checked before the options are.

So every provider of a loaded configuration was read from a value of one of two kinds, `IsSource`.
What is assumed of such values is all that a session needs to know of its surroundings.
-/

namespace CompletionServer.Config

/-! ## The file alone -/

/-- The configuration that the file alone gives; an empty one where there is no file. -/
def fileConfig (e : Environment) (workspace : Option Path) : Checked Config := do
  match ← findFile e workspace with
  | none => return {}
  | some path => ofFile e path

/-- That the options of a client name providers, be they none. -/
def GivesProviders (options : Value) : Prop :=
  ∃ entries given, options.entries? = some entries ∧ Value.get? "providers" entries = some given

theorem load_eq_bind (e : Environment) (workspace : Option Path) (options : Value) :
    load e workspace options = fileConfig e workspace >>= fun file ↦
      match options.entries?.map (Value.get? "providers") with
      | some (some _) => do return { ← parse options with source := file.source }
      | _ => return file := by
  unfold load fileConfig
  cases findFile e workspace with
  | error f => rfl
  | ok found =>
    cases found with
    | none => rfl
    | some path => rfl

/-- Options without providers leave the file as it is. -/
theorem load_of_not_givesProviders {e : Environment} {workspace : Option Path} {options : Value}
    (h : ¬GivesProviders options) : load e workspace options = fileConfig e workspace := by
  rw [load_eq_bind]
  split
  · next given hgiven =>
    obtain ⟨entries, hentries, hget⟩ := Option.map_eq_some_iff.mp hgiven
    exact absurd ⟨entries, given, hentries, hget⟩ h
  · cases fileConfig e workspace with
    | error f => rfl
    | ok file => rfl

/-- Of a file that is in order, options with providers keep the path alone. -/
theorem load_of_givesProviders {e : Environment} {workspace : Option Path} {options : Value}
    (h : GivesProviders options) :
    load e workspace options = fileConfig e workspace >>= fun file ↦
      (parse options).map fun own ↦ { own with source := file.source } := by
  obtain ⟨entries, given, hentries, hget⟩ := h
  rw [load_eq_bind, hentries, Option.map_some, hget]
  rfl

/-! ## Precedence of the options -/

/-- **The options of a client take precedence** over a file that is in order, or over none: the
providers are those of the options, so they are the same in any two workspaces. A file that is
refused is refused all the same. -/
theorem providers_load_of_options {options : Value} {own : Config} (hgiven : GivesProviders options)
    (hown : parse options = .ok own) (e : Environment) (workspace : Option Path) :
    (∀ file, fileConfig e workspace = .ok file →
      ∃ config, load e workspace options = .ok config ∧ config.providers = own.providers ∧
        config.source = file.source) ∧
    (∀ refusal, fileConfig e workspace = .error (.refused refusal) →
      load e workspace options = .error (.refused refusal)) ∧
    ∀ e' workspace' config config', load e workspace options = .ok config →
      load e' workspace' options = .ok config' → config.providers = config'.providers := by
  have hload (e : Environment) (workspace : Option Path) : load e workspace options
      = fileConfig e workspace >>= fun file ↦ .ok { own with source := file.source } := by
    rw [load_of_givesProviders hgiven, hown]
    rfl
  have hproviders {e : Environment} {workspace : Option Path} {config : Config}
      (h : load e workspace options = .ok config) : config.providers = own.providers := by
    rw [hload] at h
    obtain ⟨file, -, h⟩ := exists_of_bind_eq_ok h
    cases h
    rfl
  refine ⟨fun file hfile ↦ ?_, fun refusal hrefusal ↦ ?_, ?_⟩
  · refine ⟨{ own with source := file.source }, ?_, rfl, rfl⟩
    rw [hload, hfile]
    rfl
  · rw [hload, hrefusal]
    rfl
  · intro e' workspace' config config' h h'
    rw [hproviders h, hproviders h']

/-- Options with one provider. -/
def oneProvider : Value :=
  .record [("providers", .list [
    .record [("name", .str "own"), ("command", .list [ .str "backend"])]])]

theorem givesProviders_oneProvider : GivesProviders oneProvider := ⟨_, _, rfl, rfl⟩

theorem exists_parse_oneProvider : ∃ own, parse oneProvider = .ok own := by
  have hok : (parse oneProvider).isOk = true := by decide +kernel
  cases h : parse oneProvider with
  | error f =>
    rw [h] at hok
    cases hok
  | ok own => exact ⟨own, rfl⟩

/-- A workspace with a provider of fixed candidates in its file. -/
def fixedWorkspace : Environment where
  read? p :=
    if p = Path.ofString "/work/.completionls.yml" then
      some "providers:\n  - name: keywords\n    kind: static\n".toUTF8.toList
    else none

/-- Surroundings in which the variable names a file that is not there. -/
def missingFile : Environment where
  settings := [(fileVariable, "/none.yml")]

theorem fileConfig_missingFile (workspace : Option Path) :
    fileConfig missingFile workspace = .error (.refused (.missingFile "/none.yml")) := rfl

theorem providers_load_oneProvider :
    ∃ own file config, parse oneProvider = .ok own ∧
      fileConfig fixedWorkspace (some (Path.ofString "/work")) = .ok file ∧
      file.providers.map ProviderConfig.name = ["keywords"] ∧
      load fixedWorkspace (some (Path.ofString "/work")) oneProvider = .ok config ∧
      config.providers = own.providers ∧ own.providers.map ProviderConfig.name = ["own"] ∧
      load missingFile none oneProvider = .error (.refused (.missingFile "/none.yml")) := by
  obtain ⟨own, hown⟩ := exists_parse_oneProvider
  have hname : (parse oneProvider).map (fun c ↦ c.providers.map ProviderConfig.name)
      = .ok ["own"] := by
    decide +kernel
  have hnames : (fileConfig fixedWorkspace (some (Path.ofString "/work"))).map
      (fun c ↦ c.providers.map ProviderConfig.name) = .ok ["keywords"] := by
    decide +kernel
  rw [hown] at hname
  cases hfile : fileConfig fixedWorkspace (some (Path.ofString "/work")) with
  | error f =>
    rw [hfile] at hnames
    cases hnames
  | ok file =>
    rw [hfile] at hnames
    obtain ⟨hloads, -, -⟩ := providers_load_of_options givesProviders_oneProvider hown
      fixedWorkspace (some (Path.ofString "/work"))
    obtain ⟨-, hrefuses, -⟩ := providers_load_of_options givesProviders_oneProvider hown
      missingFile none
    obtain ⟨config, hload, hproviders, -⟩ := hloads file hfile
    exact ⟨own, file, config, hown, rfl, Except.ok.inj hnames, hload, hproviders,
      Except.ok.inj hname, hrefuses _ (fileConfig_missingFile none)⟩

/-- Options do not make up for a file that is not there. -/
theorem not_load_of_missingFile :
    ¬∀ (e : Environment) (workspace : Option Path) (options : Value) (own : Config),
      GivesProviders options → parse options = .ok own →
      ∃ config, load e workspace options = .ok config ∧ config.providers = own.providers := by
  intro h
  obtain ⟨own, hown⟩ := exists_parse_oneProvider
  obtain ⟨config, hload, -⟩ := h missingFile none oneProvider own givesProviders_oneProvider hown
  rw [load_of_givesProviders givesProviders_oneProvider, fileConfig_missingFile] at hload
  cases hload

/-! ## The values behind a configuration -/

/-- A value that a configuration may be read from: the options of the client, or what the file
holds that is found. -/
inductive IsSource (e : Environment) (workspace : Option Path) (options : Value) : Value → Prop where
  | options : IsSource e workspace options options
  | file {path : Path} {v : Value} (hfound : findFile e workspace = .ok (some path))
      (hvalue : decodeFile path ((e.read? path).getD []) = .ok v) : IsSource e workspace options v

theorem providers_of_parse_empty {config : Config} (h : parse (.map []) = .ok config) :
    config.providers = [] := by
  obtain ⟨entries, items, hentries, hitems, hproviders, -⟩ := exists_of_parse h
  cases hentries
  cases hitems
  exact (Except.ok.inj hproviders).symm

theorem exists_source_of_fileConfig {e : Environment} {workspace : Option Path} (options : Value)
    {file : Config} (h : fileConfig e workspace = .ok file) : file.providers = [] ∨
      ∃ v config, IsSource e workspace options v ∧ parse v = .ok config ∧
        file.providers = config.providers := by
  obtain ⟨found, hfound, h⟩ := exists_of_bind_eq_ok h
  cases found with
  | none =>
    cases h
    exact .inl rfl
  | some path =>
    obtain ⟨v, hv, h⟩ := exists_of_bind_eq_ok h
    obtain ⟨config, hconfig, h⟩ := exists_of_bind_eq_ok h
    cases h
    split at hconfig
    · exact .inr ⟨v, config, .file hfound hv, hconfig, rfl⟩
    · have hnil : config.providers = [] := providers_of_parse_empty hconfig
      exact .inl hnil

/-- The providers of a loaded configuration, if it has any, are read from one of these values. -/
theorem exists_source_of_load {e : Environment} {workspace : Option Path} {options : Value}
    {c : Config} (h : load e workspace options = .ok c) : c.providers = [] ∨
      ∃ v config, IsSource e workspace options v ∧ parse v = .ok config ∧
        c.providers = config.providers := by
  by_cases hgiven : GivesProviders options
  · rw [load_of_givesProviders hgiven] at h
    obtain ⟨file, -, h⟩ := exists_of_bind_eq_ok h
    cases hown : parse options with
    | error f =>
      rw [hown] at h
      cases h
    | ok own =>
      rw [hown] at h
      cases h
      exact .inr ⟨options, own, .options, hown, rfl⟩
  · rw [load_of_not_givesProviders hgiven] at h
    exact exists_source_of_fileConfig options h

end CompletionServer.Config
