import CompletionServer.Proofs.Session.Capability
import CompletionServer.Proofs.Session.History

/-!
# The capabilities of what was loaded

A session loads a configuration in one step and makes capabilities of it in another, and the second
may fail where the first did not: fixed candidates may hold a whole number that is too long to be
written. Where values have texts nothing else can come between the two, so after any messages the
capabilities are those of the configuration that was loaded last.

The assumption is about values as they are decoded, whatever keeps a session from using them later.
That providers can be made of them is shown, not assumed: it rests on all that was checked when the
configuration was accepted.
-/

namespace CompletionServer

open Completion

/-! ## Providers and their capabilities -/

/-- That an entry of the capabilities is that of a configured provider. -/
structure ProviderConfig.IsServedBy (directory : Option Path) (p : ProviderConfig)
    (c : String × Capability) : Prop where
  key : c.1 = p.name ++ "_completion"
  selector : c.2.selector = p.selector
  provider :
    p.kind = .command ∧
        c.2.provider = .backend ⟨p.name, p.command, p.positionBase, p.timeout, directory⟩ ∨
      p.kind = .static ∧
        c.2.provider = .fixed p.name p.positionBase (p.completions.map Candidate.ofEntries)

theorem ProviderConfig.IsRegistered.isServedBy {directory : Option Path} {p : ProviderConfig}
    {r : Registration} (h : p.IsRegistered directory r) :
    p.IsServedBy directory (Capability.name r, r) where
  key := by rw [Capability.name, Provider.name_ofConfig h.provider]
  selector := h.selector
  provider := h.provider_eq

/-- The capabilities of an accepted configuration, entry by entry. -/
theorem forall₂_isServedBy_of_ofConfig {directory : Option Path} {config : Config}
    {cs : Capabilities} (hconfig : config.Accepted)
    (h : Capabilities.ofConfig directory config = .ok cs) :
    List.Forall₂ (ProviderConfig.IsServedBy directory) config.providers cs := by
  obtain ⟨rs, hregistered, rfl⟩ := exists_registered_of_ofConfig hconfig h
  exact List.forall₂_map_right_iff.mpr (hregistered.imp fun _ _ hr ↦ hr.isServedBy)

theorem map_fst_of_forall₂_isServedBy {directory : Option Path} {ps : List ProviderConfig}
    {cs : Capabilities} (h : List.Forall₂ (ProviderConfig.IsServedBy directory) ps cs) :
    cs.map Prod.fst = (ps.map ProviderConfig.name).map (· ++ "_completion") := by
  induction h with
  | nil => rfl
  | cons hc _ ih => rw [List.map_cons, List.map_cons, List.map_cons, hc.key, ih]

/-- That all values which a configuration may be read from have a text. -/
def Received.HasTexts (r : Received) : Prop :=
  ∀ root v, Session.workspaceRoot r.message.params = .ok root →
    Config.IsSource r.environment root (r.message.params.field "initializationOptions") v →
    v.isWritable = true

namespace Session

/-- That the capabilities of a session are those of the configuration that was loaded, one for each
provider and in their order; or that there is neither. -/
inductive Agrees (s : Session) : Prop where
  | unset (hconfig : s.config = none) (hcapabilities : s.capabilities = none)
  | served {config : Config} {directory : Option Path} {cs : Capabilities}
      (hconfig : s.config = some config) (hcapabilities : s.capabilities = some cs)
      (hkeys : (cs.map Prod.fst).Nodup)
      (hserved : List.Forall₂ (ProviderConfig.IsServedBy directory) config.providers cs)

/-- Where values have texts, capabilities can be made of the configuration for a client. -/
theorem exists_capabilities_of_configurationFor {r : Received} (hr : r.HasTexts)
    {root : Option Path} {config : Config} {told : List Sent}
    (h : configurationFor r.environment r.message = .ok (root, config, told)) :
    ∃ cs, Capabilities.ofConfig root config = .ok cs := by
  obtain ⟨root', hroot, h⟩ := exists_of_bind_eq_ok h
  obtain ⟨⟨config', told'⟩, hload, h⟩ := exists_of_bind_eq_ok h
  cases h
  refine Capabilities.exists_ofConfig_eq_ok fun p hp ↦ ?_
  unfold loadConfig at hload
  split at hload
  · next loaded hloaded =>
    cases hload
    -- Its providers come from the options or from the file, and these have texts.
    rcases Config.exists_source_of_load hloaded with hnil | ⟨v, own, hv, hown, hproviders⟩
    · rw [hnil] at hp
      cases hp
    · rw [hproviders] at hp
      obtain ⟨index, entries, hfrom, hwritable⟩ := Config.exists_readFrom_of_parse hown hp
      exact exists_provider_of_readFrom hfrom (hwritable (hr root v hroot hv)) root
  · cases hload
    cases hp
  · cases hload

/-- One message keeps the agreement. -/
theorem Agrees.turn {s : Session} (h : s.Agrees) {r : Received} (hr : r.HasTexts) :
    (s.turn r).after.Agrees := by
  cases settles_turn s r with
  | kept hsettings =>
    obtain ⟨hconfig, -, hcapabilities⟩ := settings_eq_iff.mp hsettings
    cases h with
    | unset hl hc => exact .unset (hconfig.trans hl) (hcapabilities.trans hc)
    | served hl hc hkeys hall =>
      exact .served (hconfig.trans hl) (hcapabilities.trans hc) hkeys hall
  | unserved hfound hfault _ =>
    -- Only values without a text could keep capabilities from being made.
    obtain ⟨cs, hcs⟩ := exists_capabilities_of_configurationFor hr hfound
    cases hcs.symm.trans hfault
  | @served root config told cs hfound hmade hsettings _ =>
    obtain ⟨hconfig, -, hcapabilities⟩ := settings_eq_iff.mp hsettings
    have haccepted := accepted_of_configurationFor hfound
    have hall := forall₂_isServedBy_of_ofConfig haccepted hmade
    refine .served hconfig hcapabilities ?_ hall
    rw [map_fst_of_forall₂_isServedBy hall]
    exact haccepted.distinct.map append_completion_injective

theorem agrees_reached {history : List Received} (h : ∀ r ∈ history, r.HasTexts) :
    (reached history).Agrees := by
  induction history using List.reverseRecOn with
  | nil => exact .unset rfl rfl
  | append_singleton history r ih =>
    rw [reached_concat]
    exact (ih fun past hpast ↦ h past (List.mem_append_left _ hpast)).turn
      (h r (List.mem_append_right _ List.mem_cons_self))

/-! ## Refused configurations -/

/-- That a client introduces itself and its configuration is refused. -/
inductive IsRefused (s : Session) (r : Received) : Prop where
  | refused {id : Value} {root : Option Path} {refusal : ConfigError}
      (hopen : s.closing = false) (hid : r.message.id = some id)
      (hmethod : r.message.method = "initialize")
      (hcheck : checkRoot r.message.params = .ok ())
      (hroot : workspaceRoot r.message.params = .ok root)
      (hload : Config.load r.environment root (r.message.params.field "initializationOptions")
        = .error (.refused refusal))

/-- A refused configuration leaves an empty one in its place, and no capabilities. -/
theorem settings_turn_of_isRefused {s : Session} {r : Received} (h : s.IsRefused r) :
    (s.turn r).after.settings = (some {}, some {}, some []) := by
  obtain @⟨id, root, refusal, hopen, hid, hmethod, hcheck, hroot, hload⟩ := h
  have hfound : configurationFor r.environment r.message
      = .ok (root, {}, [ .log .error ("Invalid configuration: " ++ refusal.message)]) := by
    rw [configurationFor, hroot]
    change (loadConfig r.environment root _).bind _ = _
    rw [loadConfig, hload]
    rfl
  rw [turn, take, hopen, hid]
  change (s.answer r.environment r.programs r.cancel r.message id).after.settings = _
  rw [answer, hmethod]
  change (s.begin r.environment r.message id).after.settings = _
  rw [begin, withWorkspace, hcheck, hfound]
  rfl

/-! ## Any message after any others -/

/-- **The capabilities of what was loaded.** After any messages the capabilities of a session are
those of the configuration that was loaded last, entry by entry, or there is neither. A refused
configuration leaves an empty one and no capabilities; a message that is answered with an error
leaves both as they were. -/
theorem capabilities_are_of_loaded (history : List Received) (r : Received)
    (hhistory : ∀ past ∈ history, past.HasTexts) (hr : r.HasTexts) :
    let s := reached history
    let t := s.turn r
    s.Agrees ∧ t.after.Agrees ∧
      (s.IsRefused r → t.after.config = some {} ∧ t.after.capabilities = some []) ∧
      ((∃ id code message, .error id code message ∈ t.sent) →
        t.after.config = s.config ∧ t.after.capabilities = s.capabilities) := by
  intro s t
  have hs : s.Agrees := agrees_reached hhistory
  refine ⟨hs, hs.turn hr, fun hrefused ↦ ?_, ?_⟩
  · obtain ⟨hconfig, -, hcapabilities⟩ := settings_eq_iff.mp (settings_turn_of_isRefused hrefused)
    exact ⟨hconfig, hcapabilities⟩
  · rintro ⟨id, code, message, herror⟩
    cases settles_turn s r with
    | kept hsettings =>
      obtain ⟨hconfig, -, hcapabilities⟩ := settings_eq_iff.mp hsettings
      exact ⟨hconfig, hcapabilities⟩
    | unserved hfound hfault _ =>
      obtain ⟨cs, hcs⟩ := exists_capabilities_of_configurationFor hr hfound
      cases hcs.symm.trans hfault
    -- What is served is announced and welcomed, with no error among that.
    | served _ _ _ hsent => exact absurd herror (hsent id code message)

/-- A client that introduces itself with one provider, where there are no files. -/
def introduction (fields : List (String × Value)) : Received :=
  ⟨{}, fun _ _ _ ↦ .refused "", false, ⟨some (.int 1), "initialize",
    .record [("initializationOptions", .record [("providers", .list [ .record fields])])]⟩⟩

/-- A provider that can be made. -/
def oneCommand : Received := introduction [("name", .str "first"), ("command", .list [ .str "one"])]

/-- A provider without the command it needs. -/
def unnamedCommand : Received := introduction [("name", .str "second")]

/-- A provider with a timeout that no float can hold. -/
def longTimeout : Received :=
  introduction [("name", .str "third"), ("command", .list [ .str "three"]),
    ("timeout", .int (Decimal.tenPow 400))]

theorem hasTexts_introduction {fields : List (String × Value)}
    (h : (Value.record fields).isWritable = true) : (introduction fields).HasTexts := by
  rintro root v hroot (_ | ⟨hfound, -⟩)
  · change (true && (true && (true && ((Value.record fields).isWritable && true)) && true)) = true
    rw [h]
    rfl
  · cases hroot
    cases hfound

theorem capabilities_of_introductions :
    (reached [oneCommand]).capabilities.map (List.map Prod.fst) = some ["first_completion"] ∧
      ((reached [oneCommand]).turn unnamedCommand).after.config = some {} ∧
      ((reached [oneCommand]).turn unnamedCommand).after.capabilities = some [] ∧
      ((reached [oneCommand]).turn longTimeout).after.config = (reached [oneCommand]).config ∧
      ((reached [oneCommand]).turn longTimeout).after.capabilities
        = (reached [oneCommand]).capabilities := by
  have hserved : ∀ past ∈ [oneCommand], past.HasTexts := by
    rintro past hpast
    obtain rfl := List.mem_singleton.mp hpast
    exact hasTexts_introduction rfl
  have hrefused : (reached [oneCommand]).IsRefused unnamedCommand :=
    .refused (by decide +kernel) rfl rfl rfl rfl rfl
  have hcodes : ((reached [oneCommand]).turn longTimeout).sent.map errorCode?
      = [some internalError] := by
    decide +kernel
  obtain ⟨id, message, herror⟩ :=
    exists_error_mem_of_errorCode? (hcodes ▸ List.mem_singleton_self (some internalError))
  obtain ⟨-, -, hempty, -⟩ :=
    capabilities_are_of_loaded [oneCommand] unnamedCommand hserved (hasTexts_introduction rfl)
  obtain ⟨-, -, -, hkept⟩ :=
    capabilities_are_of_loaded [oneCommand] longTimeout hserved
      (hasTexts_introduction (by decide +kernel))
  obtain ⟨hconfig, hnone⟩ := hempty hrefused
  obtain ⟨hsame, hcapabilities⟩ := hkept ⟨id, _, message, herror⟩
  exact ⟨by decide +kernel, hconfig, hnone, hsame, hcapabilities⟩

end Session

end CompletionServer
