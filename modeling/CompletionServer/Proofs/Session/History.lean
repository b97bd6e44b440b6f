import CompletionServer.Proofs.Config.Accepted
import CompletionServer.Session.Basic
import Mathlib.Data.List.Induction

/-!
# What a session received

A session is where the messages so far have led it, `Session.reached`. With each of them comes what
surrounds the session then, what programs do, and whether the client cancels meanwhile. Whatever the
messages are and in whatever order they come, the capabilities are those of the configuration that
is served, and this was accepted: `Session.configured_reached`.
-/

namespace CompletionServer

/-- A message with its surroundings. -/
structure Received where
  environment : Environment
  programs : Backend.Programs
  cancel : Bool
  message : Message

namespace Session

/-- The turn that a message leads to. -/
def turn (s : Session) (r : Received) : Turn := s.take r.environment r.programs r.cancel r.message

/-- The state after some messages. -/
def reached (history : List Received) : Session := history.foldl (fun s r ↦ (s.turn r).after) {}

theorem reached_concat (history : List Received) (r : Received) :
    reached (history ++ [r]) = ((reached history).turn r).after := by
  rw [reached, List.foldl_append]
  rfl

/-! ## Errors that are sent -/

/-- The number of an error that is sent. -/
def errorCode? : Sent → Option Int
  | .error _ code _ => some code
  | _ => none

theorem exists_error_mem_of_errorCode? {sent : List Sent} {code : Int}
    (h : some code ∈ sent.map errorCode?) : ∃ id message, .error id code message ∈ sent := by
  obtain ⟨m, hm, hcode⟩ := List.mem_map.mp h
  cases m with
  | error id _ message =>
    obtain rfl := Option.some.inj hcode
    exact ⟨id, message, hm⟩
  | _ => cases hcode

/-! ## What a message changes

Of all messages only an introduction touches the configuration and the capabilities. What it can do
to them is said once here, so that invariants of a session need not look into its turns. -/

/-- The configuration that was loaded, the one that is served, and the capabilities. -/
def settings (s : Session) : Option Config × Option Config × Option Capabilities :=
  (s.config, s.served, s.capabilities)

theorem settings_eq_iff {s : Session} {config served : Option Config}
    {capabilities : Option Capabilities} : s.settings = (config, served, capabilities) ↔
      s.config = config ∧ s.served = served ∧ s.capabilities = capabilities := by
  rw [settings, Prod.mk.injEq, Prod.mk.injEq]

/-- What a turn does to the settings of a session: nothing, or it loads a configuration, which is
served if its providers can be made. -/
inductive Settles (e : Environment) (m : Message) (s : Session) (t : Turn) : Prop where
  | kept (hsettings : t.after.settings = s.settings)
  | unserved {root : Option Path} {config : Config} {told : List Sent} {f : Fault}
      (hfound : configurationFor e m = .ok (root, config, told))
      (hfault : Capabilities.ofConfig root config = .error f)
      (hsettings : t.after.settings = (some config, s.served, s.capabilities))
  | served {root : Option Path} {config : Config} {told : List Sent} {cs : Capabilities}
      (hfound : configurationFor e m = .ok (root, config, told))
      (hmade : Capabilities.ofConfig root config = .ok cs)
      (hsettings : t.after.settings = (some config, some config, some cs))
      (hsent : ∀ id code message, .error id code message ∉ t.sent)

theorem settings_withWorkspace {s s' : Session} {m : Message} (h : s.withWorkspace m = .ok s') :
    s'.settings = s.settings := by
  obtain ⟨_, -, h⟩ := exists_of_bind_eq_ok h
  cases h
  rfl

theorem settings_notified {s after : Session} {m : Message} (h : s.notified m = .ok after) :
    after.settings = s.settings := by
  unfold notified at h
  split at h
  · split at h
    · cases h
    · obtain ⟨ds, -, h⟩ := exists_of_bind_eq_ok h
      cases h
      rfl
  · cases h
    rfl

/-- A client that gets a configuration is told no error. -/
theorem error_notMem_of_configurationFor {e : Environment} {m : Message} {root : Option Path}
    {config : Config} {told : List Sent} (h : configurationFor e m = .ok (root, config, told))
    (id : Value) (code : Int) (message : String) : .error id code message ∉ told := by
  obtain ⟨root', -, h⟩ := exists_of_bind_eq_ok h
  obtain ⟨⟨config', told'⟩, hload, h⟩ := exists_of_bind_eq_ok h
  cases h
  unfold loadConfig at hload
  split at hload
  · cases hload
    exact List.not_mem_nil
  · cases hload
    simp
  · cases hload

theorem settles_begin (e : Environment) (s : Session) (m : Message) (id : Value) :
    Settles e m s (s.begin e m id) := by
  unfold begin
  dsimp only
  split
  · exact .kept rfl
  · next s' hs =>
    have hs' : s'.settings = s.settings := (settings_withWorkspace hs).trans rfl
    obtain ⟨-, hserved, hcapabilities⟩ := settings_eq_iff.mp hs'
    split
    · exact .kept hs'
    · next root config told hfound =>
      unfold withCapabilities
      cases hmade : Capabilities.ofConfig root config with
      | error f =>
        exact .unserved hfound hmade (settings_eq_iff.mpr ⟨rfl, hserved, hcapabilities⟩)
      | ok cs =>
        refine .served hfound hmade rfl fun id code message hmem ↦ ?_
        rcases List.mem_append.mp hmem with hmem | hmem
        · rcases List.mem_append.mp hmem with hmem | hmem
          · exact error_notMem_of_configurationFor hfound id code message hmem
          · cases List.mem_singleton.mp hmem
        · cases List.mem_singleton.mp hmem

/-- **One message** leaves the settings of a session alone, or settles them anew. -/
theorem settles_turn (s : Session) (r : Received) :
    Settles r.environment r.message s (s.turn r) := by
  unfold turn take
  split
  · exact .kept rfl
  · split
    · unfold answer
      split
      · exact settles_begin _ _ _ _
      · exact .kept rfl
      · exact .kept rfl
      · exact .kept rfl
      · exact .kept rfl
    · split
      · next after hafter => exact .kept (settings_notified hafter)
      · exact .kept rfl

/-! ## Capabilities of a configuration -/

/-- That a session has the capabilities of the configuration it serves, and that this was
accepted. -/
def Configured (s : Session) : Prop :=
  ∀ config, s.served = some config → config.Accepted ∧
    ∃ directory cs, s.capabilities = some cs ∧ Capabilities.ofConfig directory config = .ok cs

/-- Nothing but the configuration that is served and the capabilities matters. -/
theorem Configured.congr {s s' : Session} (h : s.Configured) (hserved : s'.served = s.served)
    (hcapabilities : s'.capabilities = s.capabilities) : s'.Configured := by
  intro config hsome
  rw [hcapabilities]
  exact h config (hserved ▸ hsome)

theorem accepted_of_loadConfig {e : Environment} {root : Option Path} {options : Value}
    {config : Config} {told : List Sent} (h : loadConfig e root options = .ok (config, told)) :
    config.Accepted := by
  unfold loadConfig at h
  split at h
  · next c hload =>
    cases h
    exact Config.accepted_of_load hload
  · cases h
    exact Config.accepted_empty none
  · cases h

theorem accepted_of_configurationFor {e : Environment} {m : Message} {root : Option Path}
    {config : Config} {told : List Sent} (h : configurationFor e m = .ok (root, config, told)) :
    config.Accepted := by
  obtain ⟨root', -, h⟩ := exists_of_bind_eq_ok h
  obtain ⟨⟨config', told'⟩, hload, h⟩ := exists_of_bind_eq_ok h
  cases h
  exact accepted_of_loadConfig hload

/-- One message keeps it. -/
theorem Configured.turn {s : Session} (h : s.Configured) (r : Received) :
    (s.turn r).after.Configured := by
  cases settles_turn s r with
  | kept hsettings =>
    obtain ⟨-, hserved, hcapabilities⟩ := settings_eq_iff.mp hsettings
    exact h.congr hserved hcapabilities
  | unserved _ _ hsettings =>
    obtain ⟨-, hserved, hcapabilities⟩ := settings_eq_iff.mp hsettings
    exact h.congr hserved hcapabilities
  | @served root config told cs hfound hmade hsettings _ =>
    obtain ⟨-, hserved, hcapabilities⟩ := settings_eq_iff.mp hsettings
    intro c hc
    obtain rfl := Option.some.inj (hserved.symm.trans hc)
    exact ⟨accepted_of_configurationFor hfound, root, cs, hcapabilities, hmade⟩

/-- **The capabilities of a session** are those of the configuration it serves, after any
messages. -/
theorem configured_reached (history : List Received) : (reached history).Configured := by
  induction history using List.reverseRecOn with
  | nil => exact fun _ h ↦ nomatch h
  | append_singleton history r ih =>
    rw [reached_concat]
    exact ih.turn r

end Session

end CompletionServer
