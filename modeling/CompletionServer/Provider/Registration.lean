import CompletionServer.Backend.Basic
import CompletionServer.Config.Basic

/-!
# Providers and the documents they serve

A configuration becomes a list of registrations, one for each provider: the filters that say which
documents it serves, and where its candidates come from.
-/

namespace CompletionServer

open Completion

/-- Where candidates come from. -/
inductive Provider where
  | backend (b : Backend)
  | fixed (name : String) (positionBase : Numeral) (candidates : List Candidate)
deriving Inhabited

namespace Provider

def name : Provider → String
  | .backend b => b.name
  | .fixed name _ _ => name

/-- The base from which a provider counts lines and columns. -/
def positionBase : Provider → Numeral
  | .backend b => b.positionBase
  | .fixed _ base _ => base

end Provider

/-- Why a configured provider cannot be made. Of a configuration that was checked, only fixed
candidates can be the reason. -/
inductive ProviderError where
  | emptyCommand (name : String)
  | unknownKind (name kind : String)
  /-- A whole number of too many digits in a fixed candidate. -/
  | unwritable
deriving DecidableEq, Repr

/-- The kind of an error, as it is reported to a client. -/
def ProviderError.kind : ProviderError → String
  | .emptyCommand _ | .unwritable => "ValueError"
  | .unknownKind _ _ => "ConfigError"

def ProviderError.message : ProviderError → String
  | .emptyCommand name => s!"Provider '{name}' has an empty command"
  | .unknownKind name kind => s!"Provider '{name}': unknown kind '{kind}'"
  | .unwritable => Text.unwritableMessage

/-- The provider that is configured; programs run in `directory`. -/
def Provider.ofConfig (directory : Option Path) (c : ProviderConfig) :
    Except ProviderError Provider :=
  match c.kind with
  | .command =>
    match Backend.ofCommand? c.name c.command c.positionBase c.timeout directory with
    | some b => .ok (.backend b)
    | none => .error (.emptyCommand c.name)
  | .static =>
    if c.completions.all Candidate.areWritable then
      .ok (.fixed c.name c.positionBase (c.completions.map Candidate.ofEntries))
    else .error .unwritable
  | .other kind => .error (.unknownKind c.name kind)

theorem Provider.name_ofConfig {directory : Option Path} {c : ProviderConfig} {p : Provider}
    (h : Provider.ofConfig directory c = .ok p) : p.name = c.name := by
  unfold Provider.ofConfig at h
  split at h
  · split at h
    · next b hb =>
      cases h
      unfold Backend.ofCommand? at hb
      split at hb <;> cases hb
      rfl
    · cases h
  · split at h
    · cases h; rfl
    · cases h
  · cases h

/-- A provider with the filters of the documents it serves. -/
structure Registration where
  selector : List Filter
  provider : Provider
deriving Inhabited

/-- The registrations of providers up to the first that cannot be made, and why it cannot. -/
def registrationsOf (directory : Option Path) :
    List ProviderConfig → List Registration × Option ProviderError
  | [] => ([], none)
  | c :: rest =>
    match Provider.ofConfig directory c with
    | .error e => ([], some e)
    | .ok provider =>
      let (registrations, e) := registrationsOf directory rest
      (⟨c.selector, provider⟩ :: registrations, e)

/-- The registrations of all providers of a configuration, in their order. -/
def registrations (directory : Option Path) (c : Config) :
    Except ProviderError (List Registration) :=
  match registrationsOf directory c.providers with
  | (found, none) => .ok found
  | (_, some e) => .error e

end CompletionServer
