import CompletionServer.Numeral
import CompletionServer.Path

/-!
# Configurations

A configuration lists the providers of completions. A provider is a command that is run for each
request, or a fixed list of candidates, and serves the documents that its filters select.
-/

namespace CompletionServer

/-- A condition on documents. What is not given, or is empty, asks for nothing. -/
structure Filter where
  language : Value := .null
  scheme : Value := .null
  pattern : Option String := none
deriving Inhabited

/-- How a provider comes by its candidates. -/
inductive ProviderKind where
  | command
  | static
  | other (name : String)
deriving DecidableEq, Repr, Inhabited

/-- The kind with a name. -/
def ProviderKind.ofName (name : String) : ProviderKind :=
  if name = "command" then .command else if name = "static" then .static else .other name

def ProviderKind.name : ProviderKind → String
  | .command => "command"
  | .static => "static"
  | .other name => name

theorem ProviderKind.name_ofName (name : String) : (ofName name).name = name := by
  unfold ofName
  split
  · simp_all [ProviderKind.name]
  · split <;> simp_all [ProviderKind.name]

/-- A provider as it is configured. -/
structure ProviderConfig where
  name : String
  kind : ProviderKind := .command
  command : List String := []
  positionBase : Numeral := .int 0
  timeout : Seconds := .ofFloat 10.0
  selector : List Filter := []
  /-- The entries of the mappings that describe fixed candidates. -/
  completions : List (List (Value × Value)) := []
deriving Inhabited

/-- A configuration, and the file it comes from if it comes from one. -/
structure Config where
  providers : List ProviderConfig := []
  source : Option Path := none
deriving Inhabited

end CompletionServer
