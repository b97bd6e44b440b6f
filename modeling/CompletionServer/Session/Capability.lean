import CompletionServer.Completion.Handler
import CompletionServer.Config.Load
import CompletionServer.Document.Store
import CompletionServer.Session.Fault

/-!
# Capabilities

What a session can do with a request for completion: one capability for each registered provider. It
handles the documents that the provider serves, asks the provider, and makes a list of its answer.

The world of a request is what programs do and whether the request is cancelled; what it leaves
behind is the record of launches.
-/

namespace CompletionServer

open Completion

/-- The effects of a request: faults, and launches. -/
abbrev Answering := ExceptT Fault (StateM (List Backend.Launch))

/-- A request for completion. -/
structure CompletionParams where
  uri : String
  line : Int
  column : Int
deriving DecidableEq, Repr, Inhabited

/-- What a capability sees of a session. -/
structure View where
  documents : Documents
  snippetSupport : Bool
  programs : Backend.Programs
  /-- The request is cancelled as soon as a program got its input and has yet to end. -/
  cancel : Bool

/-- A result without effects. -/
def Answering.ofExcept {α : Type} (r : Except Fault α) : Answering α := ExceptT.mk (pure r)

/-- An answer of a backend, with its failures as faults. -/
def Answering.ofBackend {α : Type} (r : ExceptT Backend.Failure (StateM (List Backend.Launch)) α) :
    Answering α :=
  ExceptT.mk do return (← r.run).mapError Fault.backend

/-- The source of candidates that a provider is. -/
def Provider.source (programs : Backend.Programs) (cancel : Bool) (p : Provider) :
    Source Answering where
  name := p.name
  positionBase := p.positionBase
  answer r :=
    match p with
    | .backend b => Answering.ofBackend (b.answer programs cancel r)
    | .fixed _ _ candidates => pure (fixedAnswer candidates r)

/-- A capability: a registered provider. -/
abbrev Capability := Registration

namespace Capability

def name (c : Capability) : String := c.provider.name ++ "_completion"

def description (c : Capability) : String :=
  s!"Auto-complete from the '{c.provider.name}' backend"

/-- The language of a document, if it is open. One that is not must have a URI all the same. -/
def languageOf (v : View) (uri : String) : Except Fault (Option (List Text.Point)) :=
  match v.documents.find? uri with
  | some d => .ok (some d.language)
  | none => do
    discard ((Uri.fileName uri).mapError .uri)
    return none

/-- Whether the provider serves the document. -/
def canHandle (v : View) (c : Capability) (p : CompletionParams) : Except Fault Bool := do
  let language ← languageOf v p.uri
  (selects c.selector p.uri language).mapError .selection

/-- The query for a request. An open document sends its text along. -/
def query (v : View) (p : CompletionParams) : Except Fault Query := do
  let fileName ← (Uri.fileName p.uri).mapError .uri
  return {
    fileName
    line := .int p.line
    column := .int p.column
    wantsSnippets := v.snippetSupport
    buffer := (v.documents.find? p.uri).map Document.text }

/-- The list for a request. -/
def complete (v : View) (c : Capability) (p : CompletionParams) : Answering ItemList := do
  let query ← Answering.ofExcept (query v p)
  (c.provider.source v.programs v.cancel).complete .placeTooLarge query (some v.snippetSupport)

/-- The capability as a handler of requests. -/
def handler (v : View) (c : Capability) : Handler CompletionParams Answering where
  name := c.name
  canHandle p := Answering.ofExcept (c.canHandle v p)
  complete p := c.complete v p

end Capability

/-- Capabilities by their names. -/
abbrev Capabilities := List (String × Capability)

namespace Capabilities

/-- The capabilities for registrations. -/
def ofRegistrations (rs : List Registration) : Capabilities :=
  Keyed.ofList (· == ·) (rs.map fun r ↦ (Capability.name r, r))

/-- The capabilities of a configuration. -/
def ofConfig (directory : Option Path) (c : Config) : Except Fault Capabilities := do
  return ofRegistrations (← (registrations directory c).mapError .provider)

/-- The capabilities as handlers. -/
def handlers (v : View) (cs : Capabilities) : Handlers CompletionParams Answering :=
  cs.map fun c ↦ (c.1, c.2.handler v)

/-- The joined list of all capabilities that handle a request. -/
def complete (v : View) (cs : Capabilities) (p : CompletionParams) : Answering ItemList :=
  (cs.handlers v).complete p

end Capabilities

end CompletionServer
