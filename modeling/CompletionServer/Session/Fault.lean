import CompletionServer.Backend.Basic
import CompletionServer.Config.Error
import CompletionServer.Provider.Registration
import CompletionServer.Selector

/-!
# Faults of a session

All that can stop a session from doing what a message asks. A client is told the kind of the fault,
with the module that defines it, and its text.
-/

namespace CompletionServer

/-- Why a message cannot be dealt with. -/
inductive Fault where
  | config (f : ConfigFault)
  | provider (e : ProviderError)
  | selection (e : SelectionError)
  | uri (e : Uri.Error)
  /-- A path of a root that names a host after two slashes, and nothing on it. -/
  | hostOnly
  /-- A line or a column out of the range of floats. -/
  | placeTooLarge
  | backend (f : Backend.Failure)
  /-- A change of a document that is not open, by its key. -/
  | notOpen (key : String)
  /-- A document before the session began. -/
  | noWorkspace
deriving DecidableEq, Repr

namespace Fault

/-- The kind of a fault. -/
def kind : Fault → String
  | .config f => f.kind
  | .provider e => e.kind
  | .selection _ | .uri _ | .hostOnly => "ValueError"
  | .placeTooLarge => "OverflowError"
  | .backend f => f.kind
  | .notOpen _ => "KeyError"
  | .noWorkspace => "RuntimeError"

def message : Fault → String
  | .config f => f.message
  | .provider e => e.message
  | .selection e => e.message
  | .uri e => e.message
  | .hostOnly => "substring not found"
  | .placeTooLarge => "int too large to convert to float"
  | .backend f => f.message
  | .notOpen key => Text.quoted key
  | .noWorkspace => "The workspace is not available - has the server been initialized?"

/-- The modules of the kinds that are not general ones. -/
def kindModules : List (String × String) :=
  [("ConfigError", "completionls.config"),
    ("CompletionBackendError", "completionls.providers.command"),
    ("CancelledError", "asyncio.exceptions")]

/-- The kind of a fault with its module. -/
def qualifiedKind (f : Fault) : String :=
  match kindModules.lookup f.kind with
  | some m => m ++ "." ++ f.kind
  | none => f.kind

/-- What a client is told. -/
def report (f : Fault) : String :=
  let text := if f.message = "" then f.qualifiedKind else f.qualifiedKind ++ ": " ++ f.message
  String.ofList (Text.trim text.toList)

/-- Whether the fault is that the request was cancelled. -/
def isCancellation (f : Fault) : Bool := f == .backend .cancelled

/-- Whether the fault is that the request does not come to an end. -/
def isEndless (f : Fault) : Bool := f == .backend .endless

end Fault

end CompletionServer
