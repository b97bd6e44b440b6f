import CompletionServer.Session.Capability
import CompletionServer.Session.Message

/-!
# Sessions

A session takes the messages of one client in order. Introducing itself, the client brings the root
of its workspace and options of its own; from these and the surroundings come a configuration and
one capability for each of its providers. Documents are opened, changed and closed, and completion
is asked for at a place of one.

A message that cannot be dealt with is answered with the fault and leaves what it did not get to as
it was. After the client asked for the end, nothing is answered any more.
-/

namespace CompletionServer

open Completion

/-- The state of a session. -/
structure Session where
  /-- The open documents, once there is a workspace. -/
  documents : Option Documents := none
  columnEncoding : ColumnEncoding := .utf16
  snippetSupport : Bool := false
  /-- The configuration that was loaded last. It is kept even if its providers cannot be made. -/
  config : Option Config := none
  /-- The configuration that the capabilities are made of. -/
  served : Option Config := none
  capabilities : Option Capabilities := none
  /-- The client asked for the end. -/
  closing : Bool := false
deriving Inhabited

/-- What one message leads to: the messages sent, the launches, and the state after it. -/
structure Turn where
  sent : List Sent
  launches : List Backend.Launch
  after : Session
deriving Inhabited

namespace Session

/-! ## The beginning -/

def programName : String := "completionls"

def programVersion : String := "0.1.0"

/-- What a client is told when it introduces itself. -/
def welcome (e : ColumnEncoding) : Value :=
  .record [
    ("capabilities", .record [
      ("positionEncoding", .str e.name),
      ("completionProvider", .record [
        ("triggerCharacters", .list [ .str "."]),
        ("resolveProvider", .bool false)])]),
    ("serverInfo", .record [("name", .str programName), ("version", .str programVersion)])]

/-- The root of the workspace: that of the URI, or else of the path that a client gives. -/
def workspaceRoot (params : Value) : Except Fault (Option Path) := do
  match Config.given? (params.field "rootUri"), Config.given? (params.field "rootPath") with
  | some (.str uri), _ => return some (Path.ofString (← (Uri.fileName uri).mapError .uri))
  | _, some (.str path) => return some (Path.ofString path)
  | _, _ => return none

/-- The configuration for a client, and what it is told if there was one and it was refused: then
the configuration is empty. -/
def loadConfig (e : Environment) (root : Option Path) (options : Value) :
    Except Fault (Config × List Sent) :=
  match Config.load e root options with
  | .ok config => .ok (config, [])
  | .error (.refused refusal) =>
    .ok ({}, [ .log .error ("Invalid configuration: " ++ refusal.message)])
  | .error f => .error (.config f)

/-- The names of the providers as they are announced. -/
def announcement (cs : Capabilities) : String :=
  "Completion providers: " ++ if cs.isEmpty then "none" else ", ".intercalate (cs.map Prod.fst)

/-- Whether a path names a host after two slashes, and nothing on it. -/
def isHostOnly (path : String) : Bool :=
  match path.toList with
  | '/' :: '/' :: host => !host.contains '/'
  | _ => false

/-- Checks the root of the workspace: the URI must be one even if it is not used, and so must the
path be, if there is no URI, one that a URI can be made of. -/
def checkRoot (params : Value) : Except Fault Unit :=
  match params.field "rootUri", params.field "rootPath" with
  | .str uri, _ => do discard ((Uri.fileName uri).mapError Fault.uri)
  | .null, .str path => if isHostOnly path then .error .hostOnly else .ok ()
  | _, _ => .ok ()

/-- The state with a new workspace for a client. -/
def withWorkspace (s : Session) (m : Message) : Except Fault Session := do
  checkRoot m.params
  return { s with documents := some [], columnEncoding := m.columnEncoding }

/-- The root of the workspace of a client, the configuration for it, and what it is told. -/
def configurationFor (e : Environment) (m : Message) :
    Except Fault (Option Path × Config × List Sent) := do
  let root ← workspaceRoot m.params
  return (root, ← loadConfig e root (m.params.field "initializationOptions"))

/-- The state with the capabilities of a configuration, and what the client is told. -/
def withCapabilities (s : Session) (root : Option Path) (config : Config) :
    Except Fault (Session × List Sent) := do
  let capabilities ← Capabilities.ofConfig root config
  return ({ s with served := some config, capabilities := some capabilities },
    [ .log .info (announcement capabilities)])

/-- A client introduces itself. The configuration is in place before the capabilities are made of
it. -/
def begin (e : Environment) (s : Session) (m : Message) (id : Value) : Turn :=
  let s := { s with snippetSupport := m.snippetSupport }
  match s.withWorkspace m with
  | .error f => ⟨[ .error id internalError f.report], [], s⟩
  | .ok s =>
    match configurationFor e m with
    | .error f => ⟨[ .error id internalError f.report], [], s⟩
    | .ok (root, config, told) =>
      let s := { s with config := some config }
      match s.withCapabilities root config with
      | .error f => ⟨told ++ [ .error id internalError f.report], [], s⟩
      | .ok (after, announced) =>
        ⟨told ++ announced ++ [ .result id (welcome s.columnEncoding)], [], after⟩

/-! ## Documents -/

/-- The documents after a notification about one of them; nothing for any other notification. -/
def editDocuments (s : Session) (m : Message) (ds : Documents) : Except Fault Documents :=
  match m.method with
  | "textDocument/didOpen" => do
    discard ((Uri.fileName m.uri).mapError Fault.uri)
    let item := m.params.field "textDocument"
    return ds.opened m.uri
      ⟨Message.textOf (item.field "languageId"), Message.textOf (item.field "text")⟩
  | "textDocument/didChange" =>
    match ds.changed? s.columnEncoding m.uri m.changes with
    | some ds => .ok ds
    | none => .error (.notOpen (Documents.keyOf m.uri))
  | "textDocument/didClose" => .ok (ds.closed m.uri)
  | _ => .ok ds

/-- The methods of notifications about documents. -/
def documentMethods : List String :=
  ["textDocument/didOpen", "textDocument/didChange", "textDocument/didClose"]

/-- Whether a notification asks for anything to be done with documents. Without changes there is
nothing to change. -/
def concernsDocuments (m : Message) : Bool :=
  documentMethods.contains m.method
    && !(m.method == "textDocument/didChange" && m.changes.isEmpty)

/-- The state after a notification. -/
def notified (s : Session) (m : Message) : Except Fault Session :=
  if concernsDocuments m then
    match s.documents with
    | none => .error .noWorkspace
    | some ds => return { s with documents := some (← s.editDocuments m ds) }
  else .ok s

/-! ## Completion -/

/-- The place at which a message asks for completion. -/
def completionParams (m : Message) : CompletionParams where
  uri := m.uri
  line := ((m.params.field "position").field "line").int?.getD 0
  column := ((m.params.field "position").field "character").int?.getD 0

/-- The list for a request. Before the beginning there is nothing to complete. -/
def complete (programs : Backend.Programs) (cancel : Bool) (s : Session) (p : CompletionParams) :
    Answering ItemList :=
  match s.capabilities with
  | none => pure { items := [] }
  | some capabilities =>
    capabilities.complete ⟨s.documents.getD [], s.snippetSupport, programs, cancel⟩ p

/-- The item as it is resolved: items are complete from the start. -/
def resolve (item : Item) : Item := item

/-- What a client is told about a request that was cancelled. -/
def cancellation (id : Value) : String := s!"Request with id \"{id.text}\" is canceled"

/-- The answer to a request for completion, none if it does not come to an end. -/
def completionAnswer (id : Value) : Except Fault ItemList → List Sent
  | .ok list => [ .result id list.toValue]
  | .error f =>
    if f.isEndless then []
    else if f.isCancellation then [ .error id requestCancelled (cancellation id)]
    else [ .error id internalError f.report]

/-! ## One message -/

/-- Answers a request. -/
def answer (e : Environment) (programs : Backend.Programs) (cancel : Bool) (s : Session)
    (m : Message) (id : Value) : Turn :=
  match m.method with
  | "initialize" => s.begin e m id
  | "shutdown" => ⟨[ .result id .null], [], { s with closing := true }⟩
  | "textDocument/completion" =>
    let (list, launches) := (s.complete programs cancel (completionParams m)).run.run []
    ⟨completionAnswer id list, launches, s⟩
  | "completionItem/resolve" =>
    ⟨[ .result id (resolve (Item.ofValue m.params)).toValue], [], s⟩
  | method => ⟨[ .error id methodNotFound ("Method Not Found: " ++ method)], [], s⟩

/-- Takes a message. -/
def take (e : Environment) (programs : Backend.Programs) (cancel : Bool) (s : Session)
    (m : Message) : Turn :=
  if s.closing then ⟨[], [], s⟩
  else match m.id with
    | some id => s.answer e programs cancel m id
    | none =>
      match s.notified m with
      | .ok after => ⟨[], [], after⟩
      | .error f => ⟨[ .shown .error ("Error in server: " ++ f.report)], [], s⟩

theorem take_of_closing {s : Session} (h : s.closing = true) (e : Environment)
    (programs : Backend.Programs) (cancel : Bool) (m : Message) :
    s.take e programs cancel m = ⟨[], [], s⟩ := by
  rw [take, if_pos h]

/-- Takes messages up to the one that ends the session, and gives what is sent. What programs do may
depend on the launches of all messages before. -/
def run (e : Environment) (programs : Backend.Programs) :
    (past : List Backend.Launch) → Session → List Message → List Sent
  | _, _, [] => []
  | past, s, m :: rest =>
    if m.method = "exit" then []
    else
      let turn := s.take e (fun launches ↦ programs (past ++ launches)) false m
      turn.sent ++ run e programs (past ++ turn.launches) turn.after rest

end Session

end CompletionServer
