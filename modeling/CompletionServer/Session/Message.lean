import CompletionServer.Completion.Item
import CompletionServer.Document.Edit

/-!
# Messages

What a client and a session say to each other. A request has an id and gets one answer, a result or
an error; a notification gets none. Messages that a session sends of its own are for a log or for
the user to see.
-/

namespace CompletionServer

/-- A message of a client. A request has an id. -/
structure Message where
  id : Option Value
  method : String
  params : Value
deriving Inhabited

/-- How grave a shown or logged message is. -/
inductive Gravity where
  | error
  | info
deriving DecidableEq, Repr, Inhabited

/-- The number of a gravity on the wire. -/
def Gravity.code : Gravity → Nat
  | .error => 1
  | .info => 3

/-- A message of a session. -/
inductive Sent where
  | result (id : Value) (result : Value)
  | error (id : Value) (code : Int) (message : String)
  | log (gravity : Gravity) (message : String)
  | shown (gravity : Gravity) (message : String)
deriving Inhabited

/-- The numbers of errors. -/
def internalError : Int := -32603

def methodNotFound : Int := -32601

def requestCancelled : Int := -32800

namespace Sent

/-- A message for a method of the client. -/
def notice (method : String) (gravity : Gravity) (message : String) : Value :=
  .record [("method", .str method),
    ("params", .record [("type", .int gravity.code), ("message", .str message)])]

/-- The message as a mapping, without the version of the protocol. -/
def toValue : Sent → Value
  | .result id r => .record [("id", id), ("result", r)]
  | .error id code message =>
    .record [("id", id), ("error", .record [("code", .int code), ("message", .str message)])]
  | .log gravity message => notice "window/logMessage" gravity message
  | .shown gravity message => notice "window/showMessage" gravity message

end Sent

namespace Message

/-- The message that a mapping describes; none if it has no method, as answers have not. -/
def ofValue? (v : Value) : Option Message := do
  let method ← (v.field "method").str?
  let id ← v.entries?.map (Value.get? "id")
  return ⟨id, method, v.field "params"⟩

/-- A count, zero where the value is none. -/
def countOf (v : Value) : Nat := (v.int?.getD 0).toNat

/-- The place that a mapping describes. -/
def place (v : Value) : Place := ⟨countOf (v.field "line"), countOf (v.field "character")⟩

/-- The text of a value, empty where the value is none. -/
def textOf (v : Value) : List Text.Point := v.points?.getD []

/-- The change that a mapping describes: of a stretch if it says which. -/
def change (v : Value) : Change :=
  let text := textOf (v.field "text")
  match v.field "range" with
  | .null => .whole text
  | range => .stretch (place (range.field "start")) (place (range.field "end")) text

/-- The URI of the document that the message is about. A half of a pair that stands alone in it counts
as U+FFFD. -/
def uri (m : Message) : String :=
  String.ofList (Text.shown (textOf ((m.params.field "textDocument").field "uri")))

/-- The changes that the message brings. -/
def changes (m : Message) : List Change :=
  ((m.params.field "contentChanges").items?.getD []).map change

/-- Whether the client that introduces itself supports snippets. -/
def snippetSupport (m : Message) : Bool :=
  let completion := ((m.params.field "capabilities").field "textDocument").field "completion"
  ((completion.field "completionItem").field "snippetSupport").isTruthy

/-- The encoding of columns for the client that introduces itself: the first that is known of those
which it names. -/
def columnEncoding (m : Message) : ColumnEncoding :=
  let named := ((m.params.field "capabilities").field "general").field "positionEncodings"
  let names := (named.items?.getD []).filterMap Value.str?
  (names.findSome? ColumnEncoding.ofName?).getD .utf16

end Message

end CompletionServer
