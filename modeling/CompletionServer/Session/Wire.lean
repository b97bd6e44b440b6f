import CompletionServer.Json.Reader
import CompletionServer.Json.Writer
import CompletionServer.Session.Message
import CompletionServer.Text.Utf8

/-!
# Messages on the wire

A message is JSON in UTF-8 after a header that says how many bytes it has.
-/

namespace CompletionServer.Wire

open Text

/-- The number of bytes that a line of a header announces. -/
def announced? (line : List Char) : Option Nat :=
  let name := "content-length:".toList
  if name.isPrefixOf (line.map Char.toLower) then
    readDigits 10 asciiDigit? (trim (line.drop name.length))
  else none

/-- The number of bytes that a header announces. -/
def contentLength? (header : List (List Char)) : Option Nat := header.findSome? announced?

/-- The message in the body that follows a header. -/
def decode (body : List UInt8) : Option Message :=
  match Utf8.decode body with
  | .error _ => none
  | .ok s =>
    match Json.read s with
    | .ok v => Message.ofValue? v
    | .error _ => none

/-- A message of a session with the version of the protocol. -/
def versioned (m : Sent) : Value :=
  match m.toValue with
  | .map entries => .map ((.str "jsonrpc", .str "2.0") :: entries)
  | v => v

/-- A message of a session with its header. The body is ASCII, so it has a byte for each character.
-/
def encode (m : Sent) : String :=
  let body := Json.write (versioned m)
  s!"Content-Length: {body.length}\r\n\r\n{body}"

end CompletionServer.Wire
