import CompletionServer.Text.Digit
import CompletionServer.Text.Utf8

/-!
# Percent-encoding

A `%` with two hexadecimal digits stands for a byte; every other character, a `%` without such
digits included, stands for its own bytes. The decoded text is the lenient reading of all these
bytes, so an encoded stretch that is no UTF-8 becomes U+FFFD.
-/

namespace CompletionServer.Uri

open Text

/-- The bytes that a percent-encoded text stands for. -/
def escapedBytes : List Char → List UInt8
  | [] => []
  | '%' :: a :: b :: rest =>
    match hexDigit? a, hexDigit? b with
    | some high, some low => (high * 16 + low).toUInt8 :: escapedBytes rest
    | _, _ => String.utf8EncodeChar '%' ++ escapedBytes (a :: b :: rest)
  | c :: rest => String.utf8EncodeChar c ++ escapedBytes rest

/-- The text that a percent-encoded text stands for. -/
def percentDecode (s : List Char) : List Char := Utf8.decodeLenient (escapedBytes s)

end CompletionServer.Uri
