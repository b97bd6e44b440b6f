import CompletionServer.Text.Utf8

/-!
# Reading in chunks

A long text is decoded chunk by chunk. A character that the end of a chunk cuts is carried over and
read with the next chunk; the end of the last one cuts it for good. A fault is placed within its
chunk, with what was carried over, and hides the characters of that chunk before it.
-/

namespace CompletionServer.Text.Utf8

/-- A byte before the chunks of what follows it. -/
def prependByte (b : UInt8) : List (List UInt8) → List (List UInt8)
  | [] => [[b]]
  | chunk :: chunks => (b :: chunk) :: chunks

/-- The bytes in stretches of `size`, of which the first has `room` only. -/
def chunksFrom (size : Nat) : (room : Nat) → List UInt8 → List (List UInt8)
  | _, [] => []
  | 0, b :: rest => [] :: prependByte b (chunksFrom size (size - 1) rest)
  | room + 1, b :: rest => prependByte b (chunksFrom size room rest)

/-- The bytes in stretches of `size`, the last of them maybe shorter. -/
def chunks (size : Nat) (bytes : List UInt8) : List (List UInt8) := chunksFrom size size bytes

theorem flatten_prependByte (b : UInt8) (chunks : List (List UInt8)) :
    (prependByte b chunks).flatten = b :: chunks.flatten := by
  cases chunks <;> simp [prependByte]

theorem flatten_chunks (size : Nat) (bytes : List UInt8) : (chunks size bytes).flatten = bytes := by
  suffices ∀ room, (chunksFrom size room bytes).flatten = bytes from this size
  induction bytes with
  | nil => intro room; cases room <;> rfl
  | cons b rest ih =>
    intro room
    cases room <;> simp [chunksFrom, flatten_prependByte, ih]

/-- The characters of `bytes`, and the bytes at the end that begin a character without completing
it. -/
def decodeOpen (bytes : List UInt8) : Except Fault (List Char × List UInt8) :=
  let found := segments bytes
  match found.getLast? with
  | some (.malformed .truncated _ length) =>
    return (← strict 0 found.dropLast, bytes.drop (bytes.length - length))
  | _ => return (← strict 0 found, [])

/-- The characters of chunks, and the fault after them if there is one. -/
def decodeChunks (carried : List UInt8) : List (List UInt8) → List Char × Option Fault
  | [] =>
    match decode carried with
    | .ok s => (s, none)
    | .error f => ([], some f)
  | chunk :: rest =>
    match decodeOpen (carried ++ chunk) with
    | .ok (s, cut) =>
      let (others, fault) := decodeChunks cut rest
      (s ++ others, fault)
    | .error f => ([], some f)

end CompletionServer.Text.Utf8
