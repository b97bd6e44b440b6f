import CompletionServer.Text.Chunk
import CompletionServer.Text.Line
import CompletionServer.Yaml.Document

/-!
# YAML files

A file is decoded in chunks and its text is read in blocks, the first two at once and each later one
only when it is reached. A block with a character that is not allowed, or one that cannot be
decoded, is a fault there. So a fault far behind in a file does not matter if something is wrong
before it.
-/

namespace CompletionServer.Yaml

/-- The number of bytes in a chunk. -/
def chunkSize : Nat := 8192

/-- The number of characters in a block. -/
def blockSize : Nat := 4096

/-- The number of blocks that are read before anything else. -/
def firstBlocks : Nat := 2

/-- Whether a character may stand in a YAML text. -/
def isAllowed (c : Char) : Bool :=
  let n := c.toNat
  n == 9 || n == 10 || n == 13 || (0x20 ≤ n && n ≤ 0x7E) || n == 0x85
    || (0xA0 ≤ n && n ≤ 0xD7FF) || (0xE000 ≤ n && n ≤ 0xFFFD) || 0x10000 ≤ n

/-- The number of blocks before the first that is a fault, and the fault, if there is one. `fault`
is that of decoding, which keeps the last block from being completed. -/
def blockFault? (text : List Char) (fault : Option Text.Utf8.Fault) : Option (Nat × Fault) :=
  let decoded := text.length / blockSize
  let allowed := (text.takeWhile isAllowed).length
  match fault with
  | some f =>
    if decoded < firstBlocks || decoded * blockSize ≤ allowed then some (decoded, .unreadable f)
    else some (allowed / blockSize, Defect.character.fault)
  | none =>
    if allowed == text.length then none else some (allowed / blockSize, Defect.character.fault)

/-- The text of a file, up to the first block that is a fault. -/
def sourceOf (bytes : List UInt8) : Except Fault Source :=
  let (decoded, fault) := Text.Utf8.decodeChunks [] (Text.Utf8.chunks chunkSize bytes)
  let text := Text.unifyLineEnds decoded
  match blockFault? text fault with
  | none => .ok (.ofText text none)
  | some (blocks, f) =>
    if blocks < firstBlocks then .error f
    else .ok (.ofText (text.take (blocks * blockSize)) (some f))

/-- The value of a file; null if it holds no document. -/
def readFile (bytes : List UInt8) : Except Fault Value := do read (← sourceOf bytes)

end CompletionServer.Yaml
