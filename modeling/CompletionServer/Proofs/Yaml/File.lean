import CompletionServer.Proofs.Text.Chunk
import CompletionServer.Proofs.Yaml.Document
import CompletionServer.Proofs.Yaml.Graph
import CompletionServer.Yaml.File

/-!
# What can be wrong with a file

Apart from defects of the text, three things keep a file from having a value: bytes that are no
text, an escape of a code point that does not exist, and a scalar of the document that has no value.
-/

namespace CompletionServer.Yaml

open Text

/-- The faults that a file may have. -/
inductive IsFaultOf (bytes : List UInt8) : Fault → Prop where
  | malformed (e : Error) : IsFaultOf bytes (.malformed e)
  /-- Bytes that are no text. -/
  | unreadable {f : Utf8.Fault} (h : ∀ text, Utf8.decode bytes ≠ .ok text) :
      IsFaultOf bytes (.unreadable f)
  /-- An escape with eight digits of a code point that does not exist. -/
  | escape {s : Source} {digits : List Char} {n : ℕ} (hs : sourceOf bytes = .ok s)
      (h : '\\' :: 'U' :: digits <:+: s.rest) (hlength : digits.length = 8)
      (hn : readDigits 16 hexDigit? digits = some n) (hlarge : 0x110000 ≤ n) :
      IsFaultOf bytes (.impossible (.codePoint n))
  /-- A scalar of the document without a value. -/
  | scalar {s : Source} {g : Graph} {root : ℕ} {f : ScalarFault} (hs : sourceOf bytes = .ok s)
      (hg : graph (tokens s).1 (tokens s).2 = .ok (some (g, root))) (h : g.Holds f) :
      IsFaultOf bytes (.impossible f)

variable {bytes : List UInt8}

/-- Decoding fails only where the bytes are no text. -/
theorem decode_ne_of_decodeChunks {text : List Char} {f : Utf8.Fault}
    (h : Utf8.decodeChunks [] (Utf8.chunks chunkSize bytes) = (text, some f)) (text' : List Char) :
    Utf8.decode bytes ≠ .ok text' := by
  intro hdecode
  rw [Utf8.decodeChunks_of_decode hdecode] at h
  cases h

theorem blockFault?_cases {text : List Char} {fault : Option Utf8.Fault} {blocks : ℕ} {f : Fault}
    (h : blockFault? text fault = some (blocks, f)) :
    f = Defect.character.fault ∨ ∃ u, fault = some u ∧ f = .unreadable u := by
  unfold blockFault? at h
  dsimp only at h
  split at h
  · split at h
    · cases h
      exact .inr ⟨_, rfl, rfl⟩
    · cases h
      exact .inl rfl
  · split at h
    · cases h
    · cases h
      exact .inl rfl

theorem outcome_sourceOf (bytes : List UInt8) :
    Outcome (fun s ↦ ∀ f, s.ending = some f → IsFaultOf bytes f) (IsFaultOf bytes)
      (sourceOf bytes) := by
  unfold sourceOf
  split
  next decoded fault hdecoded =>
  dsimp only
  split
  · exact nofun
  · next blocks f hfault =>
    have hf : IsFaultOf bytes f := by
      obtain rfl | ⟨u, rfl, rfl⟩ := blockFault?_cases hfault
      · exact .malformed _
      · exact .unreadable (decode_ne_of_decodeChunks hdecoded)
    split
    · exact hf
    · intro f' hf'
      cases hf'
      exact hf

/-- **A file has a value or one of these faults.** -/
theorem outcome_readFile (bytes : List UInt8) :
    Outcome (fun _ ↦ True) (IsFaultOf bytes) (readFile bytes) := by
  have hsource := outcome_sourceOf bytes
  unfold readFile
  cases hs : sourceOf bytes with
  | error f =>
    rw [hs] at hsource
    exact hsource
  | ok s =>
    rw [hs] at hsource
    have hgraph := outcome_graph s
    change Outcome _ _ (graph (tokens s).1 (tokens s).2 >>= _)
    cases hg : graph (tokens s).1 (tokens s).2 with
    | error f =>
      rw [hg] at hgraph
      cases hgraph with
      | malformed e => exact .malformed e
      | ending h => exact hsource f h
      | escape h hlength hn hlarge => exact .escape hs h hlength hn hlarge
    | ok found =>
      cases found with
      | none => trivial
      | some found =>
        obtain ⟨g, root⟩ := found
        refine (outcome_valueOf g root).mono (fun _ ↦ id) fun f hf ↦ ?_
        cases hf with
        | malformed e => exact .malformed e
        | impossible h => exact .scalar hs hg h

end CompletionServer.Yaml
