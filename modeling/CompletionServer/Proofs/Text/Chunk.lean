import Mathlib.Data.List.Induction
import CompletionServer.Text.Chunk
import CompletionServer.Text.Utf8.RoundTrip

/-!
# Reading in chunks is reading

Bytes that are a text are read as that text, however they are cut into chunks: what is carried over
from a chunk is what was read of an unfinished character, no more and no less. So a fault of reading
in chunks is one of the bytes and not of the cuts.
-/

namespace CompletionServer.Text.Utf8

/-! ## Reading a part of the bytes -/

/-- The segments that are finished within `bytes`, and the state after them. -/
def readFrom : State → List UInt8 → List Segment × State
  | state, [] => ([], state)
  | state, b :: bytes =>
    let (found, last) := readFrom (step state b).2 bytes
    ((step state b).1 ++ found, last)

theorem segmentsFrom_append (state : State) (bytes others : List UInt8) :
    segmentsFrom state (bytes ++ others)
      = (readFrom state bytes).1 ++ segmentsFrom (readFrom state bytes).2 others := by
  induction bytes generalizing state with
  | nil => rfl
  | cons b bytes ih =>
    rw [List.cons_append, segmentsFrom_cons, ih, ← List.append_assoc]
    rfl

theorem readFrom_concat (state : State) (bytes : List UInt8) (b : UInt8) :
    readFrom state (bytes ++ [b])
      = ((readFrom state bytes).1 ++ (step (readFrom state bytes).2 b).1,
        (step (readFrom state bytes).2 b).2) := by
  induction bytes generalizing state with
  | nil => simp [readFrom]
  | cons a bytes ih => simp [readFrom, ih]

/-! ## Unfinished characters -/

/-- The number of bytes read of an unfinished character. -/
def State.length : State → ℕ
  | .between => 0
  | .within _ _ _ _ _ length => length

/-- That `bytes` are what is read of an unfinished character, if there is one. -/
structure IsUnfinished (state : State) (bytes : List UInt8) : Prop where
  read : readFrom .between bytes = ([], state)
  length : bytes.length = state.length

theorem IsUnfinished.nil : IsUnfinished .between [] := ⟨rfl, rfl⟩

/-- A first byte finishes a segment or begins a character. -/
theorem begin_cases (b : UInt8) :
    (begin b).2 = .between ∨ (begin b).1 = [] ∧ (begin b).2.length = 1 := by
  unfold begin
  repeat' split
  all_goals simp [State.length]

theorem exists_isUnfinished_begin (front : List UInt8) (b : UInt8) :
    ∃ front' back, front ++ [b] = front' ++ back ∧ IsUnfinished (begin b).2 back := by
  rcases begin_cases b with h | ⟨hfound, hlength⟩
  · exact ⟨front ++ [b], [], (List.append_nil _).symm, h ▸ .nil⟩
  · refine ⟨front, [b], rfl, ?_, hlength.symm⟩
    rw [readFrom, readFrom, step, hfound]
    rfl

/-- What is read of an unfinished character stands at the end of the bytes. -/
theorem exists_isUnfinished (bytes : List UInt8) :
    ∃ front back, bytes = front ++ back ∧ IsUnfinished (readFrom .between bytes).2 back := by
  induction bytes using List.reverseRecOn with
  | nil => exact ⟨[], [], rfl, .nil⟩
  | append_singleton bytes b ih =>
    obtain ⟨front, back, rfl, hback⟩ := ih
    rw [readFrom_concat]
    generalize (readFrom .between (front ++ back)).2 = state at *
    cases state with
    | between => exact exists_isUnfinished_begin _ b
    | within owed low high value first length =>
      dsimp only [step]
      split
      · split
        · exact ⟨front ++ back ++ [b], [], (List.append_nil _).symm, .nil⟩
        · next hfits howed =>
          refine ⟨front, back ++ [b], List.append_assoc _ _ _, ?_, ?_⟩
          · rw [readFrom_concat, hback.read]
            simp [step, hfits, howed]
          · rw [List.length_append, hback.length]
            rfl
      · exact exists_isUnfinished_begin _ b

/-! ## Texts in chunks -/

theorem eq_chars_of_strict {offset : ℕ} {found : List Segment} {text : List Char}
    (h : strict offset found = .ok text) : found = text.map Segment.char := by
  induction found generalizing offset text with
  | nil =>
    cases h
    rfl
  | cons s found ih =>
    cases s with
    | malformed => cases h
    | char c =>
      rw [strict] at h
      cases hrest : strict (offset + c.utf8Size) found with
      | error f =>
        rw [hrest] at h
        cases h
      | ok rest =>
        rw [hrest] at h
        cases h
        rw [ih hrest]
        rfl

/-- Characters and what is left of an unfinished one are read as these. -/
theorem decodeOpen_of_segments {front back : List UInt8} {state : State} {text : List Char}
    (hback : IsUnfinished state back)
    (h : segments (front ++ back) = text.map Segment.char ++ segmentsFrom state []) :
    decodeOpen (front ++ back) = .ok (text, back) := by
  have hlength := hback.length
  unfold decodeOpen
  dsimp only
  rw [h]
  cases state with
  | between =>
    rw [List.eq_nil_of_length_eq_zero hlength, segmentsFrom, List.append_nil]
    have hlast {d : Defect} {first : UInt8} {length : ℕ} :
        (text.map Segment.char).getLast? ≠ some (.malformed d first length) := by
      rw [List.getLast?_map]
      cases text.getLast? <;> simp
    split
    · next hmalformed => exact absurd hmalformed hlast
    · rw [strict_chars]
      rfl
  | within owed low high value first length =>
    have hdrop : (front ++ back).drop ((front ++ back).length - length) = back := by
      rw [List.length_append, hlength]
      exact List.drop_left' (by simp [State.length])
    rw [segmentsFrom, List.getLast?_concat, List.dropLast_concat]
    dsimp only
    rw [strict_chars, hdrop]
    rfl

/-- A chunk of a text is read as far as its characters go, and what is cut stays to be read. -/
theorem exists_decodeOpen {bytes others : List UInt8} {text : List Char}
    (h : segments (bytes ++ others) = text.map Segment.char) :
    ∃ first rest cut, text = first ++ rest ∧ decodeOpen bytes = .ok (first, cut) ∧
      segments (cut ++ others) = rest.map Segment.char := by
  obtain ⟨front, back, hbytes, hback⟩ := exists_isUnfinished bytes
  rw [segments, segmentsFrom_append] at h
  obtain ⟨first, rest, rfl, hfirst, hrest⟩ := List.map_eq_append_iff.mp h.symm
  refine ⟨first, rest, back, rfl, ?_, ?_⟩
  · have hsegments := segmentsFrom_append .between bytes []
    rw [List.append_nil, ← hfirst] at hsegments
    subst hbytes
    exact decodeOpen_of_segments hback hsegments
  · rw [segments, segmentsFrom_append, hback.read, List.nil_append, hrest]

theorem decodeChunks_of_segments {carried : List UInt8} {chunks : List (List UInt8)}
    {text : List Char} (h : segments (carried ++ chunks.flatten) = text.map Segment.char) :
    decodeChunks carried chunks = (text, none) := by
  induction chunks generalizing carried text with
  | nil =>
    rw [List.flatten_nil, List.append_nil] at h
    rw [decodeChunks, decode, h, strict_chars]
  | cons chunk chunks ih =>
    rw [List.flatten_cons, ← List.append_assoc] at h
    obtain ⟨first, rest, cut, rfl, hopen, hcut⟩ := exists_decodeOpen h
    rw [decodeChunks, hopen]
    dsimp only
    rw [ih hcut]

/-- **Bytes that are a text are read as that text in chunks of any size.** -/
theorem decodeChunks_of_decode {bytes : List UInt8} {text : List Char}
    (h : decode bytes = .ok text) (size : ℕ) :
    decodeChunks [] (chunks size bytes) = (text, none) := by
  apply decodeChunks_of_segments
  rw [List.nil_append, flatten_chunks]
  exact eq_chars_of_strict h

end CompletionServer.Text.Utf8
