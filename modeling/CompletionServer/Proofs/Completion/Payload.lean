import CompletionServer.Completion.Request
import CompletionServer.Proofs.Json.Written
import CompletionServer.Text.Utf8.RoundTrip

/-!
# What a backend gets

A backend gets a request as bytes. They are ASCII, and whoever reads JSON reads the request from
them, whatever characters its file name and its buffer have. So the bytes tell requests apart.

Where it is read back, lines and columns are whole numbers, any that can be written. What `Shows`
and `IsObject` say of a payload holds of all numerals.

A buffer may hold halves of pairs of surrogates. Two that stand side by side are read as the
character that they make, so the request that is read has its pairs joined, `Request.joined`.
-/

namespace CompletionServer

open Completion Text

namespace Text.Utf8

/-! ## Bytes -/

theorem lt_of_mem_encode {s : List Char} (h : IsAscii s) {b : UInt8} (hb : b ∈ encode s) :
    b < 128 := by
  obtain ⟨c, hc, hb⟩ := List.mem_flatMap.mp hb
  have hlt : c.val.toNat < 128 := h c hc
  unfold String.utf8EncodeChar at hb
  dsimp only at hb
  rw [if_pos (by omega), List.mem_singleton] at hb
  rw [hb, UInt8.lt_iff_toNat_lt, UInt8.toNat_ofNat_of_lt' (by change _ < 256; omega)]
  exact hlt

theorem encode_injective : Function.Injective encode := fun s t h ↦ by
  rw [← decodeLenient_encode s, h, decodeLenient_encode]

end Text.Utf8

theorem Numeral.toValue_injective : Function.Injective Numeral.toValue := fun a b h ↦ by
  rw [← Option.some_inj, ← ofValue?_toValue a, h, ofValue?_toValue]

namespace Completion.Request

/-! ## Requests as they are written -/

theorem toValue_injective : Function.Injective toValue := by
  rintro ⟨_, line, column, _, _, _, _, buffer⟩ ⟨_, line', column', _, _, _, _, buffer'⟩ h
  have hplace (a b : Numeral) (hab : a.toValue = b.toValue) : a = b :=
    Numeral.toValue_injective hab
  have htext (s t : List Point) (hst : Value.ofPoints s = Value.ofPoints t) : s = t :=
    Value.ofPoints_injective hst
  -- The mappings have the same length only if both requests have a buffer or neither has.
  cases buffer <;> cases buffer' <;> simp [toValue, Value.record] at h ⊢
  all_goals grind

/-- That a payload has a line and a column after the name of the file, written in these ways. -/
def Shows (r : Request) (line column : String) : Prop :=
  ∃ rest, r.payload = "\x7b\"fileName\": " ++ Json.write (.str r.fileName)
    ++ ", \"line\": " ++ line ++ ", \"column\": " ++ column ++ rest

theorem shows_write (r : Request) :
    r.Shows (Json.write r.line.toValue) (Json.write r.column.toValue) := by
  obtain ⟨rest, hrest⟩ : ∃ rest, r.toValue = .map ((.str "fileName", .str r.fileName)
      :: (.str "line", r.line.toValue) :: (.str "column", r.column.toValue) :: rest) :=
    ⟨_, rfl⟩
  refine ⟨String.ofList (Json.writeMembers rest), ?_⟩
  apply String.toList_injective
  simp only [payload, hrest, Json.write, Json.writeChars, Json.writeMembers, String.toList_append,
    String.toList_ofList, List.append_assoc, List.cons_append]
  rfl

/-- The members of a request as they are written one after the other, with these texts of the name
of the file and of the buffer. -/
def written (r : Request) (name : String) (buffer : Option String) : List String :=
  ([("fileName", name),
    ("line", Json.write r.line.toValue),
    ("column", Json.write r.column.toValue),
    ("wantKind", toString r.wantKind),
    ("wantDocumentationForEveryCompletionResult", toString r.wantDocumentation),
    ("wantReturnType", toString r.wantReturnType),
    ("wantSnippet", toString r.wantSnippet)]
  ++ buffer.toList.map fun text ↦ ("buffer", text)).map fun m ↦ "\"" ++ m.1 ++ "\": " ++ m.2

/-- **That a text is a request as an object**: it has a member for the buffer if there is a buffer,
be it empty, and only then. The name of the file and the buffer may be written in any way that the
notation has for them. -/
def IsObject (r : Request) (text : String) : Prop :=
  ∃ name buffer, Json.IsTextOf (.string (points r.fileName.toList)) name.toList ∧
    Option.Rel (fun s w ↦ Json.IsTextOf (.string (joinPairs s)) w.toList) r.buffer buffer ∧
    text = "\x7b" ++ ", ".intercalate (r.written name buffer) ++ "\x7d"

theorem payload_eq (r : Request) :
    r.payload = "\x7b" ++ ", ".intercalate (r.written (Json.write (.str r.fileName))
      (r.buffer.map fun s ↦ Json.write (.ofPoints s))) ++ "\x7d" := by
  -- No name of a member needs an escape.
  have hname : ∀ name ∈ ["fileName", "line", "column", "wantKind",
      "wantDocumentationForEveryCompletionResult", "wantReturnType", "wantSnippet", "buffer"],
      String.ofList (Json.writeString name) ++ ": " = "\"" ++ name ++ "\": " := by
    decide +kernel
  simp only [List.forall_mem_cons] at hname
  obtain ⟨hfile, hline, hcolumn, hkind, hdocumentation, hreturn, hsnippet, hbuffer, -⟩ := hname
  have hbool (b : Bool) : Json.write (.bool b) = toString b := by cases b <;> rfl
  rw [payload, toValue, Json.write_record]
  cases r.buffer
  all_goals
    simp only [written, Json.memberText, List.map_cons, List.map_nil, List.cons_append,
      List.nil_append, List.append_nil, hfile, hline, hcolumn, hkind, hdocumentation, hreturn,
      hsnippet, hbuffer, hbool, Option.map_none, Option.map_some, Option.toList_none,
      Option.toList_some]

theorem isTextOf_write_points (s : List Point) :
    Json.IsTextOf (.string (joinPairs s)) (Json.write (.ofPoints s)).toList := by
  refine ⟨[], _, [], Json.isGap_nil, Json.writes_string s, Json.isGap_nil, ?_⟩
  rw [Json.write, String.toList_ofList, List.append_nil, List.nil_append]

theorem isObject_payload (r : Request) : r.IsObject r.payload := by
  refine ⟨_, _, ?_, ?_, r.payload_eq⟩
  · have hname := isTextOf_write_points (points r.fileName.toList)
    rwa [joinPairs_points, Value.ofPoints_points, String.ofList_toList] at hname
  · cases r.buffer with
    | none => exact .none
    | some s => exact .some (isTextOf_write_points s)

/-- The bytes that a backend gets. -/
def bytes (r : Request) : List UInt8 := Utf8.encode r.payload.toList

/-- The members of a request at a line and a column. There is one for the buffer only if there is a
buffer, be it empty. -/
def members (r : Request) (line column : ℤ) : List (List Char × Json.Tree) :=
  [("fileName".toList, .string (points r.fileName.toList)),
    ("line".toList, .int line),
    ("column".toList, .int column),
    ("wantKind".toList, .bool r.wantKind),
    ("wantDocumentationForEveryCompletionResult".toList, .bool r.wantDocumentation),
    ("wantReturnType".toList, .bool r.wantReturnType),
    ("wantSnippet".toList, .bool r.wantSnippet)]
  ++ r.buffer.toList.map fun text ↦ ("buffer".toList, .string (joinPairs text))

/-- A request as an object. -/
def tree (r : Request) (line column : ℤ) : Json.Tree :=
  .object ((r.members line column).map fun m ↦ (points m.1, m.2))

/-- That the place of a request is a line and a column that can be written. -/
structure IsAt (r : Request) (line column : ℤ) : Prop where
  line_eq : r.line = .int line
  column_eq : r.column = .int column
  natAbs_line_lt : line.natAbs < Decimal.tenPow digitLimit
  natAbs_column_lt : column.natAbs < Decimal.tenPow digitLimit

/-- The request as it is read from its payload: the halves of pairs in the buffer that stand side by
side are the character that they make. -/
def joined (r : Request) : Request := { r with buffer := r.buffer.map joinPairs }

/-- A buffer of characters has no halves of pairs. -/
theorem joined_eq_self {r : Request} (h : ∀ s ∈ r.buffer, ∃ cs, s = points cs) : r.joined = r := by
  obtain ⟨_, _, _, _, _, _, _, buffer⟩ := r
  cases buffer with
  | none => rfl
  | some s =>
    obtain ⟨cs, rfl⟩ := h s rfl
    rw [joined, Option.map_some, joinPairs_points]

theorem payload_joined (r : Request) : r.joined.payload = r.payload := by
  have hbuffer : (r.buffer.map joinPairs).map (fun s ↦ Json.write (.ofPoints s))
      = r.buffer.map fun s ↦ Json.write (.ofPoints s) := by
    rw [Option.map_map]
    refine Option.map_congr fun s _ ↦ ?_
    exact congrArg String.ofList (Json.writeChars_ofPoints_joinPairs s)
  rw [payload_eq, payload_eq, ← hbuffer]
  rfl

variable {r : Request} {line column : ℤ}

theorem nodup_members (r : Request) (line column : ℤ) :
    ((r.members line column).map Prod.fst).Nodup := by
  have hnames : (r.members line column).map Prod.fst
      = (["fileName", "line", "column", "wantKind", "wantDocumentationForEveryCompletionResult",
          "wantReturnType", "wantSnippet"]
        ++ if r.buffer.isSome then ["buffer"] else []).map String.toList := by
    cases hbuffer : r.buffer with
    | none => rw [members, hbuffer]; rfl
    | some text => rw [members, hbuffer]; rfl
  rw [hnames]
  cases r.buffer.isSome <;> decide

theorem IsAt.isPlain_tree (h : r.IsAt line column) : (r.tree line column).IsPlain := by
  refine .object (nodup_members r line column) fun m hm ↦ ?_
  rcases List.mem_append.mp hm with hm | hm
  · simp only [List.mem_cons, List.not_mem_nil, or_false] at hm
    rcases hm with rfl | rfl | rfl | rfl | rfl | rfl | rfl
    · exact joinPairs_points r.fileName.toList ▸ .string _
    · exact .int h.natAbs_line_lt
    · exact .int h.natAbs_column_lt
    all_goals exact .bool _
  · obtain ⟨text, -, rfl⟩ := List.mem_map.mp hm
    exact .string _

theorem IsAt.toValue_tree (h : r.IsAt line column) :
    (r.tree line column).toValue = r.joined.toValue := by
  rw [tree, Json.Tree.toValue, Json.entriesOf_points,
    Json.ofList_entries (nodup_members r line column), members, toValue, Value.record, joined,
    h.line_eq, h.column_eq]
  cases r.buffer with
  | none => simp [Json.Tree.toValue, Numeral.toValue]
  | some text => simp [Json.Tree.toValue, Numeral.toValue]

theorem IsAt.write_tree (h : r.IsAt line column) :
    Json.write (r.tree line column).toValue = r.payload := by
  rw [h.toValue_tree, ← payload_joined, payload]

theorem IsAt.isTextOf_payload (h : r.IsAt line column) :
    Json.IsTextOf (r.tree line column) r.payload.toList := by
  rw [← h.write_tree]
  exact h.isPlain_tree.isTextOf_write

theorem IsAt.read_payload (h : r.IsAt line column) :
    Json.read r.payload.toList = .ok r.joined.toValue := by
  rw [← h.write_tree, ← h.toValue_tree]
  exact h.isPlain_tree.read_write

/-- **That a text is what a backend is sent for a request**: it is the request as an object, whatever
numbers its line and column are, and where they are whole numbers that can be written it is a text of
that object. -/
structure IsSentAs (r : Request) (text : String) : Prop where
  isObject : r.IsObject text
  isTextOf : ∀ line column, r.IsAt line column → Json.IsTextOf (r.tree line column) text.toList

theorem isSentAs_payload (r : Request) : r.IsSentAs r.payload :=
  ⟨r.isObject_payload, fun _ _ h ↦ h.isTextOf_payload⟩

/-- **The payload is the request**, if its place is one that can be written and no pair in its buffer
is taken apart. Its bytes are ASCII, and they are those of a text of the request as an object: of its
seven members, and of the buffer if there is one. The text is read as the request, and no other
request has the same bytes. -/
theorem bytes_are_text_of_request (h : r.IsAt line column) (hjoined : r.joined = r) :
    (∀ b ∈ r.bytes, b < 128) ∧
      (∃ s, Utf8.decode r.bytes = .ok s ∧ Json.IsTextOf (r.tree line column) s ∧
        Json.read s = .ok r.toValue) ∧
      ∀ r' line' column', IsAt r' line' column' → r'.joined = r' → r'.bytes = r.bytes →
        r' = r := by
  have hread {r : Request} {line column : ℤ} (h : r.IsAt line column) (hjoined : r.joined = r) :
      Json.read r.payload.toList = .ok r.toValue := by
    rw [h.read_payload, hjoined]
  refine ⟨fun b hb ↦ ?_, ⟨r.payload.toList, Utf8.decode_encode _, h.isTextOf_payload,
    hread h hjoined⟩, ?_⟩
  · rw [bytes, ← h.write_tree, Json.write, String.toList_ofList] at hb
    exact Utf8.lt_of_mem_encode h.isPlain_tree.isAscii hb
  · intro r' line' column' h' hjoined' hbytes
    have heq : Json.read r'.payload.toList = Json.read r.payload.toList := by
      rw [Utf8.encode_injective hbytes]
    rw [hread h hjoined, hread h' hjoined'] at heq
    exact toValue_injective (Except.ok.inj heq)

/-- A request with a quote and a backslash in its file name, and a buffer with a control character
and a character beyond the basic plane. -/
def ofManyCharacters : Request :=
  { fileName := "a\"\\b", line := .int 0, column := .int (-1),
    buffer := some (pointsOf "\x01\n😀") }

theorem bytes_ofManyCharacters :
    ofManyCharacters.IsAt 0 (-1) ∧ ofManyCharacters.joined = ofManyCharacters ∧
      (∀ b ∈ ofManyCharacters.bytes, b < 128) ∧
      (∃ s, Utf8.decode ofManyCharacters.bytes = .ok s ∧
        Json.IsTextOf (ofManyCharacters.tree 0 (-1)) s ∧
        Json.read s = .ok ofManyCharacters.toValue) ∧
      ∀ r' line' column', IsAt r' line' column' → r'.joined = r' →
        r'.bytes = ofManyCharacters.bytes → r' = ofManyCharacters := by
  have hpos : ∀ n, 1 < Decimal.tenPow (n + 1) := fun n ↦ Nat.one_lt_pow n.succ_ne_zero (by decide)
  have hplace : ofManyCharacters.IsAt 0 (-1) :=
    ⟨rfl, rfl, (hpos 4299).trans' Nat.one_pos, hpos 4299⟩
  have hjoined : ofManyCharacters.joined = ofManyCharacters :=
    joined_eq_self fun s hs ↦ ⟨_, (Option.some.inj hs).symm⟩
  exact ⟨hplace, hjoined, bytes_are_text_of_request hplace hjoined⟩

end Completion.Request

end CompletionServer
