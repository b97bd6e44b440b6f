import CompletionServer.Text.Utf8

/-!
# Reading back what is written

The bytes of a text are cut into its characters, one segment each, so both readers give the text
back. The first byte of a character settles how many are owed and, at the ends of the range, which
second bytes are allowed; every later byte carries six more bits.
-/

namespace CompletionServer.Text.Utf8

/-! ## First bytes -/

theorem begin_one : ∀ n < 128, begin (.ofNat n) = ([.char (Char.ofNat n)], .between) := by
  decide

theorem begin_two : ∀ n < 32, 2 ≤ n →
    begin (.ofNat (n + 192)) = ([], .within 1 0x80 0xBF n (.ofNat (n + 192)) 1) := by
  decide

theorem begin_three : ∀ n < 16, begin (.ofNat (n + 224)) = ([],
    .within 2 (if n = 0 then 0xA0 else 0x80) (if n = 13 then 0x9F else 0xBF) n
      (.ofNat (n + 224)) 1) := by
  decide

theorem begin_four : ∀ n < 5, begin (.ofNat (n + 240)) = ([],
    .within 3 (if n = 0 then 0x90 else 0x80) (if n = 4 then 0x8F else 0xBF) n
      (.ofNat (n + 240)) 1) := by
  decide

/-! ## Later bytes -/

theorem toNat_continuation : ∀ n < 64, (UInt8.ofNat (n + 128)).toNat = n + 128 := by
  decide

theorem segmentsFrom_cons (state : State) (b : UInt8) (bytes : List UInt8) :
    segmentsFrom state (b :: bytes) = (step state b).1 ++ segmentsFrom (step state b).2 bytes := by
  cases state <;> rfl

theorem segmentsFrom_between {b : UInt8} {state : State} (h : begin b = ([], state))
    (bytes : List UInt8) : segmentsFrom .between (b :: bytes) = segmentsFrom state bytes := by
  rw [segmentsFrom_cons, step, h, List.nil_append]

/-- A byte that carries the bits `n` of a character and is not the last one owed. -/
theorem segmentsFrom_within {low high : UInt8} {n : Nat} (owed value length : Nat) (first : UInt8)
    (hn : n < 64) (hlow : low.toNat ≤ n + 128) (hhigh : n + 128 ≤ high.toNat)
    (bytes : List UInt8) :
    segmentsFrom (.within (owed + 2) low high value first length) (.ofNat (n + 128) :: bytes)
      = segmentsFrom (.within (owed + 1) 0x80 0xBF (value * 64 + n) first (length + 1)) bytes := by
  have h : low ≤ .ofNat (n + 128) ∧ .ofNat (n + 128) ≤ high := by
    simp only [UInt8.le_iff_toNat_le, toNat_continuation n hn]
    exact ⟨hlow, hhigh⟩
  rw [segmentsFrom_cons, step, if_pos h, toNat_continuation n hn, Nat.add_sub_cancel]
  rfl

/-- The last byte of a character. -/
theorem segmentsFrom_last {low high : UInt8} {n : Nat} (value length : Nat) (first : UInt8)
    (hn : n < 64) (hlow : low.toNat ≤ n + 128) (hhigh : n + 128 ≤ high.toNat)
    (bytes : List UInt8) :
    segmentsFrom (.within 1 low high value first length) (.ofNat (n + 128) :: bytes)
      = .char (Char.ofNat (value * 64 + n)) :: segmentsFrom .between bytes := by
  have h : low ≤ .ofNat (n + 128) ∧ .ofNat (n + 128) ≤ high := by
    simp only [UInt8.le_iff_toNat_le, toNat_continuation n hn]
    exact ⟨hlow, hhigh⟩
  rw [segmentsFrom_cons, step, if_pos h, toNat_continuation n hn, Nat.add_sub_cancel]
  rfl

/-! ## Characters and texts -/

theorem segmentsFrom_encodeChar (c : Char) (rest : List UInt8) :
    segmentsFrom .between (String.utf8EncodeChar c ++ rest)
      = .char c :: segmentsFrom .between rest := by
  have hc : Char.ofNat c.val.toNat = c := Char.ofNat_toNat c
  have hv : c.val.toNat < 0xD800 ∨ 0xDFFF < c.val.toNat ∧ c.val.toNat < 0x110000 := c.valid
  have h80 : (0x80 : UInt8).toNat = 0x80 := rfl
  have hBF : (0xBF : UInt8).toNat = 0xBF := rfl
  unfold String.utf8EncodeChar
  generalize c.val.toNat = v at *
  dsimp only
  split
  · rw [List.cons_append, List.nil_append, segmentsFrom_cons, step, begin_one v (by omega), hc]
    rfl
  · split
    · rw [List.cons_append, segmentsFrom_between (begin_two _ (by omega) (by omega)),
        List.cons_append, segmentsFrom_last _ _ _ (by omega) (by omega) (by omega),
        show v / 64 % 32 * 64 + v % 64 = v by omega, hc, List.nil_append]
    · split
      · rw [List.cons_append, segmentsFrom_between (begin_three _ (by omega)),
          List.cons_append, segmentsFrom_within 0 _ _ _ (by omega) _ _,
          List.cons_append, segmentsFrom_last _ _ _ (by omega) (by omega) (by omega),
          show (v / 4096 % 16 * 64 + v / 64 % 64) * 64 + v % 64 = v by omega, hc, List.nil_append]
        · split
          · show 0xA0 ≤ _; omega
          · omega
        · split
          · show _ ≤ 0x9F; omega
          · omega
      · rw [List.cons_append, segmentsFrom_between (begin_four _ (by omega)),
          List.cons_append, segmentsFrom_within 1 _ _ _ (by omega) _ _,
          List.cons_append, segmentsFrom_within 0 _ _ _ (by omega) (by omega) (by omega),
          List.cons_append, segmentsFrom_last _ _ _ (by omega) (by omega) (by omega),
          show ((v / 262144 % 8 * 64 + v / 4096 % 64) * 64 + v / 64 % 64) * 64 + v % 64 = v by
            omega, hc, List.nil_append]
        · split
          · show 0x90 ≤ _; omega
          · omega
        · split
          · show _ ≤ 0x8F; omega
          · omega

theorem segments_encode (s : List Char) : segments (encode s) = s.map Segment.char := by
  rw [segments, encode]
  induction s with
  | nil => rfl
  | cons c s ih => rw [List.flatMap_cons, segmentsFrom_encodeChar, ih, List.map_cons]

theorem strict_chars (offset : Nat) (s : List Char) :
    strict offset (s.map Segment.char) = .ok s := by
  induction s generalizing offset with
  | nil => rfl
  | cons c s ih =>
    rw [List.map_cons, strict, ih]
    rfl

/-- The strict reader reads back what is written. -/
theorem decode_encode (s : List Char) : decode (encode s) = .ok s := by
  rw [decode, segments_encode, strict_chars]

/-- So does the lenient one. -/
theorem decodeLenient_encode (s : List Char) : decodeLenient (encode s) = s := by
  rw [decodeLenient, segments_encode, List.map_map]
  exact List.map_id s

end CompletionServer.Text.Utf8
