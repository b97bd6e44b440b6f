import CompletionServer.Text.Utf8.RoundTrip
import CompletionServer.Uri.Basic
import Mathlib.Data.List.TakeWhile

/-!
# Escaped paths

The path of a file can be written in a URI in many ways, since a client chooses which bytes of it to
escape. `Escapes` relates bytes to their spellings. Whatever the choice was, a path is read off its
spelling, `fileNameChars_of_escapes`, but its first slash must stand there as it is: a spelling that
escapes it begins with an authority.
-/

namespace CompletionServer

/-! ## Bytes around an ASCII character -/

namespace Text.Utf8

/-- That the bytes still owed, if there are any, are continuation bytes. -/
def State.OwesContinuation : State → Prop
  | .between => True
  | .within _ low _ _ _ _ => 128 ≤ low.toNat

theorem owesContinuation_begin (b : UInt8) : (begin b).2.OwesContinuation := by
  unfold begin
  repeat' split
  all_goals simp [State.OwesContinuation]

theorem owesContinuation_step {state : State} (h : state.OwesContinuation) (b : UInt8) :
    (step state b).2.OwesContinuation := by
  cases state with
  | between => exact owesContinuation_begin b
  | within owed low high value first length =>
    rw [step]
    split
    · dsimp only
      split
      · trivial
      · simp [State.OwesContinuation]
    · exact owesContinuation_begin b

theorem begin_ofNat_toNat {c : Char} (hc : c.toNat < 128) :
    begin (.ofNat c.toNat) = ([.char c], .between) := by
  rw [begin_one c.toNat hc, Char.ofNat_toNat]

/-- The byte of an ASCII character ends whatever stretch comes before it. -/
theorem lenient_segmentsFrom_append {c : Char} (hc : c.toNat < 128) (state : State)
    (hstate : state.OwesContinuation) (before after : List UInt8) :
    (segmentsFrom state (before ++ .ofNat c.toNat :: after)).map Segment.lenient
      = (segmentsFrom state before).map Segment.lenient ++ c :: decodeLenient after := by
  induction before generalizing state with
  | nil =>
    rw [List.nil_append, segmentsFrom_cons]
    cases state with
    | between =>
      rw [step, begin_ofNat_toNat hc]
      rfl
    | within owed low high value first length =>
      have hends : ¬(low ≤ .ofNat c.toNat ∧ .ofNat c.toNat ≤ high) := by
        rintro ⟨hle, -⟩
        have hle := UInt8.le_iff_toNat_le.mp hle
        rw [UInt8.toNat_ofNat_of_lt' (by change _ < 256; omega)] at hle
        have hlow : 128 ≤ low.toNat := hstate
        omega
      rw [step, if_neg hends, begin_ofNat_toNat hc]
      rfl
  | cons b before ih =>
    rw [List.cons_append, segmentsFrom_cons, segmentsFrom_cons, List.map_append, List.map_append,
      ih _ (owesContinuation_step hstate b), List.append_assoc]

theorem decodeLenient_append_cons {c : Char} (hc : c.toNat < 128) (before after : List UInt8) :
    decodeLenient (before ++ .ofNat c.toNat :: after)
      = decodeLenient before ++ c :: decodeLenient after :=
  lenient_segmentsFrom_append hc .between trivial before after

end Text.Utf8

namespace Uri

open Text

/-! ## Spellings -/

/-- The characters other than slashes that a spelling may hold as they are. -/
def isUnreserved (c : Char) : Bool := c.isAlphanum || "-._~".toList.contains c

/-- **That a text spells bytes**: each byte is escaped, in digits of either case, or stands as the
character that it is, which must be a slash or unreserved. -/
inductive Escapes : List UInt8 → List Char → Prop where
  | nil : Escapes [] []
  | plain {bytes : List UInt8} {e : List Char} {c : Char} (hc : c = '/' ∨ isUnreserved c = true)
      (h : Escapes bytes e) : Escapes (.ofNat c.toNat :: bytes) (c :: e)
  | escaped {bytes : List UInt8} {e : List Char} {a b : Char} {high low : ℕ}
      (ha : hexDigit? a = some high) (hb : hexDigit? b = some low) (h : Escapes bytes e) :
      Escapes (.ofNat (high * 16 + low) :: bytes) ('%' :: a :: b :: e)

/-- The characters of spellings. Apart from the slash none of them separates parts of a URI. -/
def isSpelling (c : Char) : Bool := c == '/' || c == '%' || isUnreserved c

theorem isAlphanum_iff {c : Char} : c.isAlphanum = true ↔ (65 ≤ c.toNat ∧ c.toNat ≤ 90) ∨
    (97 ≤ c.toNat ∧ c.toNat ≤ 122) ∨ (48 ≤ c.toNat ∧ c.toNat ≤ 57) := by
  change (decide ('A'.val ≤ c.val ∧ c.val ≤ 'Z'.val)
    || (decide ('a'.val ≤ c.val) && decide (c.val ≤ 'z'.val))
    || (decide ('0'.val ≤ c.val) && decide (c.val ≤ '9'.val))) = true ↔ _
  simp only [Bool.or_eq_true, Bool.and_eq_true, decide_eq_true_eq, or_assoc]
  rfl

theorem toNat_lt_of_isAlphanum {c : Char} (h : c.isAlphanum = true) : c.toNat < 128 := by
  have h := isAlphanum_iff.mp h
  omega

theorem toNat_lt_of_isUnreserved {c : Char} (h : isUnreserved c = true) : c.toNat < 128 := by
  simp [isUnreserved] at h
  rcases h with h | rfl | rfl | rfl | rfl
  · exact toNat_lt_of_isAlphanum h
  all_goals decide

theorem isAlphanum_of_hexDigit? {c : Char} {n : ℕ} (h : hexDigit? c = some n) :
    c.isAlphanum = true := by
  have h := hexDigit?_eq_some h
  rw [isAlphanum_iff]
  omega

theorem isSpelling_of_mem {bytes : List UInt8} {e : List Char} (h : Escapes bytes e) :
    ∀ c ∈ e, isSpelling c = true := by
  induction h with
  | nil => exact nofun
  | plain hc _ ih =>
    refine List.forall_mem_cons.mpr ⟨?_, ih⟩
    rcases hc with rfl | hc
    · rfl
    · simp [isSpelling, hc]
  | escaped ha hb _ ih =>
    have hdigit {c : Char} {n : ℕ} (hc : hexDigit? c = some n) : isSpelling c = true := by
      simp [isSpelling, isUnreserved, isAlphanum_of_hexDigit? hc]
    exact List.forall_mem_cons.mpr ⟨rfl, List.forall_mem_cons.mpr ⟨hdigit ha,
      List.forall_mem_cons.mpr ⟨hdigit hb, ih⟩⟩⟩

theorem ne_percent {c : Char} (hc : c = '/' ∨ isUnreserved c = true) : c ≠ '%' := by
  rintro rfl
  revert hc
  decide

/-- What is spelled is read. -/
theorem escapedBytes_of_escapes {bytes : List UInt8} {e : List Char} (h : Escapes bytes e) :
    escapedBytes e = bytes := by
  induction h with
  | nil => rfl
  | @plain bytes e c hc h ih =>
    have hascii : c.toNat < 128 := by
      rcases hc with rfl | hc
      · decide
      · exact toNat_lt_of_isUnreserved hc
    have hbytes : String.utf8EncodeChar c = [.ofNat c.toNat] := by
      unfold String.utf8EncodeChar
      exact if_pos (by change c.toNat ≤ 127; omega)
    rw [escapedBytes.eq_3 _ _ fun _ _ _ h _ ↦ ne_percent hc h, hbytes, ih]
    rfl
  | escaped ha hb h ih =>
    rw [escapedBytes, ha, hb]
    simp [ih]

/-- Whether a text spells any bytes. -/
def isSpelled : List Char → Bool
  | [] => true
  | '%' :: a :: b :: e => isHexDigit a && isHexDigit b && isSpelled e
  | c :: e => (c == '/' || isUnreserved c) && isSpelled e

theorem escapes_of_isSpelled {e : List Char} (h : isSpelled e = true) :
    Escapes (escapedBytes e) e := by
  fun_induction isSpelled e with
  | case1 => exact .nil
  | case2 a b e ih =>
    simp only [Bool.and_eq_true, isHexDigit] at h
    obtain ⟨⟨ha, hb⟩, he⟩ := h
    obtain ⟨high, ha⟩ := Option.isSome_iff_exists.mp ha
    obtain ⟨low, hb⟩ := Option.isSome_iff_exists.mp hb
    have hspelled := Escapes.escaped ha hb (ih he)
    rwa [← escapedBytes_of_escapes hspelled] at hspelled
  | case3 c e _ ih =>
    rw [Bool.and_eq_true, Bool.or_eq_true, beq_iff_eq] at h
    have hspelled := Escapes.plain h.1 (ih h.2)
    rwa [← escapedBytes_of_escapes hspelled] at hspelled

theorem isSpelled_of_escapes {bytes : List UInt8} {e : List Char} (h : Escapes bytes e) :
    isSpelled e = true := by
  induction h with
  | nil => rfl
  | @plain bytes e c hc h ih =>
    rw [isSpelled.eq_3 _ _ fun _ _ _ h _ ↦ ne_percent hc h]
    simp [ih, hc]
  | escaped ha hb h ih =>
    rw [isSpelled, isHexDigit, isHexDigit, ha, hb, ih]
    rfl

theorem escapes_iff {bytes : List UInt8} {e : List Char} :
    Escapes bytes e ↔ isSpelled e = true ∧ escapedBytes e = bytes := by
  constructor
  · intro h
    exact ⟨isSpelled_of_escapes h, escapedBytes_of_escapes h⟩
  · rintro ⟨h, rfl⟩
    exact escapes_of_isSpelled h

instance (bytes : List UInt8) (e : List Char) : Decidable (Escapes bytes e) :=
  decidable_of_iff _ escapes_iff.symm

/-! ## Parts -/

/-- The URI of a file with a spelling of its path. -/
def fileUri (e : List Char) : String := String.ofList ("file://".toList ++ e)

theorem toList_fileUri (e : List Char) : (fileUri e).toList = "file://".toList ++ e :=
  String.toList_ofList

section Parts

variable {e : List Char}

theorem beq_eq_false_of_isSpelling {c d : Char} (hc : isSpelling c = true)
    (hd : isSpelling d = false) : (c == d) = false := by
  rw [beq_eq_false_iff_ne]
  rintro rfl
  cases hc.symm.trans hd

theorem clean_fileUri (h : ∀ c ∈ e, isSpelling c = true) :
    clean ("file://".toList ++ e) = "file://".toList ++ e := by
  change List.filter _ ("file://".toList ++ e) = _
  rw [List.filter_append]
  refine congrArg ("file://".toList ++ ·) (List.filter_eq_self.mpr fun c hc ↦ ?_)
  simp only [bne, beq_eq_false_of_isSpelling (h c hc) (d := '\t') rfl,
    beq_eq_false_of_isSpelling (h c hc) (d := '\r') rfl,
    beq_eq_false_of_isSpelling (h c hc) (d := '\n') rfl]
  rfl

theorem checkAuthority_of_isSpelling (h : ∀ c ∈ e, isSpelling c = true) :
    checkAuthority e = .ok () := by
  have hbracket (d : Char) (hd : isSpelling d = false) : e.contains d = false := by
    rw [← Bool.not_eq_true, List.contains_iff_mem]
    intro hmem
    cases (h d hmem).symm.trans hd
  have hplain : e.any hidesDelimiter = false := by
    rw [List.any_eq_false]
    intro c hc hhides
    have hothers : "⁇⁈⁉℀℁℅℆⩴︓︖﹕﹖﹟﹫＃／：？＠".toList.all (!isSpelling ·) = true := by decide
    have hc' := List.all_eq_true.mp hothers c (List.contains_iff_mem.mp hhides)
    rw [h c hc] at hc'
    cases hc'
  rw [checkAuthority, hbracket '[' rfl, hbracket ']' rfl, hplain]
  rfl

/-- The parts of the URI: the path begins at the first slash that is not escaped. -/
theorem split_fileUri {authority path : List Char} (hslash : '/' ∉ authority)
    (hpath : ∀ c ∈ path.head?, c = '/') (h : ∀ c ∈ authority ++ path, isSpelling c = true) :
    split ("file://".toList ++ (authority ++ path)) = .ok ⟨"file".toList, authority, path⟩ := by
  have hinside : ∀ c ∈ authority, (!endsAuthority c) = true := by
    intro c hc
    have hspelling := h c (List.mem_append_left _ hc)
    have hne : (c == '/') = false := beq_eq_false_iff_ne.mpr fun heq ↦ hslash (heq ▸ hc)
    rw [endsAuthority, hne, beq_eq_false_of_isSpelling hspelling rfl,
      beq_eq_false_of_isSpelling hspelling rfl]
    rfl
  have hends : splitAuthority ('/' :: '/' :: (authority ++ path)) = (authority, path) := by
    rw [splitAuthority, List.takeWhile_append_of_pos hinside, List.dropWhile_append_of_pos hinside]
    cases path with
    | nil => simp
    | cons c rest =>
      obtain rfl := hpath c rfl
      simp [endsAuthority]
  have hwhole : path.takeWhile (fun c ↦ c != '?' && c != '#') = path := by
    refine List.takeWhile_eq_self_iff.mpr fun c hc ↦ ?_
    have hc := h c (List.mem_append_right _ hc)
    rw [bne, bne, beq_eq_false_of_isSpelling hc rfl, beq_eq_false_of_isSpelling hc rfl]
    rfl
  have hcheck : checkAuthority authority = .ok () :=
    checkAuthority_of_isSpelling fun c hc ↦ h c (List.mem_append_left _ hc)
  have hscheme : splitScheme ("file://".toList ++ (authority ++ path))
      = ("file".toList, '/' :: '/' :: (authority ++ path)) := rfl
  rw [split, clean_fileUri h, hscheme]
  simp only [hends, hcheck, hwhole]
  rfl

theorem scheme?_fileUri (h : ∀ c ∈ e, isSpelling c = true) :
    scheme? (fileUri e) = .ok (some "file") := by
  obtain ⟨authority, path, hsplit⟩ : ∃ authority path,
      split ("file://".toList ++ e) = .ok ⟨"file".toList, authority, path⟩ := by
    by_cases hmem : '/' ∈ e
    · obtain ⟨authority, rest, rfl, hslash⟩ := List.eq_append_cons_of_mem hmem
      exact ⟨authority, '/' :: rest, split_fileUri hslash (by simp) h⟩
    · rw [← List.append_nil e] at h ⊢
      exact ⟨e, [], split_fileUri hmem (by simp) h⟩
  rw [scheme?, toList_fileUri, hsplit]
  rfl

end Parts

/-! ## Names -/

/-- A spelling with a slash in it spells what is before that slash, and what is behind it. -/
theorem exists_escapes_of_append {bytes : List UInt8} {before after : List Char}
    (h : Escapes bytes (before ++ '/' :: after)) :
    ∃ front back, bytes = front ++ .ofNat '/'.toNat :: back ∧ Escapes front before ∧
      Escapes back after := by
  generalize he : before ++ '/' :: after = e at h
  induction h generalizing before with
  | nil => simp at he
  | @plain bytes e c hc h ih =>
    cases before with
    | nil =>
      cases he
      exact ⟨[], bytes, rfl, .nil, h⟩
    | cons d before =>
      cases he
      obtain ⟨front, back, rfl, hfront, hback⟩ := ih rfl
      exact ⟨_ :: front, back, rfl, .plain hc hfront, hback⟩
  | @escaped bytes e a b high low ha hb h ih =>
    -- The slash is none of the three characters of an escape.
    rcases before with _ | ⟨_, _ | ⟨_, _ | ⟨_, before⟩⟩⟩
    · cases he
    · cases he
      cases ha
    · cases he
      cases hb
    · cases he
      obtain ⟨front, back, rfl, hfront, hback⟩ := ih rfl
      exact ⟨_ :: front, back, rfl, .escaped ha hb hfront, hback⟩

theorem percentDecode_of_escapes {bytes : List UInt8} {e : List Char} (h : Escapes bytes e) :
    percentDecode e = Utf8.decodeLenient bytes := by
  rw [percentDecode, escapedBytes_of_escapes h]

theorem percentDecode_eq {path e : List Char} (h : Escapes (Utf8.encode path) e) :
    percentDecode e = path := by
  rw [percentDecode_of_escapes h, Utf8.decodeLenient_encode]

theorem filePath_of_escapes {path authority rest : List Char} (habsolute : path.head? = some '/')
    (hauthority : authority ≠ []) (h : Escapes (Utf8.encode path) (authority ++ '/' :: rest)) :
    filePath (percentDecode authority) (percentDecode ('/' :: rest)) = '/' :: '/' :: path := by
  have hascii : '/'.toNat < 128 := by decide
  obtain ⟨front, back, hbytes, hfront, hback⟩ := exists_escapes_of_append h
  have hrest : percentDecode ('/' :: rest) = '/' :: Utf8.decodeLenient back := by
    rw [percentDecode_of_escapes (.plain (.inl rfl) hback)]
    exact Utf8.decodeLenient_append_cons hascii [] back
  have hpath : path = Utf8.decodeLenient front ++ '/' :: Utf8.decodeLenient back := by
    rw [← Utf8.decodeLenient_append_cons hascii, ← hbytes, Utf8.decodeLenient_encode]
  -- The authority begins with the slash that the path begins with.
  have hnonempty : Utf8.decodeLenient front ≠ [] := by
    obtain ⟨names, rfl⟩ := List.head?_eq_some_iff.mp habsolute
    cases front with
    | nil =>
      cases hfront
      exact absurd rfl hauthority
    | cons b front =>
      obtain rfl : .ofNat '/'.toNat = b := (List.cons.inj hbytes).1
      have hdecode := Utf8.decodeLenient_append_cons hascii [] front
      rw [List.nil_append] at hdecode
      rw [hdecode]
      simp
  rw [percentDecode_of_escapes hfront, hrest, filePath, if_neg (by simp [hnonempty])]
  rw [hpath, List.cons_append, List.cons_append]

/-- **The name of a document with an escaped path.** It is the path if the first slash is not
escaped. Otherwise what is before the first slash that is not is an authority, which goes before the
rest after two slashes; without such a slash there is no path at all. -/
theorem fileNameChars_of_escapes {path e : List Char} (habsolute : path.head? = some '/')
    (h : Escapes (Utf8.encode path) e) :
    fileNameChars ("file://".toList ++ e) = .ok (if e.head? = some '/' then withDrive path
      else if '/' ∈ e then '/' :: '/' :: path else []) := by
  have hname {authority rest : List Char} (hslash : '/' ∉ authority)
      (hrest : ∀ c ∈ rest.head?, c = '/') (he : e = authority ++ rest) :
      fileNameChars ("file://".toList ++ e)
        = .ok (filePath (percentDecode authority) (percentDecode rest)) := by
    subst he
    rw [fileNameChars, split_fileUri hslash hrest (isSpelling_of_mem h)]
    rfl
  by_cases hfirst : e.head? = some '/'
  · rw [if_pos hfirst, hname List.not_mem_nil (by simp [hfirst]) (List.nil_append e).symm,
      percentDecode_eq h]
    rfl
  rw [if_neg hfirst]
  by_cases hmem : '/' ∈ e
  · obtain ⟨authority, rest, rfl, hslash⟩ := List.eq_append_cons_of_mem hmem
    rw [if_pos hmem, hname hslash (by simp) rfl]
    exact congrArg _ (filePath_of_escapes habsolute (by rintro rfl; exact hfirst rfl) h)
  · rw [if_neg hmem, hname hmem (by simp) (List.append_nil e).symm, filePath]
    simp [percentDecode, escapedBytes, Utf8.decodeLenient, Utf8.segments, Utf8.segmentsFrom,
      withDrive]

/-- Whether a path starts with a slash, a drive letter and a colon. -/
def startsWithDrive : List Char → Bool
  | '/' :: c :: ':' :: _ => c.isAlpha
  | _ => false

theorem withDrive_of_not_startsWithDrive {path : List Char} (h : startsWithDrive path = false) :
    withDrive path = path := by
  unfold withDrive
  split
  · next c rest => exact if_neg (Bool.not_eq_true _ ▸ h)
  · rfl

/-- An escaped path is read back, whichever of its bytes are escaped. -/
theorem fileName_of_escapes {path : String} (habsolute : path.toList.head? = some '/')
    (hdrive : startsWithDrive path.toList = false) {e : List Char}
    (he : Escapes (Utf8.encode path.toList) e) :
    fileName (fileUri e) = .ok (if e.head? = some '/' then path
      else if '/' ∈ e then "//" ++ path else "") := by
  rw [fileName, toList_fileUri, fileNameChars_of_escapes habsolute he,
    withDrive_of_not_startsWithDrive hdrive]
  have htext : String.ofList path.toList = path := String.ofList_toList
  split
  · exact congrArg _ htext
  · split
    · exact congrArg _ (String.ofList_append.trans (congrArg ("//" ++ ·) htext))
    · rfl

end Uri

end CompletionServer
