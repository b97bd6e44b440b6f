import CompletionServer.Json.Writer
import CompletionServer.Proofs.Json.Completeness
import Mathlib.Data.List.Basic
import Mathlib.Data.Nat.Digits.Defs

/-!
# What is written is a text of it

The writer keeps to the notation: what it writes for a value is one of the texts of the value, and
it is ASCII. So whoever reads the notation reads the value back, whatever characters its texts have.

Values of the notation are meant, and whole numbers that can be written. Floats are left out, as
what is written for one need not be read as the same float; it is no text of a whole number,
`write_float_ne_int`.
-/

namespace CompletionServer

namespace Text

/-- That all characters are ASCII. -/
def IsAscii (s : List Char) : Prop := ∀ c ∈ s, c.toNat < 128

instance (s : List Char) : Decidable (IsAscii s) :=
  decidable_of_iff ((s.all fun c ↦ c.toNat < 128) = true) (by simp [IsAscii])

theorem isAscii_cons {c : Char} {s : List Char} :
    IsAscii (c :: s) ↔ c.toNat < 128 ∧ IsAscii s := List.forall_mem_cons

theorem isAscii_append {s t : List Char} : IsAscii (s ++ t) ↔ IsAscii s ∧ IsAscii t :=
  List.forall_mem_append

theorem isAscii_nil : IsAscii [] := by decide

end Text

namespace Json

open Text

/-! ## Digits -/

theorem readDigits_concat (base : ℕ) (value : Char → Option ℕ) (s : List Char) (c : Char) :
    readDigits base value (s ++ [c])
      = (readDigits base value s).bind fun n ↦ (value c).map (n * base + ·) := by
  unfold readDigits
  rw [List.foldlM_append]
  cases s.foldlM (fun n c ↦ (value c).map (n * base + ·)) 0 with
  | none => rfl
  | some n => cases hc : value c <;> simp [hc]

theorem asciiDigit?_digitChar : ∀ n < 10, asciiDigit? (Nat.digitChar n) = some n := by decide

theorem hexDigit?_digitChar : ∀ n < 16, hexDigit? (Nat.digitChar n) = some n := by decide

theorem readDigits_toDigits (n : ℕ) :
    readDigits 10 asciiDigit? (Nat.toDigits 10 n) = some n := by
  induction n using Nat.strong_induction_on with
  | _ n ih =>
    rw [Nat.toDigits_eq_if (by decide)]
    split
    · next hn =>
      rw [← List.nil_append [n.digitChar], readDigits_concat, asciiDigit?_digitChar n hn]
      simp [readDigits]
    · rw [readDigits_concat, ih (n / 10) (by omega), asciiDigit?_digitChar _ (by omega),
        Option.bind_some, Option.map_some, Option.some_inj]
      omega

theorem isDigit_of_mem_toDigits {n : ℕ} {c : Char} (h : c ∈ Nat.toDigits 10 n) :
    isDigit c = true := by
  induction n using Nat.strong_induction_on with
  | _ n ih =>
    have hdigit (m : ℕ) (hm : m < 10) : isDigit m.digitChar = true := by
      rw [isDigit, asciiDigit?_digitChar m hm]
      rfl
    rw [Nat.toDigits_eq_if (by decide)] at h
    split at h
    · next hn =>
      rw [List.mem_singleton.mp h]
      exact hdigit n hn
    · rcases List.mem_append.mp h with h | h
      · exact ih (n / 10) (by omega) h
      · rw [List.mem_singleton.mp h]
        exact hdigit (n % 10) (by omega)

/-- The first digit of a number is zero only if the number is. -/
theorem head?_toDigits {n : ℕ} (hn : 0 < n) : (Nat.toDigits 10 n).head? ≠ some '0' := by
  induction n using Nat.strong_induction_on with
  | _ n ih =>
    rw [Nat.toDigits_eq_if (by decide)]
    split
    · next hlt =>
      have hdigit : ∀ m < 10, 0 < m → m.digitChar ≠ '0' := by decide
      exact fun h ↦ hdigit n hlt hn (Option.some_inj.mp h)
    · have hrest := ih (n / 10) (by omega) (by omega)
      rwa [List.head?_append_of_ne_nil _ Nat.toDigits_ne_nil]

theorem isWhole_toDigits (n : ℕ) : IsWhole (Nat.toDigits 10 n) := by
  refine ⟨⟨Nat.toDigits_ne_nil, fun c ↦ isDigit_of_mem_toDigits⟩, fun hhead ↦ ?_⟩
  cases n with
  | zero => rfl
  | succ n => exact absurd hhead (head?_toDigits n.succ_pos)

/-- A number within the bound has no more digits than a reader takes. -/
theorem length_toDigits_le {n limit : ℕ} (hlimit : 0 < limit) (hn : n < Decimal.tenPow limit) :
    (Nat.toDigits 10 n).length ≤ limit :=
  (Nat.length_toDigits_le_iff (by decide) hlimit).mpr hn

/-- The text of a whole number: its sign, and the digits of its size. -/
theorem toList_toString_int (n : ℤ) :
    (toString n).toList = signOf (decide (n < 0)) ++ Nat.toDigits 10 n.natAbs := by
  cases n with
  | ofNat m =>
    have hsign : decide (Int.ofNat m < 0) = false := by simp
    rw [hsign]
    exact Nat.toList_repr
  | negSucc m =>
    have hsign : decide (Int.negSucc m < 0) = true := by simp
    rw [hsign]
    change ("-" ++ (m + 1).repr).toList = _
    rw [String.toList_append, Nat.toList_repr]
    rfl

theorem writes_int {n : ℤ} (hn : n.natAbs < Decimal.tenPow digitLimit) :
    Writes (.value (.int n)) (toString n).toList := by
  have hwritten := @Writes.int (decide (n < 0)) _ n.natAbs (isWhole_toDigits n.natAbs)
    (length_toDigits_le (by decide) hn) (readDigits_toDigits n.natAbs)
  have hvalue : (if decide (n < 0) = true then -(n.natAbs : ℤ) else n.natAbs) = n := by
    simp only [decide_eq_true_eq]
    omega
  rwa [hvalue, ← toList_toString_int] at hwritten

/-! ## Strings -/

theorem readDigits_hexDigits (width n : ℕ) :
    readDigits 16 hexDigit? (hexDigits width n) = some (n % 16 ^ width) := by
  induction width generalizing n with
  | zero => rw [Nat.pow_zero, Nat.mod_one]; rfl
  | succ width ih =>
    rw [hexDigits, readDigits_concat, ih, hexDigit?_digitChar _ (Nat.mod_lt n (by decide)),
      Option.bind_some, Option.map_some, Option.some_inj, Nat.pow_succ', Nat.mod_mul, Nat.add_comm,
      Nat.mul_comm]

/-- A unit is written with four digits, and these are read as the unit. -/
theorem exists_unitEscape {n : ℕ} (hn : n < 0x10000) :
    ∃ a b c d, unitEscape n = ['\\', 'u', a, b, c, d] ∧ unit? a b c d = some n := by
  refine ⟨_, _, _, _, rfl, ?_⟩
  exact (readDigits_hexDigits 4 n).trans (congrArg some (Nat.mod_eq_of_lt hn))

theorem spells_unitEscape {c : Char} {w : List Char} {s : List Point} (hc : c.toNat < 0x10000)
    (h : Spells w s) : Spells (unitEscape c.toNat ++ w) (.char c :: s) := by
  obtain ⟨a, b, d, e, heq, hunit⟩ := exists_unitEscape hc
  rw [heq]
  exact .escape hunit h

/-- A character beyond the basic plane is written as the two halves of its pair. -/
theorem spells_pair {c : Char} {w : List Char} {s : List Point} (hc : 0x10000 ≤ c.toNat)
    (h : Spells w s) :
    Spells (unitEscape (0xD800 + (c.toNat - 0x10000) / 0x400)
      ++ (unitEscape (0xDC00 + (c.toNat - 0x10000) % 0x400) ++ w)) (.char c :: s) := by
  have hmax : c.toNat < 0x110000 := by
    have hvalid : c.toNat < 0xD800 ∨ 0xDFFF < c.toNat ∧ c.toNat < 0x110000 := c.valid
    omega
  obtain ⟨a, b, d, e, heq, hhigh⟩ :=
    exists_unitEscape (n := 0xD800 + (c.toNat - 0x10000) / 0x400) (by omega)
  obtain ⟨a', b', d', e', heq', hlow⟩ :=
    exists_unitEscape (n := 0xDC00 + (c.toNat - 0x10000) % 0x400) (by omega)
  rw [heq, heq']
  refine .pair hhigh hlow ?_ ?_ ?_ h
  · simp [isHighSurrogate]
    omega
  · simp [isLowSurrogate]
    omega
  · omega

/-- Each character is written in one of the ways to write it. -/
theorem spells_escapeChar (c : Char) {w : List Char} {s : List Point} (h : Spells w s) :
    Spells (escapeChar c ++ w) (.char c :: s) := by
  unfold escapeChar
  simp only [beq_iff_eq]
  -- The seven characters with short escapes come first.
  iterate 7
    split
    · next hc =>
      subst hc
      exact .short (by decide) h
  split
  · next hquote hbackslash _ _ _ _ _ hc => exact .plain hc.1 hquote hbackslash h
  split
  · next hc => exact spells_unitEscape hc h
  · next hc =>
    rw [List.append_assoc]
    exact spells_pair (Nat.not_lt.mp hc) h

theorem spells_escapeChars (s : List Char) : Spells (s.flatMap escapeChar) (points s) := by
  induction s with
  | nil => exact .nil
  | cons c s ih =>
    rw [List.flatMap_cons]
    exact spells_escapeChar c ih

example : writeString "\"\x01😀" = "\"\\\"\\u0001\\ud83d\\ude00\"".toList := by decide +kernel

/-! ## Halves of pairs

Halves that stand side by side are written like the character that they make, and so they are read
as that character. -/

theorem escapeChar_of_le {c : Char} (hc : 0x10000 ≤ c.toNat) :
    escapeChar c = unitEscape (0xD800 + (c.toNat - 0x10000) / 0x400)
      ++ unitEscape (0xDC00 + (c.toNat - 0x10000) % 0x400) := by
  have hne {d : Char} (hd : d.toNat < 0x10000) : ¬(c == d) = true := by
    rw [beq_iff_eq]
    rintro rfl
    omega
  unfold escapeChar
  -- The seven characters with short escapes are in the basic plane.
  iterate 7
    split
    · next heq => exact absurd heq (hne (by decide))
  have hprintable : ¬(' ' ≤ c ∧ c ≤ '~') := by
    rintro ⟨-, hle⟩
    have hmax : c.toNat ≤ 126 := hle
    omega
  rw [if_neg hprintable, if_neg (Nat.not_lt.mpr hc)]

theorem escapeChar_joinSurrogates {high low : ℕ} (hhigh : isHighSurrogate high = true)
    (hlow : isLowSurrogate low = true) :
    escapeChar (joinSurrogates high low) = unitEscape high ++ unitEscape low := by
  have hchar := toNat_joinSurrogates hhigh hlow
  simp only [isHighSurrogate, isLowSurrogate, Bool.and_eq_true, decide_eq_true_eq] at hhigh hlow
  have hunits : 0xD800 + ((joinSurrogates high low).toNat - 0x10000) / 0x400 = high ∧
      0xDC00 + ((joinSurrogates high low).toNat - 0x10000) % 0x400 = low := by
    rw [hchar]
    omega
  rw [escapeChar_of_le (by rw [hchar]; omega), hunits.1, hunits.2]

theorem flatMap_escapePoint_joinPairs (s : List Point) :
    (joinPairs s).flatMap escapePoint = s.flatMap escapePoint := by
  induction s using joinPairs.induct with
  | case1 => rfl
  | case2 high low rest hpair ih =>
    rw [Bool.and_eq_true] at hpair
    rw [joinPairs_pair hpair.1 hpair.2, List.flatMap_cons, List.flatMap_cons, List.flatMap_cons, ih,
      escapePoint, escapeChar_joinSurrogates hpair.1 hpair.2, List.append_assoc]
    rfl
  | case3 high low rest hpair ih =>
    rw [joinPairs, if_neg hpair, List.flatMap_cons, ih]
    rfl
  | case4 p rest hother ih =>
    rw [joinPairs_cons fun high low t hp hs ↦ (hother high low t hp hs).elim,
      List.flatMap_cons, List.flatMap_cons, ih]

/-- **Every text is written** in one of the ways to write it, once its pairs are joined. -/
theorem spells_points (s : List Point) : Spells (s.flatMap escapePoint) (joinPairs s) := by
  have hescape (h : Half) := exists_unitEscape (Nat.lt_of_le_of_lt h.range.2 (by decide))
  induction s using joinPairs.induct with
  | case1 => exact .nil
  | case2 high low rest hpair ih =>
    rw [Bool.and_eq_true] at hpair
    obtain ⟨a, b, c, d, hhigh, hunit⟩ := hescape high
    obtain ⟨a', b', c', d', hlow, hunit'⟩ := hescape low
    rw [joinPairs_pair hpair.1 hpair.2, List.flatMap_cons, List.flatMap_cons, escapePoint,
      escapePoint, hhigh, hlow]
    exact .pair hunit hunit' hpair.1 hpair.2 (toNat_joinSurrogates hpair.1 hpair.2) ih
  | case3 high low rest hpair ih =>
    obtain ⟨a, b, c, d, hhigh, hunit⟩ := hescape high
    rw [joinPairs, if_neg hpair, List.flatMap_cons, escapePoint, hhigh]
    refine .half hunit (fun low' t heq hisHigh ↦ ?_) ih
    obtain ⟨u, hu⟩ := eq_cons_of_joinPairs heq
    cases hu
    simpa [hisHigh] using hpair
  | case4 p rest hother ih =>
    rw [joinPairs_cons fun high low t hp hs ↦ (hother high low t hp hs).elim,
      List.flatMap_cons]
    cases p with
    | char c => exact spells_escapeChar c ih
    | half h =>
      obtain ⟨a, b, c, d, hh, hunit⟩ := hescape h
      rw [escapePoint, hh]
      refine .half hunit (fun low t heq _ ↦ ?_) ih
      obtain ⟨u, rfl⟩ := eq_cons_of_joinPairs heq
      exact absurd rfl (hother h low u rfl)

theorem writeChars_ofPoints (s : List Point) : writeChars (.ofPoints s) = writePoints s := by
  unfold Value.ofPoints
  split
  · next cs hcs =>
    rw [chars?_eq_some_iff.mp hcs, writeChars, writeString, String.toList_ofList, writePoints,
      points, List.flatMap_map]
    rfl
  · rfl

theorem writeChars_ofPoints_joinPairs (s : List Point) :
    writeChars (.ofPoints (joinPairs s)) = writeChars (.ofPoints s) := by
  rw [writeChars_ofPoints, writeChars_ofPoints, writePoints, flatMap_escapePoint_joinPairs]
  rfl

theorem writes_string (s : List Point) :
    Writes (.value (.string (joinPairs s))) (writeChars (.ofPoints s)) := by
  rw [writeChars_ofPoints]
  exact .string (spells_points s)

/-! ## Values -/

/-- The trees that are written as they are: without floats and pairs that are taken apart, with whole
numbers that have a text, and with no name twice in an object. -/
inductive Tree.IsPlain : Tree → Prop where
  | null : IsPlain .null
  | bool (b : Bool) : IsPlain (.bool b)
  | int {n : ℤ} (hn : n.natAbs < Decimal.tenPow digitLimit) : IsPlain (.int n)
  | string (s : List Point) : IsPlain (.string (joinPairs s))
  | array {ts : List Tree} (h : ∀ t ∈ ts, t.IsPlain) : IsPlain (.array ts)
  | object {ms : List (List Char × Tree)} (hnames : (ms.map Prod.fst).Nodup)
      (h : ∀ m ∈ ms, m.2.IsPlain) : IsPlain (.object (ms.map fun m ↦ (points m.1, m.2)))

/-- The entries of members whose names are texts of characters. -/
theorem entriesOf_points (ms : List (List Char × Tree)) :
    entriesOf (ms.map fun m ↦ (points m.1, m.2))
      = ms.map fun m ↦ (.str (String.ofList m.1), m.2.toValue) := by
  rw [entriesOf_eq_map, List.map_map]
  simp only [Function.comp_def, Value.ofPoints_points]

theorem ofList_entries {ms : List (List Char × Tree)} (hnames : (ms.map Prod.fst).Nodup) :
    Keyed.ofList Value.sameKey (ms.map fun m ↦ (.str (String.ofList m.1), m.2.toValue))
      = ms.map fun m ↦ (.str (String.ofList m.1), m.2.toValue) := by
  refine Keyed.ofList_of_pairwise (List.pairwise_map.mpr ?_)
  refine (List.pairwise_map.mp hnames).imp fun {m₁ m₂} hne ↦ ?_
  rw [Value.sameKey_str, beq_eq_false_iff_ne]
  exact fun heq ↦ hne (String.ofList_injective heq)

theorem writes_items {t : Tree} {ts : List Tree}
    (h : ∀ u ∈ t :: ts, Writes (.value u) (writeChars u.toValue)) :
    Writes (.items (t :: ts)) (writeChars t.toValue ++ writeItems (itemsOf ts)) := by
  obtain ⟨ht, hts⟩ := List.forall_mem_cons.mp h
  induction ts generalizing t with
  | nil => exact .lastItem ht isGap_nil
  | cons u ts ih =>
    obtain ⟨hu, hrest⟩ := List.forall_mem_cons.mp hts
    have hmore := Writes.moreItems ht isGap_nil isGap_space (ih hts hu hrest)
    rwa [itemsOf, writeItems]

theorem writes_array {ts : List Tree} (h : ∀ t ∈ ts, Writes (.value t) (writeChars t.toValue)) :
    Writes (.value (.array ts)) (writeChars (Tree.array ts).toValue) := by
  cases ts with
  | nil => exact .emptyArray isGap_nil
  | cons t ts =>
    have harray := Writes.array isGap_nil (writes_items h)
    rwa [Tree.toValue, itemsOf, writeChars]

theorem writes_members {m : List Char × Tree} {ms : List (List Char × Tree)}
    (h : ∀ n ∈ m :: ms, Writes (.value n.2) (writeChars n.2.toValue)) :
    Writes (.members ((m :: ms).map fun m ↦ (points m.1, m.2)))
      (writeString (String.ofList m.1) ++ ':' :: ' ' :: writeChars m.2.toValue
        ++ writeMembers (ms.map fun m ↦ (.str (String.ofList m.1), m.2.toValue))) := by
  obtain ⟨hm, hms⟩ := List.forall_mem_cons.mp h
  have hname (n : List Char × Tree) := spells_escapeChars n.1
  induction ms generalizing m with
  | nil =>
    have hlast := Writes.lastMember (hname m) isGap_nil isGap_space hm isGap_nil
    simpa [writeString, writeMembers] using hlast
  | cons n ms ih =>
    obtain ⟨hn, hrest⟩ := List.forall_mem_cons.mp hms
    have hmore := Writes.moreMembers (hname m) isGap_nil isGap_space hm isGap_nil isGap_space
      (ih hms hn hrest)
    simpa [writeString, writeMembers] using hmore

theorem writes_object {ms : List (List Char × Tree)} (hnames : (ms.map Prod.fst).Nodup)
    (h : ∀ m ∈ ms, Writes (.value m.2) (writeChars m.2.toValue)) :
    Writes (.value (.object (ms.map fun m ↦ (points m.1, m.2))))
      (writeChars (Tree.object (ms.map fun m ↦ (points m.1, m.2))).toValue) := by
  rw [Tree.toValue, entriesOf_points, ofList_entries hnames]
  cases ms with
  | nil => exact .emptyObject isGap_nil
  | cons m ms =>
    have hobject := Writes.object isGap_nil (writes_members h)
    simpa only [List.map_cons, writeChars, Value.text_str, List.nil_append, List.cons_append] using
      hobject

/-- **What is written for a value is a text of it.** -/
theorem Tree.IsPlain.writes {t : Tree} (h : t.IsPlain) :
    Writes (.value t) (writeChars t.toValue) := by
  induction h with
  | null => exact .null
  | bool b =>
    cases b with
    | true => exact .true
    | false => exact .false
  | int hn => exact writes_int hn
  | string s =>
    rw [Tree.toValue, writeChars_ofPoints_joinPairs]
    exact writes_string s
  | array _ ih => exact writes_array ih
  | object hnames _ ih => exact writes_object hnames ih

theorem Tree.IsPlain.isTextOf_write {t : Tree} (h : t.IsPlain) :
    IsTextOf t (write t.toValue).toList := by
  refine ⟨[], writeChars t.toValue, [], isGap_nil, h.writes, isGap_nil, ?_⟩
  rw [write, String.toList_ofList, List.append_nil, List.nil_append]

/-- **A value is read back from what is written for it.** -/
theorem Tree.IsPlain.read_write {t : Tree} (h : t.IsPlain) :
    read (write t.toValue).toList = .ok t.toValue := read_of_isTextOf h.isTextOf_write

/-- A member of an object as it is written. -/
def memberText (member : String × Value) : String :=
  String.ofList (writeString member.1) ++ ": " ++ write member.2

/-- An object is written member by member. -/
theorem write_record (members : List (String × Value)) :
    write (.record members) = "\x7b" ++ ", ".intercalate (members.map memberText) ++ "\x7d" := by
  have hmembers (m : String × Value) (ms : List (String × Value)) :
      writeString m.1 ++ ':' :: ' ' :: writeChars m.2
          ++ writeMembers (ms.map fun m ↦ (.str m.1, m.2))
        = (", ".intercalate ((m :: ms).map memberText)).toList ++ ['\x7d'] := by
    induction ms generalizing m with
    | nil => simp [writeMembers, memberText, write]
    | cons n ms ih =>
      rw [List.map_cons, writeMembers, Value.text_str]
      simp only [List.cons_append]
      rw [ih n]
      simp [memberText, write]
  apply String.toList_injective
  rw [write, String.toList_ofList, Value.record]
  cases members with
  | nil => rfl
  | cons m ms =>
    rw [List.map_cons, writeChars, Value.text_str]
    simp only [List.cons_append]
    rw [hmembers m ms]
    simp

/-! ## ASCII -/

theorem isAscii_toDigits (n : ℕ) : IsAscii (Nat.toDigits 10 n) := by
  intro c hc
  obtain ⟨-, hhigh⟩ := isDigit_iff.mp (isDigit_of_mem_toDigits hc)
  omega

theorem isAscii_int (n : ℤ) : IsAscii (toString n).toList := by
  have hsign (negative : Bool) : IsAscii (signOf negative) := by cases negative <;> decide
  rw [toList_toString_int, isAscii_append]
  exact ⟨hsign _, isAscii_toDigits n.natAbs⟩

theorem isAscii_hexDigits (width n : ℕ) : IsAscii (hexDigits width n) := by
  have hdigit : ∀ d < 16, (Nat.digitChar d).toNat < 128 := by decide
  induction width generalizing n with
  | zero => exact isAscii_nil
  | succ width ih =>
    rw [hexDigits, isAscii_append, isAscii_cons]
    exact ⟨ih (n / 16), hdigit (n % 16) (Nat.mod_lt n (by decide)), isAscii_nil⟩

theorem isAscii_unitEscape (n : ℕ) : IsAscii (unitEscape n) :=
  isAscii_cons.mpr ⟨by decide, isAscii_cons.mpr ⟨by decide, isAscii_hexDigits 4 n⟩⟩

theorem isAscii_escapeChar (c : Char) : IsAscii (escapeChar c) := by
  unfold escapeChar
  iterate 7
    split
    · decide
  split
  · next hc =>
    have hmax : c.toNat ≤ 126 := hc.2
    exact isAscii_cons.mpr ⟨by omega, isAscii_nil⟩
  split
  · exact isAscii_unitEscape _
  · exact isAscii_append.mpr ⟨isAscii_unitEscape _, isAscii_unitEscape _⟩

theorem isAscii_quoted {α : Type} {f : α → List Char} (h : ∀ a, IsAscii (f a)) (as : List α) :
    IsAscii ('"' :: as.flatMap f ++ ['"']) := by
  have hinside : IsAscii (as.flatMap f) := by
    intro c hc
    obtain ⟨a, -, ha⟩ := List.mem_flatMap.mp hc
    exact h a c ha
  rw [isAscii_append, isAscii_cons, isAscii_cons]
  exact ⟨⟨by decide, hinside⟩, by decide, isAscii_nil⟩

theorem isAscii_writeString (s : String) : IsAscii (writeString s) :=
  isAscii_quoted isAscii_escapeChar s.toList

theorem isAscii_writePoints (s : List Point) : IsAscii (writePoints s) := by
  refine isAscii_quoted (fun p ↦ ?_) s
  cases p with
  | char c => exact isAscii_escapeChar c
  | half h => exact isAscii_unitEscape h.unit

theorem isAscii_writeItems {vs : List Value} (h : ∀ v ∈ vs, IsAscii (writeChars v)) :
    IsAscii (writeItems vs) := by
  induction vs with
  | nil => exact isAscii_cons.mpr ⟨by decide, isAscii_nil⟩
  | cons v vs ih =>
    obtain ⟨hv, hvs⟩ := List.forall_mem_cons.mp h
    simp only [writeItems, isAscii_append, isAscii_cons]
    exact ⟨⟨by decide, by decide, hv⟩, ih hvs⟩

theorem isAscii_list {vs : List Value} (h : ∀ v ∈ vs, IsAscii (writeChars v)) :
    IsAscii (writeChars (.list vs)) := by
  cases vs with
  | nil => decide
  | cons v vs =>
    obtain ⟨hv, hvs⟩ := List.forall_mem_cons.mp h
    rw [writeChars, isAscii_append, isAscii_cons]
    exact ⟨⟨by decide, hv⟩, isAscii_writeItems hvs⟩

theorem isAscii_writeMembers {entries : List (Value × Value)}
    (h : ∀ e ∈ entries, IsAscii (writeChars e.2)) : IsAscii (writeMembers entries) := by
  induction entries with
  | nil => exact isAscii_cons.mpr ⟨by decide, isAscii_nil⟩
  | cons e entries ih =>
    obtain ⟨he, hentries⟩ := List.forall_mem_cons.mp h
    simp only [writeMembers, isAscii_append, isAscii_cons]
    exact ⟨⟨⟨by decide, by decide, isAscii_writeString _⟩, by decide, by decide, he⟩, ih hentries⟩

theorem isAscii_map {entries : List (Value × Value)}
    (h : ∀ e ∈ entries, IsAscii (writeChars e.2)) : IsAscii (writeChars (.map entries)) := by
  cases entries with
  | nil => decide
  | cons e entries =>
    obtain ⟨he, hentries⟩ := List.forall_mem_cons.mp h
    simp only [writeChars, isAscii_append, isAscii_cons]
    exact ⟨⟨⟨by decide, isAscii_writeString _⟩, by decide, by decide, he⟩,
      isAscii_writeMembers hentries⟩

/-- **What is written is ASCII**, whatever the texts hold. -/
theorem Tree.IsPlain.isAscii {t : Tree} (h : t.IsPlain) : IsAscii (writeChars t.toValue) := by
  induction h with
  | null => decide
  | bool b => cases b <;> decide
  | int _ => exact isAscii_int _
  | string s =>
    rw [Tree.toValue, writeChars_ofPoints]
    exact isAscii_writePoints _
  | @array ts _ ih =>
    rw [Tree.toValue, itemsOf_eq_map]
    exact isAscii_list (List.forall_mem_map.mpr ih)
  | object hnames _ ih =>
    rw [Tree.toValue, entriesOf_points, ofList_entries hnames]
    exact isAscii_map (List.forall_mem_map.mpr ih)

/-! ## Floats -/

/-- That a text is none of a whole number: one of its characters is neither a digit nor a sign. -/
def IsUnwhole (s : List Char) : Prop := ∃ c ∈ s, isDigit c = false ∧ c ≠ '-'

theorem IsUnwhole.append_left {s : List Char} (h : IsUnwhole s) (t : List Char) :
    IsUnwhole (s ++ t) := by
  obtain ⟨c, hc, hmark⟩ := h
  exact ⟨c, List.mem_append_left t hc, hmark⟩

theorem IsUnwhole.append_right {t : List Char} (h : IsUnwhole t) (s : List Char) :
    IsUnwhole (s ++ t) := by
  obtain ⟨c, hc, hmark⟩ := h
  exact ⟨c, List.mem_append_right s hc, hmark⟩

theorem not_isUnwhole_int (n : ℤ) : ¬IsUnwhole (toString n).toList := by
  rintro ⟨c, hc, hdigit, hsign⟩
  rw [toList_toString_int] at hc
  rcases List.mem_append.mp hc with hc | hc
  · by_cases hneg : n < 0
    · rw [decide_eq_true hneg] at hc
      exact hsign (List.mem_singleton.mp hc)
    · rw [decide_eq_false hneg] at hc
      cases hc
  · exact Bool.false_ne_true (hdigit.symm.trans (isDigit_of_mem_toDigits hc))

/-- A number greater than zero has a point or an exponent, where whole numbers end in a point and
more. -/
theorem isUnwhole_positive {style : Decimal.Style} (h : IsUnwhole style.wholeEnding.toList)
    (digits : List Char) (e : ℤ) : IsUnwhole (style.positive digits e).toList := by
  have hpoint (s : List Char) : IsUnwhole ('.' :: s) :=
    ⟨'.', List.mem_cons_self, by decide, by decide⟩
  unfold Decimal.Style.positive
  split
  · split
    · rw [String.toList_append, String.toList_append]
      exact ((IsUnwhole.append_right (hpoint []) ['0']).append_left _).append_left _
    · dsimp only
      rw [String.toList_append]
      refine IsUnwhole.append_right ?_ _
      split
      · exact h
      · rw [String.toList_append]
        exact (hpoint []).append_left _
  · rw [String.toList_append, Decimal.Style.exponent]
    refine IsUnwhole.append_right ?_ _
    rw [String.toList_append, String.toList_append, String.toList_append]
    have hexponent : IsUnwhole "e".toList := ⟨'e', List.mem_cons_self, by decide, by decide⟩
    exact ((hexponent.append_left _).append_left _).append_left _

theorem isUnwhole_write (x : Float) : IsUnwhole (floatStyle.write x).toList := by
  unfold Decimal.Style.write
  dsimp only
  split
  · exact ⟨'N', by decide, by decide, by decide⟩
  · rw [String.toList_append]
    refine IsUnwhole.append_right ?_ _
    split
    · exact ⟨'I', by decide, by decide, by decide⟩
    · split
      · exact ⟨'.', by decide, by decide, by decide⟩
      · exact isUnwhole_positive ⟨'.', by decide, by decide, by decide⟩ _ _

theorem write_int (n : ℤ) : write (.int n) = toString n := by
  rw [write, writeChars, String.ofList_toList]

/-- A float is never written as a whole number is. -/
theorem write_float_ne_int (x : Float) (n : ℤ) : write (.float x) ≠ toString n := by
  intro h
  have hunwhole := isUnwhole_write x
  rw [write, writeChars, String.ofList_toList] at h
  rw [h] at hunwhole
  exact not_isUnwhole_int n hunwhole

end Json

end CompletionServer
