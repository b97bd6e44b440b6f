import CompletionServer.Proofs.Json.Notation
import Mathlib.Data.List.TakeWhile

/-!
# Every JSON text is read

The reader reads every text of a value as that value, `read_of_isTextOf`. It takes a text step by
step and leaves the characters after it, so each rule of the notation is followed with any
characters behind it.

Two things need care. A number ends where a character comes that cannot belong to it, so what comes
after a value must not go on with digits, a point or a mark. And the halves of a pair are read one
by one and joined afterwards, so a half that stands alone must not come to stand before its other
half.
-/

namespace CompletionServer.Json

open Text

/-! ## Gaps -/

theorem skip_gap_append {gap : List Char} (hgap : IsGap gap) (s : List Char) :
    skip (gap ++ s) = skip s := by
  rw [skip, List.dropWhile_append_of_pos hgap]
  rfl

theorem skip_cons {c : Char} (hc : isSpace c = false) (s : List Char) : skip (c :: s) = c :: s :=
  List.dropWhile_cons_of_neg (Bool.eq_false_iff.mp hc)

theorem skip_gap {gap : List Char} (hgap : IsGap gap) {c : Char} (hc : isSpace c = false)
    (s : List Char) : skip (gap ++ c :: s) = c :: s := by
  rw [skip_gap_append hgap, skip_cons hc]

/-! ## Strings -/

theorem shortEscape?_of_mem {mark c : Char} (h : (mark, c) ∈ shortEscapes) :
    shortEscape? mark = some c ∧ mark ≠ 'u' := by
  unfold shortEscapes at h
  simp only [List.mem_cons, Prod.mk.injEq, List.not_mem_nil, or_false] at h
  rcases h with ⟨rfl, rfl⟩ | ⟨rfl, rfl⟩ | ⟨rfl, rfl⟩ | ⟨rfl, rfl⟩ | ⟨rfl, rfl⟩ | ⟨rfl, rfl⟩ |
    ⟨rfl, rfl⟩ | ⟨rfl, rfl⟩
  all_goals exact ⟨rfl, by decide⟩

/-- The number of a character is no half of a pair. -/
theorem Point.ofNat_toNat (c : Char) : Point.ofNat c.toNat = .char c := by
  have hvalid : c.toNat < 0xD800 ∨ 0xDFFF < c.toNat ∧ c.toNat < 0x110000 := c.valid
  have hhigh : isHighSurrogate c.toNat = false := by
    simp [isHighSurrogate]
    omega
  have hlow : isLowSurrogate c.toNat = false := by
    simp [isLowSurrogate]
    omega
  have hnot : ¬(isHighSurrogate c.toNat || isLowSurrogate c.toNat) = true := by simp [hhigh, hlow]
  rw [Point.ofNat, dif_neg hnot, Char.ofNat_toNat]

theorem Point.ofNat_unit (h : Half) : Point.ofNat h.unit = .half h := dif_pos h.isSurrogate

section PointsFrom

variable {start : ℕ} {w rest : List Char} {raw : List Point}

theorem pointsFrom_plain {c : Char} (hc : 32 ≤ c.toNat) (hquote : c ≠ '"') (hbackslash : c ≠ '\\')
    (h : pointsFrom start w = .ok (raw, rest)) :
    pointsFrom start (c :: w) = .ok (.char c :: raw, rest) := by
  rw [pointsFrom.eq_def]
  split
  · next heq => cases heq
  · next heq => cases heq; exact absurd rfl hquote
  · next heq => cases heq; exact absurd rfl hbackslash
  · next heq => cases heq; exact absurd rfl hbackslash
  · next heq => cases heq; exact absurd rfl hbackslash
  · next heq =>
    cases heq
    rw [if_neg (Nat.not_lt.mpr hc), h]
    rfl

theorem pointsFrom_short {mark c : Char} (hmark : (mark, c) ∈ shortEscapes)
    (h : pointsFrom start w = .ok (raw, rest)) :
    pointsFrom start ('\\' :: mark :: w) = .ok (.char c :: raw, rest) := by
  obtain ⟨hescape, hu⟩ := shortEscape?_of_mem hmark
  rw [pointsFrom.eq_def]
  split
  · next heq => cases heq
  · next heq => cases heq
  · next heq => cases heq
  · next heq => cases heq; exact absurd rfl hu
  · next heq =>
    cases heq
    rw [if_neg (by simpa using hu), hescape]
    dsimp only
    rw [h]
    rfl
  · next hother heq =>
    cases heq
    exact absurd rfl (hother mark w rfl)

/-- A unicode escape is read if anything follows it, be it the closing quote. -/
theorem pointsFrom_unit {a b c d : Char} {n : ℕ} (hunit : unit? a b c d = some n)
    (h : pointsFrom start w = .ok (raw, rest)) :
    pointsFrom start ('\\' :: 'u' :: a :: b :: c :: d :: w) = .ok (.ofNat n :: raw, rest) := by
  cases w with
  | nil =>
    rw [pointsFrom] at h
    cases h
  | cons e w =>
    rw [pointsFrom, hunit]
    dsimp only
    rw [h]
    rfl

end PointsFrom

/-- The inside of a string is read up to the closing quote. Its points come out once pairs are
joined. -/
theorem Spells.exists_pointsFrom {w : List Char} {s : List Point} (h : Spells w s) (start : ℕ)
    (rest : List Char) :
    ∃ raw, pointsFrom start (w ++ '"' :: rest) = .ok (raw, rest) ∧ joinPairs raw = s := by
  induction h with
  | nil => exact ⟨[], rfl, rfl⟩
  | plain hc hquote hbackslash _ ih =>
    obtain ⟨raw, hread, rfl⟩ := ih
    exact ⟨_, pointsFrom_plain hc hquote hbackslash hread, joinPairs_char _ raw⟩
  | short hmark _ ih =>
    obtain ⟨raw, hread, rfl⟩ := ih
    exact ⟨_, pointsFrom_short hmark hread, joinPairs_char _ raw⟩
  | escape hunit _ ih =>
    obtain ⟨raw, hread, rfl⟩ := ih
    refine ⟨_, pointsFrom_unit hunit hread, ?_⟩
    rw [Point.ofNat_toNat, joinPairs_char]
  | @pair a b c d a' b' c' d' high low char w s hhigh hlow hisHigh hisLow hchar _ ih =>
    obtain ⟨raw, hread, rfl⟩ := ih
    refine ⟨_, pointsFrom_unit hhigh (pointsFrom_unit hlow hread), ?_⟩
    have hhalf : (isHighSurrogate high || isLowSurrogate high) = true := by rw [hisHigh]; rfl
    have hhalf' : (isHighSurrogate low || isLowSurrogate low) = true := by
      rw [hisLow, Bool.or_true]
    rw [Point.ofNat_unit ⟨high, hhalf⟩, Point.ofNat_unit ⟨low, hhalf'⟩,
      joinPairs_pair hisHigh hisLow, joinSurrogates, ← hchar, Char.ofNat_toNat]
  | half hunit halone _ ih =>
    obtain ⟨raw, hread, rfl⟩ := ih
    refine ⟨_, pointsFrom_unit hunit hread, ?_⟩
    rw [Point.ofNat_unit, joinPairs_half halone]

theorem Spells.string_eq {w : List Char} {s : List Point} (h : Spells w s) (rest : List Char) :
    string (w ++ '"' :: rest) = .ok (s, rest) := by
  obtain ⟨raw, hread, hjoined⟩ := h.exists_pointsFrom ((w ++ '"' :: rest).length + 1) rest
  rw [string, hread, ← hjoined]
  rfl

/-! ## Numbers -/

/-- That a text does not go on with what could belong to a number. -/
def Ends (s : List Char) : Prop :=
  ∀ c, s.head? = some c → isDigit c = false ∧ c ≠ '.' ∧ c ≠ 'e' ∧ c ≠ 'E'

theorem takeWhile_digits {run : List Char} (hrun : ∀ c ∈ run, isDigit c = true) {s : List Char}
    (hs : ∀ c, s.head? = some c → isDigit c = false) :
    (run ++ s).takeWhile isDigit = run ∧ (run ++ s).dropWhile isDigit = s := by
  rw [List.takeWhile_append_of_pos hrun, List.dropWhile_append_of_pos hrun]
  cases s with
  | nil => exact ⟨List.append_nil run, rfl⟩
  | cons c s =>
    have hc : ¬isDigit c = true := Bool.eq_false_iff.mp (hs c rfl)
    rw [List.takeWhile_cons_of_neg hc, List.dropWhile_cons_of_neg hc, List.append_nil]
    exact ⟨rfl, rfl⟩

theorem IsDigits.isEmpty {run : List Char} (h : IsDigits run) : run.isEmpty = false := by
  rw [List.isEmpty_eq_false_iff]
  exact h.1

theorem IsDigits.isDigit_of_append_eq {run s rest : List Char} {c : Char} (h : IsDigits run)
    (heq : run ++ s = c :: rest) : isDigit c = true := by
  obtain ⟨hne, hdigits⟩ := h
  cases run with
  | nil => exact absurd rfl hne
  | cons d run =>
    cases heq
    exact hdigits c List.mem_cons_self

theorem fraction_append {point s : List Char} (hpoint : IsFraction point)
    (hs : ∀ c, s.head? = some c → isDigit c = false ∧ c ≠ '.') :
    fraction (point ++ s) = (point, s) := by
  rcases hpoint with rfl | ⟨run, rfl, hrun⟩
  · rw [List.nil_append, fraction.eq_def]
    split
    · next rest => exact absurd rfl (hs '.' rfl).2
    · rfl
  · obtain ⟨htake, hdrop⟩ := takeWhile_digits hrun.2 fun c hc ↦ (hs c hc).1
    rw [List.cons_append, fraction, htake, hdrop, hrun.isEmpty]
    rfl

theorem exponent_append {power s : List Char} (hpower : IsExponent power)
    (hs : ∀ c, s.head? = some c → isDigit c = false ∧ c ≠ 'e' ∧ c ≠ 'E') :
    exponent (power ++ s) = (power, s) := by
  rcases hpower with rfl | ⟨mark, sign, run, rfl, hmark, hsign, hrun⟩
  · rw [List.nil_append]
    cases s with
    | nil => rfl
    | cons c s =>
      obtain ⟨-, he, hE⟩ := hs c rfl
      rw [exponent.eq_def]
      exact if_neg (by simp [he, hE])
  · obtain ⟨htake, hdrop⟩ := takeWhile_digits hrun.2 fun c hc ↦ (hs c hc).1
    rw [List.cons_append, List.append_assoc]
    unfold exponent
    dsimp only
    rw [if_pos (by simpa using hmark)]
    rcases hsign with rfl | rfl | rfl
    · rw [List.nil_append]
      split
      · next heq => exact absurd (hrun.isDigit_of_append_eq heq) (by decide)
      · next heq => exact absurd (hrun.isDigit_of_append_eq heq) (by decide)
      · rw [htake, hdrop, hrun.isEmpty]
        rfl
    all_goals
      change (if ((run ++ s).takeWhile isDigit).isEmpty then _
        else (_ :: _ :: (run ++ s).takeWhile isDigit, (run ++ s).dropWhile isDigit)) = _
      rw [htake, hdrop, hrun.isEmpty]
      rfl

/-- How a number begins after its sign: the digits of a whole number stand apart from what follows
them. -/
theorem whole_append {whole s : List Char} (hwhole : IsWhole whole)
    (hs : ∀ c, s.head? = some c → isDigit c = false) :
    (match whole ++ s with
      | '0' :: rest => (['0'], rest)
      | _ => ((whole ++ s).takeWhile isDigit, (whole ++ s).dropWhile isDigit)) = (whole, s) := by
  obtain ⟨hdigits, hzero⟩ := hwhole
  obtain ⟨htake, hdrop⟩ := takeWhile_digits hdigits.2 hs
  split
  · next rest heq =>
    have hhead : whole.head? = some '0' := by
      cases whole with
      | nil => exact absurd rfl hdigits.1
      | cons d whole =>
        cases heq
        rfl
    rw [hzero hhead] at heq ⊢
    cases heq
    rfl
  · rw [htake, hdrop]

/-- What may follow the digits of a whole number in a text that goes on with its fraction, its
exponent and what ends it. -/
theorem isDigit_head_append {point power rest : List Char} (hpoint : IsFraction point)
    (hpower : IsExponent power) (hrest : Ends rest) :
    (∀ c, (power ++ rest).head? = some c → isDigit c = false ∧ c ≠ '.') ∧
      ∀ c, (point ++ (power ++ rest)).head? = some c → isDigit c = false := by
  have hafter : ∀ c, (power ++ rest).head? = some c → isDigit c = false ∧ c ≠ '.' := by
    intro c hc
    rcases hpower with rfl | ⟨mark, sign, run, rfl, hmark, -⟩
    · obtain ⟨hdigit, hpoint, -⟩ := hrest c hc
      exact ⟨hdigit, hpoint⟩
    · cases hc
      rcases hmark with rfl | rfl
      all_goals decide
  refine ⟨hafter, fun c hc ↦ ?_⟩
  rcases hpoint with rfl | ⟨run, rfl, -⟩
  · exact (hafter c hc).1
  · cases hc
    decide

/-- A number is read up to what ends it. -/
theorem number_append (negative : Bool) {whole point power rest : List Char}
    (hwhole : IsWhole whole) (hpoint : IsFraction point) (hpower : IsExponent power)
    (hrest : Ends rest) :
    number (signOf negative ++ (whole ++ (point ++ (power ++ rest))))
      = if point.isEmpty && power.isEmpty then
          if digitLimit < whole.length then .error (.tooManyDigits whole.length)
          else
            let n : Int := (readDigits 10 asciiDigit? whole).getD 0
            .ok (.int (if negative then -n else n), rest)
        else
          .ok (.float ((Decimal.readUnsigned negative (whole ++ point ++ power)).getD 0),
            rest) := by
  obtain ⟨hpowerHead, hpointHead⟩ := isDigit_head_append hpoint hpower hrest
  unfold number
  split
  next negative' unsigned hsign =>
  obtain ⟨rfl, rfl⟩ :
      negative = negative' ∧ whole ++ (point ++ (power ++ rest)) = unsigned := by
    cases negative with
    | true =>
      cases hsign
      exact ⟨rfl, rfl⟩
    | false =>
      rw [signOf, if_neg Bool.false_ne_true, List.nil_append] at hsign
      split at hsign
      · next heq => exact absurd (hwhole.1.isDigit_of_append_eq heq) (by decide)
      · cases hsign
        exact ⟨rfl, rfl⟩
  split
  next whole' after hsplit =>
  obtain ⟨rfl, rfl⟩ : whole = whole' ∧ point ++ (power ++ rest) = after := by
    cases (whole_append hwhole hpointHead).symm.trans hsplit
    exact ⟨rfl, rfl⟩
  have hmarks : ∀ c, rest.head? = some c → isDigit c = false ∧ c ≠ 'e' ∧ c ≠ 'E' := fun c hc ↦
    ⟨(hrest c hc).1, (hrest c hc).2.2⟩
  rw [hwhole.1.isEmpty, if_neg Bool.false_ne_true, fraction_append hpoint hpowerHead]
  dsimp only
  rw [exponent_append hpower hmarks]

theorem number_int {negative : Bool} {whole rest : List Char} {n : ℕ} (hwhole : IsWhole whole)
    (hsize : whole.length ≤ digitLimit) (hn : readDigits 10 asciiDigit? whole = some n)
    (hrest : Ends rest) :
    number (signOf negative ++ (whole ++ rest))
      = .ok (.int (if negative then -n else n), rest) := by
  have h := number_append negative hwhole (.inl rfl) (.inl rfl) hrest
  rw [List.nil_append, List.nil_append] at h
  rw [h, if_pos (by rfl), if_neg (Nat.not_lt.mpr hsize), hn]
  rfl

theorem number_float {negative : Bool} {whole point power rest : List Char}
    (hwhole : IsWhole whole) (hpoint : IsFraction point) (hpower : IsExponent power)
    (hne : point ≠ [] ∨ power ≠ []) (hrest : Ends rest) :
    number (signOf negative ++ (whole ++ (point ++ (power ++ rest))))
      = .ok (.float ((Decimal.readUnsigned negative (whole ++ point ++ power)).getD 0), rest) := by
  rw [number_append negative hwhole hpoint hpower hrest, if_neg]
  rw [Bool.and_eq_true, List.isEmpty_iff, List.isEmpty_iff]
  exact fun ⟨h₁, h₂⟩ ↦ hne.elim (· h₁) (· h₂)

/-! ## How texts begin and end -/

theorem ends_nil : Ends [] := nofun

theorem ends_cons {c : Char} (hc : c = ',' ∨ c = ']' ∨ c = '\x7d') (s : List Char) :
    Ends (c :: s) := by
  intro d hd
  cases hd
  rcases hc with rfl | rfl | rfl
  all_goals decide

theorem ends_gap_append {gap s : List Char} (hgap : IsGap gap) (hs : Ends s) :
    Ends (gap ++ s) := by
  cases gap with
  | nil => exact hs
  | cons c gap =>
    intro d hd
    cases hd
    rcases eq_of_isSpace (hgap c List.mem_cons_self) with rfl | rfl | rfl | rfl
    all_goals decide

theorem IsDigits.head_append {run : List Char} (h : IsDigits run) (s : List Char) :
    ∃ c rest, run ++ s = c :: rest ∧ isDigit c = true := by
  obtain ⟨hne, hdigits⟩ := h
  cases run with
  | nil => exact absurd rfl hne
  | cons c run => exact ⟨c, run ++ s, rfl, hdigits c List.mem_cons_self⟩

/-- That a text begins with neither a blank nor a byte order mark, a closing bracket or brace. -/
def Begins (s : List Char) : Prop :=
  ∃ c rest, s = c :: rest ∧ isSpace c = false ∧ c ∉ [']', '\x7d', '\uFEFF']

theorem Begins.append {s : List Char} (h : Begins s) (t : List Char) : Begins (s ++ t) := by
  obtain ⟨c, rest, rfl, hc⟩ := h
  exact ⟨c, rest ++ t, rfl, hc⟩

theorem Begins.skip {s : List Char} (h : Begins s) : skip s = s := by
  obtain ⟨c, rest, rfl, hc, -⟩ := h
  exact skip_cons hc rest

theorem Begins.skip_gap_append {gap s : List Char} (h : Begins s) (hgap : IsGap gap) :
    Json.skip (gap ++ s) = s := by
  rw [Json.skip_gap_append hgap, h.skip]

theorem begins_of_isDigit {c : Char} (hc : isDigit c = true) (s : List Char) : Begins (c :: s) := by
  refine ⟨c, s, rfl, Bool.eq_false_iff.mpr fun hspace ↦ ?_, fun hmem ↦ ?_⟩
  · rcases eq_of_isSpace hspace with rfl | rfl | rfl | rfl
    all_goals exact absurd hc (by decide)
  · simp only [List.mem_cons, List.not_mem_nil, or_false] at hmem
    rcases hmem with rfl | rfl | rfl
    all_goals exact absurd hc (by decide)

theorem begins_number (negative : Bool) {whole : List Char} (hwhole : IsWhole whole)
    (s : List Char) : Begins (signOf negative ++ (whole ++ s)) := by
  cases negative with
  | true => exact ⟨'-', whole ++ s, rfl, by decide⟩
  | false =>
    obtain ⟨c, rest, heq, hc⟩ := hwhole.1.head_append s
    exact heq ▸ begins_of_isDigit hc rest

theorem Writes.begins {p : Phrase} {w : List Char} (h : Writes p w) : Begins w := by
  induction h with
  | null | true | false => exact ⟨_, _, rfl, by decide⟩
  | @int negative whole n hwhole _ _ =>
    have hbegins := begins_number negative hwhole []
    rwa [List.append_nil] at hbegins
  | float hwhole _ _ _ =>
    rw [List.append_assoc]
    exact begins_number _ hwhole _
  | string | emptyArray | array | emptyObject | object | lastMember | moreMembers =>
    exact ⟨_, _, rfl, by decide⟩
  | lastItem _ _ ih => exact ih.append _
  | moreItems _ _ _ _ ih => exact ih.append _

/-! ## Values -/

/-- No other kind of value begins with a sign or a digit, but for the negative infinity. -/
theorem value_number (fuel : ℕ) {negative : Bool} {whole : List Char} (hwhole : IsWhole whole)
    (s : List Char) :
    value (fuel + 1) (signOf negative ++ (whole ++ s))
      = number (signOf negative ++ (whole ++ s)) := by
  obtain ⟨c, rest, heq, hc⟩ := hwhole.1.head_append s
  rw [heq]
  cases negative with
  | true =>
    change value (fuel + 1) ('-' :: c :: rest) = number ('-' :: c :: rest)
    unfold value
    split
    case h_9 =>
      next heq =>
      cases heq
      exact absurd hc (by decide)
    case h_10 => rfl
    all_goals next heq => cases heq
  | false =>
    change value (fuel + 1) (c :: rest) = number (c :: rest)
    unfold value
    split
    case h_10 => rfl
    all_goals
      next heq =>
      cases heq
      exact absurd hc (by decide)

theorem value_string {w : List Char} {s : List Point} (h : Spells w s) (fuel : ℕ)
    (rest : List Char) :
    value (fuel + 1) ('"' :: (w ++ '"' :: rest)) = .ok (.ofPoints s, rest) := by
  rw [value, h.string_eq]
  rfl

theorem value_emptyArray {gap : List Char} (hgap : IsGap gap) (fuel : ℕ) (rest : List Char) :
    value (fuel + 1) ('[' :: (gap ++ ']' :: rest)) = .ok (.list [], rest) := by
  rw [value, skip_gap hgap (by decide)]
  rfl

theorem value_array {gap w rest : List Char} {vs : List Value} (hgap : IsGap gap)
    (hbegins : Begins w) {fuel : ℕ} (h : items fuel (w ++ rest) = .ok (vs, rest)) :
    value (fuel + 1) ('[' :: (gap ++ (w ++ rest))) = .ok (.list vs, rest) := by
  rw [value, (hbegins.append rest).skip_gap_append hgap]
  obtain ⟨c, s, rfl, -, hc⟩ := hbegins
  split
  · next heq =>
    cases heq
    exact absurd hc (by decide)
  · rw [h]
    rfl

theorem value_emptyObject {gap : List Char} (hgap : IsGap gap) (fuel : ℕ) (rest : List Char) :
    value (fuel + 1) ('\x7b' :: (gap ++ '\x7d' :: rest)) = .ok (.map [], rest) := by
  rw [value, skip_gap hgap (by decide)]
  rfl

theorem value_object {gap w rest : List Char} {entries : List (Value × Value)} (hgap : IsGap gap)
    (hbegins : Begins w) {fuel : ℕ} (h : members fuel (w ++ rest) = .ok (entries, rest)) :
    value (fuel + 1) ('\x7b' :: (gap ++ (w ++ rest)))
      = .ok (.map (Keyed.ofList Value.sameKey entries), rest) := by
  rw [value, (hbegins.append rest).skip_gap_append hgap]
  obtain ⟨c, s, rfl, -, hc⟩ := hbegins
  split
  · next heq =>
    cases heq
    exact absurd hc (by decide)
  · rw [h]
    rfl

theorem items_last {s gap rest : List Char} {v : Value} {fuel : ℕ} (hgap : IsGap gap)
    (h : value fuel s = .ok (v, gap ++ ']' :: rest)) :
    items (fuel + 1) s = .ok ([v], rest) := by
  rw [items, h]
  dsimp only [bind, Except.bind]
  rw [skip_gap hgap (by decide)]
  rfl

theorem items_more {s gap₁ gap₂ w rest : List Char} {v : Value} {vs : List Value} {fuel : ℕ}
    (hgap₁ : IsGap gap₁) (hgap₂ : IsGap gap₂) (hbegins : Begins w)
    (h : value fuel s = .ok (v, gap₁ ++ ',' :: (gap₂ ++ (w ++ rest))))
    (hrest : items fuel (w ++ rest) = .ok (vs, rest)) :
    items (fuel + 1) s = .ok (v :: vs, rest) := by
  rw [items, h]
  dsimp only [bind, Except.bind]
  rw [skip_gap hgap₁ (by decide)]
  change (items fuel (skip (gap₂ ++ (w ++ rest)))).bind _ = _
  rw [(hbegins.append rest).skip_gap_append hgap₂, hrest]
  rfl

/-- How a member begins, up to what stands after its value. -/
theorem members_value {name gap₁ gap₂ w rest : List Char} {s : List Point} {v : Value} {fuel : ℕ}
    (hname : Spells name s) (hgap₁ : IsGap gap₁) (hgap₂ : IsGap gap₂) (hbegins : Begins w)
    (h : value fuel (w ++ rest) = .ok (v, rest)) :
    members (fuel + 1) ('"' :: (name ++ '"' :: (gap₁ ++ ':' :: (gap₂ ++ (w ++ rest)))))
      = match skip rest with
        | '\x7d' :: rest => .ok ([(.ofPoints s, v)], rest)
        | ',' :: rest => do
          let (others, rest) ← members fuel (skip rest)
          return ((.ofPoints s, v) :: others, rest)
        | rest => stop .expectingComma rest := by
  rw [members, hname.string_eq]
  dsimp only [bind, Except.bind]
  rw [skip_gap hgap₁ (by decide)]
  change (value fuel (skip (gap₂ ++ (w ++ rest)))).bind _ = _
  rw [(hbegins.append rest).skip_gap_append hgap₂, h]
  rfl

theorem members_last {name gap₁ gap₂ w gap₃ rest : List Char} {s : List Point} {v : Value}
    {fuel : ℕ} (hname : Spells name s) (hgap₁ : IsGap gap₁) (hgap₂ : IsGap gap₂)
    (hbegins : Begins w) (hgap₃ : IsGap gap₃)
    (h : value fuel (w ++ (gap₃ ++ '\x7d' :: rest)) = .ok (v, gap₃ ++ '\x7d' :: rest)) :
    members (fuel + 1)
        ('"' :: (name ++ '"' :: (gap₁ ++ ':' :: (gap₂ ++ (w ++ (gap₃ ++ '\x7d' :: rest))))))
      = .ok ([(.ofPoints s, v)], rest) := by
  rw [members_value hname hgap₁ hgap₂ hbegins h, skip_gap hgap₃ (by decide)]
  rfl

theorem members_more {name gap₁ gap₂ w gap₃ gap₄ w' rest : List Char} {s : List Point} {v : Value}
    {entries : List (Value × Value)} {fuel : ℕ} (hname : Spells name s) (hgap₁ : IsGap gap₁)
    (hgap₂ : IsGap gap₂) (hbegins : Begins w) (hgap₃ : IsGap gap₃) (hgap₄ : IsGap gap₄)
    (hbegins' : Begins w')
    (h : value fuel (w ++ (gap₃ ++ ',' :: (gap₄ ++ (w' ++ rest))))
      = .ok (v, gap₃ ++ ',' :: (gap₄ ++ (w' ++ rest))))
    (hrest : members fuel (w' ++ rest) = .ok (entries, rest)) :
    members (fuel + 1) ('"' :: (name ++ '"' :: (gap₁ ++ ':' :: (gap₂ ++
        (w ++ (gap₃ ++ ',' :: (gap₄ ++ (w' ++ rest))))))))
      = .ok ((.ofPoints s, v) :: entries, rest) := by
  rw [members_value hname hgap₁ hgap₂ hbegins h, skip_gap hgap₃ (by decide)]
  change (members fuel (skip (gap₄ ++ (w' ++ rest)))).bind _ = _
  rw [(hbegins'.append rest).skip_gap_append hgap₄, hrest]
  rfl

/-! ## Texts -/

/-- That reading a text with enough fuel, whatever comes after it, gives what the text is about. An
array or an object ends by itself; another value does only with what `Ends`. -/
def Phrase.IsReadFrom : Phrase → List Char → Prop
  | .value t, w => ∀ fuel rest, 2 * w.length ≤ fuel + 1 → Ends rest →
    Json.value (fuel + 1) (w ++ rest) = .ok (t.toValue, rest)
  | .items ts, w => ∀ fuel rest, 2 * w.length ≤ fuel + 1 →
    Json.items (fuel + 1) (w ++ rest) = .ok (itemsOf ts, rest)
  | .members ms, w => ∀ fuel rest, 2 * w.length ≤ fuel + 1 →
    Json.members (fuel + 1) (w ++ rest) = .ok (entriesOf ms, rest)

/-- One case for each rule of the notation. Where a rule has parts there is fuel left for them,
since the rule has characters of its own. -/
theorem Writes.isReadFrom {p : Phrase} {w : List Char} (h : Writes p w) : p.IsReadFrom w := by
  induction h with
  | null | true | false =>
    intro fuel rest _ _
    rfl
  | @int negative whole n hwhole hsize hn =>
    intro fuel rest _ hends
    rw [List.append_assoc, value_number fuel hwhole, number_int hwhole hsize hn hends]
    rfl
  | float hwhole hpoint hpower hne =>
    intro fuel rest _ hends
    simp only [List.append_assoc]
    rw [value_number fuel hwhole, number_float hwhole hpoint hpower hne hends, List.append_assoc]
    rfl
  | string hspells =>
    intro fuel rest _ _
    rw [List.cons_append, List.append_assoc, List.singleton_append]
    exact value_string hspells fuel rest
  | emptyArray hgap =>
    intro fuel rest _ _
    rw [List.cons_append, List.append_assoc, List.singleton_append]
    exact value_emptyArray hgap fuel rest
  | array hgap h ih =>
    intro fuel rest hfuel _
    rw [List.length_cons, List.length_append] at hfuel
    obtain ⟨fuel, rfl⟩ : ∃ k, fuel = k + 1 := ⟨fuel - 1, by omega⟩
    rw [List.cons_append, List.append_assoc]
    exact value_array hgap h.begins (ih fuel rest (by omega))
  | emptyObject hgap =>
    intro fuel rest _ _
    rw [List.cons_append, List.append_assoc, List.singleton_append]
    exact value_emptyObject hgap fuel rest
  | object hgap h ih =>
    intro fuel rest hfuel _
    rw [List.length_cons, List.length_append] at hfuel
    obtain ⟨fuel, rfl⟩ : ∃ k, fuel = k + 1 := ⟨fuel - 1, by omega⟩
    rw [List.cons_append, List.append_assoc]
    exact value_object hgap h.begins (ih fuel rest (by omega))
  | lastItem h hgap ih =>
    intro fuel rest hfuel
    simp only [List.length_append, List.length_singleton] at hfuel
    obtain ⟨fuel, rfl⟩ : ∃ k, fuel = k + 1 := ⟨fuel - 1, by omega⟩
    simp only [List.append_assoc, List.singleton_append]
    exact items_last hgap (ih fuel _ (by omega) (ends_gap_append hgap (ends_cons (by simp) rest)))
  | moreItems h hgap₁ hgap₂ hrest ih ihrest =>
    intro fuel rest hfuel
    simp only [List.length_append, List.length_cons] at hfuel
    obtain ⟨fuel, rfl⟩ : ∃ k, fuel = k + 1 := ⟨fuel - 1, by omega⟩
    simp only [List.append_assoc, List.cons_append]
    exact items_more hgap₁ hgap₂ hrest.begins
      (ih fuel _ (by omega) (ends_gap_append hgap₁ (ends_cons (by simp) _)))
      (ihrest fuel rest (by omega))
  | lastMember hname hgap₁ hgap₂ h hgap₃ ih =>
    intro fuel rest hfuel
    simp only [List.length_append, List.length_cons, List.length_nil] at hfuel
    obtain ⟨fuel, rfl⟩ : ∃ k, fuel = k + 1 := ⟨fuel - 1, by omega⟩
    simp only [List.append_assoc, List.cons_append, List.nil_append]
    exact members_last hname hgap₁ hgap₂ h.begins hgap₃
      (ih fuel _ (by omega) (ends_gap_append hgap₃ (ends_cons (by simp) rest)))
  | moreMembers hname hgap₁ hgap₂ h hgap₃ hgap₄ hrest ih ihrest =>
    intro fuel rest hfuel
    simp only [List.length_append, List.length_cons] at hfuel
    obtain ⟨fuel, rfl⟩ : ∃ k, fuel = k + 1 := ⟨fuel - 1, by omega⟩
    simp only [List.append_assoc, List.cons_append]
    exact members_more hname hgap₁ hgap₂ h.begins hgap₃ hgap₄ hrest.begins
      (ih fuel _ (by omega) (ends_gap_append hgap₃ (ends_cons (by simp) _)))
      (ihrest fuel rest (by omega))

/-- **Every text of a value is read as that value.** -/
theorem read_of_isTextOf {t : Tree} {s : List Char} (h : IsTextOf t s) :
    read s = .ok t.toValue := by
  obtain ⟨before, w, after, hbefore, hw, hafter, rfl⟩ := h
  have hbegins : Begins (w ++ after) := hw.begins.append after
  have hends : Ends after := List.append_nil after ▸ ends_gap_append hafter ends_nil
  have hvalue := hw.isReadFrom (2 * (before ++ (w ++ after)).length + 1) after
    (by simp only [List.length_append]; omega) hends
  unfold read document
  split
  · next heq =>
    cases before with
    | nil =>
      obtain ⟨c, rest, hc, -, hmark⟩ := hbegins
      rw [List.nil_append, hc] at heq
      cases heq
      exact absurd hmark (by decide)
    | cons c before =>
      cases heq
      exact absurd (hbefore _ List.mem_cons_self) (by decide)
  · rw [hbegins.skip_gap_append hbefore, hvalue]
    dsimp only [bind, Except.bind]
    rw [← List.append_nil after, skip_gap_append hafter]
    rfl

end CompletionServer.Json
