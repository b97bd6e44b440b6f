/-!
# Characters and halves of pairs

A character beyond the basic plane may be written as two escapes, the halves of a pair of
surrogates. A text in which such a half stands alone is not a text of characters, but it is read,
kept and written like one. So a decoded text is a list of *points*: characters, and halves that
stand alone.

Where a text is shown, two halves that come to stand side by side count as the character that they
make together; a half that is still alone then is shown as U+FFFD.
-/

namespace CompletionServer.Text

def isHighSurrogate (n : Nat) : Bool := 0xD800 ≤ n && n ≤ 0xDBFF

def isLowSurrogate (n : Nat) : Bool := 0xDC00 ≤ n && n ≤ 0xDFFF

/-- The character of a pair of surrogates. -/
def joinSurrogates (high low : Nat) : Char :=
  Char.ofNat (0x10000 + (high - 0xD800) * 0x400 + (low - 0xDC00))

/-- A half of a pair of surrogates, by its number. -/
structure Half where
  unit : Nat
  isSurrogate : (isHighSurrogate unit || isLowSurrogate unit) = true
deriving DecidableEq, Repr

/-- A character, or a half of a pair that stands alone. -/
inductive Point where
  | char (c : Char)
  | half (h : Half)
deriving DecidableEq, Repr, Inhabited

namespace Point

/-- The point with a number. -/
def ofNat (n : Nat) : Point :=
  if h : isHighSurrogate n || isLowSurrogate n then .half ⟨n, h⟩ else .char (Char.ofNat n)

/-- The number of a point. -/
def code : Point → Nat
  | .char c => c.toNat
  | .half h => h.unit

/-- The character that a point is, if it is one. -/
def char? : Point → Option Char
  | .char c => some c
  | .half _ => none

/-- The character that a point is; U+FFFD for a half. -/
def toChar : Point → Char
  | .char c => c
  | .half _ => '\uFFFD'

/-- Whether a point is a character that `p` allows. -/
def satisfies (p : Char → Bool) : Point → Bool
  | .char c => p c
  | .half _ => false

end Point

/-- The points of a text of characters. -/
def points (s : List Char) : List Point := s.map .char

/-- The points of a string. -/
def pointsOf (s : String) : List Point := points s.toList

/-- The characters of a text, if all its points are characters. -/
def chars? (s : List Point) : Option (List Char) := s.mapM Point.char?

@[simp] theorem chars?_points (s : List Char) : chars? (points s) = some s := by
  induction s with
  | nil => rfl
  | cons c s ih => simp_all [chars?, points, Point.char?]

theorem chars?_eq_some_iff {s : List Point} {cs : List Char} :
    chars? s = some cs ↔ s = points cs := by
  refine ⟨fun h ↦ ?_, fun h ↦ h ▸ chars?_points cs⟩
  induction s generalizing cs with
  | nil =>
    cases h
    rfl
  | cons p s ih =>
    cases p with
    | half half => cases h
    | char c =>
      obtain ⟨cs', hs, rfl⟩ : ∃ cs', chars? s = some cs' ∧ c :: cs' = cs := by
        simpa [chars?, Point.char?, Option.bind_eq_some_iff] using h
      rw [ih hs]
      rfl

/-- Whether `s` comes before `t` or is the same, by the numbers of their points. -/
def isUpTo : (s t : List Point) → Bool
  | [], _ => true
  | _ :: _, [] => false
  | p :: s, q :: t => p.code < q.code || (p.code == q.code && isUpTo s t)

/-- The points of a text in which a high half directly before a low one makes a character. -/
def joinPairs : List Point → List Point
  | [] => []
  | .half high :: .half low :: rest =>
    if isHighSurrogate high.unit && isLowSurrogate low.unit then
      .char (joinSurrogates high.unit low.unit) :: joinPairs rest
    else .half high :: joinPairs (.half low :: rest)
  | p :: rest => p :: joinPairs rest

/-- The characters as which a text is shown. -/
def shown (s : List Point) : List Char := (joinPairs s).map Point.toChar

/-! ## Joined pairs -/

theorem Half.range (h : Half) : 0xD800 ≤ h.unit ∧ h.unit ≤ 0xDFFF := by
  have hsurrogate := h.isSurrogate
  simp only [isHighSurrogate, isLowSurrogate, Bool.or_eq_true, Bool.and_eq_true,
    decide_eq_true_eq] at hsurrogate
  omega

theorem toNat_joinSurrogates {high low : Nat} (hhigh : isHighSurrogate high = true)
    (hlow : isLowSurrogate low = true) :
    (joinSurrogates high low).toNat = 0x10000 + (high - 0xD800) * 0x400 + (low - 0xDC00) := by
  simp only [isHighSurrogate, isLowSurrogate, Bool.and_eq_true, decide_eq_true_eq] at hhigh hlow
  have hvalid : (0x10000 + (high - 0xD800) * 0x400 + (low - 0xDC00)).isValidChar :=
    .inr ⟨by omega, by omega⟩
  rw [joinSurrogates, Char.ofNat, dif_pos hvalid]
  rfl

theorem joinPairs_pair {high low : Half} (hhigh : isHighSurrogate high.unit = true)
    (hlow : isLowSurrogate low.unit = true) (s : List Point) :
    joinPairs (.half high :: .half low :: s)
      = .char (joinSurrogates high.unit low.unit) :: joinPairs s := by
  rw [joinPairs, hhigh, hlow]
  rfl

/-- A point that begins no pair stays in front. -/
theorem joinPairs_cons {p : Point} {s : List Point}
    (h : ∀ high low rest, p = .half high → s = .half low :: rest →
      isHighSurrogate high.unit = true → isLowSurrogate low.unit = false) :
    joinPairs (p :: s) = p :: joinPairs s := by
  rw [joinPairs.eq_def]
  split
  · next heq => cases heq
  · next high low rest heq =>
    cases heq
    rw [if_neg]
    intro hpair
    rw [Bool.and_eq_true] at hpair
    exact Bool.false_ne_true ((h high low rest rfl rfl hpair.1).symm.trans hpair.2)
  · next heq =>
    cases heq
    rfl

theorem joinPairs_char (c : Char) (s : List Point) :
    joinPairs (.char c :: s) = .char c :: joinPairs s :=
  joinPairs_cons fun _ _ _ hhalf ↦ by cases hhalf

theorem joinPairs_low {low : Half} (hlow : isLowSurrogate low.unit = true) (s : List Point) :
    joinPairs (.half low :: s) = .half low :: joinPairs s := by
  refine joinPairs_cons fun high _ _ hhalf _ hhigh ↦ ?_
  cases hhalf
  simp only [isHighSurrogate, isLowSurrogate, Bool.and_eq_true, decide_eq_true_eq] at hhigh hlow
  omega

/-- A half stays alone if the joined points after it do not begin with its other half. -/
theorem joinPairs_half {half : Half} {s : List Point}
    (halone : ∀ low rest, joinPairs s = .half low :: rest →
      isHighSurrogate half.unit = true → isLowSurrogate low.unit = false) :
    joinPairs (.half half :: s) = .half half :: joinPairs s := by
  refine joinPairs_cons fun high low rest hhalf hs hhigh ↦ ?_
  cases hhalf
  cases hs
  cases hlow : isLowSurrogate low.unit with
  | false => rfl
  | true => exact hlow.symm.trans (halone low _ (joinPairs_low hlow rest) hhigh)

/-- What comes first once pairs are joined, if it is a half, came first before. -/
theorem eq_cons_of_joinPairs {s t : List Point} {half : Half} (h : joinPairs s = .half half :: t) :
    ∃ u, s = .half half :: u := by
  rw [joinPairs.eq_def] at h
  split at h
  · cases h
  · split at h
    · cases h
    · cases h
      exact ⟨_, rfl⟩
  · cases h
    exact ⟨_, rfl⟩

@[simp] theorem joinPairs_points (s : List Char) : joinPairs (points s) = points s := by
  induction s with
  | nil => rfl
  | cons c s ih =>
    rw [points, List.map_cons, joinPairs_char, ← points, ih]

end CompletionServer.Text
