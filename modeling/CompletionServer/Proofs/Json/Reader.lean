import CompletionServer.Json.Reader
import CompletionServer.Proofs.Outcome
import Mathlib.Data.List.TakeWhile

/-!
# Where a reader of JSON stops

A reader leaves an end of the characters that it was given. So what makes a later step stop stands
in the text as it came: a reader stops for size only where the text has a run of that many digits.
Everything else it stops at is a defect of the notation.
-/

namespace CompletionServer.Json

open Text

/-! ## Reading within a text -/

theorem skip_suffix (s : List Char) : skip s <:+ s := List.dropWhile_suffix _

/-- That a text has a run of `count` digits, which are more than a whole number may have. -/
def HasLongRun (s : List Char) (count : ℕ) : Prop :=
  ∃ run, run <:+: s ∧ run.length = count ∧ digitLimit < count ∧ ∀ c ∈ run, isDigit c = true

/-- That a stop is at a defect, or at digits that a text has. -/
inductive Stop.IsIn (s : List Char) : Stop → Prop where
  | defect (d : Defect) (left : ℕ) : IsIn s (.defect d left)
  | tooManyDigits {count : ℕ} (h : HasLongRun s count) : IsIn s (.tooManyDigits count)

theorem HasLongRun.mono {s t : List Char} {count : ℕ} (h : HasLongRun s count) (hst : s <:+: t) :
    HasLongRun t count := by
  obtain ⟨run, hrun, hlength, hlimit, hdigits⟩ := h
  exact ⟨run, hrun.trans hst, hlength, hlimit, hdigits⟩

/-- That what a reader leaves is an end of a text, and what it stops at is in the text. -/
def Within {α : Type} (s : List Char) (x : Except Stop (α × List Char)) : Prop :=
  Outcome (fun r ↦ r.2 <:+ s) (Stop.IsIn s) x

namespace Within

variable {α β : Type} {s t : List Char}

theorem ok {a : α} {rest : List Char} (h : rest <:+ s) : Within s (.ok (a, rest)) := h

theorem stop (d : Defect) (rest : List Char) : Within s (stop d rest : Except Stop (α × List Char)) :=
  .defect d rest.length

theorem mono {x : Except Stop (α × List Char)} (h : Within s x) (hst : s <:+ t) : Within t x := by
  refine Outcome.mono h (fun _ hr ↦ hr.trans hst) fun f hf ↦ ?_
  cases hf with
  | defect d left => exact .defect d left
  | tooManyDigits hrun => exact .tooManyDigits (hrun.mono hst.isInfix)

theorem bind {x : Except Stop (α × List Char)} {f : α × List Char → Except Stop (β × List Char)}
    (hx : Within s x) (hf : ∀ a rest, rest <:+ s → Within s (f (a, rest))) : Within s (x >>= f) :=
  Outcome.bind hx fun r hr ↦ hf r.1 r.2 hr

/-- Blanks may stand before what is read. -/
theorem skipped {rest : List Char} {x : Except Stop (α × List Char)} (h : Within (skip rest) x)
    (hrest : rest <:+ s) : Within s x := h.mono ((skip_suffix rest).trans hrest)

end Within

/-! ## Strings -/

theorem within_pointsFrom (start : ℕ) (s : List Char) : Within s (pointsFrom start s) := by
  fun_induction pointsFrom start s with
  | case1 | case3 => exact .defect .unterminatedString start
  | case2 rest => exact .ok (List.suffix_cons '"' rest)
  | case4 | case6 | case7 | case9 => exact .stop _ _
  | case5 a b c d e rest n hn ih =>
    have hrest : e :: rest <:+ '\\' :: 'u' :: a :: b :: c :: d :: e :: rest :=
      List.suffix_append ['\\', 'u', a, b, c, d] (e :: rest)
    refine Within.mono ?_ hrest
    exact ih.bind fun found left hleft ↦ .ok hleft
  | case8 c rest _ _ d hd ih =>
    have hrest : rest <:+ '\\' :: c :: rest := List.suffix_append ['\\', c] rest
    refine Within.mono ?_ hrest
    exact ih.bind fun found left hleft ↦ .ok hleft
  | case10 c rest _ _ _ _ _ ih =>
    refine Within.mono ?_ (List.suffix_cons c rest)
    exact ih.bind fun found left hleft ↦ .ok hleft

theorem within_string (s : List Char) : Within s (string s) :=
  (within_pointsFrom _ s).bind fun _ _ hleft ↦ .ok hleft

/-! ## Numbers -/

theorem fraction_suffix (s : List Char) : (fraction s).2 <:+ s := by
  unfold fraction
  split
  · next rest =>
    dsimp only
    split
    · exact List.suffix_refl _
    · exact (List.dropWhile_suffix _).trans (List.suffix_cons '.' rest)
  · exact List.suffix_refl _

theorem exponent_suffix (s : List Char) : (exponent s).2 <:+ s := by
  unfold exponent
  split
  · exact List.suffix_refl _
  · next mark rest =>
    split
    · split
      next sign digits hsign =>
      have hdigits : digits <:+ rest := by
        split at hsign
        · next r =>
          cases hsign
          exact List.suffix_cons '-' _
        · next r =>
          cases hsign
          exact List.suffix_cons '+' _
        · cases hsign
          exact List.suffix_refl _
      dsimp only
      split
      · exact List.suffix_refl _
      · exact (List.dropWhile_suffix _).trans (hdigits.trans (List.suffix_cons mark rest))
    · exact List.suffix_refl _

theorem within_number (s : List Char) : Within s (number s) := by
  unfold number
  split
  next negative unsigned hsign =>
  have hunsigned : unsigned <:+ s := by
    split at hsign
    · cases hsign
      exact List.suffix_cons '-' _
    · cases hsign
      exact List.suffix_refl _
  split
  next whole rest hwhole =>
  -- A zero stands alone, so a long run before a point or a mark is one of digits.
  have hcut : whole ++ rest = unsigned ∧ (digitLimit < whole.length →
      ∀ c ∈ whole, isDigit c = true) := by
    split at hwhole
    · cases hwhole
      exact ⟨rfl, fun hlimit ↦ absurd hlimit (by decide)⟩
    · cases hwhole
      exact ⟨List.takeWhile_append_dropWhile, fun _ c hc ↦ List.mem_takeWhile_imp hc⟩
  obtain ⟨rfl, hdigits⟩ := hcut
  have hrest : rest <:+ s := (List.suffix_append whole rest).trans hunsigned
  split
  · exact .stop _ _
  · have hleft : (exponent (fraction rest).2).2 <:+ s :=
      (exponent_suffix _).trans ((fraction_suffix _).trans hrest)
    dsimp only
    split
    · split
      · next hlimit =>
        have hrun : whole <:+: s := (List.prefix_append whole rest).isInfix.trans hunsigned.isInfix
        exact .tooManyDigits ⟨whole, hrun, rfl, hlimit, hdigits hlimit⟩
      · exact .ok hleft
    · exact .ok hleft

/-! ## Values -/

theorem within_value_succ {fuel : ℕ} (hitems : ∀ s, Within s (items fuel s))
    (hmembers : ∀ s, Within s (members fuel s)) (s : List Char) :
    Within s (value (fuel + 1) s) := by
  unfold value
  split
  · next rest =>
    refine Within.mono ?_ (List.suffix_cons '"' rest)
    exact (within_string rest).bind fun text left hleft ↦ .ok hleft
  · next rest =>
    refine Within.skipped ?_ (List.suffix_cons _ rest)
    split
    · next left hleft =>
      rw [hleft]
      exact .ok (List.suffix_cons _ left)
    · exact (hmembers _).bind fun found left hleft ↦ .ok hleft
  · next rest =>
    refine Within.skipped ?_ (List.suffix_cons _ rest)
    split
    · next left hleft =>
      rw [hleft]
      exact .ok (List.suffix_cons _ left)
    · exact (hitems _).bind fun found left hleft ↦ .ok hleft
  · next rest => exact .ok (List.suffix_append ['n', 'u', 'l', 'l'] rest)
  · next rest => exact .ok (List.suffix_append ['t', 'r', 'u', 'e'] rest)
  · next rest => exact .ok (List.suffix_append ['f', 'a', 'l', 's', 'e'] rest)
  · next rest => exact .ok (List.suffix_append ['N', 'a', 'N'] rest)
  · next rest => exact .ok (List.suffix_append ['I', 'n', 'f', 'i', 'n', 'i', 't', 'y'] rest)
  · next rest =>
    exact .ok (List.suffix_append ['-', 'I', 'n', 'f', 'i', 'n', 'i', 't', 'y'] rest)
  · exact within_number s

theorem within_items_succ {fuel : ℕ} (hvalue : ∀ s, Within s (value fuel s))
    (hitems : ∀ s, Within s (items fuel s)) (s : List Char) : Within s (items (fuel + 1) s) := by
  unfold items
  refine (hvalue s).bind fun first rest hrest ↦ Within.skipped ?_ hrest
  dsimp only
  generalize skip rest = after
  split
  · next left => exact .ok (List.suffix_cons _ left)
  · next more =>
    refine Within.skipped ?_ (List.suffix_cons _ more)
    exact (hitems (skip more)).bind fun others left hleft ↦ .ok hleft
  · exact .stop _ _

theorem within_members_succ {fuel : ℕ} (hvalue : ∀ s, Within s (value fuel s))
    (hmembers : ∀ s, Within s (members fuel s)) (s : List Char) :
    Within s (members (fuel + 1) s) := by
  unfold members
  split
  · next rest =>
    refine Within.mono ?_ (List.suffix_cons '"' rest)
    refine (within_string rest).bind fun name after hafter ↦ Within.skipped ?_ hafter
    dsimp only
    generalize skip after = colon
    split
    · next content =>
      refine Within.skipped ?_ (List.suffix_cons _ content)
      refine (hvalue (skip content)).bind fun v after hafter ↦ Within.skipped ?_ hafter
      dsimp only
      generalize skip after = comma
      split
      · next left => exact .ok (List.suffix_cons _ left)
      · next more =>
        refine Within.skipped ?_ (List.suffix_cons _ more)
        exact (hmembers (skip more)).bind fun others left hleft ↦ .ok hleft
      · exact .stop _ _
    · exact .stop _ _
  · exact .stop _ _

/-- Values, items and members are read with fuel, in steps that call each other, so they are
followed together. -/
theorem within_value_items_members (fuel : ℕ) : (∀ s, Within s (value fuel s)) ∧
    (∀ s, Within s (items fuel s)) ∧ ∀ s, Within s (members fuel s) := by
  induction fuel with
  | zero => exact ⟨fun s ↦ .stop _ s, fun s ↦ .stop _ s, fun s ↦ .stop _ s⟩
  | succ fuel ih =>
    obtain ⟨hvalue, hitems, hmembers⟩ := ih
    exact ⟨within_value_succ hitems hmembers, within_items_succ hvalue hitems,
      within_members_succ hvalue hmembers⟩

theorem outcome_document (s : List Char) :
    Outcome (fun _ ↦ True) (Stop.IsIn s) (document s) := by
  unfold document
  split
  · exact .defect .byteOrderMark _
  · have hvalue : Within s (value (2 * s.length + 2) (skip s)) :=
      ((within_value_items_members _).1 (skip s)).mono (skip_suffix s)
    refine Outcome.bind hvalue fun found _ ↦ ?_
    dsimp only
    split
    · exact trivial
    · exact .defect .extraData _

/-- **A text is not read for its size** only where it has a run of that many digits. -/
theorem hasLongRun_of_read {s : List Char} {count : ℕ} (h : read s = .error (.tooManyDigits count)) :
    HasLongRun s count := by
  have hdocument := outcome_document s
  unfold read at h
  cases hstop : document s with
  | ok v =>
    rw [hstop] at h
    cases h
  | error f =>
    rw [hstop] at h hdocument
    cases hdocument with
    | defect d left => cases h
    | tooManyDigits hrun =>
      cases h
      exact hrun

/-! ## Texts of digits alone -/

theorem skip_of_isDigit {run : List Char} (hrun : ∀ c ∈ run, isDigit c = true) :
    skip run = run := by
  cases run with
  | nil => rfl
  | cons c run =>
    refine List.dropWhile_cons_of_neg fun hspace ↦ ?_
    have hdigit := hrun c List.mem_cons_self
    rcases eq_of_isSpace hspace with rfl | rfl | rfl | rfl
    all_goals exact absurd hdigit (by decide)

theorem number_of_isDigit {run : List Char} (hrun : ∀ c ∈ run, isDigit c = true)
    (hhead : run.head? ≠ some '0') (hlong : digitLimit < run.length) :
    number run = .error (.tooManyDigits run.length) := by
  unfold number
  split
  next negative unsigned hsign =>
  obtain rfl : run = unsigned := by
    split at hsign
    · exact absurd (hrun '-' List.mem_cons_self) (by decide)
    · cases hsign
      rfl
  split
  next whole rest hwhole =>
  obtain ⟨rfl, rfl⟩ : run = whole ∧ rest = [] := by
    split at hwhole
    · exact absurd rfl hhead
    · cases hwhole
      exact ⟨(List.takeWhile_eq_self_iff.mpr hrun).symm, List.dropWhile_eq_nil_iff.mpr hrun⟩
  have hne : run.isEmpty = false := by
    cases run with
    | nil => exact absurd hlong (by decide)
    | cons c run => rfl
  rw [if_neg (by rw [hne]; decide)]
  exact if_pos hlong

/-- Where digits stand, a number is read. -/
theorem value_of_isDigit (fuel : ℕ) {run : List Char} (hrun : ∀ c ∈ run, isDigit c = true) :
    value (fuel + 1) run = number run := by
  unfold value
  split
  -- Any other value begins with something that is no digit.
  case h_10 => rfl
  all_goals exact absurd (hrun _ List.mem_cons_self) (by decide)

/-- A whole number of too many digits, and nothing else, is not read for its size. -/
theorem read_of_isDigit {run : List Char} (hrun : ∀ c ∈ run, isDigit c = true)
    (hhead : run.head? ≠ some '0') (hlong : digitLimit < run.length) :
    read run = .error (.tooManyDigits run.length) := by
  unfold read document
  split
  · exact absurd (hrun _ List.mem_cons_self) (by decide)
  · rw [skip_of_isDigit hrun, value_of_isDigit _ hrun, number_of_isDigit hrun hhead hlong]
    rfl

end CompletionServer.Json
