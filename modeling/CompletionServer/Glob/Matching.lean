import CompletionServer.Glob.Expression

/-!
# Matching path expressions

The marks that `Expr.ends` computes are right: a position is marked exactly if some match ends there
that starts at a position marked before. For the start of the text alone this says that
`Expr.accepts` decides `Expr.Accepts`.
-/

namespace CompletionServer.Glob

/-! ## Stretches of a text -/

/-- The characters of a text between two positions. -/
def between (s : List Char) (i j : Nat) : List Char := (s.drop i).take (j - i)

theorem between_self (s : List Char) (i : Nat) : between s i i = [] := by simp [between]

theorem between_zero (s : List Char) (j : Nat) : between s 0 j = s.take j := by simp [between]

theorem between_cons_succ (c : Char) (s : List Char) (i j : Nat) :
    between (c :: s) (i + 1) (j + 1) = between s i j := by
  simp [between]

theorem between_append (s : List Char) {i j k : Nat} (hij : i ≤ j) (hjk : j ≤ k) :
    between s i j ++ between s j k = between s i k := by
  obtain ⟨m, rfl⟩ := Nat.exists_eq_add_of_le hij
  obtain ⟨n, rfl⟩ := Nat.exists_eq_add_of_le hjk
  have hm : i + m - i = m := by omega
  have hn : i + m + n - (i + m) = n := by omega
  have hmn : i + m + n - i = m + n := by omega
  rw [between, between, between, hm, hn, hmn, List.take_add, List.drop_drop]

theorem between_succ (s : List Char) (i : Nat) : between s i (i + 1) = s[i]?.toList := by
  rw [between, show i + 1 - i = 1 by omega, List.take_one, List.head?_drop]

/-! ## There is one mark for each position -/

theorem length_shift (k : CharClass) {s : List Char} {marks : List Bool}
    (h : marks.length = s.length + 1) : (shift k s marks).length = marks.length := by
  simp [shift, h]

theorem length_spread (k : CharClass) (carried : Bool) {s : List Char} {marks : List Bool}
    (h : marks.length = s.length + 1) : (spread k carried s marks).length = marks.length := by
  induction s generalizing carried marks with
  | nil => cases marks with
    | nil => rfl
    | cons m marks => simp_all [spread]
  | cons c s ih => cases marks with
    | nil => rfl
    | cons m marks => simp [spread, ih _ (by simpa using h)]

theorem Expr.length_ends (e : Expr) {s : List Char} {marks : List Bool}
    (h : marks.length = s.length + 1) : (e.ends s marks).length = marks.length := by
  induction e generalizing marks with
  | empty => rfl
  | one k => exact length_shift k h
  | many k => exact length_spread k false h
  | seq e f ihe ihf => rw [Expr.ends, ihf ((ihe h).trans h), ihe h]
  | alt e f ihe ihf => simp [Expr.ends, ihe h, ihf h]

/-! ## What each kind of expression accepts -/

theorem Expr.accepts_empty_iff {s : List Char} : Expr.Accepts .empty s ↔ s = [] :=
  ⟨fun h ↦ by cases h; rfl, fun h ↦ h ▸ .empty⟩

theorem Expr.accepts_one_iff {k : CharClass} {s : List Char} :
    Expr.Accepts (.one k) s ↔ ∃ c, s = [c] ∧ k.has c = true :=
  ⟨fun h ↦ by cases h with | one h => exact ⟨_, rfl, h⟩, fun ⟨_, hs, h⟩ ↦ hs ▸ .one h⟩

theorem Expr.accepts_many_iff {k : CharClass} {s : List Char} :
    Expr.Accepts (.many k) s ↔ ∀ c ∈ s, k.has c = true :=
  ⟨fun h ↦ by cases h with | many h => exact h, .many⟩

theorem Expr.accepts_seq_iff {e f : Expr} {s : List Char} :
    Expr.Accepts (.seq e f) s ↔ ∃ t u, s = t ++ u ∧ e.Accepts t ∧ f.Accepts u :=
  ⟨fun h ↦ by cases h with | seq ht hu => exact ⟨_, _, rfl, ht, hu⟩,
    fun ⟨_, _, hs, ht, hu⟩ ↦ hs ▸ .seq ht hu⟩

theorem Expr.accepts_alt_iff {e f : Expr} {s : List Char} :
    Expr.Accepts (.alt e f) s ↔ e.Accepts s ∨ f.Accepts s :=
  ⟨fun h ↦ by
    cases h with
    | altLeft h => exact .inl h
    | altRight h => exact .inr h,
    fun h ↦ h.elim .altLeft .altRight⟩

/-! ## Where the marks are -/

theorem getElem?_shift (k : CharClass) (s : List Char) (marks : List Bool) (j : Nat) :
    (shift k s marks)[j]? = some true ↔
      ∃ i, j = i + 1 ∧ marks[i]? = some true ∧ ∃ c, s[i]? = some c ∧ k.has c = true := by
  cases j with
  | zero => simp [shift]
  | succ j =>
    simp only [shift, List.getElem?_cons_succ, List.getElem?_zipWith]
    cases hm : marks[j]? <;> cases hs : s[j]? <;> simp_all

theorem getElem?_spread (k : CharClass) (carried : Bool) (s : List Char) (marks : List Bool)
    (h : marks.length = s.length + 1) (j : Nat) :
    (spread k carried s marks)[j]? = some true ↔ j ≤ s.length ∧
      ((carried = true ∧ ∀ c ∈ between s 0 j, k.has c = true) ∨
      ∃ i, i ≤ j ∧ marks[i]? = some true ∧ ∀ c ∈ between s i j, k.has c = true) := by
  induction s generalizing carried marks j with
  | nil =>
    obtain ⟨m, rfl⟩ : ∃ m, marks = [m] := List.length_eq_one_iff.mp h
    cases j with
    | zero => simp [spread, between]
    | succ j => simp [spread]
  | cons c s ih =>
    cases marks with
    | nil => cases h
    | cons m marks =>
      cases j with
      | zero => simp [spread, between]
      | succ j =>
        have h' : marks.length = s.length + 1 := by simpa using h
        rw [spread, List.getElem?_cons_succ, ih _ _ h']
        have hz : ∀ {P : Char → Prop}, (∀ d ∈ between (c :: s) 0 (j + 1), P d) ↔
            P c ∧ ∀ d ∈ between s 0 j, P d := by
          intro P
          simp [between_zero]
        constructor
        · rintro ⟨hj, ⟨hc, hall⟩ | ⟨i, hi, hm, hall⟩⟩
          · refine ⟨by simpa using hj, ?_⟩
            simp only [Bool.and_eq_true, Bool.or_eq_true] at hc
            rcases hc with ⟨hc | hc, hk⟩
            · exact .inl ⟨hc, hz.mpr ⟨hk, hall⟩⟩
            · exact .inr ⟨0, by omega, by simpa using hc, hz.mpr ⟨hk, hall⟩⟩
          · exact ⟨by simpa using hj, .inr ⟨i + 1, by omega, by simpa using hm, by
              rwa [between_cons_succ]⟩⟩
        · rintro ⟨hj, ⟨hc, hall⟩ | ⟨i, hi, hm, hall⟩⟩
          · exact ⟨by simpa using hj, .inl ⟨by simp [hc, (hz.mp hall).1], (hz.mp hall).2⟩⟩
          · cases i with
            | zero =>
              have hm : m = true := by simpa using hm
              exact ⟨by simpa using hj, .inl ⟨by simp [hm, (hz.mp hall).1], (hz.mp hall).2⟩⟩
            | succ i =>
              refine ⟨by simpa using hj, .inr ⟨i, by omega, by simpa using hm, ?_⟩⟩
              rwa [between_cons_succ] at hall

theorem Expr.getElem?_ends (e : Expr) {s : List Char} {marks : List Bool}
    (h : marks.length = s.length + 1) (j : Nat) :
    (e.ends s marks)[j]? = some true ↔ j ≤ s.length ∧
      ∃ i, i ≤ j ∧ marks[i]? = some true ∧ e.Accepts (between s i j) := by
  induction e generalizing marks j with
  | empty =>
    simp only [Expr.ends, Expr.accepts_empty_iff]
    constructor
    · intro hj
      have hlt : j < marks.length := (List.getElem?_eq_some_iff.mp hj).1
      exact ⟨by omega, j, Nat.le_refl j, hj, between_self s j⟩
    · rintro ⟨hj, i, hi, hm, hb⟩
      have : j - i = 0 := by
        have := congrArg List.length hb
        simp only [between, List.length_take, List.length_drop, List.length_nil] at this
        omega
      obtain rfl : i = j := by omega
      exact hm
  | one k =>
    rw [Expr.ends, getElem?_shift]
    simp only [Expr.accepts_one_iff]
    constructor
    · rintro ⟨i, rfl, hm, c, hc, hk⟩
      have hlt : i < s.length := (List.getElem?_eq_some_iff.mp hc).1
      exact ⟨by omega, i, by omega, hm, c, by rw [between_succ, hc]; rfl, hk⟩
    · rintro ⟨hj, i, hi, hm, c, hb, hk⟩
      have hlen := congrArg List.length hb
      simp only [between, List.length_take, List.length_drop, List.length_singleton] at hlen
      obtain rfl : j = i + 1 := by omega
      refine ⟨i, rfl, hm, c, ?_, hk⟩
      rw [between_succ] at hb
      cases hs : s[i]? with
      | none => rw [hs] at hb; cases hb
      | some d => rw [hs] at hb; simpa using hb
  | many k =>
    rw [Expr.ends, getElem?_spread k false s marks h]
    simp [Expr.accepts_many_iff]
  | seq e f ihe ihf =>
    rw [Expr.ends, ihf ((length_ends e h).trans h)]
    simp only [ihe h, Expr.accepts_seq_iff]
    constructor
    · rintro ⟨hj, i, hi, ⟨hi', n, hn, hm, he⟩, hf⟩
      exact ⟨hj, n, by omega, hm, _, _, (between_append s hn hi).symm, he, hf⟩
    · rintro ⟨hj, n, hn, hm, t, u, hb, he, hf⟩
      have hlen := congrArg List.length hb
      simp only [between, List.length_take, List.length_drop, List.length_append] at hlen
      have hi : n ≤ n + t.length := by omega
      have hi' : n + t.length ≤ j := by omega
      have hsplit := between_append s hi hi'
      rw [hb] at hsplit
      have ⟨ht, hu⟩ := List.append_inj hsplit (by
        simp only [between, List.length_take, List.length_drop]
        omega)
      exact ⟨hj, n + t.length, hi', ⟨by omega, n, hi, hm, by rwa [ht]⟩, by rwa [hu]⟩
  | alt e f ihe ihf =>
    have hor : (Expr.ends s (.alt e f) marks)[j]? = some true ↔
        (e.ends s marks)[j]? = some true ∨ (f.ends s marks)[j]? = some true := by
      have he := length_ends e h
      have hf := length_ends f h
      rw [Expr.ends, List.getElem?_zipWith]
      by_cases hj : j < marks.length
      · rw [List.getElem?_eq_getElem (by omega), List.getElem?_eq_getElem (by omega)]
        simp
      · rw [List.getElem?_eq_none (by omega), List.getElem?_eq_none (by omega)]
        simp
    rw [hor, ihe h, ihf h]
    simp only [Expr.accepts_alt_iff]
    constructor
    · rintro (⟨hj, i, hi, hm, ha⟩ | ⟨hj, i, hi, hm, ha⟩)
      · exact ⟨hj, i, hi, hm, .inl ha⟩
      · exact ⟨hj, i, hi, hm, .inr ha⟩
    · rintro ⟨hj, i, hi, hm, ha | ha⟩
      · exact .inl ⟨hj, i, hi, hm, ha⟩
      · exact .inr ⟨hj, i, hi, hm, ha⟩

theorem Expr.accepts_eq_true_iff {e : Expr} {s : List Char} : e.accepts s = true ↔ e.Accepts s := by
  have h : (startMarks s).length = s.length + 1 := by simp [startMarks]
  have hlen := length_ends e h
  have hlast : (e.ends s (startMarks s)).getLast? = (e.ends s (startMarks s))[s.length]? := by
    rw [List.getLast?_eq_getElem?, hlen, h, Nat.add_sub_cancel]
  have hstart : ∀ i, (startMarks s)[i]? = some true ↔ i = 0 := by
    intro i
    cases i with
    | zero => simp [startMarks]
    | succ i => simp [startMarks, List.getElem?_replicate]
  rw [Expr.accepts, hlast, ← Option.some_inj]
  have hsome : ∃ b, (e.ends s (startMarks s))[s.length]? = some b :=
    ⟨_, List.getElem?_eq_getElem (by omega)⟩
  obtain ⟨b, hb⟩ := hsome
  rw [hb, Option.getD_some, ← hb, getElem?_ends e h]
  simp only [hstart]
  constructor
  · rintro ⟨_, i, _, rfl, ha⟩
    simpa [between] using ha
  · intro ha
    exact ⟨Nat.le_refl _, 0, by omega, rfl, by simpa [between] using ha⟩

end CompletionServer.Glob
