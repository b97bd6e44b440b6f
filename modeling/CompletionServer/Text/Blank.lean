/-!
# Blank characters

What separates words and what is cut off at the ends of a text. The class is that of the Unicode
white-space property together with the four separator controls U+001C to U+001F, so it is wider
than `Char.isWhitespace`, which knows ASCII alone.
-/

namespace CompletionServer.Text

/-- White space, or one of the four information separators. -/
def isBlank (c : Char) : Bool :=
  let n := c.toNat
  (9 ≤ n && n ≤ 13) || (28 ≤ n && n ≤ 32) || n == 0x85 || n == 0xA0 || n == 0x1680
    || (0x2000 ≤ n && n ≤ 0x200A) || n == 0x2028 || n == 0x2029 || n == 0x202F || n == 0x205F
    || n == 0x3000

/-- What may surround a written number: blanks, but none of the separators. -/
def isMargin (c : Char) : Bool := isBlank c && !(28 ≤ c.toNat && c.toNat ≤ 31)

/-- The text without the characters that `p` marks at its two ends. -/
def trimWhere (p : Char → Bool) (s : List Char) : List Char :=
  ((s.dropWhile p).reverse.dropWhile p).reverse

/-- The text without the blanks at its two ends. -/
def trim (s : List Char) : List Char := trimWhere isBlank s

/-- The stretches of `s` between the elements that `p` marks, empty ones included. -/
def splitWhere {α : Type} (p : α → Bool) : List α → List (List α)
  | [] => [[]]
  | c :: s =>
    if p c then [] :: splitWhere p s
    else match splitWhere p s with
      | [] => [[c]]
      | w :: ws => (c :: w) :: ws

theorem splitWhere_ne_nil {α : Type} (p : α → Bool) (s : List α) : splitWhere p s ≠ [] := by
  induction s with
  | nil => simp [splitWhere]
  | cons c s ih =>
    rw [splitWhere]
    split
    · simp
    · split <;> simp

theorem length_splitWhere {α : Type} (p : α → Bool) (s : List α) :
    (splitWhere p s).length = s.countP p + 1 := by
  induction s with
  | nil => rfl
  | cons c s ih =>
    by_cases hc : p c = true
    · simp [splitWhere, hc, ih]
    · rw [splitWhere, if_neg hc]
      cases hs : splitWhere p s with
      | nil => exact absurd hs (splitWhere_ne_nil p s)
      | cons w ws => simp_all

/-- An element is a mark, or it is in one of the stretches between marks. -/
theorem mem_splitWhere_of_mem {α : Type} (p : α → Bool) {s : List α} {c : α} (h : c ∈ s) :
    p c = true ∨ ∃ w ∈ splitWhere p s, c ∈ w := by
  induction s with
  | nil => cases h
  | cons d s ih =>
    rw [splitWhere]
    split
    · next hd =>
      rcases List.mem_cons.mp h with rfl | h
      · exact .inl hd
      · exact (ih h).imp_right fun ⟨w, hw, hc⟩ ↦ ⟨w, List.mem_cons_of_mem _ hw, hc⟩
    · split
      · next hnone => exact absurd hnone (splitWhere_ne_nil p s)
      · next w ws hws =>
        rcases List.mem_cons.mp h with rfl | h
        · exact .inr ⟨c :: w, List.mem_cons_self, List.mem_cons_self⟩
        · rcases ih h with hc | ⟨u, hu, hc⟩
          · exact .inl hc
          · rw [hws] at hu
            rcases List.mem_cons.mp hu with rfl | hu
            · exact .inr ⟨d :: u, List.mem_cons_self, List.mem_cons_of_mem d hc⟩
            · exact .inr ⟨u, List.mem_cons_of_mem _ hu, hc⟩

/-- The longest stretches of `s` without elements that `p` marks. -/
def wordsWhere {α : Type} (p : α → Bool) (s : List α) : List (List α) :=
  (splitWhere p s).filter fun w ↦ !w.isEmpty

end CompletionServer.Text
