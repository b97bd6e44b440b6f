import CompletionServer.Value.Text

/-!
# Texts that are not empty

What counts as given has a text that is not empty, `text_ne_empty`. Only a text of no characters
would be written as nothing, and it does not count as given; all else is written with brackets,
quotes, digits or words.
-/

namespace CompletionServer

/-- What ends in something is not empty. -/
theorem append_ne_empty (s : String) {t : String} (h : t ≠ "") : s ++ t ≠ "" :=
  fun heq ↦ h (String.append_eq_empty_iff.mp heq).2

/-! ## Numbers and days -/

theorem toString_int_ne_empty (n : Int) : toString n ≠ "" := by
  cases n with
  | ofNat n => exact Nat.repr_ne_empty
  | negSucc n =>
    exact append_ne_empty "-" Nat.repr_ne_empty

theorem Decimal.Style.positive_ne_empty (style : Style) (digits : List Char) (e : Int) :
    style.positive digits e ≠ "" := by
  unfold positive
  split
  · split
    · simp [String.append_eq_empty_iff]
    · -- There is at least one place before the point.
      have hwhole (places : Nat) : digits.take (places + 1)
          ++ List.replicate (places + 1 - digits.length) '0' ≠ [] := by
        cases digits with
        | nil => simp
        | cons d digits => simp
      simp only [Ne, String.append_eq_empty_iff, String.ofList_eq_empty_iff, hwhole, false_and,
        not_false_eq_true]
  · simp [exponent, String.append_eq_empty_iff]

theorem Decimal.plain_write_ne_empty (x : Float) : plain.write x ≠ "" := by
  unfold Style.write
  dsimp only
  split
  · decide
  · rw [Ne, String.append_eq_empty_iff, not_and]
    intro _
    split
    · decide
    · split
      · decide
      · exact plain.positive_ne_empty _ _

theorem paddedNat_ne_empty (width n : Nat) : paddedNat width n ≠ "" :=
  append_ne_empty _ Nat.repr_ne_empty

theorem Date.text_ne_empty (d : Date) : d.text ≠ "" := append_ne_empty _ (paddedNat_ne_empty 2 d.day)

theorem Moment.text_ne_empty (m : Moment) : m.text ≠ "" := by
  simp [Moment.text, String.append_eq_empty_iff]

/-! ## Texts -/

theorem Text.shown_ne_nil {s : List Point} (h : s ≠ []) : shown s ≠ [] := by
  rw [shown, Ne, List.map_eq_nil_iff]
  unfold joinPairs
  split
  · exact absurd rfl h
  · split
    · exact List.cons_ne_nil _ _
    · exact List.cons_ne_nil _ _
  · exact List.cons_ne_nil _ _

theorem Text.quotedPoints_ne_nil (s : List Point) : quotedPoints s ≠ [] := List.cons_ne_nil _ _

namespace Value

/-! ## Values -/

theorem dots_ne_empty (v : Value) : v.dots ≠ "" := by
  unfold dots
  split <;> decide

/-- What stands for knots inside themselves is not empty. -/
def AreDotted (knots : List (Label × String)) : Prop := ∀ k ∈ knots, k.2 ≠ ""

theorem AreDotted.of_lookup {knots : List (Label × String)} (h : AreDotted knots) {label : Label}
    {dots : String} (hdots : knots.lookup label = some dots) : dots ≠ "" := by
  obtain ⟨before, after, rfl, -⟩ := List.lookup_eq_some_iff.mp hdots
  exact h (label, dots) (by simp)

theorem quotedIn_ne_empty {knots : List (Label × String)} (hknots : AreDotted knots) :
    ∀ v : Value, v.quotedIn knots ≠ ""
  | .null | .bool true | .bool false | .set [] => by simp [quotedIn]
  | .int n => toString_int_ne_empty n
  | .float x => Decimal.plain_write_ne_empty x
  | .str s => by simp [quotedIn, Text.quoted, Text.quotedPoints_ne_nil]
  | .broken s => by simp [quotedIn, Text.quotedPoints_ne_nil]
  | .bytes bs => by simp [quotedIn, Text.quotedBytes]
  | .date _ | .moment _ | .list _ | .map _ | .set (_ :: _) | .pair _ _ =>
    append_ne_empty _ (by decide)
  | .knot label body => by
    rw [quotedIn]
    split
    · next dots hdots => exact hknots.of_lookup hdots
    · -- Inside its body the knot is written as dots.
      refine quotedIn_ne_empty ?_ body
      exact List.forall_mem_cons.mpr ⟨body.dots_ne_empty, hknots⟩
  | .again label => by
    rw [quotedIn]
    cases hdots : knots.lookup label with
    | none => decide
    | some dots => exact hknots.of_lookup hdots

theorem quoted_ne_empty (v : Value) : v.quoted ≠ "" := quotedIn_ne_empty (List.forall_mem_nil _) v

/-- **What counts as given has a text that is not empty.** -/
theorem text_ne_empty {v : Value} (h : v.isTruthy = true) : v.text ≠ "" := by
  cases v with
  | str s => simpa [isTruthy] using h
  | broken s =>
    have hs : s ≠ [] := by simpa [isTruthy] using h
    rw [text, Ne, String.ofList_eq_empty_iff]
    exact Text.shown_ne_nil hs
  | date d => exact d.text_ne_empty
  | moment m => exact m.text_ne_empty
  | _ => exact quoted_ne_empty _

end Value

end CompletionServer
