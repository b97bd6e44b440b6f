import CompletionServer.Completion.Candidate

/-!
# The parts of a value

A value has a text if no whole number in it has too many digits, so with a value all its parts have
a text. Parts are taken out of an opened value, in which the whole may stand in many places of its
own; what is known of the whole is then known of these places too, and the lemmas on `replaceAgain`
carry exactly that.
-/

namespace CompletionServer

namespace Value

/-! ## Texts -/

theorem areWritable_iff {vs : List Value} :
    areWritable vs = true ↔ ∀ v ∈ vs, v.isWritable = true := by
  induction vs with
  | nil => simp [areWritable]
  | cons v vs ih => rw [areWritable, Bool.and_eq_true, ih, List.forall_mem_cons]

theorem areWritableEntries_iff {entries : List (Value × Value)} :
    areWritableEntries entries = true ↔
      ∀ e ∈ entries, e.1.isWritable = true ∧ e.2.isWritable = true := by
  induction entries with
  | nil => simp [areWritableEntries]
  | cons e entries ih =>
    rw [areWritableEntries, Bool.and_eq_true, Bool.and_eq_true, ih, List.forall_mem_cons]

theorem isWritable_ofPoints (s : List Text.Point) : (ofPoints s).isWritable = true := by
  unfold ofPoints
  split
  · rfl
  · rfl

mutual

theorem isWritable_replaceAgain (label : Label) {whole : Value} (hwhole : whole.isWritable = true) :
    ∀ v : Value, v.isWritable = true → (replaceAgain label whole v).isWritable = true
  | .again l => by
    intro _
    rw [replaceAgain]
    split
    · exact hwhole
    · rfl
  | .knot l body => by
    intro h
    rw [replaceAgain]
    split
    · exact h
    · exact isWritable_replaceAgain label hwhole body h
  | .list items => by
    intro h
    rw [replaceAgain]
    exact areWritable_replaceAgainEach label hwhole items h
  | .map entries => by
    intro h
    rw [replaceAgain]
    exact areWritableEntries_replaceAgainBoth label hwhole entries h
  | .pair first second => by
    intro h
    rw [isWritable, Bool.and_eq_true] at h
    rw [replaceAgain, isWritable, isWritable_replaceAgain label hwhole first h.1,
      isWritable_replaceAgain label hwhole second h.2]
    rfl
  | .null | .bool _ | .int _ | .float _ | .str _ | .broken _ | .bytes _ | .date _ | .moment _
  | .set _ => by
    intro h
    simpa only [replaceAgain] using h

theorem areWritable_replaceAgainEach (label : Label) {whole : Value}
    (hwhole : whole.isWritable = true) : ∀ vs : List Value, areWritable vs = true →
    areWritable (replaceAgainEach label whole vs) = true
  | [] => fun _ ↦ rfl
  | v :: vs => by
    intro h
    rw [areWritable, Bool.and_eq_true] at h
    rw [replaceAgainEach, areWritable, isWritable_replaceAgain label hwhole v h.1,
      areWritable_replaceAgainEach label hwhole vs h.2]
    rfl

theorem areWritableEntries_replaceAgainBoth (label : Label) {whole : Value}
    (hwhole : whole.isWritable = true) : ∀ entries : List (Value × Value),
    areWritableEntries entries = true →
    areWritableEntries (replaceAgainBoth label whole entries) = true
  | [] => fun _ ↦ rfl
  | (k, v) :: entries => by
    intro h
    rw [areWritableEntries, Bool.and_eq_true, Bool.and_eq_true] at h
    rw [replaceAgainBoth, areWritableEntries, h.1.1, isWritable_replaceAgain label hwhole v h.1.2,
      areWritableEntries_replaceAgainBoth label hwhole entries h.2]
    rfl

end

theorem isWritable_opened {v : Value} (h : v.isWritable = true) : v.opened.isWritable = true := by
  cases v with
  | knot label body => exact isWritable_replaceAgain label h body h
  | _ => exact h

theorem isWritable_of_items? {v : Value} {items : List Value} (hv : v.isWritable = true)
    (h : v.items? = some items) : ∀ i ∈ items, i.isWritable = true := by
  unfold items? at h
  split at h
  · next found hopened =>
    cases h
    have hlist := isWritable_opened hv
    rw [hopened] at hlist
    exact areWritable_iff.mp hlist
  · cases h

theorem areWritableEntries_of_entries? {v : Value} {entries : List (Value × Value)}
    (hv : v.isWritable = true) (h : v.entries? = some entries) :
    areWritableEntries entries = true := by
  unfold entries? at h
  split at h
  · next found hopened =>
    cases h
    have hmap := isWritable_opened hv
    rwa [hopened] at hmap
  · cases h

theorem isWritable_get {entries : List (Value × Value)} (h : areWritableEntries entries = true)
    (key : String) : (get key entries).isWritable = true := by
  unfold get get?
  cases hfound : Keyed.find? sameKey (.str key) entries with
  | none => rfl
  | some v =>
    obtain ⟨k, hk⟩ := Keyed.exists_mem_of_find?_eq_some hfound
    exact (areWritableEntries_iff.mp h _ hk).2

/-! ## Values that count as given -/

theorem isTruthy_replaceAgain (label : Label) {whole : Value} (hwhole : whole.isTruthy = true) :
    ∀ v : Value, v.isTruthy = true → (replaceAgain label whole v).isTruthy = true
  | .again l => by
    intro _
    rw [replaceAgain]
    split
    · exact hwhole
    · rfl
  | .knot l body => by
    intro h
    rw [replaceAgain]
    split
    · exact h
    · exact isTruthy_replaceAgain label hwhole body h
  | .list [] | .map [] => by
    intro h
    cases h
  | .list (_ :: _) | .map ((_, _) :: _) | .pair _ _ => fun _ ↦ rfl
  | .null | .bool _ | .int _ | .float _ | .str _ | .broken _ | .bytes _ | .date _ | .moment _
  | .set _ => by
    intro h
    simpa only [replaceAgain] using h

theorem isTruthy_opened {v : Value} (h : v.isTruthy = true) : v.opened.isTruthy = true := by
  cases v with
  | knot label body => exact isTruthy_replaceAgain label h body h
  | _ => exact h

end Value

/-- The fields of a candidate have texts if its mapping has one. -/
theorem Completion.Candidate.areWritable_of_entries {entries : List (Value × Value)}
    (h : Value.areWritableEntries entries = true) : areWritable entries = true := by
  refine List.all_eq_true.mpr fun name _ ↦ ?_
  unfold fieldValue
  split
  · exact Value.isWritable_get h name.2
  · exact Value.isWritable_get h name.1

end CompletionServer
