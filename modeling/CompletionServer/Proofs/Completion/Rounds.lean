import CompletionServer.Proofs.Completion.Overload

/-!
# Collapsing in rounds

Items may come in rounds: each round brings more of them, and the list is collapsed again. The list
then still holds the first item of each label, in the order in which the labels first came. Its
detail tells, round by round, how many items it hid there, `afterRounds_eq`.

The proof goes by the last round. What carries it is that nothing but the details of the first items
depends on the rounds, `firsts_afterRounds`, which holds before the first round too.
-/

namespace CompletionServer.Completion

/-! ## Details -/

/-- A detail with a suffix for each round in which items were hidden, `hidden` of them. -/
def noted (detail : Option String) (hidden : List ℕ) : Option String :=
  match hidden.filter (· ≠ 0) with
  | [] => detail
  | shown => some (shown.foldl (fun s n ↦ s ++ overloadSuffix n) (detail.getD "None"))

/-- The item with a suffix for each round in which it hid others. -/
def Item.noted (hidden : List ℕ) (i : Item) : Item :=
  { i with detail := Completion.noted i.detail hidden }

theorem noted_append (detail : Option String) (hidden more : List ℕ) :
    noted detail (hidden ++ more) = noted (noted detail hidden) more := by
  unfold noted
  rw [List.filter_append]
  cases hidden.filter (· ≠ 0) with
  | nil => rfl
  | cons n shown =>
    cases more.filter (· ≠ 0) with
    | nil => rw [List.append_nil]
    | cons m others =>
      dsimp only [List.cons_append]
      rw [← List.cons_append, List.foldl_append]
      rfl

theorem Item.noted_append (hidden more : List ℕ) (i : Item) :
    i.noted (hidden ++ more) = (i.noted hidden).noted more := by
  rw [noted, Completion.noted_append]
  rfl

/-- Where nothing was hidden, nothing is said. -/
theorem Item.noted_of_forall_eq_zero {hidden : List ℕ} (h : ∀ n ∈ hidden, n = 0) (i : Item) :
    i.noted hidden = i := by
  have hnone : hidden.filter (· ≠ 0) = [] := List.filter_eq_nil_iff.mpr fun n hn ↦ by simp [h n hn]
  rw [noted, Completion.noted, hnone]

theorem shown_eq_noted (i : Item) (n : ℕ) : (Group.mk i n).shown = i.noted [n] := by
  rw [Group.shown, Item.noted, noted]
  by_cases hn : n = 0
  · rw [if_pos hn, hn]
    rfl
  · rw [if_neg hn, List.filter_cons_of_pos (by simpa using hn)]
    rfl

theorem collapse_eq_noted (items : List Item) :
    collapse items = (firsts Item.label items).map fun i ↦
      i.noted [multiplicity Item.label items i.label - 1] := by
  rw [collapse_eq]
  exact List.map_congr_left fun i _ ↦ shown_eq_noted i _

/-! ## Rounds -/

/-- The items after rounds, each of which brings more of them and collapses the list. -/
def afterRounds (items : List Item) (rounds : List (List Item)) : List Item :=
  rounds.foldl (fun items more ↦ collapse (items ++ more)) items

/-- The lists that are collapsed in rounds. -/
def collapsedIn (items : List Item) : List (List Item) → List (List Item)
  | [] => []
  | more :: rounds => (items ++ more) :: collapsedIn (collapse (items ++ more)) rounds

/-- How many items are hidden under a label in each round: all but one of those with the label in
the list that is collapsed there. -/
def hiddenIn (items : List Item) (rounds : List (List Item)) (label : String) : List ℕ :=
  (collapsedIn items rounds).map fun l ↦ multiplicity Item.label l label - 1

theorem afterRounds_concat (items : List Item) (rounds : List (List Item)) (more : List Item) :
    afterRounds items (rounds ++ [more]) = collapse (afterRounds items rounds ++ more) := by
  rw [afterRounds, List.foldl_append, List.foldl_cons, List.foldl_nil]
  rfl

theorem collapsedIn_concat (items : List Item) (rounds : List (List Item)) (more : List Item) :
    collapsedIn items (rounds ++ [more])
      = collapsedIn items rounds ++ [afterRounds items rounds ++ more] := by
  induction rounds generalizing items with
  | nil => rfl
  | cons first rounds ih =>
    rw [List.cons_append, collapsedIn, collapsedIn, ih, List.cons_append]
    rfl

theorem hiddenIn_concat (items : List Item) (rounds : List (List Item)) (more : List Item)
    (label : String) : hiddenIn items (rounds ++ [more]) label = hiddenIn items rounds label
      ++ [multiplicity Item.label (afterRounds items rounds ++ more) label - 1] := by
  rw [hiddenIn, collapsedIn_concat, List.map_append]
  rfl

/-! ## Labels -/

theorem map_label_collapse (items : List Item) :
    (collapse items).map Item.label = (firsts Item.label items).map Item.label := by
  rw [collapse_eq_noted, List.map_map]
  rfl

theorem nodup_labels_collapse (items : List Item) : ((collapse items).map Item.label).Nodup :=
  map_label_collapse items ▸ nodup_map_firsts _ _

/-- No round loses a label. -/
theorem mem_labels_afterRounds {items : List Item} {rounds : List (List Item)} {label : String} :
    label ∈ (afterRounds items rounds).map Item.label
      ↔ label ∈ (items ++ rounds.flatten).map Item.label := by
  induction rounds using List.reverseRecOn with
  | nil => rw [List.flatten_nil, List.append_nil]; rfl
  | append_singleton rounds more ih =>
    rw [afterRounds_concat, map_label_collapse, mem_map_firsts, List.map_append, List.mem_append,
      ih, ← List.mem_append, ← List.map_append, List.flatten_concat, List.append_assoc]

/-- Nothing is hidden under a label that has not come yet. -/
theorem eq_zero_of_mem_hiddenIn {items : List Item} {rounds : List (List Item)} {label : String}
    (h : label ∉ (items ++ rounds.flatten).map Item.label) :
    ∀ n ∈ hiddenIn items rounds label, n = 0 := by
  induction rounds using List.reverseRecOn with
  | nil => exact nofun
  | append_singleton rounds more ih =>
    rw [List.flatten_concat, ← List.append_assoc, List.map_append, List.mem_append,
      not_or] at h
    have hnone : multiplicity Item.label (afterRounds items rounds ++ more) label = 0 := by
      rw [multiplicity_append]
      exact Nat.add_eq_zero_iff.mpr ⟨List.count_eq_zero.mpr (mt mem_labels_afterRounds.mp h.1),
        List.count_eq_zero.mpr h.2⟩
    rw [hiddenIn_concat, hnone]
    intro n hn
    rcases List.mem_append.mp hn with hn | hn
    · exact ih h.1 n hn
    · exact List.mem_singleton.mp hn

/-! ## What the rounds come to -/

section Details

variable {items : List Item} {rounds : List (List Item)} {last : List Item}

/-- One more round, if the details are known before it collapses the list. -/
theorem afterRounds_concat_eq
    (h : firsts Item.label (afterRounds items rounds ++ last)
      = (firsts Item.label (items ++ rounds.flatten ++ last)).map fun i ↦
        i.noted (hiddenIn items rounds i.label)) :
    afterRounds items (rounds ++ [last])
      = (firsts Item.label (items ++ (rounds ++ [last]).flatten)).map fun i ↦
        i.noted (hiddenIn items (rounds ++ [last]) i.label) := by
  rw [afterRounds_concat, collapse_eq_noted, h, List.map_map, List.flatten_concat,
    ← List.append_assoc]
  refine List.map_congr_left fun i _ ↦ ?_
  rw [hiddenIn_concat, Item.noted_append]
  rfl

/-- **The invariant of the rounds.** Whatever comes behind, the first items are those of all that
came, but for their details. -/
theorem firsts_afterRounds (items : List Item) (rounds : List (List Item)) (more : List Item) :
    firsts Item.label (afterRounds items rounds ++ more)
      = (firsts Item.label (items ++ rounds.flatten ++ more)).map fun i ↦
        i.noted (hiddenIn items rounds i.label) := by
  induction rounds using List.reverseRecOn generalizing more with
  | nil =>
    rw [List.flatten_nil, List.append_nil]
    exact (List.map_id _).symm
  | append_singleton rounds last ih =>
    have hkept : firsts Item.label (afterRounds items (rounds ++ [last]))
        = (firsts Item.label (items ++ (rounds ++ [last]).flatten)).map fun i ↦
          i.noted (hiddenIn items (rounds ++ [last]) i.label) := by
      rw [← afterRounds_concat_eq (ih last), afterRounds_concat]
      exact firsts_eq_self (nodup_labels_collapse _)
    rw [firsts_append, firsts_append, List.map_append, hkept]
    -- What comes behind with a new label was not there in any round, and keeps its detail.
    have hnew : ∀ i ∈ (firsts Item.label more).filter fun i ↦
        i.label ∉ (items ++ (rounds ++ [last]).flatten).map Item.label,
        i.noted (hiddenIn items (rounds ++ [last]) i.label) = i := by
      intro i hi
      have hlabel := of_decide_eq_true (List.mem_filter.mp hi).2
      exact Item.noted_of_forall_eq_zero (eq_zero_of_mem_hiddenIn hlabel) i
    rw [List.map_congr_left hnew, List.map_id']
    refine congrArg _ (List.filter_congr fun i _ ↦ ?_)
    rw [decide_eq_decide, mem_labels_afterRounds]

/-- The items after at least one round. -/
theorem afterRounds_eq (h : rounds ≠ []) :
    afterRounds items rounds = (firsts Item.label (items ++ rounds.flatten)).map fun i ↦
      i.noted (hiddenIn items rounds i.label) := by
  obtain ⟨init, last, rfl⟩ := (List.eq_nil_or_concat' rounds).resolve_left h
  exact afterRounds_concat_eq (firsts_afterRounds items init last)

theorem nodup_labels_afterRounds (h : rounds ≠ []) :
    ((afterRounds items rounds).map Item.label).Nodup := by
  obtain ⟨init, last, rfl⟩ := (List.eq_nil_or_concat' rounds).resolve_left h
  rw [afterRounds_concat]
  exact nodup_labels_collapse _

end Details

/-- A list in which no label comes twice is collapsed already. -/
theorem collapse_eq_self {items : List Item} (h : (items.map Item.label).Nodup) :
    collapse items = items := by
  rw [collapse_eq_noted, firsts_eq_self h]
  refine (List.map_congr_left fun i hi ↦ ?_).trans (List.map_id items)
  have hone : multiplicity Item.label items i.label = 1 := by
    rw [multiplicity_eq_one h, if_pos (List.mem_map_of_mem hi)]
  rw [hone]
  exact Item.noted_of_forall_eq_zero (by simp) i

/-! ## How many items are hidden -/

theorem length_collapsedIn (items : List Item) (rounds : List (List Item)) :
    (collapsedIn items rounds).length = rounds.length := by
  induction rounds generalizing items with
  | nil => rfl
  | cons more rounds ih => rw [collapsedIn, List.length_cons, ih, List.length_cons]

theorem getElem?_collapsedIn (items : List Item) {rounds : List (List Item)} {j : ℕ}
    (hj : j < rounds.length) : (collapsedIn items rounds)[j]?
      = some (afterRounds items (rounds.take j) ++ rounds[j]) := by
  induction rounds generalizing items j with
  | nil => cases hj
  | cons more rounds ih =>
    cases j with
    | zero => rfl
    | succ j =>
      rw [collapsedIn, List.getElem?_cons_succ, ih _ (Nat.lt_of_succ_lt_succ hj)]
      rfl

/-- In the first round the items with a label are those that come first and those of the round. In
every other one a single item stands for all that came before. -/
theorem getElem?_hiddenIn (items : List Item) {rounds : List (List Item)} {j : ℕ}
    (hj : j < rounds.length) (label : String) : (hiddenIn items rounds label)[j]?
      = some ((if j = 0 then multiplicity Item.label items label
          else if label ∈ (items ++ (rounds.take j).flatten).map Item.label then 1 else 0)
        + multiplicity Item.label rounds[j] label - 1) := by
  rw [hiddenIn, List.getElem?_map, getElem?_collapsedIn items hj, Option.map_some,
    multiplicity_append]
  by_cases hzero : j = 0
  · subst hzero
    rfl
  · have hnodup : ((afterRounds items (rounds.take j)).map Item.label).Nodup := by
      refine nodup_labels_afterRounds fun hnil ↦ ?_
      rcases List.take_eq_nil_iff.mp hnil with hj | hnil
      · exact hzero hj
      · rw [hnil] at hj
        cases hj
    rw [if_neg hzero, multiplicity_eq_one hnodup]
    simp only [mem_labels_afterRounds]

/-- **Rounds.** After at least one round the list holds the first item of each label of all that
came, in order. In its detail alone it differs from what it was: a suffix follows for each round
that hid items under its label, and tells how many. A round in which no label is repeated leaves the
items that are there as they are, and so does collapsing once more. -/
theorem collapsed_in_rounds (items : List Item) {rounds : List (List Item)} (h : rounds ≠ []) :
    afterRounds items rounds = (firsts Item.label (items ++ rounds.flatten)).map (fun i ↦
      { i with detail := noted i.detail (hiddenIn items rounds i.label) }) ∧
    (∀ label, (hiddenIn items rounds label).length = rounds.length) ∧
    (∀ (j : ℕ) (hj : j < rounds.length) (label : String), (hiddenIn items rounds label)[j]?
      = some ((if j = 0 then multiplicity Item.label items label
          else if label ∈ (items ++ (rounds.take j).flatten).map Item.label then 1 else 0)
        + multiplicity Item.label rounds[j] label - 1)) ∧
    (∀ more : List Item, (more.map Item.label).Nodup →
      (∀ i ∈ more, i.label ∉ (items ++ rounds.flatten).map Item.label) →
      afterRounds items (rounds ++ [more]) = afterRounds items rounds ++ more) ∧
    collapse (afterRounds items rounds) = afterRounds items rounds := by
  have hnodup : ((afterRounds items rounds).map Item.label).Nodup := nodup_labels_afterRounds h
  refine ⟨afterRounds_eq h, fun label ↦ ?_, fun j hj label ↦ getElem?_hiddenIn items hj label,
    fun more hmore hnew ↦ ?_, collapse_eq_self hnodup⟩
  · rw [hiddenIn, List.length_map, length_collapsedIn]
  · rw [afterRounds_concat]
    refine collapse_eq_self ?_
    rw [List.map_append]
    refine List.Nodup.append hnodup hmore fun label hold hlabel ↦ ?_
    obtain ⟨i, hi, rfl⟩ := List.mem_map.mp hlabel
    exact hnew i hi (mem_labels_afterRounds.mp hold)

/-- Overloads of which the first has no detail. -/
def withoutDetail : List Item := [{ label := "Add" }, { label := "Sub", detail := some "Sub()" },
  { label := "Add", detail := some "Add(int)" }]

/-- Rounds of which the second brings nothing. -/
def threeRounds : List (List Item) :=
  [[{ label := "Add" }, { label := "Mul", detail := some "" }], [],
    [{ label := "Mul" }, { label := "Add" }, { label := "Mul" }]]

theorem collapsed_in_threeRounds : threeRounds ≠ [] ∧
    (afterRounds withoutDetail threeRounds).map (fun i ↦ (i.label, i.detail))
      = [("Add", some "None (+ 2 overload(s)) (+ 1 overload(s))"), ("Sub", some "Sub()"),
          ("Mul", some " (+ 2 overload(s))")] ∧
    hiddenIn withoutDetail threeRounds "Add" = [2, 0, 1] ∧
    collapse (afterRounds withoutDetail threeRounds) = afterRounds withoutDetail threeRounds := by
  have hrounds : threeRounds ≠ [] := by decide
  obtain ⟨hafter, -, -, -, hagain⟩ := collapsed_in_rounds withoutDetail hrounds
  refine ⟨hrounds, ?_, by decide, hagain⟩
  rw [hafter]
  decide

end CompletionServer.Completion
