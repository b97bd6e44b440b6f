import CompletionServer.Completion.Handler
import CompletionServer.Proofs.Firsts

/-!
# Joined lists

What becomes of a request that goes to several handlers, in any world. The handlers that answer
requests for completion are asked in order, each of them once; those that can handle the request are
asked for their lists, each of them once, and no others are. The joined list holds the first item of
each label, over all these lists as if they were one.

The labels that were seen are never kept apart from the items: `addItem` looks at the items it kept,
and `foldl_addItem` says that this comes to the same as looking at all items before.
-/

namespace CompletionServer.Completion

/-! ## Keeping items -/

theorem addItem_firsts (items : List Item) (a : Item) :
    addItem (firsts Item.label items) a = firsts Item.label (items ++ [a]) := by
  rw [firsts_concat, addItem]
  have hany : ((firsts Item.label items).any fun k ↦ k.label == a.label) = true
      ↔ a.label ∈ items.map Item.label := by
    rw [← mem_map_firsts, List.any_eq_true, List.mem_map]
    simp only [beq_iff_eq]
  by_cases h : a.label ∈ items.map Item.label
  · rw [if_pos h, if_pos (hany.mpr h)]
  · rw [if_neg h, if_neg fun hkept ↦ h (hany.mp hkept)]

theorem foldl_addItem (items : List Item) : items.foldl addItem [] = firsts Item.label items := by
  induction items using List.reverseRecOn with
  | nil => rfl
  | append_singleton items a ih =>
    rw [List.foldl_append, List.foldl_cons, List.foldl_nil, ih, addItem_firsts]

/-! ## Asking handlers -/

namespace Handlers

variable {ρ : Type} {m : Type → Type}

/-- The handlers that answer requests for completion, as the joined list is made from them. -/
theorem ofKind_completing (hs : Handlers ρ m) :
    hs.ofKind (some true) = (hs.filter fun e ↦ e.2.completes).map Prod.snd := by
  rw [ofKind, List.filter_map]
  congr 1
  refine List.filter_congr fun e _ ↦ ?_
  simp

variable [Monad m]

/-- Asks one handler: its list under its key, if it can handle the request. -/
def ask (request : ρ) (e : String × Handler ρ m) : m (Option (String × ItemList)) := do
  if ← e.2.canHandle request then return some (e.1, ← e.2.complete request) else return none

/-- The lists of all that can handle a request, under their keys. -/
def answers (hs : Handlers ρ m) (request : ρ) : m (List (String × ItemList)) :=
  (hs.filter fun e ↦ e.2.completes).filterMapM (ask request)

/-- The first item of each label, over several lists. -/
def joined (answers : List (String × ItemList)) : ItemList where
  items := firsts Item.label (answers.flatMap fun a ↦ a.2.items)

/-- The handler under a key, in a world with a record of the keys whose handlers were asked for
their lists. -/
def record (e : String × Handler ρ m) : String × Handler ρ (StateT (List String) m) :=
  (e.1, {
    name := e.2.name
    completes := e.2.completes
    canHandle := fun request ↦ StateT.lift (e.2.canHandle request)
    complete := fun request ↦ do
      modify (· ++ [e.1])
      StateT.lift (e.2.complete request) })

/-- All handlers with the record. -/
def recorded (hs : Handlers ρ m) : Handlers ρ (StateT (List String) m) := hs.map record

variable [LawfulMonad m]

/-- One handler in the fold over all of them. -/
theorem addFrom_eq (request : ρ) (kept : List Item) (e : String × Handler ρ m) :
    addFrom request kept e.2
      = (fun answer ↦ (answer.toList.flatMap fun a ↦ a.2.items).foldl addItem kept)
          <$> ask request e := by
  rw [addFrom, ask, map_bind]
  refine bind_congr fun handles ↦ ?_
  cases handles
  · simp
  · simp

theorem foldlM_addFrom (request : ρ) (es : Handlers ρ m) (kept : List Item) :
    (es.map Prod.snd).foldlM (addFrom request) kept
      = (fun answers ↦ (answers.flatMap fun a ↦ a.2.items).foldl addItem kept)
          <$> es.filterMapM (ask request) := by
  induction es generalizing kept with
  | nil => simp
  | cons e es ih =>
    rw [List.map_cons, List.foldlM_cons, addFrom_eq, bind_map_left, List.filterMapM_cons, map_bind]
    refine bind_congr fun answer ↦ ?_
    cases answer with
    | none => rw [ih]; simp
    | some a => rw [ih]; simp

/-- The joined list is made of the answers and of nothing else, and making it has no effects but
theirs. -/
theorem complete_eq_joined (hs : Handlers ρ m) (request : ρ) :
    hs.complete request = joined <$> hs.answers request := by
  rw [complete, ofKind_completing, foldlM_addFrom, answers, bind_map_left, map_eq_pure_bind]
  simp only [foldl_addItem, joined]

/-! ## The record -/

theorem run_ask_record (request : ρ) (e : String × Handler ρ m) (past : List String) :
    (ask request (record e)).run past
      = (fun answer ↦ (answer, past ++ answer.toList.map Prod.fst)) <$> ask request e := by
  simp only [ask, record, StateT.run_bind, StateT.run_lift, bind_assoc, pure_bind, map_bind]
  refine bind_congr fun handles ↦ ?_
  cases handles
  · simp
  · simp

theorem run_filterMapM_record (request : ρ) (es : Handlers ρ m) (past : List String) :
    ((es.map record).filterMapM (ask request)).run past
      = (fun answers ↦ (answers, past ++ answers.map Prod.fst))
          <$> es.filterMapM (ask request) := by
  induction es generalizing past with
  | nil => simp
  | cons e es ih =>
    rw [List.map_cons, List.filterMapM_cons, List.filterMapM_cons, StateT.run_bind, run_ask_record,
      bind_map_left, map_bind]
    refine bind_congr fun answer ↦ ?_
    cases answer with
    | none => rw [ih]; simp
    | some a => simp [ih]

/-- A handler is in the record as often as it answered. -/
theorem run_answers_recorded (hs : Handlers ρ m) (request : ρ) :
    ((recorded hs).answers request).run []
      = (fun answers ↦ (answers, answers.map Prod.fst)) <$> hs.answers request := by
  have hfilter : (recorded hs).filter (fun e ↦ e.2.completes)
      = (hs.filter fun e ↦ e.2.completes).map record := by
    rw [recorded, List.filter_map]
    rfl
  rw [answers, hfilter, run_filterMapM_record, answers]
  simp only [List.nil_append]

/-- Where handlers say at once whether they can handle the request and what their lists are. -/
theorem filterMapM_ask_eq_pure {es : Handlers ρ m} {request : ρ} {handles : String → Bool}
    {list : String → ItemList}
    (hcan : ∀ e ∈ es, e.2.canHandle request = pure (handles e.1))
    (hlist : ∀ e ∈ es, handles e.1 = true → e.2.complete request = pure (list e.1)) :
    es.filterMapM (ask request)
      = pure ((es.filter fun e ↦ handles e.1).map fun e ↦ (e.1, list e.1)) := by
  induction es with
  | nil => simp
  | cons e es ih =>
    have htail := ih (fun d hd ↦ hcan d (List.mem_cons_of_mem e hd))
      fun d hd ↦ hlist d (List.mem_cons_of_mem e hd)
    rw [List.filterMapM_cons, ask, hcan e List.mem_cons_self, pure_bind]
    cases hhandles : handles e.1 with
    | true => simp [hlist e List.mem_cons_self hhandles, htail, hhandles]
    | false => simp [htail, hhandles]

/-- The handlers that answer requests for completion and can handle one. -/
def serving (hs : Handlers ρ m) (handles : String → Bool) : Handlers ρ m :=
  (hs.filter fun e ↦ e.2.completes).filter fun e ↦ handles e.1

theorem answers_eq_pure {hs : Handlers ρ m} {request : ρ} {handles : String → Bool}
    {list : String → ItemList}
    (hcan : ∀ e ∈ hs, e.2.completes = true → e.2.canHandle request = pure (handles e.1))
    (hlist : ∀ e ∈ hs, e.2.completes = true → handles e.1 = true →
      e.2.complete request = pure (list e.1)) :
    hs.answers request = pure ((hs.serving handles).map fun e ↦ (e.1, list e.1)) := by
  refine filterMapM_ask_eq_pure (fun e he ↦ ?_) fun e he hhandles ↦ ?_
  · exact hcan e (List.mem_filter.mp he).1 (List.mem_filter.mp he).2
  · exact hlist e (List.mem_filter.mp he).1 (List.mem_filter.mp he).2 hhandles

theorem mem_labels_joined {answers : List (String × ItemList)} {label : String} :
    label ∈ (joined answers).items.map Item.label
      ↔ ∃ a ∈ answers, label ∈ a.2.items.map Item.label := by
  rw [joined, mem_map_firsts, List.map_flatMap, List.mem_flatMap]

/-! ## What a request leads to -/

/-- **The first item of each label.** In any world a joined list is made of the lists of the
handlers that serve the request, in order, and holds the first item of each label over all of them;
the record shows that these handlers are asked for their lists once each and no others are. Where
it is settled which handlers serve the request and what their lists are, nothing else has an
influence: what the others would have answered is not even looked at. -/
theorem complete_first_of_each_label (hs : Handlers ρ m) (request : ρ) :
    hs.complete request = joined <$> hs.answers request ∧
    ((recorded hs).complete request).run []
      = (fun answers ↦ (joined answers, answers.map Prod.fst)) <$> hs.answers request ∧
    (∀ answers : List (String × ItemList),
      ((joined answers).items.map Item.label).Nodup ∧
      ∀ label, label ∈ (joined answers).items.map Item.label
        ↔ ∃ a ∈ answers, label ∈ a.2.items.map Item.label) ∧
    ∀ (handles : String → Bool) (list : String → ItemList),
      (∀ e ∈ hs, e.2.completes = true → e.2.canHandle request = pure (handles e.1)) →
      (∀ e ∈ hs, e.2.completes = true → handles e.1 = true →
        e.2.complete request = pure (list e.1)) →
      ((recorded hs).complete request).run []
        = pure (⟨false, firsts Item.label
              ((hs.serving handles).flatMap fun e ↦ (list e.1).items)⟩,
            (hs.serving handles).map Prod.fst) ∧
      ((hs.map Prod.fst).Nodup → ((hs.serving handles).map Prod.fst).Nodup) := by
  have hrecorded : ((recorded hs).complete request).run []
      = (fun answers ↦ (joined answers, answers.map Prod.fst)) <$> hs.answers request := by
    rw [complete_eq_joined, StateT.run_map, run_answers_recorded, Functor.map_map]
  refine ⟨complete_eq_joined hs request, hrecorded, fun answers ↦ ⟨nodup_map_firsts _ _, ?_⟩, ?_⟩
  · exact fun label ↦ mem_labels_joined
  · intro handles list hcan hlist
    refine ⟨?_, fun hkeys ↦ ?_⟩
    · rw [hrecorded, answers_eq_pure hcan hlist, map_pure, joined, List.flatMap_map, List.map_map]
      rfl
    · exact hkeys.sublist ((List.filter_sublist.trans List.filter_sublist).map Prod.fst)

/-- A list of two items under one label, one that serves no document, one that is never asked for
completion, and a list that brings a known label and a new one. -/
def fourHandlers : Handlers String Id :=
  [("a", ⟨"a", true, fun _ ↦ true, fun _ ↦
      ⟨false, [{ label := "x" }, { label := "x", detail := some "again" }]⟩⟩),
    ("b", ⟨"b", true, fun _ ↦ false, fun _ ↦ ⟨false, [{ label := "hidden" }]⟩⟩),
    ("c", ⟨"c", false, fun _ ↦ true, fun _ ↦ ⟨false, [{ label := "other" }]⟩⟩),
    ("d", ⟨"d", true, fun _ ↦ true, fun _ ↦
      ⟨false, [{ label := "x", detail := some "late" }, { label := "y" }]⟩⟩)]

/-- The lists of those that serve a request. -/
def fourLists (key : String) : ItemList :=
  if key = "a" then ⟨false, [{ label := "x" }, { label := "x", detail := some "again" }]⟩
  else ⟨false, [{ label := "x", detail := some "late" }, { label := "y" }]⟩

theorem complete_fourHandlers :
    ((recorded fourHandlers).complete "file:///a.cs").run []
      = pure (⟨false, [{ label := "x" }, { label := "y" }]⟩, ["a", "d"]) := by
  have hcan : ∀ e ∈ fourHandlers, e.2.completes = true →
      e.2.canHandle "file:///a.cs" = pure (e.1 != "b") := by
    intro e he hcompletes
    simp only [fourHandlers, List.mem_cons, List.not_mem_nil, or_false] at he
    rcases he with rfl | rfl | rfl | rfl
    · rfl
    · rfl
    · cases hcompletes
    · rfl
  have hlist : ∀ e ∈ fourHandlers, e.2.completes = true → (e.1 != "b") = true →
      e.2.complete "file:///a.cs" = pure (fourLists e.1) := by
    intro e he hcompletes hhandles
    simp only [fourHandlers, List.mem_cons, List.not_mem_nil, or_false] at he
    rcases he with rfl | rfl | rfl | rfl
    · rfl
    · cases hhandles
    · cases hcompletes
    · rfl
  exact ((complete_first_of_each_label fourHandlers "file:///a.cs").2.2.2 (· != "b") fourLists
    hcan hlist).1

end Handlers

end CompletionServer.Completion
