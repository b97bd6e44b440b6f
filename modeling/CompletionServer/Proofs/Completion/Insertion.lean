import CompletionServer.Proofs.Completion.Handler
import CompletionServer.Proofs.Completion.Overload

/-!
# Lists without snippets

A client that does not support snippets is given the items that others are given, each of them to be
inserted as its label, `Item.asPlain`. To take the snippets out of the candidates comes to the same
as to take them out of the items: which candidates are overloads of each other, which of them is
shown and what is noted in its detail does not depend on snippets, and neither does which items are
kept when lists are joined.
-/

namespace CompletionServer.Completion

/-! ## Items and lists -/

/-- The item with its label as the text to be inserted, as it is. -/
def Item.asPlain (i : Item) : Item :=
  { i with insertText := some i.label, insertFormat := some .plain }

/-- The list with all items like this. -/
def ItemList.asPlain (l : ItemList) : ItemList := { l with items := l.items.map Item.asPlain }

theorem Item.label_comp_asPlain : Item.label ∘ Item.asPlain = Item.label := rfl

theorem ItemList.asPlain_asPlain (l : ItemList) : l.asPlain.asPlain = l.asPlain := by
  have hitems : (l.items.map Item.asPlain).map Item.asPlain = l.items.map Item.asPlain := by
    rw [List.map_map]
    rfl
  rw [asPlain, asPlain, hitems]

/-! ## From candidates -/

theorem Item.ofOverloads_withoutSnippet (c : Candidate) (count : ℕ) :
    Item.ofOverloads c.withoutSnippet count = (Item.ofOverloads c count).asPlain := rfl

theorem listOf_withoutSnippet (candidates : List Candidate) :
    listOf (candidates.map Candidate.withoutSnippet) = (listOf candidates).asPlain := by
  have htexts : (candidates.map Candidate.withoutSnippet).map Candidate.completionText
      = candidates.map Candidate.completionText := by
    rw [List.map_map]
    rfl
  have hitems : (listOf (candidates.map Candidate.withoutSnippet)).items
      = (listOf candidates).items.map Item.asPlain := by
    rw [items_listOf, items_listOf, firsts_map, List.map_map, List.map_map]
    refine List.map_congr_left fun c _ ↦ ?_
    rw [Function.comp_apply, Function.comp_apply, Item.ofOverloads_withoutSnippet, multiplicity,
      multiplicity, htexts]
    rfl
  rw [ItemList.asPlain, ← hitems]
  rfl

/-- Fixed candidates for a client that does not want snippets. -/
theorem listOf_fixedAnswer (candidates : List Candidate) (r : Request) :
    listOf (fixedAnswer candidates { r with wantSnippet := false })
      = (listOf (fixedAnswer candidates r)).asPlain := by
  have hwithout : fixedAnswer candidates { r with wantSnippet := false }
      = candidates.map Candidate.withoutSnippet := rfl
  rw [hwithout, listOf_withoutSnippet, fixedAnswer]
  split
  · rfl
  · rw [listOf_withoutSnippet, ItemList.asPlain_asPlain]

/-! ## From sources -/

/-- The request of a query for a client that does not support snippets. -/
theorem Request.ofQuery?_withSupport_false (base : Numeral) (q : Query) (support : Option Bool) :
    Request.ofQuery? base (q.withSupport (some false))
      = (Request.ofQuery? base (q.withSupport support)).map fun r ↦
          { r with wantSnippet := false } := by
  have hline (b : Option Bool) : (q.withSupport b).line = q.line := rfl
  have hcolumn (b : Option Bool) : (q.withSupport b).column = q.column := rfl
  rw [Request.ofQuery?, Request.ofQuery?, hline, hline, hcolumn, hcolumn]
  cases q.line.add? base with
  | none => rfl
  | some line =>
    cases q.column.add? base with
    | none => rfl
    | some column => rfl

/-- A source of fixed candidates gives a client that does not support snippets the list that it
gives to others, without snippets. -/
theorem Source.complete_fixed {ε : Type} {m : Type → Type} [Monad m] [LawfulMonad m]
    {source : Source (ExceptT ε m)} {candidates : List Candidate}
    (hanswer : ∀ r, source.answer r = pure (fixedAnswer candidates r)) (tooLarge : ε) (q : Query)
    (support : Option Bool) :
    source.complete tooLarge q (some false)
      = ItemList.asPlain <$> source.complete tooLarge q support := by
  rw [Source.complete, Source.complete, Request.ofQuery?_withSupport_false _ _ support]
  cases Request.ofQuery? source.positionBase (q.withSupport support) with
  | none => exact (ExceptT.map_throw _ tooLarge).symm
  | some r =>
    dsimp only [Option.map_some]
    rw [hanswer, hanswer, pure_bind, pure_bind, map_pure, listOf_fixedAnswer]

/-! ## Joined lists -/

/-- The handler with lists without snippets. -/
def Handler.plain {ρ : Type} {m : Type → Type} [Monad m] (h : Handler ρ m) : Handler ρ m :=
  { h with complete := fun request ↦ ItemList.asPlain <$> h.complete request }

namespace Handlers

/-- An answer without snippets. -/
def plainAnswer (a : String × ItemList) : String × ItemList := (a.1, a.2.asPlain)

theorem joined_plainAnswer (answers : List (String × ItemList)) :
    joined (answers.map plainAnswer) = (joined answers).asPlain := by
  have hitems : (answers.map plainAnswer).flatMap (fun a ↦ a.2.items)
      = (answers.flatMap fun a ↦ a.2.items).map Item.asPlain := by
    rw [List.flatMap_map, List.map_flatMap]
    rfl
  rw [joined, hitems, firsts_map, Item.label_comp_asPlain]
  rfl

variable {ρ : Type} {m : Type → Type} [Monad m]

/-- All handlers with lists without snippets. -/
def plain (hs : Handlers ρ m) : Handlers ρ m := hs.map fun e ↦ (e.1, e.2.plain)

variable [LawfulMonad m]

theorem ask_plain (request : ρ) (e : String × Handler ρ m) :
    ask request (e.1, e.2.plain) = Option.map plainAnswer <$> ask request e := by
  rw [ask, ask, map_bind]
  refine bind_congr fun handles ↦ ?_
  cases handles
  · simp
  · simp [Handler.plain, plainAnswer]

theorem filterMapM_ask_plain (request : ρ) (es : Handlers ρ m) :
    es.plain.filterMapM (ask request)
      = List.map plainAnswer <$> es.filterMapM (ask request) := by
  induction es with
  | nil => simp [plain]
  | cons e es ih =>
    rw [plain, List.map_cons, ← plain, List.filterMapM_cons, List.filterMapM_cons, ask_plain,
      bind_map_left, map_bind]
    refine bind_congr fun answer ↦ ?_
    cases answer with
    | none => simp [ih]
    | some a => simp [ih]

theorem complete_plain (hs : Handlers ρ m) (request : ρ) :
    hs.plain.complete request = ItemList.asPlain <$> hs.complete request := by
  have hfilter : hs.plain.filter (fun e ↦ e.2.completes)
      = Handlers.plain (hs.filter fun e ↦ e.2.completes) := by
    rw [plain, List.filter_map]
    rfl
  rw [complete_eq_joined, complete_eq_joined, answers, answers, hfilter, filterMapM_ask_plain,
    Functor.map_map, Functor.map_map]
  simp only [joined_plainAnswer]

end Handlers

end CompletionServer.Completion
