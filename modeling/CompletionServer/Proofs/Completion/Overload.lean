import CompletionServer.Completion.Source
import CompletionServer.Proofs.Firsts
import Std.Data.String.ToNat

/-!
# One item for each text

What a client is shown of the candidates of a source: the first candidate of each text, in the order
in which the texts first came, with the number of the others in its detail. The others count, and
that is all they do.

The groups that `collapse` builds hold just that at every moment, `groups_eq`: an entry for the
first item of each label, and how often the label came again.
-/

namespace CompletionServer.Completion

/-! ## The groups of a list -/

/-- The group of an item among all items that share its label. -/
def groupOf (items : List Item) (i : Item) : String × Group :=
  (i.label, ⟨i, multiplicity Item.label items i.label - 1⟩)

theorem map_fst_groupOf (items kept : List Item) :
    (kept.map (groupOf items)).map Prod.fst = kept.map Item.label := by
  rw [List.map_map]; rfl

theorem groupOf_concat_of_ne {items : List Item} {a i : Item} (h : a.label ≠ i.label) :
    groupOf (items ++ [a]) i = groupOf items i := by
  rw [groupOf, groupOf, multiplicity_concat, if_neg h, Nat.add_zero]

/-- An item that comes again is one more in the group of the first with its label. -/
theorem groupOf_concat_of_eq {items : List Item} {a i : Item} (h : a.label = i.label)
    (hi : i ∈ items) :
    groupOf (items ++ [a]) i
      = (i.label, ⟨i, multiplicity Item.label items i.label - 1 + 1⟩) := by
  have hpos : 0 < multiplicity Item.label items i.label :=
    multiplicity_pos.mpr (List.mem_map_of_mem hi)
  rw [groupOf, multiplicity_concat, if_pos h, Nat.add_sub_cancel, Nat.sub_add_cancel hpos]

theorem add_of_new {items : List Item} {a : Item} (h : a.label ∉ items.map Item.label) :
    Group.add ((firsts Item.label items).map (groupOf items)) a
      = (firsts Item.label (items ++ [a])).map (groupOf (items ++ [a])) := by
  have hkeys : a.label ∉ ((firsts Item.label items).map (groupOf items)).map Prod.fst := by
    rwa [map_fst_groupOf, mem_map_firsts]
  have hold : (firsts Item.label items).map (groupOf (items ++ [a]))
      = (firsts Item.label items).map (groupOf items) := by
    refine List.map_congr_left fun i hi ↦ groupOf_concat_of_ne fun heq ↦ h ?_
    exact heq ▸ List.mem_map_of_mem (mem_of_mem_firsts hi)
  have hnew : groupOf (items ++ [a]) a = (a.label, ⟨a, 0⟩) := by
    have hzero : multiplicity Item.label items a.label = 0 :=
      Nat.eq_zero_of_not_pos fun hpos ↦ h (multiplicity_pos.mp hpos)
    rw [groupOf, multiplicity_concat, if_pos rfl, hzero]
  rw [Group.add, Keyed.find?_eq_none_iff.mpr hkeys, Keyed.put_of_notMem _ hkeys, firsts_concat,
    if_neg h, List.map_append, hold, List.map_singleton, hnew]

theorem add_of_known {items : List Item} {a : Item} (h : a.label ∈ items.map Item.label) :
    Group.add ((firsts Item.label items).map (groupOf items)) a
      = (firsts Item.label (items ++ [a])).map (groupOf (items ++ [a])) := by
  obtain ⟨f, hf, hlabel⟩ := List.mem_map.mp (mem_map_firsts.mpr h)
  have hnodup : (((firsts Item.label items).map (groupOf items)).map Prod.fst).Nodup := by
    rw [map_fst_groupOf]
    exact nodup_map_firsts _ _
  have hkeys : a.label ∈ ((firsts Item.label items).map (groupOf items)).map Prod.fst := by
    rwa [map_fst_groupOf, mem_map_firsts]
  have hentry : (a.label, ⟨f, multiplicity Item.label items a.label - 1⟩)
      ∈ (firsts Item.label items).map (groupOf items) :=
    List.mem_map.mpr ⟨f, hf, by rw [groupOf, hlabel]⟩
  rw [Group.add, Keyed.find?_eq_some_of_mem hentry hnodup, Keyed.put_of_mem _ hkeys hnodup,
    firsts_concat, if_pos h, List.map_map]
  refine List.map_congr_left fun i hi ↦ ?_
  by_cases heq : i.label = a.label
  · -- the labels of kept items are distinct, so this is the first one with the label
    have hif : i = f :=
      List.inj_on_of_nodup_map (nodup_map_firsts _ _) hi hf (heq.trans hlabel.symm)
    subst hif
    rw [groupOf_concat_of_eq heq.symm (mem_of_mem_firsts hi), Function.comp_apply, groupOf,
      if_pos heq, heq]
  · rw [groupOf_concat_of_ne (Ne.symm heq), Function.comp_apply, groupOf, if_neg heq]

/-- **The invariant of the groups.** -/
theorem groups_eq (items : List Item) :
    groups items = (firsts Item.label items).map (groupOf items) := by
  induction items using List.reverseRecOn with
  | nil => rfl
  | append_singleton items a ih =>
    rw [groups, List.foldl_append, List.foldl_cons, List.foldl_nil, ← groups, ih]
    by_cases h : a.label ∈ items.map Item.label
    · exact add_of_known h
    · exact add_of_new h

theorem collapse_eq (items : List Item) :
    collapse items = (firsts Item.label items).map fun i ↦ (groupOf items i).2.shown := by
  rw [collapse, groups_eq, List.map_map]; rfl

/-! ## The list for an answer -/

/-- What the detail of a candidate ends with if `count` candidates share its text. -/
def overloadNote (count : ℕ) : String :=
  if count ≤ 1 then "" else s!" (+ {count - 1} overload(s))"

/-- The item for a candidate that stands for `count` candidates. -/
def Item.ofOverloads (c : Candidate) (count : ℕ) : Item :=
  { Item.ofCandidate c with detail := some (Item.detailOf c ++ overloadNote count) }

/-- A note tells how many candidates there are. -/
theorem overloadNote_injective {m n : ℕ} (hm : 1 ≤ m) (hn : 1 ≤ n)
    (h : overloadNote m = overloadNote n) : m = n := by
  have hlong : ∀ k : ℕ, " (+ " ++ toString k ++ " overload(s))" ≠ "" := by
    intro k hk
    have := congrArg String.length hk
    simp at this
  rw [overloadNote, overloadNote] at h
  split at h <;> split at h
  · omega
  · exact absurd h.symm (hlong _)
  · exact absurd h (hlong _)
  · have hrepr : Nat.repr (m - 1) = Nat.repr (n - 1) := by
      have hlist := congrArg String.toList h
      simp only [toString, String.toList_append, List.append_assoc] at hlist
      have := List.append_cancel_right (List.append_cancel_left hlist)
      exact String.toList_inj.mp this
    have := Nat.repr_injective hrepr
    omega

theorem shown_groupOf (candidates : List Candidate) (c : Candidate) :
    (groupOf (candidates.map Item.ofCandidate) (Item.ofCandidate c)).2.shown
      = Item.ofOverloads c
          (multiplicity Candidate.completionText candidates c.completionText) := by
  have hcount : multiplicity Item.label (candidates.map Item.ofCandidate) c.completionText
      = multiplicity Candidate.completionText candidates c.completionText := by
    rw [multiplicity, multiplicity, List.map_map]; rfl
  rw [groupOf, Item.label_ofCandidate, hcount, Item.ofOverloads, overloadNote]
  generalize multiplicity Candidate.completionText candidates c.completionText = count
  by_cases h : count ≤ 1
  · rw [Group.shown, if_pos (Nat.sub_eq_zero_of_le h), if_pos h, String.append_empty]; rfl
  · rw [Group.shown, if_neg (Nat.sub_ne_zero_of_lt (Nat.lt_of_not_le h)), if_neg h]; rfl

theorem items_listOf (candidates : List Candidate) :
    (listOf candidates).items = (firsts Candidate.completionText candidates).map fun c ↦
      Item.ofOverloads c
        (multiplicity Candidate.completionText candidates c.completionText) := by
  rw [listOf, collapse_eq, firsts_map, List.map_map]
  exact List.map_congr_left fun c _ ↦ shown_groupOf candidates c

theorem map_label_items_listOf (candidates : List Candidate) :
    (listOf candidates).items.map Item.label
      = (firsts Candidate.completionText candidates).map Candidate.completionText := by
  rw [items_listOf, List.map_map]; rfl

/-- Whatever is read off the details as the number of hidden candidates, nothing is lost. -/
theorem sum_shown_eq_length (candidates : List Candidate) (hidden : Item → ℕ)
    (hread : ∀ c ∈ firsts Candidate.completionText candidates, ∀ i ∈ (listOf candidates).items,
      i.label = c.completionText →
        i.detail = some (Item.detailOf c ++ overloadNote (1 + hidden i))) :
    ((listOf candidates).items.map fun i ↦ 1 + hidden i).sum = candidates.length := by
  rw [← sum_multiplicity_firsts Candidate.completionText candidates, items_listOf, List.map_map]
  congr 1
  refine List.map_congr_left fun c hc ↦ ?_
  have hitem : Item.ofOverloads c
      (multiplicity Candidate.completionText candidates c.completionText)
      ∈ (listOf candidates).items := by
    rw [items_listOf]
    exact List.mem_map_of_mem hc
  have hnote := hread c hc _ hitem rfl
  have hpos : 1 ≤ multiplicity Candidate.completionText candidates c.completionText :=
    multiplicity_pos.mpr (List.mem_map_of_mem (mem_of_mem_firsts hc))
  rw [Item.ofOverloads, Option.some_inj, String.append_right_inj] at hnote
  exact (overloadNote_injective hpos (Nat.le_add_right 1 _) hnote).symm

/-- Of a candidate that is not the first with its text, nothing but that text matters. -/
theorem listOf_congr {candidates others : List Candidate}
    (htexts : others.map Candidate.completionText = candidates.map Candidate.completionText)
    (hfirsts : firsts Candidate.completionText others
      = firsts Candidate.completionText candidates) :
    listOf others = listOf candidates := by
  have hitems : (listOf others).items = (listOf candidates).items := by
    rw [items_listOf, items_listOf, hfirsts]
    refine List.map_congr_left fun c _ ↦ ?_
    rw [multiplicity, multiplicity, htexts]
  rw [listOf, listOf, ItemList.mk.injEq]
  exact ⟨rfl, hitems⟩

/-! ## What a source's answer becomes -/

/-- **One item for each text.** Whatever a source answers, in whatever world it does so, becomes a
complete list: the first candidate of each text, in order, as its item with a note of the others in
its detail. What the details show adds up to the number of candidates, and what is hidden leaves no
other trace. -/
theorem complete_one_item_per_text {ε : Type} {m : Type → Type} [Monad m] [LawfulMonad m]
    (source : Source (ExceptT ε m)) (tooLarge : ε) (q : Query) (snippetSupport : Option Bool)
    {request : Request}
    (hrequest : Request.ofQuery? source.positionBase (q.withSupport snippetSupport)
      = some request) :
    source.complete tooLarge q snippetSupport = listOf <$> source.answer request ∧
    ∀ candidates : List Candidate,
      (listOf candidates).isIncomplete = false ∧
      (listOf candidates).items = (firsts Candidate.completionText candidates).map (fun c ↦
        { Item.ofCandidate c with
          detail := some (Item.detailOf c ++ overloadNote
            (multiplicity Candidate.completionText candidates c.completionText)) }) ∧
      ((listOf candidates).items.map Item.label).Nodup ∧
      (∀ text, text ∈ (listOf candidates).items.map Item.label
        ↔ text ∈ candidates.map Candidate.completionText) ∧
      (∀ hidden : Item → ℕ,
        (∀ c ∈ firsts Candidate.completionText candidates, ∀ i ∈ (listOf candidates).items,
          i.label = c.completionText →
            i.detail = some (Item.detailOf c ++ overloadNote (1 + hidden i))) →
        ((listOf candidates).items.map fun i ↦ 1 + hidden i).sum = candidates.length) ∧
      (∀ others : List Candidate,
        others.map Candidate.completionText = candidates.map Candidate.completionText →
        firsts Candidate.completionText others = firsts Candidate.completionText candidates →
        listOf others = listOf candidates) := by
  refine ⟨?_, fun candidates ↦ ⟨rfl, items_listOf candidates, ?_, ?_, ?_, ?_⟩⟩
  · rw [Source.complete, hrequest, map_eq_pure_bind]
  · rw [map_label_items_listOf]
    exact nodup_map_firsts _ _
  · intro text
    rw [map_label_items_listOf, mem_map_firsts]
  · exact sum_shown_eq_length candidates
  · exact fun others ↦ listOf_congr

/-- Two overloads of one method, with another method between them. -/
def interleaved : List Candidate :=
  [⟨"Add", "Add(int item)", "void", "", "Method", "Add($1)"⟩,
    ⟨"Sub", "Sub()", "", "", "Method", ""⟩,
    ⟨"Add", "Add(string item)", "bool", "", "Method", ""⟩]

/-- A source that counts from one and always answers with these. -/
def interleavedSource : Source (ExceptT Unit Id) where
  name := "calculator"
  positionBase := .int 1
  answer r := pure (fixedAnswer interleaved r)

theorem complete_interleavedSource :
    Request.ofQuery? (.int 1) ⟨"/a.cs", .int 3, .int 4, true, none⟩
      = some ⟨"/a.cs", .int 4, .int 5, true, true, true, true, none⟩ ∧
    interleavedSource.complete () ⟨"/a.cs", .int 3, .int 4, false, none⟩ (some true)
      = pure (listOf interleaved) ∧
    (listOf interleaved).items.map (fun i ↦ (i.label, i.detail))
      = [("Add", some "void Add(int item) (+ 1 overload(s))"), ("Sub", some "Sub()")] := by
  have hrequest : Request.ofQuery? (.int 1) ⟨"/a.cs", .int 3, .int 4, true, none⟩
      = some ⟨"/a.cs", .int 4, .int 5, true, true, true, true, none⟩ := rfl
  have h := complete_one_item_per_text interleavedSource () ⟨"/a.cs", .int 3, .int 4, false, none⟩
    (some true) hrequest
  refine ⟨hrequest, h.1, ?_⟩
  rw [(h.2 interleaved).2.1]
  decide

end CompletionServer.Completion
