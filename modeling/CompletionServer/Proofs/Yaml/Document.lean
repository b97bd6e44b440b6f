import CompletionServer.Proofs.Maintains
import CompletionServer.Yaml.Document

/-!
# What can be wrong with the value of a document

Merging changes the entries of mappings, and makes the key `=` a text; every scalar keeps its text,
and its tag if it is not made a text. So whatever scalar has no value where the parts are made, it
has none in the graph that was read, and `Graph.Holds` says which scalars these are.
-/

namespace CompletionServer.Yaml

open Text

variable {α β : Type} {g g' g'' : Graph}

/-! ## What merging keeps -/

/-- That merging may make one node of another. -/
inductive Node.MayBecome : Node → Node → Prop where
  | scalar {tag tag' : Tag} (h : tag' = tag ∨ tag' = .str) (text : List Point) :
      MayBecome (.scalar tag text) (.scalar tag' text)
  | sequence {tag tag' : Tag} (h : tag' = tag ∨ tag' = .str) (items : List ℕ) :
      MayBecome (.sequence tag items) (.sequence tag' items)
  | mapping {tag tag' : Tag} (h : tag' = tag ∨ tag' = .str) (entries entries' : List (ℕ × ℕ)) :
      MayBecome (.mapping tag entries) (.mapping tag' entries')

theorem Node.MayBecome.refl : ∀ node : Node, node.MayBecome node
  | .scalar _ text => .scalar (.inl rfl) text
  | .sequence _ items => .sequence (.inl rfl) items
  | .mapping _ entries => .mapping (.inl rfl) entries entries

theorem Node.MayBecome.trans {node node' node'' : Node} (h : node.MayBecome node')
    (h' : node'.MayBecome node'') : node.MayBecome node'' := by
  have htag {tag tag' tag'' : Tag} (h : tag' = tag ∨ tag' = .str)
      (h' : tag'' = tag' ∨ tag'' = .str) : tag'' = tag ∨ tag'' = .str := by
    rcases h' with rfl | h'
    · exact h
    · exact .inr h'
  cases h with
  | scalar h text =>
    cases h' with
    | scalar h' => exact .scalar (htag h h') text
  | sequence h items =>
    cases h' with
    | sequence h' => exact .sequence (htag h h') items
  | mapping h entries =>
    cases h' with
    | mapping h' => exact .mapping (htag h h') entries _

theorem Node.MayBecome.eq_scalar {node : Node} {tag : Tag} {text : List Point}
    (h : node.MayBecome (.scalar tag text)) :
    ∃ tag', node = .scalar tag' text ∧ (tag = tag' ∨ tag = .str) := by
  cases h with
  | scalar h => exact ⟨_, rfl, h⟩

theorem Node.MayBecome.eq_mapping {node : Node} {tag : Tag} {entries : List (ℕ × ℕ)}
    (h : node.MayBecome (.mapping tag entries)) :
    ∃ tag' entries', node = .mapping tag' entries' ∧ (tag = tag' ∨ tag = .str) := by
  cases h with
  | mapping h entries' => exact ⟨_, entries', rfl, h⟩

theorem Node.mayBecome_text : ∀ node : Node, node.MayBecome (node.withTag .str)
  | .scalar _ text => .scalar (.inr rfl) text
  | .sequence _ items => .sequence (.inr rfl) items
  | .mapping _ entries => .mapping (.inr rfl) entries entries

/-- That merging may make one graph of another. -/
def Graph.MayBecome (g g' : Graph) : Prop := ∀ n, (g.node n).MayBecome (g'.node n)

namespace Graph

theorem MayBecome.refl (g : Graph) : g.MayBecome g := fun n ↦ .refl (g.node n)

theorem MayBecome.trans (h : g.MayBecome g') (h' : g'.MayBecome g'') : g.MayBecome g'' :=
  fun n ↦ (h n).trans (h' n)

theorem node_put (g : Graph) (m n : ℕ) (node : Node) :
    (g.put m node).node n = if m = n ∧ m < g.size then node else g.node n := by
  unfold put Graph.node
  rw [Array.getElem?_setIfInBounds]
  by_cases hmn : m = n
  · subst hmn
    by_cases hm : m < g.size
    · simp [hm]
    · simp [hm]
  · simp [hmn]

theorem mayBecome_put {n : ℕ} {node : Node} (h : (g.node n).MayBecome node) :
    g.MayBecome (g.put n node) := by
  intro m
  rw [node_put]
  split
  · next hn => exact hn.1 ▸ h
  · exact .refl _

theorem mayBecome_putEntries (g : Graph) (n : ℕ) (entries : List (ℕ × ℕ)) :
    g.MayBecome (g.putEntries n entries) := by
  unfold putEntries
  split
  · next tag entries' hn => exact mayBecome_put (hn ▸ .mapping (.inl rfl) entries' entries)
  · exact .refl g

theorem mayBecome_nameValueKeys (g : Graph) (entries : List (ℕ × ℕ)) :
    g.MayBecome (g.nameValueKeys entries) := by
  unfold nameValueKeys
  induction entries generalizing g with
  | nil => exact .refl g
  | cons e entries ih =>
    rw [List.foldl_cons]
    refine MayBecome.trans ?_ (ih _)
    split
    · exact mayBecome_put (Node.mayBecome_text _)
    · exact .refl g

/-! ## Faults -/

/-- That a document holds a scalar without a value. -/
inductive Holds (g : Graph) : ScalarFault → Prop where
  /-- A scalar whose text gives no value of the kind that its tag names. -/
  | scalar {n : ℕ} {tag : Tag} {text : List Point} {f : ScalarFault}
      (hnode : g.node n = .scalar tag text)
      (h : scalarValue tag text = .error (.impossible f)) : Holds g f
  /-- A mapping in place of a scalar, which stands for the text of a scalar in it. -/
  | mapping {m n : ℕ} {tag tag' : Tag} {entries : List (ℕ × ℕ)} {text : List Point}
      {f : ScalarFault} (hnode : g.node n = .mapping tag entries)
      (htext : g.node m = .scalar tag' text)
      (h : scalarValue tag text = .error (.impossible f)) : Holds g f
  /-- A mapping in place of a moment, whatever text it stands for. -/
  | moment {n : ℕ} {entries : List (ℕ × ℕ)} (hnode : g.node n = .mapping .timestamp entries) :
      Holds g .timestampKind

/-- The faults that may be met where a document gets its value. -/
inductive MayMeet (g : Graph) : Fault → Prop where
  | malformed (e : Error) : g.MayMeet (.malformed e)
  | impossible {f : ScalarFault} (h : g.Holds f) : g.MayMeet (.impossible f)

end Graph

/-- Merging makes only graphs that may be made of the first, and its own faults are defects. -/
theorem maintains_flatten (g : Graph) :
    ∀ fuel n, Maintains g.MayBecome g.MayMeet (flatten fuel n)
  | 0, _ => .pure _
  | fuel + 1, n => by
    unfold flatten
    refine .get_bind fun g₁ hg₁ ↦ ?_
    split
    · exact .set (hg₁.trans (g₁.mayBecome_nameValueKeys _))
    · next v others _ =>
      have hput (n : ℕ) (entries : Graph → List (ℕ × ℕ)) : Maintains g.MayBecome g.MayMeet
          (modify fun g ↦ g.putEntries n (entries g) : Merging PUnit) :=
        .modify fun g₁ hg₁ ↦ hg₁.trans (g₁.mayBecome_putEntries n _)
      have hentries (v : ℕ) : Maintains g.MayBecome g.MayMeet
          (do flatten fuel v; return (← get).entries v : Merging (List (ℕ × ℕ))) :=
        (maintains_flatten g fuel v).bind fun _ ↦ .get_bind fun _ _ ↦ .pure _
      have hend (merged : List (ℕ × ℕ)) : Maintains g.MayBecome g.MayMeet
          (do flatten fuel n; modify fun g ↦ g.putEntries n (merged ++ g.entries n)) :=
        (maintains_flatten g fuel n).bind fun _ ↦ hput n _
      refine (Maintains.set (hg₁.trans (g₁.mayBecome_putEntries n others))).bind fun _ ↦ ?_
      -- The induction is on the fuel, since a mapping may merge itself.
      split
      · exact (maintains_flatten g fuel v).bind fun _ ↦ .get_bind fun _ _ ↦ hend _
      · refine Maintains.bind (.mapM fun item _ ↦ .get_bind fun g₂ _ ↦ ?_) fun each ↦ hend _
        split
        · exact hentries item
        · exact .throw (.malformed _)
      · exact Maintains.bind (.throw (.malformed _)) hend

/-! ## Scalars -/

theorem outcome_scalarText (g : Graph) : ∀ fuel n,
    Outcome (fun text ↦ (∃ tag, g.node n = .scalar tag text) ∨
      ∃ m tag tag' entries, g.node n = .mapping tag entries ∧ g.node m = .scalar tag' text)
      (fun f ↦ ∃ e, f = .malformed e) (scalarText g fuel n)
  | 0, _ => ⟨_, rfl⟩
  | fuel + 1, n => by
    unfold scalarText
    split
    · next tag text hn => exact .inl ⟨tag, hn⟩
    · next tag entries hn =>
      split
      · next v _ =>
        refine (outcome_scalarText g fuel v).mono (fun text htext ↦ ?_) fun _ hf ↦ hf
        rcases htext with ⟨tag', hv⟩ | ⟨m, _, tag', _, _, hm⟩
        · exact .inr ⟨v, tag, tag', entries, hn, hv⟩
        · exact .inr ⟨m, tag, tag', entries, hn, hm⟩
      · exact ⟨_, rfl⟩
    · exact ⟨_, rfl⟩

theorem outcome_scalarValue (tag : Tag) (text : List Point) :
    Outcome (fun _ ↦ True) (fun f ↦ (∃ e, f = .malformed e) ∨ ∃ i, f = .impossible i)
      (scalarValue tag text) := by
  have himpossible {α : Type} (x : Except ScalarFault α) : Outcome (fun _ ↦ True)
      (fun f ↦ (∃ e, f = Fault.malformed e) ∨ ∃ i, f = .impossible i)
      (x.mapError Fault.impossible) :=
    .mapError (fun i ↦ .inr ⟨i, rfl⟩) x
  unfold scalarValue
  split
  · trivial
  · exact (himpossible _).bind fun _ _ ↦ trivial
  · exact (himpossible _).bind fun _ _ ↦ trivial
  · exact (himpossible _).bind fun _ _ ↦ trivial
  · exact himpossible _
  · exact (Outcome.mapError (fun d ↦ .inl ⟨⟨d, none⟩, rfl⟩) _).bind fun _ _ ↦ trivial
  · trivial

/-- A text always has a value as a text, so a fault of another tag comes from the graph read. -/
theorem outcome_scalarValue_of_holds {tag tag' : Tag} {text : List Point}
    (htag : tag = tag' ∨ tag = .str)
    (h : ∀ f, scalarValue tag' text = .error (.impossible f) → g.Holds f) :
    Outcome (fun _ ↦ True) g.MayMeet (scalarValue tag text) := by
  rcases htag with rfl | rfl
  · have hvalue := outcome_scalarValue tag text
    cases hv : scalarValue tag text with
    | ok v => trivial
    | error f =>
      rw [hv] at hvalue
      obtain ⟨e, rfl⟩ | ⟨i, rfl⟩ := hvalue
      · exact .malformed e
      · exact .impossible (h i hv)
  · trivial

theorem outcome_scalarPart (hg : g.MayBecome g') (n : ℕ) :
    Outcome (fun _ ↦ True) g.MayMeet (scalarPart g' n) := by
  unfold scalarPart
  have hmalformed (f : Fault) (h : ∃ e, f = .malformed e) : g.MayMeet f := by
    obtain ⟨e, rfl⟩ := h
    exact .malformed e
  refine ((outcome_scalarText g' _ n).mono (fun _ ↦ id) hmalformed).bind fun text htext ↦ ?_
  have hn := hg n
  rcases htext with ⟨tag, hscalar⟩ | ⟨m, tag, _, entries, hmapping, hm⟩
  · rw [hscalar] at hn ⊢
    obtain ⟨tag', hnode, htag⟩ := hn.eq_scalar
    exact (outcome_scalarValue_of_holds htag fun f ↦ .scalar hnode).bind fun _ _ ↦ trivial
  · rw [hmapping] at hn ⊢
    obtain ⟨tag', entries', hnode, htag⟩ := hn.eq_mapping
    obtain ⟨_, htext, -⟩ := (hm ▸ hg m).eq_scalar
    split
    · next h =>
      cases h
      obtain rfl : tag' = .timestamp := (htag.resolve_right nofun).symm
      exact .impossible (.moment hnode)
    · exact (outcome_scalarValue_of_holds htag fun f ↦ .mapping hnode htext).bind
        fun _ _ ↦ trivial

/-! ## Collections -/

/-- That making parts of the document `g` fails only with a fault that may be met in it. -/
def Builds (g : Graph) (m : Build α) : Prop :=
  Maintains (fun b ↦ g.MayBecome b.nodes) g.MayMeet m

theorem builds_putPart (n : ℕ) (part : Part) : Builds g (putPart n part) :=
  Maintains.modify fun _ hb ↦ hb

theorem builds_refuseNode (d : Defect) : Builds g (refuseNode d : Build α) :=
  Maintains.throw (.malformed _)

theorem builds_build (n : ℕ) : Builds g (build n) := by
  refine Maintains.get_bind fun b hb ↦ .ite ?_ (.pure _)
  dsimp only
  split
  · exact (builds_putPart n _).bind fun _ ↦ .modify fun _ hb ↦ hb
  · refine .ite ?_ (builds_refuseNode _)
    exact .lift_bind (outcome_scalarPart hb n) fun part _ ↦ builds_putPart n part

theorem builds_ownEntries (n : ℕ) : Builds g (ownEntries n) := by
  refine Maintains.get_bind fun b hb ↦ ?_
  refine .lift_bind (maintains_flatten g _ n b.nodes hb) fun r hr ↦ ?_
  refine Maintains.bind (.set hr) fun _ ↦ ?_
  split
  · exact .pure _
  · exact builds_refuseNode _

theorem builds_buildEntries (n : ℕ) : Builds g (buildEntries n) := by
  refine (builds_ownEntries n).bind fun entries ↦ .foldlM (fun kept e ↦ ?_) []
  have hvalue : Builds g (do
      build e.2
      return Keyed.put (sameKeyNode (← get).parts) e.1 e.2 kept) :=
    (builds_build e.2).bind fun _ ↦ .get_bind fun _ _ ↦ .pure _
  refine (builds_build e.1).bind fun _ ↦ .get_bind fun b _ ↦ ?_
  split
  · exact hvalue
  · exact (builds_refuseNode _).bind fun _ ↦ hvalue

theorem builds_itemsOf (n : ℕ) : Builds g (itemsOf n) := by
  refine Maintains.get_bind fun b _ ↦ ?_
  split
  · exact Maintains.pure _
  · exact builds_refuseNode _

theorem builds_buildPair (n : ℕ) : Builds g (buildPair n) := by
  refine Maintains.get_bind fun b _ ↦ ?_
  split
  · exact (builds_build _).bind fun _ ↦ (builds_build _).bind fun _ ↦ .pure _
  · exact builds_refuseNode _
  · exact builds_refuseNode _

theorem builds_fill (n : ℕ) : Builds g (fill n) := by
  refine Maintains.get_bind fun b _ ↦ ?_
  split
  · refine (builds_itemsOf n).bind fun items ↦ ?_
    exact (Maintains.forM fun item _ ↦ builds_build item).bind fun _ ↦ builds_putPart n _
  · exact (builds_buildEntries n).bind fun _ ↦ builds_putPart n _
  · exact (builds_buildEntries n).bind fun _ ↦ builds_putPart n _
  · refine (builds_itemsOf n).bind fun items ↦ ?_
    exact (Maintains.mapM fun item _ ↦ builds_buildPair item).bind fun _ ↦ builds_putPart n _

theorem builds_fillAll : ∀ fuel : ℕ, Builds g (fillAll fuel)
  | 0 => Maintains.pure _
  | fuel + 1 => by
    refine Maintains.get_bind fun b _ ↦ ?_
    split
    · exact Maintains.pure _
    · refine Maintains.bind (Maintains.modify fun _ hb ↦ hb) fun _ ↦ ?_
      exact (builds_fill _).bind fun _ ↦ builds_fillAll fuel

/-- **A document gives a value**, or fails with a fault that may be met in it. -/
theorem outcome_valueOf (g : Graph) (root : ℕ) :
    Outcome (fun _ ↦ True) g.MayMeet (valueOf g root) := by
  have hbuilds : Builds g (do build root; fillAll (g.size + 1)) :=
    (builds_build root).bind fun _ ↦ builds_fillAll _
  exact (hbuilds ⟨g, Array.replicate g.size none, []⟩ (.refl g)).bind fun _ _ ↦ trivial

end CompletionServer.Yaml
