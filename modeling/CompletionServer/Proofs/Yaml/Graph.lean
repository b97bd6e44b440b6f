import CompletionServer.Proofs.Maintains
import CompletionServer.Proofs.Yaml.Lexer
import CompletionServer.Yaml.Graph

/-!
# What can be wrong where a document is read

The grammar asks for tokens one by one. It refuses a token that it has no rule for, and comes upon
the fault after the known tokens where it asks for one more; nothing else goes wrong. The rules are
followed one by one, with one lemma each, and the fuel carries the induction.
-/

namespace CompletionServer.Yaml

open Text

variable {α β : Type} {s : Source} {fuel : ℕ}

/-- That reading tokens of the text `s` fails only with a fault that may be met in it. -/
def Parses (s : Source) (m : Reading α) : Prop :=
  Maintains (fun r ↦ ∀ f, r.fault = some f → s.MayMeet f) s.MayMeet m

theorem parses_refuse (d : Defect) : Parses s (refuse d : Reading α) :=
  Maintains.throw (.malformed _)

/-- What is changed is never the fault. -/
theorem parses_change {f : Remaining → Remaining} (h : ∀ r, (f r).fault = r.fault) :
    Parses s (modify f : Reading PUnit) := Maintains.modify fun r hr ↦ (h r).symm ▸ hr

theorem parses_change_bind {f : Remaining → Remaining} {m : PUnit → Reading β}
    (h : ∀ r, (f r).fault = r.fault) (hm : Parses s (m ⟨⟩)) :
    Parses s ((modify f : Reading PUnit) >>= m) := (parses_change h).bind fun _ ↦ hm

/-! ## Reading tokens -/

theorem parses_peek : Parses s peek := by
  refine Maintains.get_bind fun r hr ↦ ?_
  split
  · exact Maintains.pure _
  · next f _ hf => exact Maintains.throw (hr f hf)
  · exact Maintains.pure _

theorem parses_advance : Parses s advance := parses_change fun _ ↦ rfl

theorem parses_isNext (ts : List Token) : Parses s (isNext ts) := by
  refine parses_peek.bind fun t ↦ ?_
  split
  · exact .pure _
  · exact .pure _

theorem parses_pass (t : Token) : Parses s (pass t) :=
  (parses_isNext [t]).bind fun _ ↦ .ite parses_advance (parses_refuse _)

theorem parses_accept (t : Token) : Parses s (accept t) :=
  (parses_isNext [t]).bind fun _ ↦ .ite (parses_advance.bind fun _ ↦ .pure _) (.pure _)

/-! ## Nodes, anchors and tags -/

theorem parses_add (node : Node) : Parses s (add node) :=
  .get_bind fun _ _ ↦ parses_change_bind (fun _ ↦ rfl) (.pure _)

theorem parses_missing : Parses s missing := parses_add _

theorem parses_aliased (name : String) : Parses s (aliased name) := by
  refine .get_bind fun r _ ↦ ?_
  split
  · exact .pure _
  · exact parses_refuse _

theorem parses_addNamed (anchor : Option String) (node : Node) :
    Parses s (addNamed anchor node) := by
  unfold addNamed
  split
  · exact parses_add node
  · refine .get_bind fun r _ ↦ .ite (parses_refuse _) ?_
    exact (parses_add node).bind fun _ ↦ parses_change_bind (fun _ ↦ rfl) (.pure _)

theorem parses_addFilled {anchor : Option String} {ofContent : List α → Node}
    {read : Reading (List α)} (hread : Parses s read) :
    Parses s (addFilled anchor ofContent read) :=
  (parses_addNamed _ _).bind fun _ ↦ hread.bind fun _ ↦
    parses_change_bind (fun _ ↦ rfl) (.pure _)

theorem parses_tagName (handle : Option String) (suffix : String) :
    Parses s (tagName handle suffix) := by
  unfold tagName
  split
  · exact .pure _
  · refine .get_bind fun r _ ↦ ?_
    split
    · exact .pure _
    · exact parses_refuse _

theorem parses_anchor? : Parses s anchor? := by
  refine parses_peek.bind fun t ↦ ?_
  split
  · exact parses_advance.bind fun _ ↦ .pure _
  · exact .pure _

theorem parses_tag? : Parses s tag? := by
  refine parses_peek.bind fun t ↦ ?_
  split
  · exact parses_advance.bind fun _ ↦ .pure _
  · exact .pure _

theorem parses_properties : Parses s properties := by
  refine parses_anchor?.bind fun first ↦ parses_tag?.bind fun tag ↦ ?_
  cases tag with
  | none => exact .ite (parses_anchor?.bind fun _ ↦ .pure _) (.pure _)
  | some tag =>
    have htag (anchor : Option String) :
        Parses s (do return (anchor, some (← tagName tag.1 tag.2))) :=
      (parses_tagName tag.1 tag.2).bind fun _ ↦ .pure _
    exact .ite (parses_anchor?.bind htag) (htag first)

/-! ## The grammar -/

/-- That every rule of the grammar fails only with a fault that may be met, with so much fuel. -/
structure GrammarParses (s : Source) (fuel : ℕ) : Prop where
  node (block indentless : Bool) : Parses s (node block indentless fuel)
  content (block indentless : Bool) (anchor tag : Option String) :
    Parses s (content block indentless anchor tag fuel)
  blockItems : Parses s (blockItems fuel)
  indentlessItems : Parses s (indentlessItems fuel)
  blockEntries : Parses s (blockEntries fuel)
  blockPart : Parses s (blockPart fuel)
  flowItems (first : Bool) : Parses s (flowItems first fuel)
  flowEntries (first : Bool) : Parses s (flowEntries first fuel)
  flowPart (ends : List Token) : Parses s (flowPart ends fuel)

theorem grammarParses_zero : GrammarParses s 0 where
  node _ _ := by rw [node]; exact parses_refuse _
  content _ _ _ _ := by rw [content]; exact parses_refuse _
  blockItems := by rw [blockItems]; exact parses_refuse _
  indentlessItems := by rw [indentlessItems]; exact parses_refuse _
  blockEntries := by rw [blockEntries]; exact parses_refuse _
  blockPart := by rw [blockPart]; exact parses_refuse _
  flowItems _ := by rw [flowItems]; exact parses_refuse _
  flowEntries _ := by rw [flowEntries]; exact parses_refuse _
  flowPart _ := by rw [flowPart]; exact parses_refuse _

namespace GrammarParses

theorem node_succ (h : GrammarParses s fuel) (block indentless : Bool) :
    Parses s (Yaml.node block indentless (fuel + 1)) := by
  rw [Yaml.node]
  refine parses_peek.bind fun t ↦ ?_
  split
  · exact parses_advance.bind fun _ ↦ parses_aliased _
  · exact parses_properties.bind fun found ↦ h.content _ _ _ _

theorem content_succ (h : GrammarParses s fuel) (block indentless : Bool)
    (anchor tag : Option String) :
    Parses s (Yaml.content block indentless anchor tag (fuel + 1)) := by
  have hempty : Parses s (Yaml.content.empty anchor tag) :=
    .ite (parses_addNamed _ _) (parses_refuse _)
  rw [Yaml.content]
  refine parses_peek.bind fun t ↦ ?_
  split
  · exact .ite (parses_addFilled h.indentlessItems) hempty
  · exact parses_advance.bind fun _ ↦ parses_addNamed _ _
  · exact parses_advance.bind fun _ ↦ parses_addFilled (h.flowItems true)
  · exact parses_advance.bind fun _ ↦ parses_addFilled (h.flowEntries true)
  · exact .ite (parses_advance.bind fun _ ↦ parses_addFilled h.blockItems) hempty
  · exact .ite (parses_advance.bind fun _ ↦ parses_addFilled h.blockEntries) hempty
  · exact hempty

theorem blockItems_succ (h : GrammarParses s fuel) : Parses s (Yaml.blockItems (fuel + 1)) := by
  rw [Yaml.blockItems]
  refine (parses_accept _).bind fun _ ↦ .ite ?item ((parses_pass _).bind fun _ ↦ .pure _)
  have hothers (item : ℕ) : Parses s (do return item :: (← Yaml.blockItems fuel)) :=
    h.blockItems.bind fun _ ↦ .pure _
  exact (parses_isNext _).bind fun _ ↦
    .ite (parses_missing.bind hothers) ((h.node true false).bind hothers)

theorem indentlessItems_succ (h : GrammarParses s fuel) :
    Parses s (Yaml.indentlessItems (fuel + 1)) := by
  rw [Yaml.indentlessItems]
  refine (parses_accept _).bind fun _ ↦ .ite ?item (.pure _)
  have hothers (item : ℕ) : Parses s (do return item :: (← Yaml.indentlessItems fuel)) :=
    h.indentlessItems.bind fun _ ↦ .pure _
  exact (parses_isNext _).bind fun _ ↦
    .ite (parses_missing.bind hothers) ((h.node true false).bind hothers)

theorem blockEntries_succ (h : GrammarParses s fuel) :
    Parses s (Yaml.blockEntries (fuel + 1)) := by
  rw [Yaml.blockEntries]
  refine (parses_accept _).bind fun _ ↦ .ite ?entry ((parses_pass _).bind fun _ ↦ .pure _)
  have hothers (key value : ℕ) : Parses s (do return (key, value) :: (← Yaml.blockEntries fuel)) :=
    h.blockEntries.bind fun _ ↦ .pure _
  exact h.blockPart.bind fun key ↦ (parses_accept _).bind fun _ ↦
    .ite (h.blockPart.bind (hothers key)) (parses_missing.bind (hothers key))

theorem blockPart_succ (h : GrammarParses s fuel) : Parses s (Yaml.blockPart (fuel + 1)) := by
  rw [Yaml.blockPart]
  exact (parses_isNext _).bind fun _ ↦ .ite parses_missing (h.node true true)

theorem flowItems_succ (h : GrammarParses s fuel) (first : Bool) :
    Parses s (Yaml.flowItems first (fuel + 1)) := by
  have hothers (item : ℕ) : Parses s (do return item :: (← Yaml.flowItems false fuel)) :=
    (h.flowItems false).bind fun _ ↦ .pure _
  -- A pair with a sign for its key is a mapping of its own.
  have hpair (key value : ℕ) : Parses s (do
      let item ← add (.mapping .map [(key, value)])
      return item :: (← Yaml.flowItems false fuel)) := (parses_add _).bind hothers
  have hitem : Parses s (do
      if ← accept .flowSequenceEnd then return []
      let item ←
        if ← accept .key then
          let key ← Yaml.flowPart [.value, .flowEntry, .flowSequenceEnd] fuel
          let value ←
            if ← accept .value then Yaml.flowPart [.flowEntry, .flowSequenceEnd] fuel
            else missing
          add (.mapping .map [(key, value)])
        else Yaml.node false false fuel
      return item :: (← Yaml.flowItems false fuel)) := by
    refine (parses_accept _).bind fun _ ↦ .ite (.pure _) ?_
    refine (parses_accept _).bind fun _ ↦ .ite ?_ ((h.node false false).bind hothers)
    exact (h.flowPart _).bind fun key ↦ (parses_accept _).bind fun _ ↦
      .ite ((h.flowPart _).bind (hpair key)) (parses_missing.bind (hpair key))
  rw [Yaml.flowItems]
  refine (parses_accept _).bind fun _ ↦ .ite (.pure _) ?_
  exact .ite hitem ((parses_pass _).bind fun _ ↦ hitem)

theorem flowEntries_succ (h : GrammarParses s fuel) (first : Bool) :
    Parses s (Yaml.flowEntries first (fuel + 1)) := by
  have hothers (entry : ℕ × ℕ) : Parses s (do return entry :: (← Yaml.flowEntries false fuel)) :=
    (h.flowEntries false).bind fun _ ↦ .pure _
  have hentry : Parses s (do
      if ← accept .flowMappingEnd then return []
      let entry ←
        if ← accept .key then
          let key ← Yaml.flowPart [.value, .flowEntry, .flowMappingEnd] fuel
          let value ←
            if ← accept .value then Yaml.flowPart [.flowEntry, .flowMappingEnd] fuel
            else missing
          pure (key, value)
        else pure (← Yaml.node false false fuel, ← missing)
      return entry :: (← Yaml.flowEntries false fuel)) := by
    refine (parses_accept _).bind fun _ ↦ .ite (.pure _) ?_
    refine (parses_accept _).bind fun _ ↦ .ite ?_ ?_
    · exact (h.flowPart _).bind fun key ↦ (parses_accept _).bind fun _ ↦
        .ite ((h.flowPart _).bind fun value ↦ hothers (key, value))
          (parses_missing.bind fun value ↦ hothers (key, value))
    · exact (h.node false false).bind fun key ↦ parses_missing.bind fun value ↦ hothers (key, value)
  rw [Yaml.flowEntries]
  refine (parses_accept _).bind fun _ ↦ .ite (.pure _) ?_
  exact .ite hentry ((parses_pass _).bind fun _ ↦ hentry)

theorem flowPart_succ (h : GrammarParses s fuel) (ends : List Token) :
    Parses s (Yaml.flowPart ends (fuel + 1)) := by
  rw [Yaml.flowPart]
  exact (parses_isNext _).bind fun _ ↦ .ite parses_missing (h.node false false)

end GrammarParses

theorem grammarParses (s : Source) (fuel : ℕ) : GrammarParses s fuel := by
  induction fuel with
  | zero => exact grammarParses_zero
  | succ fuel ih =>
    exact {
      node := ih.node_succ
      content := ih.content_succ
      blockItems := ih.blockItems_succ
      indentlessItems := ih.indentlessItems_succ
      blockEntries := ih.blockEntries_succ
      blockPart := ih.blockPart_succ
      flowItems := ih.flowItems_succ
      flowEntries := ih.flowEntries_succ
      flowPart := ih.flowPart_succ }

/-! ## Documents -/

theorem parses_directives : ∀ (fuel : ℕ) (version : Bool) (handles : List (String × String)),
    Parses s (directives version handles fuel)
  | 0, _, _ => parses_refuse _
  | fuel + 1, version, handles => by
    unfold directives
    refine parses_peek.bind fun t ↦ ?_
    split
    · exact parses_advance.bind fun _ ↦ .ite (parses_refuse _) (parses_directives fuel _ _)
    · exact parses_advance.bind fun _ ↦ .ite (parses_refuse _) (parses_directives fuel _ _)
    · exact parses_advance.bind fun _ ↦ parses_directives fuel _ _
    · exact .pure _

theorem parses_markedStart (fuel : ℕ) : Parses s (markedStart fuel) :=
  (parses_directives fuel _ _).bind fun _ ↦ (parses_pass _).bind fun _ ↦ parses_change fun _ ↦ rfl

theorem parses_firstDocument (fuel : ℕ) : Parses s (firstDocument fuel) := by
  have hnode : Parses s (do return some (← node true false fuel)) :=
    ((grammarParses s fuel).node true false).bind fun _ ↦ .pure _
  have hmissing : Parses s (do return some (← missing)) := parses_missing.bind fun _ ↦ .pure _
  refine parses_peek.bind fun t ↦ ?_
  split
  case h_1 => exact .pure _
  case h_2 | h_3 =>
    refine (parses_markedStart fuel).bind fun _ ↦ parses_peek.bind fun t ↦ ?_
    split
    case h_5 => exact hnode
    all_goals exact hmissing
  case h_4 => exact hnode

theorem parses_passEnds : ∀ fuel : ℕ, Parses s (passEnds fuel)
  | 0 => .pure _
  | fuel + 1 => (parses_accept _).bind fun _ ↦ .ite (parses_passEnds fuel) (.pure _)

theorem parses_onlyDocument (fuel : ℕ) : Parses s (onlyDocument fuel) := by
  refine (parses_firstDocument fuel).bind fun found ↦ ?_
  split
  · exact .pure _
  · refine (parses_passEnds fuel).bind fun _ ↦ parses_peek.bind fun t ↦ .ite ?_ (.pure _)
    exact (parses_markedStart fuel).bind fun _ ↦ (parses_refuse _).bind fun _ ↦ .pure _

/-- **A text gives the graph of a document**, if it holds one, or fails with a fault that may be met
in it. -/
theorem outcome_graph (s : Source) :
    Outcome (fun _ ↦ True) s.MayMeet (graph (tokens s).1 (tokens s).2) :=
  (parses_onlyDocument _ ⟨(tokens s).1, (tokens s).2, #[], [], usualHandles⟩
    fun _ ↦ mayMeet_of_tokens).bind fun _ _ ↦ trivial

end CompletionServer.Yaml
