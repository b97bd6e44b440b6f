import CompletionServer.Proofs.Glob.Reading

/-!
# Nested groups

How the groups of a pattern are nested is not visible from its tokens one by one. `Reads` is that
nesting: a derivation for each part of the tokens that is read as one sequence, or as the
alternatives of one group. If every brace is closed there is a derivation, `exists_reads`, and what
the reader of expressions does follows it, `Reads.parses`.
-/

namespace CompletionServer.Glob

/-! ## Derivations -/

/-- What a derivation is about: one sequence, up to where it stops, or the alternatives of a group,
up to the brace that closes it. -/
inductive Part where
  | sequence
  | alternatives

/-- **The nesting of tokens**: that the tokens start with a part, inside `depth` braces and for
alternatives inside one more, that this part is read as an expression, and which tokens are left. -/
inductive Reads : Part → (depth : ℕ) → List Token → Expr → (left : List Token) → Prop where
  | nil {depth : ℕ} : Reads .sequence depth [] .empty []
  | closing {depth : ℕ} {ts : List Token} :
      Reads .sequence (depth + 1) (.closing :: ts) .empty (.closing :: ts)
  | comma {depth : ℕ} {ts : List Token} :
      Reads .sequence (depth + 1) (.comma :: ts) .empty (.comma :: ts)
  | atom {depth : ℕ} {t : Token} {ts left : List Token} {e : Expr} (ht : t.IsAtom depth)
      (h : Reads .sequence depth ts e left) : Reads .sequence depth (t :: ts) (.seq t.expr e) left
  | group {depth : ℕ} {ts rest left : List Token} {inner e : Expr}
      (hinner : Reads .alternatives depth ts inner rest) (h : Reads .sequence depth rest e left) :
      Reads .sequence depth (.opening :: ts) (.seq inner e) left
  | last {depth : ℕ} {ts left : List Token} {e : Expr}
      (h : Reads .sequence (depth + 1) ts e (.closing :: left)) :
      Reads .alternatives depth ts e left
  | more {depth : ℕ} {ts rest left : List Token} {e f : Expr}
      (h : Reads .sequence (depth + 1) ts e (.comma :: rest))
      (hrest : Reads .alternatives depth rest f left) :
      Reads .alternatives depth ts (.alt e f) left

/-- How many braces are open inside a part. -/
def Part.inside : Part → (depth : ℕ) → ℕ
  | .sequence, depth => depth
  | .alternatives, depth => depth + 1

/-- That the reader reads what is written for a part as an expression, and up to where. -/
def Part.IsParsed : Part → (depth : ℕ) → List Token → Expr → (left : List Token) → Prop
  | .sequence, depth, ts, e, left => Parses (written depth ts) e (written depth left)
  | .alternatives, depth, ts, e, left =>
    ParsesAll (written (depth + 1) ts) e (')' :: written depth left)

namespace Reads

variable {part : Part} {depth : ℕ} {ts left : List Token} {e : Expr}

theorem suffix (h : Reads part depth ts e left) : left <:+ ts := by
  induction h with
  | nil | closing | comma => exact List.suffix_refl _
  | atom _ _ ih => exact ih.trans (List.suffix_cons _ _)
  | group _ _ ihinner ih => exact (ih.trans ihinner).trans (List.suffix_cons _ _)
  | last _ ih => exact (List.suffix_cons _ _).trans ih
  | more _ _ ih ihrest => exact (ihrest.trans (List.suffix_cons _ _)).trans ih

theorem depthAfter_eq (h : Reads part depth ts e left) :
    depthAfter (part.inside depth) ts = depthAfter depth left := by
  induction h with
  | nil | closing | comma => rfl
  | atom ht _ ih => rw [Part.inside, depthAfter_atom ht]; exact ih
  | group _ _ ihinner ih => exact ihinner.trans ih
  | last _ ih => exact ih
  | more _ _ ih ihrest => exact ih.trans ihrest

/-- What stays unread is written in at most as many characters as there were. -/
theorem length_written_le (h : Reads part depth ts e left) :
    (written depth left).length ≤ (written (part.inside depth) ts).length := by
  induction h with
  | nil | closing | comma => exact Nat.le_refl _
  | atom ht _ ih =>
    rw [Part.inside, written_atom ht, List.length_append]
    exact ih.trans (Nat.le_add_left _ _)
  | group _ _ ihinner ih =>
    rw [Part.inside, written, List.length_append]
    exact (ih.trans ihinner).trans (Nat.le_add_left _ _)
  | last _ ih => exact (Nat.le_succ _).trans ih
  | more _ _ ih ihrest => exact (ihrest.trans (Nat.le_succ _)).trans ih

/-- **What is written for a part is read as its expression**, whatever follows the tokens of that
part. -/
theorem parses (h : Reads part depth ts e left) {read : List Token} (hts : ts = read ++ left)
    (horder : ∀ t ∈ read, t.InOrder) (hclosed : .unclosed ∉ ts) :
    part.IsParsed depth ts e left := by
  induction h generalizing read with
  | nil => exact parses_nil
  | closing => exact parses_closing _
  | comma => exact parses_bar _
  | @atom depth t ts left e ht h ih =>
    obtain ⟨own, rfl⟩ := h.suffix
    obtain rfl : t :: own = read := List.append_cancel_right hts
    obtain ⟨ht', hown⟩ := List.forall_mem_cons.mp horder
    have hrest := List.not_mem_of_not_mem_cons hclosed
    rw [Part.IsParsed, written_atom ht]
    exact .of_advances (.token ht ht' (head?_written (.inl rfl) depth hrest)) (ih rfl hown hrest)
  | @group depth ts rest left inner e hinner h ihinner ih =>
    obtain ⟨first, rfl⟩ := hinner.suffix
    obtain ⟨second, rfl⟩ := h.suffix
    have hread : .opening :: (first ++ second) ++ left = read ++ left := by
      rw [← hts, List.cons_append, List.append_assoc]
    obtain rfl := List.append_cancel_right hread
    obtain ⟨-, hown⟩ := List.forall_mem_cons.mp horder
    obtain ⟨hfirst, hsecond⟩ := List.forall_mem_append.mp hown
    have hall := List.not_mem_of_not_mem_cons hclosed
    have hrest := fun h ↦ hall (List.mem_append_right first h)
    exact .of_advances (.group (ihinner rfl hfirst hall) hinner.length_written_le
      (head?_written (.inr rfl) depth hrest)) (ih rfl hsecond hrest)
  | @last depth ts left e h ih =>
    obtain ⟨own, rfl⟩ := h.suffix
    have hread : own ++ [.closing] ++ left = read ++ left := by
      rw [← hts, List.append_assoc, List.singleton_append]
    obtain rfl := List.append_cancel_right hread
    exact .last (ih rfl (List.forall_mem_append.mp horder).1 hclosed) (by simp)
  | @more depth ts rest left e f h hrest ih ihrest =>
    obtain ⟨first, rfl⟩ := h.suffix
    obtain ⟨second, rfl⟩ := hrest.suffix
    have hread : first ++ .comma :: second ++ left = read ++ left := by
      rw [← hts, List.append_assoc, List.cons_append]
    obtain rfl := List.append_cancel_right hread
    obtain ⟨hfirst, hown⟩ := List.forall_mem_append.mp horder
    have hclosed' := fun h ↦ hclosed (List.mem_append_right first (List.mem_cons_of_mem _ h))
    exact .more (ih rfl hfirst hclosed) h.length_written_le
      (ihrest rfl (List.forall_mem_cons.mp hown).2 hclosed')

/-! ## Closed braces -/

/-- A sequence stops where the tokens end, or at a comma or brace of its group. -/
theorem exists_of_left_ne_nil (h : Reads .sequence depth ts e left) (hne : left ≠ []) :
    0 < depth ∧ ∃ rest, left = .closing :: rest ∨ left = .comma :: rest := by
  generalize hpart : Part.sequence = part at h
  induction h with
  | nil => exact absurd rfl hne
  | closing => exact ⟨Nat.succ_pos _, _, .inl rfl⟩
  | comma => exact ⟨Nat.succ_pos _, _, .inr rfl⟩
  | atom _ _ ih => exact ih hne hpart
  | group _ _ _ ih => exact ih hne hpart
  | last | more => cases hpart

/-- Outside braces a sequence is read to the end. -/
theorem left_eq_nil (h : Reads .sequence 0 ts e left) : left = [] := by
  by_contra hne
  exact absurd (h.exists_of_left_ne_nil hne).1 (Nat.lt_irrefl 0)

end Reads

/-- Tokens are nested in some way if every brace is closed: as a sequence, and as alternatives if
one more brace is open before them. -/
theorem exists_reads {n depth : ℕ} {ts : List Token} (hlen : ts.length ≤ n) :
    (depthAfter depth ts = 0 → ∃ e left, Reads .sequence depth ts e left) ∧
      (depthAfter (depth + 1) ts = 0 → ∃ e left, Reads .alternatives depth ts e left) := by
  induction n generalizing depth ts with
  | zero =>
    obtain rfl := List.length_eq_zero_iff.mp (Nat.le_zero.mp hlen)
    exact ⟨fun _ ↦ ⟨_, _, .nil⟩, fun h ↦ nomatch h⟩
  | succ n ih =>
    have hseq {depth : ℕ} (hclosed : depthAfter depth ts = 0) :
        ∃ e left, Reads .sequence depth ts e left := by
      cases ts with
      | nil => exact ⟨_, _, .nil⟩
      | cons t ts =>
        have hts : ts.length ≤ n := Nat.le_of_succ_le_succ hlen
        by_cases hatom : t.IsAtom depth
        · rw [depthAfter_atom hatom] at hclosed
          obtain ⟨e, left, h⟩ := (ih hts).1 hclosed
          exact ⟨_, _, .atom hatom h⟩
        · cases t with
          | opening =>
            obtain ⟨inner, rest, hinner⟩ := (ih hts).2 hclosed
            have hrest := hinner.suffix.length_le
            have hopen := hinner.depthAfter_eq
            obtain ⟨e, left, h⟩ := (ih (hrest.trans hts)).1 (hopen.symm.trans hclosed)
            exact ⟨_, _, .group hinner h⟩
          | closing =>
            obtain ⟨depth, rfl⟩ := Nat.exists_eq_succ_of_ne_zero hatom
            exact ⟨_, _, .closing⟩
          | comma =>
            obtain ⟨depth, rfl⟩ := Nat.exists_eq_succ_of_ne_zero hatom
            exact ⟨_, _, .comma⟩
          | _ => exact absurd trivial hatom
    -- Alternatives begin with a sequence of the same tokens, so only what follows its comma is
    -- shorter.
    refine ⟨hseq, fun hclosed ↦ ?_⟩
    obtain ⟨e, left, h⟩ := hseq hclosed
    have hopen : depthAfter (depth + 1) left = 0 := h.depthAfter_eq.symm.trans hclosed
    have hne : left ≠ [] := by
      rintro rfl
      cases hopen
    obtain ⟨-, rest, rfl | rfl⟩ := h.exists_of_left_ne_nil hne
    · exact ⟨_, _, .last h⟩
    · have hrest : rest.length + 1 ≤ n + 1 := h.suffix.length_le.trans hlen
      obtain ⟨f, left', hf⟩ := (ih (Nat.le_of_succ_le_succ hrest)).2 hopen
      exact ⟨_, _, .more h hf⟩

end CompletionServer.Glob
