import Mathlib.Algebra.BigOperators.Group.List.Lemmas
import Mathlib.Algebra.Ring.Nat
import Mathlib.Data.List.Induction

/-!
# The first of each kind

What a list keeps when only the first element with each key stays: an element stays if no element
before it has its key. The definition looks at positions only, so that it can be compared with
programs that collect keys, groups or kept elements while they go.

Everything below follows from what happens when one more element comes last, `firsts_concat`.
-/

namespace CompletionServer

variable {α β κ : Type} [DecidableEq κ]

/-- The elements before which no other has the same key. -/
def firsts (key : α → κ) (l : List α) : List α :=
  (l.zipIdx.filter fun p ↦ !(l.take p.2).any fun b ↦ key b == key p.1).map Prod.fst

/-- How many elements have a key. -/
def multiplicity (key : α → κ) (l : List α) (k : κ) : ℕ := (l.map key).count k

@[simp] theorem firsts_nil (key : α → κ) : firsts key [] = [] := rfl

/-- What comes last does not matter to the elements before it, and stays if its key is new. -/
theorem firsts_concat (key : α → κ) (l : List α) (a : α) :
    firsts key (l ++ [a])
      = if key a ∈ l.map key then firsts key l else firsts key l ++ [a] := by
  have hbefore : (l.zipIdx.filter fun p ↦ !((l ++ [a]).take p.2).any fun b ↦ key b == key p.1)
      = l.zipIdx.filter fun p ↦ !(l.take p.2).any fun b ↦ key b == key p.1 := by
    refine List.filter_congr fun p hp ↦ ?_
    have hlt : p.2 < l.length := by simpa using List.snd_lt_of_mem_zipIdx hp
    rw [List.take_append_of_le_length (Nat.le_of_lt hlt)]
  rw [firsts, List.zipIdx_append, List.filter_append, hbefore, List.map_append, ← firsts]
  by_cases hmem : key a ∈ l.map key
  · rw [if_pos hmem]
    obtain ⟨b, hb, hkey⟩ := List.mem_map.mp hmem
    have hany : (l.any fun b ↦ key b == key a) = true :=
      List.any_eq_true.mpr ⟨b, hb, beq_iff_eq.mpr hkey⟩
    simp [hany]
  · rw [if_neg hmem]
    have hany : (l.any fun b ↦ key b == key a) = false := by
      rw [List.any_eq_false]
      intro b hb hkey
      exact hmem (List.mem_map.mpr ⟨b, hb, beq_iff_eq.mp hkey⟩)
    simp [hany]

theorem firsts_sublist (key : α → κ) (l : List α) : (firsts key l).Sublist l := by
  induction l using List.reverseRecOn with
  | nil => exact List.Sublist.refl _
  | append_singleton l a ih =>
    rw [firsts_concat]
    split
    · exact ih.trans (List.sublist_append_left l [a])
    · exact ih.append (List.Sublist.refl _)

theorem mem_of_mem_firsts {key : α → κ} {l : List α} {a : α} (h : a ∈ firsts key l) : a ∈ l :=
  (firsts_sublist key l).subset h

/-- No key is lost. -/
theorem mem_map_firsts {key : α → κ} {l : List α} {k : κ} :
    k ∈ (firsts key l).map key ↔ k ∈ l.map key := by
  induction l using List.reverseRecOn with
  | nil => rfl
  | append_singleton l a ih =>
    rw [firsts_concat, List.map_append, List.mem_append]
    by_cases hmem : key a ∈ l.map key
    · rw [if_pos hmem, ih]
      refine ⟨Or.inl, ?_⟩
      rintro (h | h)
      · exact h
      · rwa [show k = key a by simpa using h]
    · rw [if_neg hmem, List.map_append, List.mem_append, ih]

/-- No key is kept twice. -/
theorem nodup_map_firsts (key : α → κ) (l : List α) : ((firsts key l).map key).Nodup := by
  induction l using List.reverseRecOn with
  | nil => exact List.nodup_nil
  | append_singleton l a ih =>
    rw [firsts_concat]
    split
    · exact ih
    · next hmem =>
      rw [List.map_append]
      refine List.nodup_append.mpr ⟨ih, by simp, ?_⟩
      intro k hk k' hk' heq
      rw [List.map_singleton, List.mem_singleton] at hk'
      subst hk'
      exact hmem (heq ▸ mem_map_firsts.mp hk)

theorem firsts_map (key : β → κ) (f : α → β) (l : List α) :
    firsts key (l.map f) = (firsts (key ∘ f) l).map f := by
  induction l using List.reverseRecOn with
  | nil => rfl
  | append_singleton l a ih =>
    rw [List.map_append, List.map_singleton, firsts_concat, firsts_concat, List.map_map, ih,
      Function.comp_apply]
    split
    · rfl
    · rw [List.map_append, List.map_singleton]

/-- Of what comes behind, the elements stay whose keys are new. -/
theorem firsts_append (key : α → κ) (l m : List α) :
    firsts key (l ++ m) = firsts key l ++ (firsts key m).filter fun a ↦ key a ∉ l.map key := by
  induction m using List.reverseRecOn with
  | nil => rw [List.append_nil, firsts_nil, List.filter_nil, List.append_nil]
  | append_singleton m a ih =>
    have hboth : key a ∈ (l ++ m).map key ↔ key a ∈ l.map key ∨ key a ∈ m.map key := by
      rw [List.map_append, List.mem_append]
    rw [← List.append_assoc, firsts_concat, firsts_concat, ih]
    by_cases hm : key a ∈ m.map key
    · rw [if_pos (hboth.mpr (.inr hm)), if_pos hm]
    · rw [if_neg hm, List.filter_append, List.filter_singleton]
      by_cases hl : key a ∈ l.map key
      · rw [if_pos (hboth.mpr (.inl hl)), decide_eq_false (not_not_intro hl), cond_false,
          List.append_nil]
      · rw [if_neg (mt hboth.mp (not_or.mpr ⟨hl, hm⟩)), decide_eq_true hl, cond_true,
          List.append_assoc]

/-- All elements of a list stay if no key comes twice. -/
theorem firsts_eq_self {key : α → κ} {l : List α} (h : (l.map key).Nodup) : firsts key l = l := by
  induction l using List.reverseRecOn with
  | nil => rfl
  | append_singleton l a ih =>
    rw [List.map_append, List.map_singleton, ← List.concat_eq_append, List.nodup_concat] at h
    rw [firsts_concat, if_neg h.1, ih h.2]

/-! ## Counting -/

theorem multiplicity_concat (key : α → κ) (l : List α) (a : α) (k : κ) :
    multiplicity key (l ++ [a]) k = multiplicity key l k + if key a = k then 1 else 0 := by
  rw [multiplicity, multiplicity, List.map_append, List.count_append, List.map_singleton,
    List.count_singleton]
  simp only [beq_iff_eq]

theorem multiplicity_append (key : α → κ) (l m : List α) (k : κ) :
    multiplicity key (l ++ m) k = multiplicity key l k + multiplicity key m k := by
  rw [multiplicity, multiplicity, multiplicity, List.map_append, List.count_append]

theorem multiplicity_eq_one {key : α → κ} {l : List α} (h : (l.map key).Nodup) (k : κ) :
    multiplicity key l k = if k ∈ l.map key then 1 else 0 :=
  h.count

theorem multiplicity_pos {key : α → κ} {l : List α} {k : κ} :
    0 < multiplicity key l k ↔ k ∈ l.map key :=
  List.count_pos_iff

/-- Each element counts for the kept one with its key, so nothing is counted twice or left out. -/
theorem sum_multiplicity_firsts (key : α → κ) (l : List α) :
    ((firsts key l).map fun a ↦ multiplicity key l (key a)).sum = l.length := by
  have hperm : ((firsts key l).map key).Perm (l.map key).dedup := by
    refine (List.perm_ext_iff_of_nodup (nodup_map_firsts key l) (List.nodup_dedup _)).mpr ?_
    intro k
    rw [mem_map_firsts, List.mem_dedup]
  calc ((firsts key l).map fun a ↦ multiplicity key l (key a)).sum
      = (((firsts key l).map key).map fun k ↦ (l.map key).count k).sum := by
        rw [List.map_map]; rfl
    _ = ((l.map key).dedup.map fun k ↦ (l.map key).count k).sum := (hperm.map _).sum_eq
    _ = l.length := by rw [List.sum_map_count_dedup_eq_length, List.length_map]

end CompletionServer
