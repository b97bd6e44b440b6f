/-!
# Entries by key

An association list that keeps the order in which keys first came. Putting a value under a key that
is there replaces the value and leaves the entry where it is; a new key goes to the end. Decoded
mappings, capabilities by name and documents by address all are such lists.

`sameKey` says which keys count as equal; it need not be equality.
-/

namespace CompletionServer.Keyed

variable {κ α : Type}

/-- The value under the first key equal to `key`. -/
def find? (sameKey : κ → κ → Bool) (key : κ) : List (κ × α) → Option α
  | [] => none
  | (k, a) :: rest => if sameKey k key then some a else find? sameKey key rest

/-- The entries with `value` under `key`. -/
def put (sameKey : κ → κ → Bool) (key : κ) (value : α) : List (κ × α) → List (κ × α)
  | [] => [(key, value)]
  | (k, a) :: rest =>
    if sameKey k key then (k, value) :: rest else (k, a) :: put sameKey key value rest

/-- The entries without those under `key`. -/
def erase (sameKey : κ → κ → Bool) (key : κ) (entries : List (κ × α)) : List (κ × α) :=
  entries.filter fun e ↦ !sameKey e.1 key

/-- The entries put one after the other, in order. -/
def ofList (sameKey : κ → κ → Bool) (entries : List (κ × α)) : List (κ × α) :=
  entries.foldl (fun kept e ↦ put sameKey e.1 e.2 kept) []

theorem exists_mem_of_find?_eq_some {sameKey : κ → κ → Bool} {key : κ} {value : α}
    {entries : List (κ × α)} (h : find? sameKey key entries = some value) :
    ∃ k, (k, value) ∈ entries := by
  induction entries with
  | nil => cases h
  | cons e rest ih =>
    rw [find?] at h
    split at h
    · cases h
      exact ⟨e.1, List.mem_cons_self⟩
    · obtain ⟨k, hk⟩ := ih h
      exact ⟨k, List.mem_cons_of_mem e hk⟩

theorem put_of_forall_not {sameKey : κ → κ → Bool} {key : κ} {entries : List (κ × α)} (value : α)
    (h : ∀ e ∈ entries, sameKey e.1 key = false) :
    put sameKey key value entries = entries ++ [(key, value)] := by
  induction entries with
  | nil => rfl
  | cons e rest ih =>
    have hfirst := h e List.mem_cons_self
    rw [put, if_neg (Bool.eq_false_iff.mp hfirst), ih fun d hd ↦ h d (List.mem_cons_of_mem e hd)]
    rfl

theorem foldl_put_of_pairwise {sameKey : κ → κ → Bool} {kept entries : List (κ × α)}
    (h : (kept ++ entries).Pairwise fun d e ↦ sameKey d.1 e.1 = false) :
    entries.foldl (fun kept e ↦ put sameKey e.1 e.2 kept) kept = kept ++ entries := by
  induction entries generalizing kept with
  | nil => rw [List.append_nil]; rfl
  | cons e rest ih =>
    have hmid : (kept ++ [e] ++ rest).Pairwise fun d e ↦ sameKey d.1 e.1 = false := by
      rwa [List.append_assoc, List.singleton_append]
    have hnew : ∀ d ∈ kept, sameKey d.1 e.1 = false := fun d hd ↦
      (List.pairwise_append.mp h).2.2 d hd e List.mem_cons_self
    rw [List.foldl_cons, put_of_forall_not e.2 hnew, ih hmid, List.append_assoc,
      List.singleton_append]

/-- Entries of which no two have equal keys are all kept as they are. -/
theorem ofList_of_pairwise {sameKey : κ → κ → Bool} {entries : List (κ × α)}
    (h : entries.Pairwise fun d e ↦ sameKey d.1 e.1 = false) : ofList sameKey entries = entries :=
  foldl_put_of_pairwise h

/-! ## A key that equals only itself -/

section Alone

variable {sameKey : κ → κ → Bool} {key : κ}

theorem find?_put_of_alone (hleft : ∀ k, sameKey k key = true ↔ k = key)
    (hright : ∀ k, sameKey key k = true ↔ k = key) (k : κ) (value : α) (entries : List (κ × α)) :
    find? sameKey key (put sameKey k value entries)
      = if sameKey k key then some value else find? sameKey key entries := by
  induction entries with
  | nil => rfl
  | cons e rest ih => grind [put, find?]

/-- Of the values that come under such a key the last counts. -/
theorem find?_ofList_of_alone (hleft : ∀ k, sameKey k key = true ↔ k = key)
    (hright : ∀ k, sameKey key k = true ↔ k = key) (entries : List (κ × α)) :
    find? sameKey key (ofList sameKey entries)
      = ((entries.filter fun e ↦ sameKey e.1 key).map Prod.snd).getLast? := by
  have hfold (kept : List (κ × α)) :
      find? sameKey key (entries.foldl (fun kept e ↦ put sameKey e.1 e.2 kept) kept)
        = (((entries.filter fun e ↦ sameKey e.1 key).map Prod.snd).getLast?).or
          (find? sameKey key kept) := by
    induction entries generalizing kept with
    | nil => rfl
    | cons e rest ih =>
      rw [List.foldl_cons, ih, find?_put_of_alone hleft hright]
      by_cases he : sameKey e.1 key = true
      · rw [if_pos he, List.filter_cons, if_pos he, List.map_cons, List.getLast?_cons]
        cases ((rest.filter fun e ↦ sameKey e.1 key).map Prod.snd).getLast? <;> rfl
      · rw [if_neg he, List.filter_cons, if_neg he]
  rw [ofList, hfold, find?, Option.or_none]

end Alone

section Lawful

variable [DecidableEq κ]

theorem find?_put (key : κ) (value : α) (entries : List (κ × α)) (k : κ) :
    find? (· == ·) k (put (· == ·) key value entries)
      = if k = key then some value else find? (· == ·) k entries := by
  induction entries with
  | nil => grind [put, find?]
  | cons e rest ih => grind [put, find?]

theorem find?_erase (key : κ) (entries : List (κ × α)) (k : κ) :
    find? (· == ·) k (erase (· == ·) key entries)
      = if k = key then none else find? (· == ·) k entries := by
  induction entries with
  | nil => grind [erase, find?]
  | cons e rest ih => grind [erase, find?]

theorem find?_eq_none_iff {key : κ} {entries : List (κ × α)} :
    find? (· == ·) key entries = none ↔ key ∉ entries.map Prod.fst := by
  induction entries with
  | nil => simp [find?]
  | cons e rest ih => grind [find?]

/-- Where no key comes twice, the value under a key is that of the one entry with it. -/
theorem find?_eq_some_of_mem {key : κ} {value : α} {entries : List (κ × α)}
    (h : (key, value) ∈ entries) (hnodup : (entries.map Prod.fst).Nodup) :
    find? (· == ·) key entries = some value := by
  induction entries with
  | nil => cases h
  | cons e rest ih => grind [find?, List.mem_map_of_mem]

theorem put_of_notMem {key : κ} {entries : List (κ × α)} (value : α)
    (h : key ∉ entries.map Prod.fst) :
    put (· == ·) key value entries = entries ++ [(key, value)] :=
  put_of_forall_not value fun _ he ↦ beq_eq_false_iff_ne.mpr fun heq ↦
    h (heq ▸ List.mem_map_of_mem he)

/-- Where no key comes twice, a value put under a key that is there takes the place of its value. -/
theorem put_of_mem {key : κ} {entries : List (κ × α)} (value : α)
    (h : key ∈ entries.map Prod.fst) (hnodup : (entries.map Prod.fst).Nodup) :
    put (· == ·) key value entries
      = entries.map fun e ↦ (e.1, if e.1 = key then value else e.2) := by
  induction entries with
  | nil => cases h
  | cons e rest ih =>
    rw [List.map_cons, List.nodup_cons] at hnodup
    by_cases hkey : e.1 = key
    · have hrest : ∀ d ∈ rest, d.1 ≠ key := fun d hd heq ↦
        hnodup.1 (hkey ▸ heq ▸ List.mem_map_of_mem hd)
      have hsame : rest.map (fun e ↦ (e.1, if e.1 = key then value else e.2)) = rest := by
        rw [List.map_congr_left (g := id) fun d hd ↦ by rw [if_neg (hrest d hd)]; rfl, List.map_id]
      rw [List.map_cons, hsame, if_pos hkey, put, if_pos (by simp [hkey])]
    · have hmem : key ∈ rest.map Prod.fst := by
        rw [List.map_cons, List.mem_cons] at h
        exact h.resolve_left (Ne.symm hkey)
      rw [List.map_cons, if_neg hkey, put, if_neg (by simp [hkey]), ih hmem hnodup.2]

/-- Entries among which no key comes twice are all kept as they are. -/
theorem ofList_of_nodup {entries : List (κ × α)} (h : (entries.map Prod.fst).Nodup) :
    ofList (· == ·) entries = entries :=
  ofList_of_pairwise ((List.pairwise_map.mp h).imp beq_eq_false_iff_ne.mpr)

end Lawful

end CompletionServer.Keyed
