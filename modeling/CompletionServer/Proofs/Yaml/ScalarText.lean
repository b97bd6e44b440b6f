import Mathlib.Algebra.Ring.Nat
import Mathlib.Data.List.Infix
import CompletionServer.Proofs.Outcome
import CompletionServer.Yaml.ScalarText

/-!
# What can be wrong with the text of a scalar

Every reader goes on in the text: what it leaves is an end of what it was given, and what follows
the last character stays the same. So a fault is one of three: a defect of the text, what stands
where the characters end, or an escape in double quotes of a code point that does not exist. Such an
escape is the only scalar fault that comes before the scalars have tags.
-/

namespace CompletionServer.Yaml

open Text

/-! ## Going on in a text -/

/-- That reading from one place may lead to another. -/
structure Source.LeadsTo (s t : Source) : Prop where
  rest : t.rest <:+ s.rest
  ending : t.ending = s.ending

namespace Source

variable {s t u : Source}

theorem LeadsTo.refl (s : Source) : s.LeadsTo s := ⟨List.suffix_refl _, rfl⟩

theorem LeadsTo.trans (h : s.LeadsTo t) (h' : t.LeadsTo u) : s.LeadsTo u :=
  ⟨h'.rest.trans h.rest, h'.ending.trans h.ending⟩

theorem rest_next (s : Source) : s.next.rest = s.rest.tail := by
  unfold next
  cases hs : s.rest with
  | nil => simp [hs]
  | cons c rest => simp

theorem leadsTo_next (s : Source) : s.LeadsTo s.next := by
  constructor
  · rw [rest_next]
    exact List.tail_suffix s.rest
  · unfold next
    split
    · rfl
    · rfl

theorem leadsTo_drop (s : Source) (n : ℕ) : s.LeadsTo (s.drop n) := by
  induction n generalizing s with
  | zero => exact .refl s
  | succ n ih => exact s.leadsTo_next.trans (ih s.next)

theorem leadsTo_span (s : Source) (p : Char → Bool) : s.LeadsTo (s.span p).2 := s.leadsTo_drop _

theorem leadsTo_skip (s : Source) (p : Char → Bool) : s.LeadsTo (s.skip p) := s.leadsTo_span p

theorem leadsTo_skipComment (s : Source) : s.LeadsTo s.skipComment := by
  unfold skipComment
  split
  · exact s.leadsTo_skip _
  · exact .refl s

theorem leadsTo_of_lineBreak? {c : Char} (h : s.lineBreak? = some (c, t)) : s.LeadsTo t := by
  suffices t = s.next from this ▸ s.leadsTo_next
  unfold lineBreak? at h
  split at h
  · cases h
  · split at h
    · cases h
      rfl
    · split at h
      · cases h
        rfl
      · cases h

end Source

/-! ## Faults -/

/-- The faults that may be met from a place on, before any scalar has a tag. -/
inductive Source.MayMeet (s : Source) : Fault → Prop where
  /-- A defect of the text. -/
  | malformed (e : Error) : s.MayMeet (.malformed e)
  /-- What stands where the characters end. -/
  | ending {f : Fault} (h : s.ending = some f) : s.MayMeet f
  /-- An escape with eight digits of a code point that does not exist. -/
  | escape {digits : List Char} {n : ℕ} (h : '\\' :: 'U' :: digits <:+: s.rest)
      (hlength : digits.length = 8) (hn : readDigits 16 hexDigit? digits = some n)
      (hlarge : 0x110000 ≤ n) : s.MayMeet (.impossible (.codePoint n))

variable {α β : Type} {s t : Source}

/-- What may be met farther on may be met from here. -/
theorem Source.MayMeet.before {f : Fault} (h : t.MayMeet f) (hst : s.LeadsTo t) : s.MayMeet f := by
  cases h with
  | malformed e => exact .malformed e
  | ending h => exact .ending (hst.ending ▸ h)
  | escape h hlength hn hlarge => exact .escape (h.trans hst.rest.isInfix) hlength hn hlarge

theorem Source.mayMeet_of_barrier? {f : Fault} (h : s.barrier? = some f) : s.MayMeet f := by
  unfold Source.barrier? at h
  split at h
  · exact .ending h
  · cases h

theorem Source.mayMeet_fault (s : Source) (d : Defect) : s.MayMeet (s.fault d) := by
  unfold Source.fault
  cases h : s.barrier? with
  | none => exact .malformed _
  | some f => exact Source.mayMeet_of_barrier? h

/-- That a reader goes on from `s` to the place of its result, or fails with a fault that may be
met. -/
def Reads (place : α → Source) (s : Source) (x : Except Fault α) : Prop :=
  Outcome (fun r ↦ s.LeadsTo (place r)) s.MayMeet x

namespace Reads

variable {place : α → Source} {place' : β → Source} {x : Except Fault α}

theorem ok {a : α} (h : s.LeadsTo (place a)) : Reads place s (.ok a) := h

theorem fail (h : s.LeadsTo t) (d : Defect) : Reads place s (t.fail d) :=
  (t.mayMeet_fault d).before h

theorem before (h : Reads place t x) (hst : s.LeadsTo t) : Reads place s x :=
  Outcome.mono h (fun _ hr ↦ hst.trans hr) fun _ hf ↦ hf.before hst

theorem bind {f : α → Except Fault β} (hx : Reads place s x)
    (hf : ∀ a, s.LeadsTo (place a) → Reads place' s (f a)) : Reads place' s (x >>= f) :=
  Outcome.bind hx hf

/-- Something may be asked of the text first. -/
theorem check {c : Prop} [Decidable c] (hst : s.LeadsTo t) (d : Defect)
    (hx : Reads place s x) : Reads place s (if c then t.fail d >>= fun _ : PUnit ↦ x else x) := by
  split
  · exact fail hst d
  · exact hx

theorem ite {c : Prop} [Decidable c] {y : Except Fault α} (hx : Reads place s x)
    (hy : Reads place s y) : Reads place s (if c then x else y) := by
  split
  · exact hx
  · exact hy

end Reads

/-! ## Plain scalars -/

theorem leadsTo_plainBreaks : ∀ (fuel : ℕ) (s : Source), s.LeadsTo (plainBreaks fuel s).2
  | 0, s => .refl s
  | fuel + 1, s => by
    unfold plainBreaks
    split
    · exact s.leadsTo_next.trans (leadsTo_plainBreaks fuel s.next)
    · split
      · exact .refl s
      · next c t h =>
        have ht := Source.leadsTo_of_lineBreak? h
        split
        · exact ht
        · exact ht.trans (leadsTo_plainBreaks fuel t)

theorem leadsTo_plainGap (s : Source) : s.LeadsTo (plainGap s).2.1 := by
  have hspan := s.leadsTo_span (· == ' ')
  unfold plainGap
  dsimp only
  split
  · exact hspan
  · next first t h =>
    have ht := hspan.trans (Source.leadsTo_of_lineBreak? h)
    have hbreaks := ht.trans (leadsTo_plainBreaks (t.rest.length + 1) t)
    split
    · exact ht
    · split
      · next h =>
        rw [h] at hbreaks
        exact hbreaks
      · next h =>
        rw [h] at hbreaks
        exact hbreaks

theorem leadsTo_plainFrom (inFlow : Bool) (indent : ℤ) :
    ∀ (fuel : ℕ) (gap : List Char) (broke : Bool) (s : Source),
      s.LeadsTo (plainFrom inFlow indent fuel gap broke s).2.1
  | 0, _, _, s => .refl s
  | fuel + 1, gap, broke, s => by
    unfold plainFrom
    dsimp only
    split
    · exact .refl s
    · have hgap := (s.leadsTo_drop (plainStretch inFlow s.rest).length).trans (leadsTo_plainGap _)
      split
      · exact hgap
      · exact hgap.trans (leadsTo_plainFrom inFlow indent fuel _ _ _)

theorem leadsTo_plainScalar (inFlow : Bool) (indent : ℤ) (s : Source) :
    s.LeadsTo (plainScalar inFlow indent s).2.1 := by
  unfold plainScalar
  exact leadsTo_plainFrom inFlow indent _ _ _ s

/-! ## Quoted scalars -/

theorem reads_quotedBreaks : ∀ (fuel : ℕ) (s : Source), Reads Prod.snd s (quotedBreaks fuel s)
  | 0, s => .ok (.refl s)
  | fuel + 1, s => by
    unfold quotedBreaks
    dsimp only
    split
    · exact .fail (.refl s) _
    · have hskip := s.leadsTo_skip isGap
      split
      · exact .ok hskip
      · next c t h =>
        have ht := hskip.trans (Source.leadsTo_of_lineBreak? h)
        exact ((reads_quotedBreaks fuel t).before ht).bind fun _ hr ↦ .ok hr

theorem reads_quotedGap (s : Source) : Reads Prod.snd s (quotedGap s) := by
  have hspan := s.leadsTo_span isGap
  unfold quotedGap
  dsimp only
  split
  · split
    · exact .fail hspan _
    · exact .ok hspan
  · next first t h =>
    have ht := hspan.trans (Source.leadsTo_of_lineBreak? h)
    exact ((reads_quotedBreaks _ t).before ht).bind fun _ hr ↦ .ok hr

theorem lt_of_foldlM_hexDigit? {digits : List Char} {m n : ℕ}
    (h : digits.foldlM (fun n c ↦ (hexDigit? c).map (n * 16 + ·)) m = some n) :
    n < (m + 1) * 16 ^ digits.length := by
  induction digits generalizing m with
  | nil =>
    cases h
    simp
  | cons c digits ih =>
    rw [List.foldlM_cons] at h
    obtain ⟨k, hk, h⟩ := Option.bind_eq_some_iff.mp h
    obtain ⟨d, hd, rfl⟩ := Option.map_eq_some_iff.mp hk
    have hd := hexDigit?_lt hd
    calc n < (m * 16 + d + 1) * 16 ^ digits.length := ih h
      _ ≤ ((m + 1) * 16) * 16 ^ digits.length := Nat.mul_le_mul_right _ (by omega)
      _ = (m + 1) * 16 ^ (c :: digits).length := by
        rw [List.length_cons, Nat.pow_succ', Nat.mul_assoc]

/-- Only an escape with eight digits can be beyond the code points. -/
theorem escapeDigits?_of_large {c : Char} {count n : ℕ} {digits : List Char}
    (hcount : escapeDigits? c = some count) (hlength : digits.length = count)
    (hn : readDigits 16 hexDigit? digits = some n) (hlarge : 0x110000 ≤ n) :
    c = 'U' ∧ count = 8 := by
  have hlt : n < (0 + 1) * 16 ^ count := hlength ▸ lt_of_foldlM_hexDigit? hn
  unfold escapeDigits? at hcount
  split at hcount
  · cases hcount
    omega
  · cases hcount
    omega
  · cases hcount
    exact ⟨rfl, rfl⟩
  · cases hcount

/-- An escape is read from the character after its backslash. -/
theorem reads_quotedEscape {rest : List Char} (hs : s.rest = '\\' :: rest) :
    Reads Prod.snd s (quotedEscape s.next) := by
  have hnext := s.leadsTo_next
  have hrest : s.next.rest = rest := by rw [s.rest_next, hs, List.tail_cons]
  unfold quotedEscape
  rw [hrest]
  split
  · exact .fail hnext _
  · next c rest =>
    split
    · exact .ok (hnext.trans s.next.leadsTo_next)
    · next count _ hcount =>
      dsimp only
      split
      · exact .fail hnext _
      · next n hn =>
        split
        · exact .fail hnext _
        · next hshort =>
          have hlength : (rest.take count).length = count := by
            have := List.length_take_le count rest
            omega
          split
          · next hlarge =>
            obtain ⟨rfl, rfl⟩ := escapeDigits?_of_large hcount hlength hn hlarge
            have hinfix : '\\' :: 'U' :: rest.take 8 <:+: s.rest := by
              rw [hs]
              have hprefix := (List.prefix_cons_inj 'U').mpr (List.take_prefix 8 rest)
              exact ((List.prefix_cons_inj '\\').mpr hprefix).isInfix
            exact .escape hinfix hlength hn hlarge
          · exact .ok (hnext.trans (s.next.leadsTo_drop _))
    · split
      · exact .fail hnext _
      · next c t h =>
        have ht := hnext.trans (Source.leadsTo_of_lineBreak? h)
        exact ((reads_quotedBreaks _ t).before ht).bind fun _ hr ↦ .ok hr

theorem reads_quotedFrom (double : Bool) :
    ∀ (fuel : ℕ) (s : Source), Reads Prod.snd s (quotedFrom double fuel s)
  | 0, s => .fail (.refl s) _
  | fuel + 1, s => by
    -- The rest of the scalar may come after any of its parts.
    have hrest {others : List Point → List Point} {t : Source} (ht : s.LeadsTo t) :
        Reads Prod.snd s (quotedFrom double fuel t >>= fun r ↦ .ok (others r.1, r.2)) :=
      ((reads_quotedFrom double fuel t).before ht).bind fun _ hr ↦ .ok hr
    unfold quotedFrom
    split
    · exact .fail (.refl s) _
    · next c rest hs =>
      split
      · exact (reads_quotedGap s).bind fun _ hr ↦ hrest hr
      · split
        · next hc =>
          obtain rfl : c = '\\' := by
            have := (Bool.and_eq_true_iff.mp hc).2
            exact beq_iff_eq.mp this
          exact (reads_quotedEscape hs).bind fun _ hr ↦ hrest hr
        · split
          · exact .ok s.leadsTo_next
          · split
            · split
              · exact hrest (s.leadsTo_drop 2)
              · exact .ok s.leadsTo_next
            · exact hrest s.leadsTo_next

theorem reads_quotedScalar (double : Bool) (s : Source) :
    Reads Prod.snd s (quotedScalar double s) :=
  (reads_quotedFrom double _ s.next).before s.leadsTo_next

/-! ## Block scalars -/

theorem reads_indentation? (s : Source) : Reads Prod.snd s (indentation? s) := by
  unfold indentation?
  split
  · exact .ok (.refl s)
  · exact .fail (.refl s) _
  · exact .ok s.leadsTo_next

theorem reads_blockHeader (s : Source) : Reads (fun r ↦ r.2.2) s (blockHeader s) := by
  have hend {chomping : Chomping} {increment : Option ℕ} {t : Source} (ht : s.LeadsTo t) :
      Reads (fun r ↦ r.2.2) s
        (if atSpace t.rest then .ok (chomping, increment, t) else t.fail .blockHeader) := by
    split
    · exact .ok ht
    · exact .fail ht _
  unfold blockHeader
  dsimp only
  split
  · exact ((reads_indentation? s.next).before s.leadsTo_next).bind fun _ hr ↦ hend hr
  · refine (reads_indentation? s).bind fun r hr ↦ ?_
    split
    · exact hend (hr.trans r.2.leadsTo_next)
    · exact hend hr

theorem reads_skipLineRest (d : Defect) (s : Source) : Reads id s (skipLineRest d s) := by
  have hs := (s.leadsTo_skip (· == ' ')).trans (s.skip (· == ' ')).leadsTo_skipComment
  unfold skipLineRest
  dsimp only
  refine .check hs d ?_
  split
  · exact .ok hs
  · next h => exact .ok (hs.trans (Source.leadsTo_of_lineBreak? h))

theorem leadsTo_leadingBreaks : ∀ (fuel widest : ℕ) (s : Source),
    s.LeadsTo (leadingBreaks fuel widest s).2.2
  | 0, _, s => .refl s
  | fuel + 1, widest, s => by
    unfold leadingBreaks
    split
    · exact s.leadsTo_next.trans (leadsTo_leadingBreaks fuel _ s.next)
    · split
      · exact .refl s
      · next c t h =>
        exact (Source.leadsTo_of_lineBreak? h).trans (leadsTo_leadingBreaks fuel widest t)

theorem leadsTo_skipIndent (indent : ℤ) : ∀ (fuel : ℕ) (s : Source),
    s.LeadsTo (skipIndent indent fuel s)
  | 0, s => .refl s
  | fuel + 1, s => by
    unfold skipIndent
    split
    · exact s.leadsTo_next.trans (leadsTo_skipIndent indent fuel s.next)
    · exact .refl s

theorem leadsTo_blockBreaks (indent : ℤ) : ∀ (fuel : ℕ) (s : Source),
    s.LeadsTo (blockBreaks indent fuel s).2
  | 0, s => .refl s
  | fuel + 1, s => by
    have hskip := leadsTo_skipIndent indent (s.rest.length + 1) s
    unfold blockBreaks
    dsimp only
    split
    · exact hskip
    · next c t h =>
      exact (hskip.trans (Source.leadsTo_of_lineBreak? h)).trans
        (leadsTo_blockBreaks indent fuel t)

theorem leadsTo_blockLines (folded : Bool) (indent : ℤ) :
    ∀ (fuel : ℕ) (breaks : List Char) (s : Source),
      s.LeadsTo (blockLines folded indent fuel breaks s).2.2.2
  | 0, _, s => .refl s
  | fuel + 1, breaks, s => by
    unfold blockLines
    dsimp only
    split
    · exact .refl s
    · have hline := s.leadsTo_span fun c ↦ !isBreak c
      -- Whatever ends the line, the empty lines after it are next, and maybe more lines.
      have hlater {t : Source} (ht : s.LeadsTo t) (breaks : List Char) :
          s.LeadsTo (blockLines folded indent fuel breaks
            (blockBreaks indent (t.rest.length + 1) t).2).2.2.2 :=
        (ht.trans (leadsTo_blockBreaks indent _ t)).trans
          (leadsTo_blockLines folded indent fuel breaks _)
      split
      · split
        · exact hlater hline _
        · exact hline.trans (leadsTo_blockBreaks indent _ _)
      · next h =>
        have hend := hline.trans (Source.leadsTo_of_lineBreak? h)
        split
        · exact hlater hend _
        · exact hend.trans (leadsTo_blockBreaks indent _ _)

theorem reads_blockScalar (folded : Bool) (parent : ℤ) (s : Source) :
    Reads Prod.snd s (blockScalar folded parent s) := by
  unfold blockScalar
  refine ((reads_blockHeader s.next).before s.leadsTo_next).bind fun header hheader ↦ ?_
  refine ((reads_skipLineRest .blockHeader _).before hheader).bind fun t ht ↦ ?_
  dsimp only
  split
  · exact .ok ((ht.trans (leadsTo_blockBreaks _ _ _)).trans (leadsTo_blockLines _ _ _ _ _))
  · exact .ok ((ht.trans (leadsTo_leadingBreaks _ _ _)).trans (leadsTo_blockLines _ _ _ _ _))

end CompletionServer.Yaml
