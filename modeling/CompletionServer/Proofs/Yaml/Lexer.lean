import CompletionServer.Proofs.Yaml.ScalarText
import CompletionServer.Yaml.Token.Lexer

/-!
# What can be wrong where tokens are cut

The lexer goes on in the text as the readers of scalars do, and whatever it does besides, with
indentation and with keys, keeps the place. So the fault after the known tokens, if there is one, is
one that may be met from the start of the text on.
-/

namespace CompletionServer.Yaml

open Text

/-! ## Directives, anchors and tags -/

theorem outcome_tagBytes (s : Source) (written : List Char) :
    Outcome (fun _ ↦ True) s.MayMeet (Lexer.tagBytes s written) := by
  fun_induction Lexer.tagBytes s written with
  | case1 s => trivial
  | case2 s a b rest high low ha hb ih => exact ih.bind fun _ _ ↦ trivial
  | case3 s a b rest h => exact s.mayMeet_fault .tag
  | case4 s c rest h hc => exact s.mayMeet_fault .tag
  | case5 s c rest h hc ih => exact ih.bind fun _ _ ↦ trivial

theorem reads_tagText (s : Source) : Reads Prod.snd s (Lexer.tagText s) := by
  have hspan := s.leadsTo_span Lexer.isTagChar
  unfold Lexer.tagText
  dsimp only
  split
  · exact .fail (.refl s) _
  · refine Outcome.bind (outcome_tagBytes s _) fun bytes _ ↦ ?_
    split
    · exact Reads.ok hspan
    · exact Reads.fail (.refl s) _

theorem reads_tagHandle (s : Source) : Reads Prod.snd s (Lexer.tagHandle s) := by
  unfold Lexer.tagHandle
  split
  · exact .ok s.leadsTo_next
  · dsimp only
    split
    · exact .ok (s.leadsTo_drop _)
    · exact .fail (.refl s) _
  · exact .fail (.refl s) _

theorem reads_directiveNumber (s : Source) : Reads Prod.snd s (Lexer.directiveNumber s) := by
  have hspan := s.leadsTo_span isDigit
  unfold Lexer.directiveNumber
  dsimp only
  split
  · exact .ok hspan
  · exact .fail (.refl s) _

theorem reads_directive (s : Source) : Reads Prod.snd s (Lexer.directive s) := by
  have hname := s.leadsTo_next.trans (s.next.leadsTo_span Lexer.isWord)
  have hend {found : Directive} {t : Source} (ht : s.LeadsTo t) : Reads Prod.snd s (do
      let after ← skipLineRest .directive t
      return (found, after)) :=
    ((reads_skipLineRest .directive t).before ht).bind fun _ hr ↦ .ok hr
  unfold Lexer.directive
  dsimp only
  refine .check hname _ ?_
  split
  · refine ((reads_directiveNumber _).before (hname.trans (Source.leadsTo_skip _ _))).bind
      fun major hmajor ↦ .check hmajor _ ?_
    exact ((reads_directiveNumber _).before (hmajor.trans major.2.leadsTo_next)).bind
      fun minor hminor ↦ .check hminor _ (hend hminor)
  · split
    · refine ((reads_tagHandle _).before (hname.trans (Source.leadsTo_skip _ _))).bind
        fun handle hhandle ↦ .check hhandle _ ?_
      exact ((reads_tagText _).before (hhandle.trans (handle.2.leadsTo_skip _))).bind
        fun stem hstem ↦ .check hstem _ (hend hstem)
    · exact hend (hname.trans (Source.leadsTo_skip _ _))

theorem reads_anchorName (s : Source) : Reads Prod.snd s (Lexer.anchorName s) := by
  have hname := s.leadsTo_next.trans (s.next.leadsTo_span Lexer.isWord)
  unfold Lexer.anchorName
  dsimp only
  split
  · exact .fail (.refl s) _
  · exact .ok hname

theorem reads_tag (s : Source) : Reads Prod.snd s (Lexer.tag s) := by
  have hend {found : Token} {t : Source} (ht : s.LeadsTo t) :
      Reads Prod.snd s (if atSpace t.rest then .ok (found, t) else s.fail .tag) := by
    split
    · exact .ok ht
    · exact .fail (.refl s) _
  unfold Lexer.tag
  split
  · refine ((reads_tagText _).before (s.leadsTo_drop 2)).bind fun suffix hsuffix ↦ ?_
    dsimp only
    split
    · exact hend (hsuffix.trans suffix.2.leadsTo_next)
    · exact .fail (.refl s) .tag
  · split
    · exact hend s.leadsTo_next
    · split
      · refine (reads_tagHandle s).bind fun handle hhandle ↦ ?_
        exact ((reads_tagText handle.2).before hhandle).bind fun _ ht ↦ hend ht
      · exact ((reads_tagText s.next).before s.leadsTo_next).bind fun _ ht ↦ hend ht

namespace Lexer

/-! ## Indentation and keys -/

theorem source_close (column : ℤ) (l : Lexer) : (l.close column).source = l.source := by
  unfold close
  split
  · rfl
  · rfl

theorem source_of_open? {l l' : Lexer} {column : ℕ} (h : l.open? column = some l') :
    l'.source = l.source := by
  unfold open? at h
  split at h
  · cases h
    rfl
  · cases h

/-- Where a collection may be opened, nothing is read. -/
theorem source_opened (l : Lexer) (column : ℕ) {f : Lexer → Lexer}
    (hf : ∀ l, (f l).source = l.source) :
    (if l.inFlow then l else
      match l.open? column with
      | some l => f l
      | none => l).source = l.source := by
  split
  · rfl
  · split
    · next l' h => exact (hf l').trans (source_of_open? h)
    · rfl

theorem leadsTo_next_opened (l : Lexer) (column : ℕ) {f : Lexer → Lexer}
    (hf : ∀ l, (f l).source = l.source) :
    l.source.LeadsTo (if l.inFlow then l else
      match l.open? column with
      | some l => f l
      | none => l).source.next := by
  rw [source_opened l column hf]
  exact l.source.leadsTo_next

theorem reads_forgetKey (l : Lexer) : Reads source l.source l.forgetKey := by
  unfold forgetKey
  split
  · split
    · exact .fail (.refl _) _
    · exact .ok (.refl _)
  · exact .ok (.refl _)

theorem reads_rememberKey (l : Lexer) : Reads source l.source l.rememberKey := by
  unfold rememberKey
  split
  · exact l.reads_forgetKey.bind fun _ hl ↦ .ok hl
  · exact .ok (.refl _)

theorem reads_forgetStale (l : Lexer) : Reads source l.source l.forgetStale := by
  unfold forgetStale
  dsimp only
  split
  · exact .fail (.refl _) _
  · exact .ok (.refl _)

/-! ## Between tokens -/

theorem leadsTo_toToken : ∀ (fuel : ℕ) (l : Lexer), l.source.LeadsTo (toToken fuel l).source
  | 0, l => .refl l.source
  | fuel + 1, l => by
    have hs := (l.source.leadsTo_skip (· == ' ')).trans
      (l.source.skip (· == ' ')).leadsTo_skipComment
    unfold toToken
    dsimp only
    split
    · exact hs
    · next c t h =>
      have ht := hs.trans (Source.leadsTo_of_lineBreak? h)
      exact ht.trans (leadsTo_toToken fuel { l with source := t, allowKey := _ })

theorem leadsTo_skipMark (l : Lexer) : l.source.LeadsTo l.skipMark.source := by
  unfold skipMark
  split
  · exact l.source.leadsTo_next
  · exact .refl _

/-! ## One token -/

theorem reads_boundary (l : Lexer) : Reads source l.source l.boundary := by
  have h := (l.close (-1)).reads_forgetKey
  rw [source_close] at h
  exact h.bind fun _ hl ↦ .ok hl

theorem reads_openFlow (l : Lexer) (t : Token) : Reads source l.source (l.openFlow t) :=
  l.reads_rememberKey.bind fun l' hl ↦ .ok (hl.trans l'.source.leadsTo_next)

theorem reads_closeFlow (l : Lexer) (t : Token) : Reads source l.source (l.closeFlow t) := by
  refine l.reads_forgetKey.bind fun l' hl ↦ ?_
  split
  · exact .ok (hl.trans l'.source.leadsTo_next)
  · exact .fail hl _

theorem reads_flowEntry (l : Lexer) : Reads source l.source l.flowEntry :=
  l.reads_forgetKey.bind fun l' hl ↦ .ok (hl.trans l'.source.leadsTo_next)

/-- An entry begins, which may open a collection first. -/
theorem reads_forgetKey_opened (l : Lexer) (column : ℕ) (t : Token) :
    Reads source l.source (if l.inFlow then l else
      match l.open? column with
      | some l => l.push t
      | none => l).forgetKey := by
  have h := source_opened l column (f := (push · t)) fun _ ↦ rfl
  exact (reads_forgetKey _).before (h ▸ .refl _)

theorem reads_blockEntry (l : Lexer) : Reads source l.source l.blockEntry :=
  .check (.refl _) _ ((l.reads_forgetKey_opened _ _).bind fun l' hl ↦
    .ok (hl.trans l'.source.leadsTo_next))

theorem reads_explicitKey (l : Lexer) : Reads source l.source l.explicitKey :=
  .check (.refl _) _ ((l.reads_forgetKey_opened _ _).bind fun l' hl ↦
    .ok (hl.trans l'.source.leadsTo_next))

theorem reads_value (l : Lexer) : Reads source l.source l.value := by
  unfold value
  split
  · next key rest _ =>
    let inserted := { l with keys := none :: rest }.insert key.tokens .key
    exact .ok (inserted.leadsTo_next_opened key.column (f := (insert · key.tokens _)) fun _ ↦ rfl)
  · exact .check (.refl _) _
      (.ok (l.leadsTo_next_opened l.source.column (f := (push · _)) fun _ ↦ rfl))

theorem reads_mayBeKey (l : Lexer) {read : Source → Except Fault (Token × Source)}
    (hread : ∀ s, Reads Prod.snd s (read s)) : Reads source l.source (l.mayBeKey read) :=
  l.reads_rememberKey.bind fun l' hl ↦ ((hread l'.source).before hl).bind fun _ hr ↦ .ok hr

theorem reads_fetch (l : Lexer) : Reads source l.source l.fetch := by
  have hname (ofName : String → Token) : Reads source l.source
      (l.mayBeKey fun s ↦ anchorName s >>= fun r ↦ .ok (ofName r.1, r.2)) :=
    l.reads_mayBeKey fun s ↦ (reads_anchorName s).bind fun _ hr ↦ .ok hr
  have hquoted (double : Bool) : Reads source l.source
      (l.mayBeKey fun s ↦ quotedScalar double s >>= fun r ↦ .ok (.scalar r.1 false, r.2)) :=
    l.reads_mayBeKey fun s ↦ (reads_quotedScalar double s).bind fun _ hr ↦ .ok hr
  have hblock (folded : Bool) : Reads source l.source (do
      let l ← { l with allowKey := true }.forgetKey
      let r ← blockScalar folded l.indent l.source
      return { l.push (.scalar r.1 false) with source := r.2 }) :=
    (reads_forgetKey { l with allowKey := true }).bind fun l' hl ↦
      ((reads_blockScalar folded l'.indent l'.source).before hl).bind fun _ hr ↦ .ok hr
  unfold fetch
  dsimp only
  split
  · exact .ok (.refl _)
  · refine .ite ?directive <| .ite ?marker <| .ite (l.reads_openFlow _) <|
      .ite (l.reads_openFlow _) <| .ite (l.reads_closeFlow _) <| .ite (l.reads_closeFlow _) <|
      .ite l.reads_flowEntry <| .ite l.reads_blockEntry <| .ite l.reads_explicitKey <|
      .ite l.reads_value <| .ite (hname .alias) <| .ite (hname .anchor) <|
      .ite (l.reads_mayBeKey reads_tag) <| .ite (hblock false) <| .ite (hblock true) <|
      .ite (hquoted false) <| .ite (hquoted true) <| .ite ?plain <| .fail (.refl _) _
    case directive =>
      exact l.reads_boundary.bind fun l' hl ↦
        ((reads_directive l'.source).before hl).bind fun _ hr ↦ .ok hr
    case marker =>
      exact l.reads_boundary.bind fun l' hl ↦ .ok (hl.trans (l'.source.leadsTo_drop 3))
    case plain =>
      exact l.reads_rememberKey.bind fun l' hl ↦
        .ok (hl.trans (leadsTo_plainScalar l'.inFlow _ l'.source))

/-! ## All tokens -/

theorem reads_advance (l : Lexer) : Reads (fun r ↦ r.1.source) l.source l.advance := by
  have htoken := leadsTo_toToken (l.source.rest.length + 1) l
  unfold advance
  dsimp only
  split
  · next f hf => exact (Source.mayMeet_of_barrier? hf).before htoken
  · refine ((reads_forgetStale _).before htoken).bind fun kept hkept ↦ ?_
    have hclosed : l.source.LeadsTo (kept.close kept.source.column).source := by
      rwa [source_close]
    refine .ite ?atEnd ?token
    case atEnd =>
      refine ((reads_forgetKey _).before ?_).bind fun _ hr ↦ .ok hr
      rwa [source_close]
    case token =>
      refine ((reads_fetch _).before hclosed).bind fun after hafter ↦ ?_
      split
      · next f hf => exact (Source.mayMeet_of_barrier? hf).before hafter
      · exact .ok hafter

theorem mayMeet_of_run {s : Source} {fuel found : ℕ} {l : Lexer} (hl : s.LeadsTo l.source)
    {f : Fault} (h : (run fuel found l).2 = some f) : s.MayMeet f := by
  induction fuel generalizing found l with
  | zero =>
    cases h
    exact (l.source.mayMeet_fault _).before hl
  | succ fuel ih =>
    have hstale := l.reads_forgetStale
    unfold run at h
    split at h
    · next hf =>
      cases h
      rw [hf] at hstale
      exact Source.MayMeet.before hstale hl
    · next l' hl' =>
      rw [hl'] at hstale
      have hadvance := l'.reads_advance
      have hfresh : s.LeadsTo l'.source := hl.trans hstale
      split at h
      · next hf =>
        cases h
        rw [hf] at hadvance
        exact Source.MayMeet.before hadvance hfresh
      · cases h
      · next after hafter =>
        rw [hafter] at hadvance
        exact ih (hfresh.trans hadvance) h

end Lexer

/-- **The fault after the known tokens** is a defect, what stands where the characters end, or an
escape of a code point that does not exist. -/
theorem mayMeet_of_tokens {s : Source} {f : Fault} (h : (tokens s).2 = some f) : s.MayMeet f :=
  Lexer.mayMeet_of_run (Lexer.leadsTo_skipMark (.ofSource s)) h

end CompletionServer.Yaml
