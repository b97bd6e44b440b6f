import CompletionServer.Proofs.Completion.Payload
import CompletionServer.Proofs.Session.Buffer

/-!
# Places that providers are asked about

A client counts lines and columns from zero, and a provider from the base in its configuration. The
base is checked by its value alone: what is equal to zero or one may be a whole number, a truth value
or a float. With a float all sums are floats, whatever the place is, and they are written as such;
with any other base they are whole numbers, `asks_by_base`.
-/

namespace CompletionServer

open Backend Completion

/-! ## Bases -/

/-- **That a base counts from zero or one** in whole numbers: a whole number or a truth value. -/
def Numeral.IsWholeBase (base : Numeral) (n : ℤ) : Prop := base.whole? = some n ∧ (n = 0 ∨ n = 1)

/-- That a base is a float that is equal to zero or one. -/
def Numeral.IsFloatBase (base : Numeral) (x : Float) : Prop :=
  base = .float x ∧ (Decimal.wholeOfFloat? x = some 0 ∨ Decimal.wholeOfFloat? x = some 1)

namespace Config

theorem whole_or_float_of_sameKey {v : Value} {base : Numeral}
    (hbase : Numeral.ofValue? v = some base) {n : ℤ} (hn : n = 0 ∨ n = 1)
    (h : Value.sameKey v (.int n) = true) :
    (∃ n, base.IsWholeBase n) ∨ ∃ x, base.IsFloatBase x := by
  cases v with
  | bool b =>
    cases hbase
    refine .inl ⟨_, rfl, ?_⟩
    cases b with
    | true => exact .inr rfl
    | false => exact .inl rfl
  | int m =>
    cases hbase
    obtain rfl : m = n := by simpa [Value.sameKey, Value.asInt?] using h
    exact .inl ⟨m, rfl, hn⟩
  | float x =>
    cases hbase
    have hwhole : Decimal.wholeOfFloat? x = some n := by
      simpa [Value.sameKey, Value.asInt?] using h
    refine .inr ⟨x, rfl, ?_⟩
    rcases hn with rfl | rfl
    · exact .inl hwhole
    · exact .inr hwhole
  | _ => cases hbase

/-- The base of an accepted provider is whole, or it is a float. -/
theorem whole_or_float_of_parse {v : Value} {c : Config} (h : parse v = .ok c) {p : ProviderConfig}
    (hp : p ∈ c.providers) :
    (∃ n, p.positionBase.IsWholeBase n) ∨ ∃ x, p.positionBase.IsFloatBase x := by
  obtain ⟨index, entries, hfrom, -⟩ := exists_readFrom_of_parse h hp
  have hbase := hfrom.positionBase
  unfold parsePositionBase at hbase
  split at hbase
  · next hkey =>
    split at hbase
    · next base hvalue =>
      cases hbase
      rcases Bool.or_eq_true_iff.mp hkey with hzero | hone
      · exact whole_or_float_of_sameKey hvalue (.inl rfl) hzero
      · exact whole_or_float_of_sameKey hvalue (.inr rfl) hone
    · exact absurd hbase (refuseNamed_ne_ok _ _ _)
  · exact absurd hbase (refuseNamed_ne_ok _ _ _)

end Config

/-! ## What is asked -/

section Asked

variable {v : View} {c : Capability} {p : CompletionParams} {q : Query} {r : Request}

/-- **That a capability asks its provider a request**: it makes a list of the answer, and programs
are sent the text of the request as an object, or nothing. -/
structure Capability.Asks (v : View) (c : Capability) (p : CompletionParams) (r : Request) :
    Prop where
  /-- The request is for the query, with the place counted from the base of the provider. -/
  request_eq : ∃ q, query v p = .ok q ∧ Request.ofQuery? c.provider.positionBase q = some r
  complete_eq : c.complete v p = listOf <$> (c.provider.source v.programs v.cancel).answer r
  sends : (c.complete v p).Adds fun l ↦
    ∀ text, l.input = some text → text = r.payload ∧ r.IsSentAs text

theorem Capability.asks_of_ofQuery? (hq : query v p = .ok q)
    (hr : Request.ofQuery? c.provider.positionBase q = some r) : c.Asks v p r := by
  have hcomplete := complete_eq_listOf hq hr
  refine ⟨⟨q, hq, hr⟩, hcomplete, ?_⟩
  rw [hcomplete, map_eq_pure_bind]
  refine Answering.Adds.bind ?_ fun _ ↦ Answering.adds_pure _
  apply (c.provider.adds_answer v.programs v.cancel r).mono
  intro l hl text htext
  exact ⟨hl text htext, hl text htext ▸ r.isSentAs_payload⟩

theorem Capability.Asks.unique (h : c.Asks v p r) {r' : Request} (h' : c.Asks v p r') : r = r' := by
  obtain ⟨q, hq, hr⟩ := h.request_eq
  obtain ⟨q', hq', hr'⟩ := h'.request_eq
  cases hq.symm.trans hq'
  exact Option.some.inj (hr.symm.trans hr')

theorem Capability.complete_of_ofQuery?_eq_none (hq : query v p = .ok q)
    (hr : Request.ofQuery? c.provider.positionBase q = none) :
    c.complete v p = throw .placeTooLarge := by
  have hr' : Request.ofQuery? (c.provider.source v.programs v.cancel).positionBase
      (q.withSupport (some v.snippetSupport)) = none := by
    rw [withSupport_query hq]
    exact hr
  rw [complete_eq_of_query hq, Source.complete, hr']

end Asked

/-! ## Places -/

namespace Numeral

variable {base : Numeral}

theorem IsWholeBase.add?_eq {n : ℤ} (h : base.IsWholeBase n) (m : ℤ) :
    add? (.int m) base = some (.int (m + n)) := by
  rw [add?, h.1]
  rfl

theorem IsFloatBase.add?_eq {x : Float} (h : base.IsFloatBase x) (m : ℤ) :
    add? (.int m) base = (Decimal.floatOfInt m).map fun y ↦ .float (y + x) := by
  have hfloat : toFloat? (.int m) = Decimal.floatOfInt m := rfl
  rw [h.1, add?, hfloat]
  cases Decimal.floatOfInt m with
  | none => rfl
  | some y => rfl

end Numeral

theorem ProviderConfig.IsRegistered.positionBase_eq {directory : Option Path} {p : ProviderConfig}
    {r : Registration} (h : p.IsRegistered directory r) :
    r.provider.positionBase = p.positionBase := by
  rcases h.provider_eq with ⟨-, hprovider⟩ | ⟨-, hprovider⟩
  · rw [hprovider]
    rfl
  · rw [hprovider]
    rfl

/-- The query for a document with a name is at the place of the request. -/
theorem Capability.query_eq {v : View} {params : CompletionParams} {name : String}
    (hname : Uri.fileName params.uri = .ok name) :
    ∃ q, query v params = .ok q ∧ q.line = .int params.line ∧ q.column = .int params.column := by
  rw [query, hname]
  exact ⟨_, rfl, rfl, rfl⟩

/-- **That a provider is asked about a place in whole numbers**, and that these are written as such
if they have no more digits than can be written. -/
def Capability.AsksWhole (v : View) (c : Capability) (params : CompletionParams) (line column : ℤ) :
    Prop :=
  ∃ r : Request, c.Asks v params r ∧ r.line = .int line ∧ r.column = .int column ∧
    (line.natAbs < Decimal.tenPow Text.digitLimit →
      column.natAbs < Decimal.tenPow Text.digitLimit →
      r.Shows (toString line) (toString column) ∧
        Json.IsTextOf (r.tree line column) r.payload.toList)

/-- **That a provider is asked about a place in floats**, and that these are not written as whole
numbers are. -/
def Capability.AsksFloat (v : View) (c : Capability) (params : CompletionParams)
    (line column : Float) : Prop :=
  ∃ r : Request, c.Asks v params r ∧ r.line = .float line ∧ r.column = .float column ∧
    r.Shows (Json.write (.float line)) (Json.write (.float column)) ∧
    ∀ n : ℤ, Json.write (.float line) ≠ toString n ∧ Json.write (.float column) ≠ toString n

section Places

variable {v : View} {c : Capability} {params : CompletionParams} {name : String}

theorem Capability.asksWhole (hname : Uri.fileName params.uri = .ok name) {base : ℤ}
    (hbase : c.provider.positionBase.IsWholeBase base) :
    c.AsksWhole v params (params.line + base) (params.column + base) := by
  obtain ⟨q, hq, hline, hcolumn⟩ := query_eq (v := v) hname
  have hrequest : Request.ofQuery? c.provider.positionBase q
      = some ⟨q.fileName, .int (params.line + base), .int (params.column + base), true, true, true,
          q.wantsSnippets, q.buffer⟩ := by
    rw [Request.ofQuery?, hline, hcolumn, hbase.add?_eq, hbase.add?_eq]
    rfl
  refine ⟨_, asks_of_ofQuery? hq hrequest, rfl, rfl, fun hlines hcolumns ↦ ⟨?_, ?_⟩⟩
  · rw [← Json.write_int, ← Json.write_int]
    exact Request.shows_write _
  · exact Request.IsAt.isTextOf_payload ⟨rfl, rfl, hlines, hcolumns⟩

theorem Capability.asksFloat (hname : Uri.fileName params.uri = .ok name) {base line column : Float}
    (hbase : c.provider.positionBase.IsFloatBase base)
    (hline : Decimal.floatOfInt params.line = some line)
    (hcolumn : Decimal.floatOfInt params.column = some column) :
    c.AsksFloat v params (line + base) (column + base) := by
  obtain ⟨q, hq, hqline, hqcolumn⟩ := query_eq (v := v) hname
  have hrequest : Request.ofQuery? c.provider.positionBase q
      = some ⟨q.fileName, .float (line + base), .float (column + base), true, true, true,
          q.wantsSnippets, q.buffer⟩ := by
    rw [Request.ofQuery?, hqline, hqcolumn, hbase.add?_eq, hbase.add?_eq, hline, hcolumn]
    rfl
  refine ⟨_, asks_of_ofQuery? hq hrequest, rfl, rfl, Request.shows_write _, fun n ↦ ⟨?_, ?_⟩⟩
  · exact Json.write_float_ne_int _ n
  · exact Json.write_float_ne_int _ n

theorem Capability.complete_of_out_of_range (hname : Uri.fileName params.uri = .ok name)
    {base : Float} (hbase : c.provider.positionBase.IsFloatBase base)
    (hplace : Decimal.floatOfInt params.line = none ∨ Decimal.floatOfInt params.column = none) :
    c.complete v params = throw .placeTooLarge := by
  obtain ⟨q, hq, hline, hcolumn⟩ := query_eq (v := v) hname
  refine complete_of_ofQuery?_eq_none hq ?_
  rw [Request.ofQuery?, hline, hcolumn, hbase.add?_eq, hbase.add?_eq]
  rcases hplace with hnone | hnone
  · rw [hnone]
    rfl
  · rw [hnone]
    cases Decimal.floatOfInt params.line with
    | none => rfl
    | some line => rfl

end Places

/-- **Places by the base of a provider.** Every provider of an accepted configuration is asked about
the place of the request, counted from its base. The place is in whole numbers unless the base is a
float. With a float it is in floats, or there is no request since the place is out of range. -/
theorem asks_by_base {value : Value} {config : Config} (h : Config.parse value = .ok config)
    {p : ProviderConfig} (hp : p ∈ config.providers) {directory : Option Path} {c : Capability}
    (hc : p.IsRegistered directory c) (v : View) {params : CompletionParams} {name : String}
    (hname : Uri.fileName params.uri = .ok name) :
    (∃ base, p.positionBase.IsWholeBase base ∧
      c.AsksWhole v params (params.line + base) (params.column + base)) ∨
    ∃ base, p.positionBase.IsFloatBase base ∧
      ((∃ line column, Decimal.floatOfInt params.line = some line ∧
          Decimal.floatOfInt params.column = some column ∧
          c.AsksFloat v params (line + base) (column + base)) ∨
        (Decimal.floatOfInt params.line = none ∨ Decimal.floatOfInt params.column = none) ∧
          c.complete v params = throw .placeTooLarge) := by
  rcases Config.whole_or_float_of_parse h hp with ⟨base, hbase⟩ | ⟨base, hbase⟩
  · refine .inl ⟨base, hbase, ?_⟩
    rw [← hc.positionBase_eq] at hbase
    exact Capability.asksWhole hname hbase
  · refine .inr ⟨base, hbase, ?_⟩
    rw [← hc.positionBase_eq] at hbase
    by_cases hrange : Decimal.floatOfInt params.line = none ∨
        Decimal.floatOfInt params.column = none
    · exact .inr ⟨hrange, Capability.complete_of_out_of_range hname hbase hrange⟩
    · obtain ⟨hline, hcolumn⟩ := not_or.mp hrange
      obtain ⟨line, hline⟩ := Option.ne_none_iff_exists'.mp hline
      obtain ⟨column, hcolumn⟩ := Option.ne_none_iff_exists'.mp hcolumn
      exact .inl ⟨line, column, hline, hcolumn, Capability.asksFloat hname hbase hline hcolumn⟩

/-- A provider that counts from a base. -/
def countingFrom (base : Value) : Value :=
  .record [("providers", .list [
    .record [("command", .str "backend"), ("position_base", base)]])]

/-- A place in the fourth line. -/
def inFourthLine : CompletionParams := ⟨"untitled:a", 3, 8⟩

theorem fileName_inFourthLine : Uri.fileName inFourthLine.uri = .ok "untitled:a" := by
  decide +kernel

theorem exists_registered_countingFrom (base : Value) (n : Option ℤ)
    (h : (Config.parse (countingFrom base)).map (fun config ↦ config.providers.map fun p ↦
      (p.positionBase.whole?, (Provider.ofConfig none p).isOk)) = .ok [(n, true)]) :
    ∃ config p c, Config.parse (countingFrom base) = .ok config ∧ p ∈ config.providers ∧
      p.positionBase.whole? = n ∧ p.IsRegistered none c := by
  cases hparse : Config.parse (countingFrom base) with
  | error f =>
    rw [hparse] at h
    cases h
  | ok config =>
    rw [hparse] at h
    obtain ⟨p, hp, hmade⟩ := List.mem_map.mp (Except.ok.inj h ▸ List.mem_singleton_self _)
    have hok : (Provider.ofConfig none p).isOk = true := congrArg Prod.snd hmade
    cases hprovider : Provider.ofConfig none p with
    | error e =>
      rw [hprovider] at hok
      cases hok
    | ok provider =>
      exact ⟨config, p, ⟨p.selector, provider⟩, rfl, hp, congrArg Prod.fst hmade, rfl, hprovider⟩

/-- A truth value as a base: the place is in whole numbers all the same. -/
theorem asks_by_base_true : ∃ config p c,
    Config.parse (countingFrom (.bool true)) = .ok config ∧ p ∈ config.providers ∧
      p.IsRegistered none c ∧ Uri.fileName inFourthLine.uri = .ok "untitled:a" ∧
      ∀ v, Capability.AsksWhole v c inFourthLine 4 9 := by
  obtain ⟨config, p, c, hparse, hp, hwhole, hc⟩ :=
    exists_registered_countingFrom (.bool true) (some 1) (by decide +kernel)
  refine ⟨config, p, c, hparse, hp, hc, fileName_inFourthLine, fun v ↦ ?_⟩
  rcases asks_by_base hparse hp hc v fileName_inFourthLine with
    ⟨base, hbase, hasks⟩ | ⟨base, hbase, -⟩
  · cases hwhole.symm.trans hbase.1
    exact hasks
  · rw [hbase.1] at hwhole
    cases hwhole

/-- A float as a base, which is equal to one: the place is in floats. -/
theorem not_asks_by_base_float :
    ¬∀ (value : Value) (config : Config) (p : ProviderConfig) (directory : Option Path)
        (c : Capability) (v : View) (params : CompletionParams) (name : String),
      Config.parse value = .ok config → p ∈ config.providers → p.IsRegistered directory c →
        Uri.fileName params.uri = .ok name →
        ∃ (base : ℤ) (r : Request), (base = 0 ∨ base = 1) ∧ Capability.Asks v c params r ∧
          r.line = .int (params.line + base) ∧ r.column = .int (params.column + base) := by
  intro h
  obtain ⟨config, p, c, hparse, hp, hwhole, hc⟩ :=
    exists_registered_countingFrom (.float 1.0) none (by decide +kernel)
  let v : View := ⟨[], false, fun _ _ _ ↦ .refused "", false⟩
  obtain ⟨base, r, -, hasks, hline, -⟩ := h (countingFrom (.float 1.0)) config p none c v
    inFourthLine "untitled:a" hparse hp hc fileName_inFourthLine
  rcases Config.whole_or_float_of_parse hparse hp with ⟨n, hn⟩ | ⟨x, hx⟩
  · cases hwhole.symm.trans hn.1
  · rw [← hc.positionBase_eq] at hx
    obtain ⟨line, hlines⟩ := Decimal.exists_floatOfInt_eq_some (n := 3) (by decide +kernel)
    obtain ⟨column, hcolumns⟩ := Decimal.exists_floatOfInt_eq_some (n := 8) (by decide +kernel)
    obtain ⟨r', hasks', hfloat, -⟩ :=
      Capability.asksFloat (v := v) fileName_inFourthLine hx hlines hcolumns
    rw [hasks.unique hasks', hfloat] at hline
    cases hline

end CompletionServer
