import CompletionServer.Proofs.Completion.Place
import CompletionServer.Proofs.Config.Provider
import CompletionServer.Proofs.Outcome

/-!
# What keeps a value from being checked

Most values that are no configuration are refused. But a field may hold a value that is out of the
range of what it is converted to, and then the check itself fails, and with it all that relies on a
refusal. Which values these are is said by `Unconvertible`: there are four kinds of them, each in
fields of its own.

Checks are followed one by one, from the fields to the whole. What is said of a check is how it can
fail, `FailsOnlyBy`; what a field must not hold is then a premise of the lemma on its check.
-/

namespace CompletionServer.Config

/-! ## How a check fails -/

/-- That a fault is a refusal, or a conversion of which something is known. -/
inductive IsExplained (P : ConversionFault → Prop) : ConfigFault → Prop where
  | refused (e : ConfigError) : IsExplained P (.refused e)
  | conversion {c : ConversionFault} (h : P c) : IsExplained P (.conversion c)

/-- That a check gives a result, or refuses the value, or fails by a known conversion. -/
def FailsOnlyBy {α : Type} (P : ConversionFault → Prop) (x : Checked α) : Prop :=
  Outcome (fun _ ↦ True) (IsExplained P) x

namespace FailsOnlyBy

variable {α β : Type} {P Q : ConversionFault → Prop}

theorem ok (a : α) : FailsOnlyBy P (.ok a : Checked α) := trivial

theorem refuse (e : ConfigError) : FailsOnlyBy P (refuse e : Checked α) := .refused e

theorem fail {c : ConversionFault} (h : P c) : FailsOnlyBy P (fail c : Checked α) := .conversion h

theorem mono {x : Checked α} (h : FailsOnlyBy P x) (hPQ : ∀ c, P c → Q c) : FailsOnlyBy Q x := by
  refine Outcome.mono h (fun _ ↦ id) fun f hf ↦ ?_
  cases hf with
  | refused e => exact .refused e
  | conversion hc => exact .conversion (hPQ _ hc)

theorem bind {x : Checked α} {f : α → Checked β} (hx : FailsOnlyBy P x)
    (hf : ∀ a, FailsOnlyBy P (f a)) : FailsOnlyBy P (x >>= f) :=
  Outcome.bind hx fun a _ ↦ hf a

/-- A check may be cut short by another that is made only under a condition. -/
theorem guarded {c : Prop} [Decidable c] {x : Checked α} {y : Checked β} (hx : FailsOnlyBy P x)
    (hy : FailsOnlyBy P y) : FailsOnlyBy P (if c then x >>= fun _ ↦ y else y) := by
  split
  · exact hx.bind fun _ ↦ hy
  · exact hy

theorem mapM {f : α → Checked β} {xs : List α} (h : ∀ x ∈ xs, FailsOnlyBy P (f x)) :
    FailsOnlyBy P (xs.mapM f) := Outcome.mapM h

theorem textOf {v : Value} (h : ¬v.isWritable → P .unwritable) :
    FailsOnlyBy P (textOf v) := by
  unfold Config.textOf
  split
  · exact ok v.text
  · next hv => exact fail (h hv)

theorem textsOf {vs : List Value} (h : ¬Value.areWritable vs → P .unwritable) :
    FailsOnlyBy P (vs.mapM Config.textOf) :=
  mapM fun v hv ↦ textOf fun hw ↦ h fun hall ↦ hw (Value.areWritable_iff.mp hall v hv)

theorem refuseNamed {provider : Value} (h : ¬provider.isWritable → P .unwritable)
    (e : String → ConfigError) : FailsOnlyBy P (refuseNamed provider e : Checked α) :=
  (textOf h).bind fun name ↦ refuse (e name)

end FailsOnlyBy

/-! ## Values out of range -/

/-- The keys of a filter that are none of its fields. -/
def strangeKeys (fields : List (Value × Value)) : List Value :=
  (fields.map Prod.fst).filter fun k ↦ !filterKeys.any fun name ↦ Value.sameKey k (.str name)

/-- The filters that a selector is made of. -/
def filtersIn (selector : Value) : List Value :=
  match selector.opened with
  | .map _ => [selector]
  | .list items => items
  | _ => []

/-- Whether a value is a collection, so that arguments can be taken out of it. -/
def isCollection (v : Value) : Bool :=
  match v.opened with
  | .list _ | .set _ | .map _ | .pair _ _ | .bytes _ => true
  | _ => false

/-- That a field of a provider holds a value which its check cannot convert. -/
inductive Unconvertible (entries : List (Value × Value)) : ConversionFault → Prop where
  /-- A timeout that is a whole number beyond the range of floats. -/
  | timeout {n : Int} (hgiven : Value.get? "timeout" entries = some (.int n))
      (hlarge : Decimal.floatOfInt n = none) : Unconvertible entries .tooLarge
  /-- A command that counts as given and is neither a text nor a collection. -/
  | command (hgiven : (Value.get "command" entries).isTruthy = true)
      (htext : (Value.get "command" entries).points? = none)
      (hparts : isCollection (Value.get "command" entries) = false) :
      Unconvertible entries (.noParts (Value.get "command" entries).opened.qualifiedKindName)
  /-- A filter with keys that are none of its fields, and not all of them texts. -/
  | filterKey {filter : Value} {fields : List (Value × Value)} {key : Value}
      (hfilter : filter ∈ filtersIn (Value.get "selector" entries))
      (hfields : filter.entries? = some fields) (hkey : key ∈ strangeKeys fields)
      (htext : key.points? = none) : Unconvertible entries (keyFault (strangeKeys fields))
  /-- A name, a kind or a command that has no text. -/
  | unwritable {field : String} (hfield : field ∈ ["name", "kind", "command"])
      (htext : ¬(Value.get field entries).isWritable) : Unconvertible entries .unwritable

theorem kind_orderFault? {a b : Value} {f : ConversionFault} (h : orderFault? a b = some f) :
    f.kind = "TypeError" := by
  unfold orderFault? at h
  dsimp only at h
  split at h
  · cases h
    rfl
  · cases h
    rfl
  · split at h
    · cases h
    · cases h
      rfl
  · split at h
    · cases h
    · split at h
      · cases h
      · cases h
        rfl

/-- Keys are never out of a range. -/
theorem kind_keyFault (keys : List Value) : (keyFault keys).kind = "TypeError" := by
  unfold keyFault
  split
  · rfl
  · split
    · next f hf =>
      obtain ⟨p, -, horder⟩ := List.exists_of_findSome?_eq_some hf
      exact kind_orderFault? horder
    · rfl

/-- A range is exceeded only by numbers that hardly anyone would write for seconds. -/
theorem Unconvertible.exists_timeout {entries : List (Value × Value)} {c : ConversionFault}
    (h : Unconvertible entries c) (hc : c.kind = "OverflowError") :
    ∃ n : Int, Value.get? "timeout" entries = some (.int n) ∧ Decimal.twoPow 1023 ≤ n.natAbs := by
  have hkind : "TypeError" ≠ "OverflowError" := by decide
  cases h with
  | @timeout n hgiven hlarge =>
    refine ⟨n, hgiven, Nat.le_of_not_lt fun hn ↦ ?_⟩
    obtain ⟨x, hx⟩ := Decimal.exists_floatOfInt_eq_some hn
    cases hlarge.symm.trans hx
  | command => exact absurd hc hkind
  | filterKey => exact absurd ((kind_keyFault _).symm.trans hc) hkind
  | unwritable => exact absurd hc (by decide)

/-! ## Fields -/

variable {P : ConversionFault → Prop} {provider : Value} {entries : List (Value × Value)}

theorem failsOnlyBy_unknownKeys {fields : List (Value × Value)}
    (h : ∀ k ∈ strangeKeys fields, k.points? = none → P (keyFault (strangeKeys fields))) :
    FailsOnlyBy P (unknownKeys fields) := by
  unfold unknownKeys
  dsimp only
  split
  · exact .ok _
  · next hkeys =>
    obtain ⟨k, hk, hnone⟩ := exists_of_mapM_eq_none hkeys
    exact .fail (h k hk hnone)

theorem failsOnlyBy_parsePattern (h : ¬provider.isWritable → P .unwritable) (v : Value) :
    FailsOnlyBy P (parsePattern provider v) := by
  unfold parsePattern
  split
  · exact .ok none
  · split
    · split
      · exact .ok _
      · exact .refuseNamed h _
    · exact .refuseNamed h _

theorem failsOnlyBy_parseFilter (h : ¬provider.isWritable → P .unwritable) {v : Value}
    (hkeys : ∀ fields, v.entries? = some fields → ∀ k ∈ strangeKeys fields,
      k.points? = none → P (keyFault (strangeKeys fields))) :
    FailsOnlyBy P (parseFilter provider v) := by
  unfold parseFilter
  split
  · exact .refuseNamed h _
  · next fields hfields =>
    refine (failsOnlyBy_unknownKeys (hkeys fields hfields)).bind fun unknown ↦ ?_
    dsimp only
    split
    · exact (failsOnlyBy_parsePattern h _).bind fun pattern ↦ .ok _
    · exact (FailsOnlyBy.refuseNamed h _).bind fun _ ↦
        (failsOnlyBy_parsePattern h _).bind fun pattern ↦ .ok _

theorem failsOnlyBy_parseSelector (h : ¬provider.isWritable → P .unwritable) {v : Value}
    (hkeys : ∀ filter ∈ filtersIn v, ∀ fields, filter.entries? = some fields →
      ∀ k ∈ strangeKeys fields, k.points? = none → P (keyFault (strangeKeys fields))) :
    FailsOnlyBy P (parseSelector provider v) := by
  unfold filtersIn at hkeys
  unfold parseSelector
  split
  · next hopened =>
    rw [hopened] at hkeys
    exact (failsOnlyBy_parseFilter h (hkeys v List.mem_cons_self)).bind fun filter ↦ .ok _
  · next items hopened =>
    rw [hopened] at hkeys
    exact .mapM fun filter hfilter ↦ failsOnlyBy_parseFilter h (hkeys filter hfilter)
  · exact .refuseNamed h _

theorem failsOnlyBy_parseKind (h : ¬provider.isWritable → P .unwritable) {v : Value}
    (hv : ¬v.isWritable → P .unwritable) : FailsOnlyBy P (parseKind provider v) := by
  unfold parseKind
  split
  · exact .ok _
  · exact .ok _
  · exact (FailsOnlyBy.textOf h).bind fun name ↦ (FailsOnlyBy.textOf hv).bind fun kind ↦ .refuse _

theorem failsOnlyBy_arguments {v : Value} (hv : ¬v.isWritable → P .unwritable)
    (hparts : isCollection v = false → P (.noParts v.opened.qualifiedKindName)) :
    FailsOnlyBy P (arguments v) := by
  have hopened : ¬v.opened.isWritable → P .unwritable := fun h ↦ hv (mt Value.isWritable_opened h)
  unfold isCollection at hparts
  unfold arguments
  split
  · next items hitems =>
    rw [hitems] at hopened
    exact .textsOf hopened
  · next items hitems =>
    rw [hitems] at hopened
    exact .textsOf hopened
  · next entries hentries =>
    rw [hentries] at hopened
    exact .mapM fun e he ↦ .textOf fun h ↦
      hopened fun hall ↦ h (Value.areWritableEntries_iff.mp hall e he).1
  · next first second hpair =>
    rw [hpair] at hopened
    refine .textsOf fun h ↦ hopened fun hboth ↦ h ?_
    rw [Value.isWritable, Bool.and_eq_true] at hboth
    rw [Value.areWritable, Value.areWritable, hboth.1, hboth.2]
    rfl
  · exact .ok _
  · next hlist hset hmap hpair hbytes =>
    refine .fail (hparts ?_)
    split
    · next h => exact absurd h (hlist _)
    · next h => exact absurd h (hset _)
    · next h => exact absurd h (hmap _)
    · next h => exact absurd h (hpair _ _)
    · next h => exact absurd h (hbytes _)
    · rfl

theorem failsOnlyBy_parsePositionBase (h : ¬provider.isWritable → P .unwritable) (v : Value) :
    FailsOnlyBy P (parsePositionBase provider v) := by
  unfold parsePositionBase
  split
  · split
    · exact .ok _
    · exact .refuseNamed h _
  · exact .refuseNamed h _

theorem failsOnlyBy_parseTimeout (h : ¬provider.isWritable → P .unwritable) {v : Value}
    (hlarge : ∀ n, v = .int n → Decimal.floatOfInt n = none → P .tooLarge) :
    FailsOnlyBy P (parseTimeout provider v) := by
  have htext (s : List Char) : FailsOnlyBy P (parseTimeout.ofText provider s) := by
    unfold parseTimeout.ofText
    split
    · exact .ok _
    · exact .refuseNamed h _
  unfold parseTimeout
  split
  · exact htext _
  · exact htext _
  · split
    · exact .refuseNamed h _
    · next n hn =>
      -- Truth values and floats are in range; only a whole number may not be.
      split
      · exact .ok _
      · next hnone =>
        cases v with
        | int m =>
          cases hn
          exact .fail (hlarge m rfl hnone)
        | bool b | float x =>
          cases hn
          cases hnone
        | _ => cases hn

theorem failsOnlyBy_parseCompletions (h : ¬provider.isWritable → P .unwritable) (v : Value) :
    FailsOnlyBy P (parseCompletions provider v) := by
  unfold parseCompletions
  split
  · exact .ok _
  · exact .refuseNamed h _

/-! ## Providers -/

theorem failsOnlyBy_command (entries : List (Value × Value)) :
    FailsOnlyBy (Unconvertible entries) (arguments (commandOf (listed "command" entries))) := by
  unfold listed given?
  split
  · next hgiven =>
    rw [Option.getD_some]
    unfold commandOf
    split
    · next s hs =>
      -- Words of a text have texts, whatever the text is.
      refine failsOnlyBy_arguments (fun h ↦ absurd (Value.areWritable_iff.mpr ?_) h) nofun
      intro w hw
      obtain ⟨word, -, rfl⟩ := List.mem_map.mp hw
      exact Value.isWritable_ofPoints word
    · next hs =>
      exact failsOnlyBy_arguments (.unwritable (by decide)) fun hparts ↦ .command hgiven hs hparts
  · exact .ok []

theorem not_isWritable_get {key : String} {default : Value} (hdefault : default.isWritable = true)
    (h : ¬((Value.get? key entries).getD default).isWritable) :
    ¬(Value.get key entries).isWritable := by
  unfold Value.get
  cases hfound : Value.get? key entries with
  | none =>
    rw [hfound] at h
    exact absurd hdefault h
  | some v =>
    rw [hfound] at h
    exact h

theorem not_isWritable_get_name {index : ℕ} (h : ¬(nameGiven index entries).isWritable) :
    ¬(Value.get "name" entries).isWritable := by
  unfold nameGiven given? at h
  split at h
  · exact h
  · exact absurd rfl h

theorem filtersIn_listed {filter : Value} (h : filter ∈ filtersIn (listed "selector" entries)) :
    filter ∈ filtersIn (Value.get "selector" entries) := by
  unfold listed given? at h
  split at h
  · exact h
  · cases h

theorem failsOnlyBy_parseProvider (index : ℕ) (v : Value) :
    FailsOnlyBy (fun c ↦ ∃ entries, v.entries? = some entries ∧ Unconvertible entries c)
      (parseProvider index v) := by
  unfold parseProvider
  split
  · exact .refuse _
  · next entries hentries =>
    refine FailsOnlyBy.mono (P := Unconvertible entries) ?_ fun c hc ↦ ⟨entries, hentries, hc⟩
    have hname (h : ¬(nameGiven index entries).isWritable) : Unconvertible entries .unwritable :=
      .unwritable (by decide) (not_isWritable_get_name h)
    have htimeout (n : Int) (hn : (Value.get? "timeout" entries).getD (.float 10.0) = .int n)
        (hlarge : Decimal.floatOfInt n = none) : Unconvertible entries .tooLarge := by
      cases hgiven : Value.get? "timeout" entries with
      | none =>
        rw [hgiven] at hn
        cases hn
      | some v =>
        rw [hgiven] at hn
        obtain rfl : v = .int n := hn
        exact .timeout hgiven hlarge
    -- The fields follow in the order in which they are checked.
    dsimp only
    refine (failsOnlyBy_parseKind hname fun h ↦
      .unwritable (by decide) (not_isWritable_get rfl h)).bind fun kind ↦ ?_
    refine .guarded (.refuseNamed hname _) ?_
    refine (failsOnlyBy_parsePositionBase hname _).bind fun positionBase ↦ ?_
    refine (failsOnlyBy_parseTimeout hname htimeout).bind fun timeout ↦ ?_
    refine (failsOnlyBy_parseCompletions hname _).bind fun completions ↦ ?_
    refine (FailsOnlyBy.textOf hname).bind fun name ↦ ?_
    refine (failsOnlyBy_command entries).bind fun command ↦ ?_
    refine (failsOnlyBy_parseSelector hname fun filter hfilter fields hfields k hk htext ↦
      .filterKey (filtersIn_listed hfilter) hfields hk htext).bind fun selector ↦ ?_
    exact .ok _

/-- The values that a configuration lists as providers. -/
def providersIn (v : Value) : List Value :=
  ((v.entries?.map (listed "providers")).bind Value.items?).getD []

theorem failsOnlyBy_parseProviders (index : ℕ) (vs : List Value) :
    FailsOnlyBy (fun c ↦ ∃ provider ∈ vs, ∃ entries, provider.entries? = some entries ∧
      Unconvertible entries c) (parseProviders index vs) := by
  induction vs generalizing index with
  | nil => exact .ok []
  | cons v vs ih =>
    rw [parseProviders]
    have hv := (failsOnlyBy_parseProvider index v).mono fun c hc ↦
      (⟨v, List.mem_cons_self, hc⟩ : ∃ provider ∈ v :: vs, ∃ entries,
        provider.entries? = some entries ∧ Unconvertible entries c)
    refine hv.bind fun provider ↦ FailsOnlyBy.bind ((ih (index + 1)).mono ?_) fun others ↦ .ok _
    rintro c ⟨w, hw, hc⟩
    exact ⟨w, List.mem_cons_of_mem v hw, hc⟩

theorem failsOnlyBy_parse (v : Value) :
    FailsOnlyBy (fun c ↦ ∃ provider ∈ providersIn v, ∃ entries,
      provider.entries? = some entries ∧ Unconvertible entries c) (parse v) := by
  unfold parse providersIn
  split
  · exact .refuse _
  · next entries hentries =>
    rw [hentries]
    split
    · next items hitems =>
      rw [Option.map_some, Option.bind_some, hitems, Option.getD_some]
      refine (failsOnlyBy_parseProviders 0 items).bind fun providers ↦ ?_
      split
      · exact .ok _
      · exact .refuse _
    · exact .refuse _

/-- **A decoded value** is a configuration, or it is refused, or a field of one of its providers
holds a value that cannot be converted. -/
theorem parse_refuses_or_unconvertible (v : Value) :
    (∃ config, parse v = .ok config) ∨ (∃ refusal, parse v = .error (.refused refusal)) ∨
      ∃ c, parse v = .error (.conversion c) ∧ ∃ provider ∈ providersIn v, ∃ entries,
        provider.entries? = some entries ∧ Unconvertible entries c := by
  have h := failsOnlyBy_parse v
  cases hparse : parse v with
  | ok config => exact .inl ⟨config, rfl⟩
  | error f =>
    rw [hparse] at h
    cases h with
    | refused refusal => exact .inr (.inl ⟨refusal, rfl⟩)
    | conversion hc => exact .inr (.inr ⟨_, rfl, hc⟩)

/-- A provider with a timeout that no float can hold. -/
def longTimeout : Value :=
  .record [("providers", .list [
    .record [("command", .list [ .str "a"]), ("timeout", .int (Decimal.tenPow 400))]])]

theorem not_refused_longTimeout : ¬∀ v, (∃ config, parse v = .ok config) ∨
    ∃ refusal, parse v = .error (.refused refusal) := by
  intro h
  have hlarge : (parse longTimeout).map (fun _ ↦ ()) = .error (.conversion .tooLarge) := by
    decide +kernel
  rcases h longTimeout with ⟨config, hok⟩ | ⟨refusal, hrefused⟩
  · rw [hok] at hlarge
    cases hlarge
  · rw [hrefused] at hlarge
    cases hlarge

end CompletionServer.Config
