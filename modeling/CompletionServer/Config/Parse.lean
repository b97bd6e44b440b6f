import CompletionServer.Config.Basic
import CompletionServer.Config.Error
import CompletionServer.Decimal.Reading
import CompletionServer.Text.Blank
import CompletionServer.Value.Text

/-!
# Decoded values as configurations

A provider is checked field by field in a fixed order, the providers in their order, and their names
last. The first thing that is wrong is reported.
-/

namespace CompletionServer.Config

abbrev Checked := Except ConfigFault

def refuse {α : Type} (e : ConfigError) : Checked α := .error (.refused e)

def fail {α : Type} (f : ConversionFault) : Checked α := .error (.conversion f)

/-- A value that counts as given. -/
def given? (v : Value) : Option Value := if v.isTruthy then some v else none

/-- The text of a value, if it has one. -/
def textOf (v : Value) : Checked String := if v.isWritable then .ok v.text else fail .unwritable

@[simp] theorem textOf_str (s : String) : textOf (.str s) = .ok s := rfl

/-- Refuses a provider. Its name may be any value, and is written only to say which one is meant. -/
def refuseNamed {α : Type} (provider : Value) (e : String → ConfigError) : Checked α := do
  refuse (e (← textOf provider))

/-! ## Filters -/

/-- The keys of filters. -/
def filterKeys : List String := ["language", "scheme", "pattern"]

/-- Why two keys have no order, if they have none: two numbers have one, and so have two of a kind
other than null, apart from days among moments and moments of which one only names its zone. -/
def orderFault? (a b : Value) : Option ConversionFault :=
  match a, b with
  | .date _, .moment _ | .moment _, .date _ => some .dayWithMoment
  | .moment m, .moment n =>
    if m.offset.isSome == n.offset.isSome then none else some .zoneMissing
  | a, b =>
    let isNumber (v : Value) : Bool := (Numeral.ofValue? v).isSome
    if isNumber a && isNumber b then none
    else if a.kindName == b.kindName && a.kindName != "NoneType" then none
    else some (.keysUnordered b.qualifiedKindName a.qualifiedKindName)

/-- Whether `a` and `b` are numbers and `a` is the lesser one. -/
def numberLess (a b : Value) : Bool :=
  match Numeral.ofValue? a, Numeral.ofValue? b with
  | some a, some b => a.isLess b
  | _, _ => false

/-- The first of keys that are not all texts, in their order. -/
def firstKey (first : Value) (others : List Value) : Value :=
  others.foldl (fun least v ↦ if numberLess v least then v else least) first

/-- What is wrong with unknown keys that are not all texts: they have no order, or are no texts. -/
def keyFault : List Value → ConversionFault
  | [] => .keyNotText ""
  | first :: others =>
    match (first :: others).zip others |>.findSome? fun p ↦ orderFault? p.1 p.2 with
    | some f => f
    | none => .keyNotText (firstKey first others).qualifiedKindName

/-- The unknown keys of a filter, sorted. -/
def unknownKeys (entries : List (Value × Value)) : Checked (List String) :=
  let unknown := (entries.map Prod.fst).filter fun k ↦
    !filterKeys.any fun name ↦ Value.sameKey k (.str name)
  match unknown.mapM Value.points? with
  | some keys => .ok ((keys.mergeSort Text.isUpTo).map fun key ↦ String.ofList (Text.shown key))
  | none => fail (keyFault unknown)

/-- The pattern of a filter, if it has one. -/
def parsePattern (provider : Value) (v : Value) : Checked (Option String) :=
  match v with
  | .null => return none
  | v =>
    if v.isWritable then
      match Glob.compile v.text.toList with
      | .ok _ => return some v.text
      | .error e => refuseNamed provider fun name ↦ .badPattern name v.text e
    else refuseNamed provider .unwritablePattern

/-- A filter, from its mapping. -/
def parseFilter (provider : Value) (v : Value) : Checked Filter := do
  match v.entries? with
  | none => refuseNamed provider .selectorEntry
  | some entries =>
    let unknown ← unknownKeys entries
    unless unknown.isEmpty do refuseNamed provider (.selectorKeys · unknown)
    let pattern ← parsePattern provider (Value.get "pattern" entries)
    return ⟨Value.get "language" entries, Value.get "scheme" entries, pattern⟩

/-- The filters of a provider: a list of mappings, or one mapping. -/
def parseSelector (provider : Value) (v : Value) : Checked (List Filter) :=
  match v.opened with
  | .map _ => return [← parseFilter provider v]
  | .list items => items.mapM (parseFilter provider)
  | _ => refuseNamed provider .selectorNotList

/-! ## Providers -/

/-- The kind of a provider. -/
def parseKind (provider : Value) (v : Value) : Checked ProviderKind :=
  match v with
  | .str "command" => .ok .command
  | .str "static" => .ok .static
  | v => do
    let name ← textOf provider
    refuse (.unknownKind name (← textOf v))

/-- A command as it is given: a text is cut into words. -/
def commandOf (v : Value) : Value :=
  match v.points? with
  | some s => .list ((Text.wordsWhere (·.satisfies Text.isBlank) s).map Value.ofPoints)
  | none => v

/-- The arguments of a command, as texts: the items of a list, the members of a set or a pair, the
keys of a mapping or the numbers of bytes. -/
def arguments (v : Value) : Checked (List String) :=
  match v.opened with
  | .list items | .set items => items.mapM textOf
  | .map entries => entries.mapM fun e ↦ textOf e.1
  | .pair first second => [first, second].mapM textOf
  | .bytes bs => .ok (bs.map fun b ↦ toString b.toNat)
  | v => fail (.noParts v.qualifiedKindName)

/-- The base of positions: a number equal to zero or one. -/
def parsePositionBase (provider : Value) (v : Value) : Checked Numeral :=
  if Value.sameKey v (.int 0) || Value.sameKey v (.int 1) then
    match Numeral.ofValue? v with
    | some n => .ok n
    | none => refuseNamed provider .positionBase
  else refuseNamed provider .positionBase

/-- Bytes as ASCII text; what is no ASCII becomes U+FFFD, which is part of no number. -/
def asciiText (bs : List UInt8) : List Char :=
  bs.map fun b ↦ if b < 0x80 then Char.ofNat b.toNat else '\uFFFD'

/-- The seconds that a command may take: a number, or the text of one. -/
def parseTimeout (provider : Value) (v : Value) : Checked Float :=
  match v with
  | .str s => ofText s.toList
  | .bytes bs => ofText (asciiText bs)
  | v =>
    match Numeral.ofValue? v with
    | none => refuseNamed provider .timeout
    | some n =>
      match n.toFloat? with
      | some x => .ok x
      | none => fail .tooLarge
where
  ofText (s : List Char) : Checked Float :=
    match Decimal.readText s with
    | some x => .ok x
    | none => refuseNamed provider .timeout

/-- The mappings of fixed candidates. -/
def parseCompletions (provider : Value) (v : Value) : Checked (List (List (Value × Value))) :=
  match v.items?.bind fun items ↦ items.mapM Value.entries? with
  | some completions => .ok completions
  | none => refuseNamed provider .completions

/-- The value that is given under a key, an empty list where none is. -/
def listed (key : String) (entries : List (Value × Value)) : Value :=
  (given? (Value.get key entries)).getD (.list [])

/-- One provider, from its mapping. A provider without a name is named for its place. -/
def parseProvider (index : Nat) (v : Value) : Checked ProviderConfig := do
  match v.entries? with
  | none => refuse (.providerNotMapping index)
  | some entries =>
    let name := (given? (Value.get "name" entries)).getD (.str s!"provider-{index}")
    let kind ← parseKind name ((Value.get? "kind" entries).getD (.str "command"))
    let command := commandOf (listed "command" entries)
    if kind = .command ∧ command.isTruthy = false then refuseNamed name .missingCommand
    let positionBase ←
      parsePositionBase name ((Value.get? "position_base" entries).getD (.int 0))
    let timeout ← parseTimeout name ((Value.get? "timeout" entries).getD (.float 10.0))
    let completions ← parseCompletions name (listed "completions" entries)
    let nameText ← textOf name
    let command ← arguments command
    let selector ← parseSelector name (listed "selector" entries)
    return {
      name := nameText
      kind, command, positionBase
      timeout := .ofFloat timeout
      selector, completions }

/-- Providers with their places, from their mappings. -/
def parseProviders : (index : Nat) → List Value → Checked (List ProviderConfig)
  | _, [] => .ok []
  | index, v :: rest => do
    let provider ← parseProvider index v
    return provider :: (← parseProviders (index + 1) rest)

/-- The names that occur more than once, each once and sorted. -/
def duplicates (names : List String) : List String :=
  (names.eraseDups.filter fun name ↦ 1 < names.count name).mergeSort (· ≤ ·)

theorem duplicates_eq_nil_iff {names : List String} : duplicates names = [] ↔ names.Nodup := by
  rw [duplicates, ← List.length_eq_zero_iff, List.length_mergeSort, List.length_eq_zero_iff,
    List.filter_eq_nil_iff, List.nodup_iff_count]
  simp only [List.mem_eraseDups, decide_eq_true_eq, Nat.not_lt]
  constructor
  · intro h name
    by_cases hm : name ∈ names
    · exact h name hm
    · rw [List.count_eq_zero_of_not_mem hm]; omega
  · intro h name _
    exact h name

/-- A configuration, from a decoded value. -/
def parse (v : Value) : Checked Config := do
  match v.entries? with
  | none => refuse .notMapping
  | some entries =>
    match (listed "providers" entries).items? with
    | some items =>
      let providers ← parseProviders 0 items
      match duplicates (providers.map ProviderConfig.name) with
      | [] => return { providers }
      | names => refuse (.duplicateNames names)
    | none => refuse .providersNotList

end CompletionServer.Config
