import CompletionServer.Backend.Answer
import CompletionServer.Proofs.Json.Written
import CompletionServer.Text.Utf8.RoundTrip

/-!
# Outputs and the candidates in them

A backend may write its candidates in many ways, and all of them are read as the same candidates:
each field under either of its names, an empty one as null or not at all, other members and other
items in between, the list by itself or in an object, and every value as any text of it.

An empty list counts as not given, so in an object it does not hide a list under the other name.
-/

namespace CompletionServer

open Completion Text

/-! ## Trimmed texts -/

namespace Text

theorem trimWhere_append {p : Char → Bool} {before after s : List Char} {c d : Char}
    (hbefore : ∀ x ∈ before, p x = true) (hafter : ∀ x ∈ after, p x = true) (hc : p c = false)
    (hd : p d = false) :
    trimWhere p (before ++ (c :: (s ++ [d]) ++ after)) = c :: (s ++ [d]) := by
  have hleft : (before ++ (c :: (s ++ [d]) ++ after)).dropWhile p = c :: (s ++ [d]) ++ after := by
    rw [List.dropWhile_append_of_pos hbefore]
    exact List.dropWhile_cons_of_neg (Bool.eq_false_iff.mp hc)
  have hright : ((c :: (s ++ [d])) ++ after).reverse = after.reverse ++ d :: (c :: s).reverse := by
    simp
  rw [trimWhere, hleft, hright,
    List.dropWhile_append_of_pos fun x hx ↦ hafter x (List.mem_reverse.mp hx),
    List.dropWhile_cons_of_neg (Bool.eq_false_iff.mp hd), List.reverse_cons, List.reverse_reverse]
  rfl

end Text

namespace Json

theorem isBlank_of_isSpace {c : Char} (h : isSpace c = true) : isBlank c = true := by
  rcases eq_of_isSpace h with rfl | rfl | rfl | rfl
  all_goals decide

/-- That a text ends with something other than a blank. -/
def Closes (s : List Char) : Prop := ∃ t d, s = t ++ [d] ∧ isBlank d = false

theorem closes_singleton {d : Char} (hd : isBlank d = false) : Closes [d] := ⟨[], d, rfl, hd⟩

theorem Closes.append {s : List Char} (h : Closes s) (t : List Char) : Closes (t ++ s) := by
  obtain ⟨u, d, rfl, hd⟩ := h
  exact ⟨t ++ u, d, (List.append_assoc t u [d]).symm, hd⟩

theorem Closes.cons {s : List Char} (h : Closes s) (c : Char) : Closes (c :: s) := h.append [c]

/-- What goes up to a closing bracket or brace. -/
def Phrase.IsInside : Phrase → Prop
  | .value _ => False
  | .items _ | .members _ => True

theorem Writes.closes {p : Phrase} {w : List Char} (h : Writes p w) (hp : p.IsInside) :
    Closes w := by
  have hbracket : Closes [']'] := closes_singleton (by decide)
  have hbrace : Closes ['\x7d'] := closes_singleton (by decide)
  induction h with
  | null | true | false | int | float | string => cases hp
  | emptyArray | array | emptyObject | object => cases hp
  | @lastItem w gap _ _ _ _ => exact (hbracket.append gap).append w
  | @moreItems w gap₁ gap₂ _ _ _ _ _ _ _ _ ih =>
    exact ((((ih trivial).append gap₂).cons ',').append gap₁).append w
  | @lastMember name gap₁ gap₂ w gap₃ =>
    have hvalue := ((hbrace.append gap₃).append w).append gap₂
    exact ((((hvalue.cons ':').append gap₁).cons '"').append name).cons '"'
  | @moreMembers name gap₁ gap₂ w gap₃ gap₄ _ _ _ _ _ _ _ _ _ _ _ _ ih =>
    have hvalue := (((((ih trivial).append gap₄).cons ',').append gap₃).append w).append gap₂
    exact ((((hvalue.cons ':').append gap₁).cons '"').append name).cons '"'

/-- An array or an object stands between characters that are no blanks. -/
theorem exists_inside_of_writes {t : Tree} {w : List Char} (h : Writes (.value t) w)
    (ht : (∃ ts, t = .array ts) ∨ ∃ ms, t = .object ms) :
    ∃ c s d, w = c :: (s ++ [d]) ∧ isBlank c = false ∧ isBlank d = false := by
  have hinside {c : Char} (hc : isBlank c = false) {s : List Char} (hs : Closes s) :
      ∃ c' s' d, c :: s = c' :: (s' ++ [d]) ∧ isBlank c' = false ∧ isBlank d = false := by
    obtain ⟨s', d, rfl, hd⟩ := hs
    exact ⟨c, s', d, rfl, hc, hd⟩
  rcases ht with ⟨ts, rfl⟩ | ⟨ms, rfl⟩
  · cases h with
    | emptyArray _ => exact hinside (by decide) ((closes_singleton (by decide)).append _)
    | array _ h => exact hinside (by decide) ((h.closes trivial).append _)
  · cases h with
    | emptyObject _ => exact hinside (by decide) ((closes_singleton (by decide)).append _)
    | object _ h => exact hinside (by decide) ((h.closes trivial).append _)

/-- What is trimmed off the text of an array or an object are the blanks around it. -/
theorem IsTextOf.trim {t : Tree} {s : List Char} (h : IsTextOf t s)
    (ht : (∃ ts, t = .array ts) ∨ ∃ ms, t = .object ms) : IsTextOf t (trim s) ∧ trim s ≠ [] := by
  obtain ⟨before, w, after, hbefore, hw, hafter, rfl⟩ := h
  obtain ⟨c, inside, d, rfl, hc, hd⟩ := exists_inside_of_writes hw ht
  rw [Text.trim, trimWhere_append (fun x hx ↦ isBlank_of_isSpace (hbefore x hx))
    (fun x hx ↦ isBlank_of_isSpace (hafter x hx)) hc hd]
  refine ⟨⟨[], _, [], isGap_nil, hw, isGap_nil, ?_⟩, List.cons_ne_nil _ _⟩
  rw [List.nil_append, List.append_nil]

end Json

namespace Backend

open Json

/-! ## Candidates as members -/

/-- The trees that stand for the text of a field: the text itself, and null for the empty one. -/
inductive StandsFor : Tree → String → Prop where
  | text (s : String) : StandsFor (.string (points s.toList)) s
  | null : StandsFor .null ""

/-- The ways in which members give a field that goes by two names: under one of them and not the
other, or under neither if its text is empty. -/
inductive GivesField (pascal camel : String) (ms : List (List Point × Tree)) (text : String) :
    Prop where
  | pascal {t : Tree} (hpascal : valuesOf pascal ms = [t]) (hcamel : valuesOf camel ms = [])
      (ht : StandsFor t text)
  | camel {t : Tree} (hpascal : valuesOf pascal ms = []) (hcamel : valuesOf camel ms = [t])
      (ht : StandsFor t text)
  | absent (hpascal : valuesOf pascal ms = []) (hcamel : valuesOf camel ms = [])
      (htext : text = "")

/-- That the members of an object describe a candidate, whatever else there is among them and in
whatever order they are. -/
structure Describes (ms : List (List Point × Tree)) (c : Candidate) : Prop where
  completionText : GivesField "CompletionText" "completionText" ms c.completionText
  displayText : GivesField "DisplayText" "displayText" ms c.displayText
  returnType : GivesField "ReturnType" "returnType" ms c.returnType
  description : GivesField "Description" "description" ms c.description
  kind : GivesField "Kind" "kind" ms c.kind
  snippet : GivesField "Snippet" "snippet" ms c.snippet

/-- That the objects among some items describe candidates, one each and in order. -/
inductive Lists : List Tree → List Candidate → Prop where
  | nil : Lists [] []
  | object {ms : List (List Point × Tree)} {c : Candidate} {ts : List Tree} {cs : List Candidate}
      (h : Describes ms c) (hrest : Lists ts cs) : Lists (.object ms :: ts) (c :: cs)
  | other {t : Tree} {ts : List Tree} {cs : List Candidate} (h : ∀ ms, t ≠ .object ms)
      (hrest : Lists ts cs) : Lists (t :: ts) cs

/-- What a backend may put around its items: nothing but the brackets, or an object with the array
under one of two names. In an object the array must not be empty, and the second name is looked for
only where the first is not there. -/
inductive Wraps : Tree → List Tree → Prop where
  | bare (ts : List Tree) : Wraps (.array ts) ts
  | camel {ms : List (List Point × Tree)} {ts : List Tree} (hne : ts ≠ [])
      (h : (valuesOf "completions" ms).getLast? = some (.array ts)) : Wraps (.object ms) ts
  | pascal {ms : List (List Point × Tree)} {ts : List Tree} (hne : ts ≠ [])
      (hnone : valuesOf "completions" ms = [])
      (h : (valuesOf "Completions" ms).getLast? = some (.array ts)) : Wraps (.object ms) ts

/-- The texts with which a backend may answer with some candidates. -/
def IsOutputOf (cs : List Candidate) (s : List Char) : Prop :=
  ∃ t ts, IsTextOf t s ∧ Wraps t ts ∧ Lists ts cs

/-! ## Reading candidates -/

theorem get_entriesOf (name : String) (ms : List (List Point × Tree)) :
    Value.get name (Keyed.ofList Value.sameKey (entriesOf ms))
      = ((valuesOf name ms).getLast?.map Tree.toValue).getD .null := by
  rw [Value.get, get?_entriesOf]

/-- A tree that stands for a text is shown as that text. -/
theorem StandsFor.text_or_null {t : Tree} {text : String} (h : StandsFor t text) :
    t.toValue = .str text ∨ t.toValue = .null ∧ text = "" := by
  cases h with
  | text s =>
    rw [Tree.toValue, Value.ofPoints_points, String.ofList_toList]
    exact .inl rfl
  | null => exact .inr ⟨rfl, rfl⟩

theorem GivesField.readField_eq {pascal camel : String} {ms : List (List Point × Tree)}
    {text : String} (h : GivesField pascal camel ms text) :
    Candidate.readField pascal camel (Keyed.ofList Value.sameKey (entriesOf ms)) = text := by
  unfold Candidate.readField Candidate.fieldValue
  rw [get_entriesOf, get_entriesOf]
  cases h with
  | pascal hpascal hcamel ht =>
    rw [hpascal, hcamel]
    rcases ht.text_or_null with hvalue | ⟨hvalue, rfl⟩
    · simp [hvalue]
    · simp [hvalue]
  | camel hpascal hcamel ht =>
    rw [hpascal, hcamel]
    rcases ht.text_or_null with hvalue | ⟨hvalue, rfl⟩
    · simp [hvalue]
    · simp [hvalue]
  | absent hpascal hcamel htext =>
    rw [hpascal, hcamel, htext]
    rfl

theorem Describes.ofEntries_eq {ms : List (List Point × Tree)} {c : Candidate}
    (h : Describes ms c) :
    Candidate.ofEntries (Keyed.ofList Value.sameKey (entriesOf ms)) = c := by
  rw [Candidate.ofEntries, h.completionText.readField_eq, h.displayText.readField_eq,
    h.returnType.readField_eq, h.description.readField_eq, h.kind.readField_eq,
    h.snippet.readField_eq]

/-- Only objects have entries. -/
theorem entries?_toValue {t : Tree} (h : ∀ ms, t ≠ .object ms) : t.toValue.entries? = none := by
  cases t with
  | object ms => exact absurd rfl (h ms)
  | string s =>
    rw [Tree.toValue, Value.ofPoints]
    split <;> rfl
  | _ => rfl

theorem Lists.filterMap_itemsOf {ts : List Tree} {cs : List Candidate} (h : Lists ts cs) :
    ((itemsOf ts).filterMap Value.entries?).map Candidate.ofEntries = cs := by
  induction h with
  | nil => rfl
  | @object ms c ts cs h _ ih =>
    have hentries : (Tree.object ms).toValue.entries?
        = some (Keyed.ofList Value.sameKey (entriesOf ms)) := rfl
    rw [itemsOf, List.filterMap_cons_some hentries, List.map_cons, h.ofEntries_eq, ih]
  | other h _ ih => rw [itemsOf, List.filterMap_cons_none (entries?_toValue h), ih]

theorem isTruthy_list {ts : List Tree} (hne : ts ≠ []) :
    (Tree.array ts).toValue.isTruthy = true := by
  cases ts with
  | nil => exact absurd rfl hne
  | cons t ts => rfl

theorem Wraps.listIn_eq {t : Tree} {ts : List Tree} (h : Wraps t ts) :
    listIn t.toValue = .list (itemsOf ts) := by
  cases h with
  | bare => rfl
  | camel hne h =>
    rw [Tree.toValue, listIn, get_entriesOf, h]
    exact if_pos (isTruthy_list hne)
  | pascal hne hnone h =>
    rw [Tree.toValue, listIn, get_entriesOf, get_entriesOf, hnone, h]
    exact (if_neg Bool.false_ne_true).trans (if_pos (isTruthy_list hne))

theorem Wraps.array_or_object {t : Tree} {ts : List Tree} (h : Wraps t ts) :
    (∃ ts, t = .array ts) ∨ ∃ ms, t = .object ms := by
  cases h with
  | bare ts => exact .inl ⟨ts, rfl⟩
  | camel _ _ => exact .inr ⟨_, rfl⟩
  | pascal _ _ _ => exact .inr ⟨_, rfl⟩

/-- **Candidates are read from every output of them**: these, in order, and no others. -/
theorem readOutput_of_isOutputOf {cs : List Candidate} {s : List Char} (h : IsOutputOf cs s) :
    readOutput (Utf8.encode s) = .ok cs := by
  obtain ⟨t, ts, htext, hwraps, hlists⟩ := h
  obtain ⟨htrimmed, hne⟩ := htext.trim hwraps.array_or_object
  rw [readOutput, Utf8.decodeLenient_encode, readText]
  split
  · next heq => exact absurd heq hne
  · rw [read_of_isTextOf htrimmed]
    change candidatesOf t.toValue = .ok cs
    rw [candidatesOf, hwraps.listIn_eq]
    exact congrArg Except.ok hlists.filterMap_itemsOf

/-- An answer with an item that is no object, fields by either name, one of them null, a character
by its two halves, and members in between. -/
def wrappedAnswer : List Char :=
  ("\t\x7b\"more\": 1, \"Completions\": [7, \x7b\"Kind\": null, \"completionText\": "
    ++ "\"\\ud83d\\ude00\\\"\", \"Snippet\": \"x\"\x7d]\x7d\n").toList

/-- The candidate in it. -/
def wrappedCandidate : Candidate := ⟨"😀\"", "", "", "", "", "x"⟩

/-- The members that describe it. -/
def wrappedMembers : List (List Point × Tree) :=
  [(points "Kind".toList, .null),
    (points "completionText".toList, .string (points "😀\"".toList)),
    (points "Snippet".toList, .string (points "x".toList))]

theorem readOutput_wrappedAnswer :
    IsOutputOf [wrappedCandidate] wrappedAnswer ∧
      readOutput (Utf8.encode wrappedAnswer) = .ok [wrappedCandidate] := by
  have hpair : Spells "\\ud83d\\ude00\\\"".toList (points "😀\"".toList) :=
    .pair (show unit? 'd' '8' '3' 'd' = some 0xD83D by decide)
      (show unit? 'd' 'e' '0' '0' = some 0xDE00 by decide) (by decide) (by decide) (by decide)
      (.short (by decide) .nil)
  have hblank : IsGap ['\t'] ∧ IsGap ['\n'] := by decide
  have hname (name : String) := spells_escapeChars name.toList
  have hmembers := Writes.moreMembers (hname "Kind") isGap_nil isGap_space .null isGap_nil
    isGap_space (.moreMembers (hname "completionText") isGap_nil isGap_space (.string hpair)
      isGap_nil isGap_space (.lastMember (hname "Snippet") isGap_nil isGap_space
        (.string (hname "x")) isGap_nil))
  have hseven := @Writes.int false _ 7 (isWhole_toDigits 7) (by decide) (readDigits_toDigits 7)
  have hitems := Writes.moreItems hseven isGap_nil isGap_space
    (.lastItem (.object isGap_nil hmembers) isGap_nil)
  have hone := @Writes.int false _ 1 (isWhole_toDigits 1) (by decide) (readDigits_toDigits 1)
  have hobject := Writes.object isGap_nil (.moreMembers (hname "more") isGap_nil isGap_space hone
    isGap_nil isGap_space (.lastMember (hname "Completions") isGap_nil isGap_space
      (.array isGap_nil hitems) isGap_nil))
  have hdescribes : Describes wrappedMembers wrappedCandidate :=
    { completionText := .camel (by decide) rfl (.text "😀\"")
      displayText := .absent rfl rfl rfl
      returnType := .absent rfl rfl rfl
      description := .absent rfl rfl rfl
      kind := .pascal rfl rfl .null
      snippet := .pascal rfl rfl (.text "x") }
  have houtput : IsOutputOf [wrappedCandidate] wrappedAnswer := by
    refine ⟨_, _, ⟨_, _, _, hblank.1, hobject, hblank.2, ?_⟩,
      .pascal (List.cons_ne_nil _ _) rfl rfl, .other nofun (.object hdescribes .nil)⟩
    decide +kernel
  exact ⟨houtput, readOutput_of_isOutputOf houtput⟩

end Backend

end CompletionServer
