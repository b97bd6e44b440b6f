import CompletionServer.Json.Reader

/-!
# The notation of JSON

What the texts of a JSON value are, whoever reads them. A value may be written in many ways: with
any blanks between its tokens and with any character of a string as an escape. `IsTextOf` relates a
value to all of them.

A value is a *tree* here, not what a reader makes of it: an object has its members as they stand in
the text, also where several have one name.

Whole numbers have no more digits than a reader takes. That is the only limit; how deep values are
nested is not limited.
-/

namespace CompletionServer.Json

open Text

/-- A JSON value as it is written. Strings are given by their points, since a half of a pair of
surrogates may be written alone. -/
inductive Tree where
  | null
  | bool (b : Bool)
  | int (n : Int)
  | float (x : Float)
  | string (s : List Point)
  | array (items : List Tree)
  | object (members : List (List Point × Tree))
deriving Inhabited

/-! ## Strings -/

/-- The marks of the short escapes, with what they stand for. -/
def shortEscapes : List (Char × Char) :=
  [('"', '"'), ('\\', '\\'), ('/', '/'), ('b', '\x08'), ('f', '\x0c'), ('n', '\n'), ('r', '\r'),
    ('t', '\t')]

/-- The ways to write the inside of a string: each character as it is, by a short escape, by a
unicode escape, or beyond the basic plane by two of them. A half of a pair that no other half
completes stands for itself. -/
inductive Spells : List Char → List Point → Prop where
  | nil : Spells [] []
  | plain {c : Char} {w : List Char} {s : List Point} (hc : 32 ≤ c.toNat) (hquote : c ≠ '"')
      (hbackslash : c ≠ '\\') (h : Spells w s) : Spells (c :: w) (.char c :: s)
  | short {mark c : Char} {w : List Char} {s : List Point} (hmark : (mark, c) ∈ shortEscapes)
      (h : Spells w s) : Spells ('\\' :: mark :: w) (.char c :: s)
  | escape {a b c d : Char} {char : Char} {w : List Char} {s : List Point}
      (hunit : unit? a b c d = some char.toNat) (h : Spells w s) :
      Spells ('\\' :: 'u' :: a :: b :: c :: d :: w) (.char char :: s)
  | pair {a b c d a' b' c' d' : Char} {high low : Nat} {char : Char} {w : List Char}
      {s : List Point} (hhigh : unit? a b c d = some high) (hlow : unit? a' b' c' d' = some low)
      (hisHigh : isHighSurrogate high = true) (hisLow : isLowSurrogate low = true)
      (hchar : char.toNat = 0x10000 + (high - 0xD800) * 0x400 + (low - 0xDC00))
      (h : Spells w s) :
      Spells ('\\' :: 'u' :: a :: b :: c :: d :: '\\' :: 'u' :: a' :: b' :: c' :: d' :: w)
        (.char char :: s)
  | half {a b c d : Char} {half : Half} {w : List Char} {s : List Point}
      (hunit : unit? a b c d = some half.unit)
      (halone : ∀ low rest, s = .half low :: rest →
        isHighSurrogate half.unit = true → isLowSurrogate low.unit = false)
      (h : Spells w s) : Spells ('\\' :: 'u' :: a :: b :: c :: d :: w) (.half half :: s)

/-! ## Numbers -/

/-- At least one digit, and nothing else. -/
def IsDigits (s : List Char) : Prop := s ≠ [] ∧ ∀ c ∈ s, isDigit c = true

/-- The digits of a whole number. A zero stands only alone. -/
def IsWhole (s : List Char) : Prop := IsDigits s ∧ (s.head? = some '0' → s = ['0'])

/-- A point with digits after it, or nothing. -/
def IsFraction (s : List Char) : Prop := s = [] ∨ ∃ run, s = '.' :: run ∧ IsDigits run

/-- An exponent mark, a sign or none, and digits; or nothing. -/
def IsExponent (s : List Char) : Prop :=
  s = [] ∨ ∃ mark sign run, s = mark :: (sign ++ run) ∧ (mark = 'e' ∨ mark = 'E') ∧
    (sign = [] ∨ sign = ['+'] ∨ sign = ['-']) ∧ IsDigits run

/-- The sign before a number. -/
def signOf (negative : Bool) : List Char := if negative then ['-'] else []

/-! ## Values -/

/-- Blanks between tokens. -/
def IsGap (s : List Char) : Prop := ∀ c ∈ s, isSpace c = true

instance (s : List Char) : Decidable (IsGap s) :=
  decidable_of_iff (s.all isSpace = true) List.all_eq_true

theorem isGap_nil : IsGap [] := by decide

theorem isGap_space : IsGap [' '] := by decide

/-- What a rule of the notation is about: a value, the items of an array, at least one, up to the
closing bracket, or the members of an object up to the closing brace. -/
inductive Phrase where
  | value (t : Tree)
  | items (ts : List Tree)
  | members (ms : List (List Point × Tree))

/-- **The notation.** The texts of values, without the blanks around them. -/
inductive Writes : Phrase → List Char → Prop where
  | null : Writes (.value .null) ['n', 'u', 'l', 'l']
  | true : Writes (.value (.bool true)) ['t', 'r', 'u', 'e']
  | false : Writes (.value (.bool false)) ['f', 'a', 'l', 's', 'e']
  | int {negative : Bool} {whole : List Char} {n : Nat} (hwhole : IsWhole whole)
      (hsize : whole.length ≤ digitLimit) (hn : readDigits 10 asciiDigit? whole = some n) :
      Writes (.value (.int (if negative then -n else n))) (signOf negative ++ whole)
  | float {negative : Bool} {whole point power : List Char} (hwhole : IsWhole whole)
      (hpoint : IsFraction point) (hpower : IsExponent power) (hne : point ≠ [] ∨ power ≠ []) :
      Writes (.value (.float
          ((Decimal.readUnsigned negative (whole ++ point ++ power)).getD 0)))
        (signOf negative ++ (whole ++ point ++ power))
  | string {w : List Char} {s : List Point} (h : Spells w s) :
      Writes (.value (.string s)) ('"' :: (w ++ ['"']))
  | emptyArray {gap : List Char} (hgap : IsGap gap) :
      Writes (.value (.array [])) ('[' :: (gap ++ [']']))
  | array {gap w : List Char} {ts : List Tree} (hgap : IsGap gap) (h : Writes (.items ts) w) :
      Writes (.value (.array ts)) ('[' :: (gap ++ w))
  | emptyObject {gap : List Char} (hgap : IsGap gap) :
      Writes (.value (.object [])) ('\x7b' :: (gap ++ ['\x7d']))
  | object {gap w : List Char} {ms : List (List Point × Tree)} (hgap : IsGap gap)
      (h : Writes (.members ms) w) : Writes (.value (.object ms)) ('\x7b' :: (gap ++ w))
  | lastItem {w gap : List Char} {t : Tree} (h : Writes (.value t) w) (hgap : IsGap gap) :
      Writes (.items [t]) (w ++ (gap ++ [']']))
  | moreItems {w gap₁ gap₂ w' : List Char} {t : Tree} {ts : List Tree} (h : Writes (.value t) w)
      (hgap₁ : IsGap gap₁) (hgap₂ : IsGap gap₂) (hrest : Writes (.items ts) w') :
      Writes (.items (t :: ts)) (w ++ (gap₁ ++ ',' :: (gap₂ ++ w')))
  | lastMember {name gap₁ gap₂ w gap₃ : List Char} {s : List Point} {t : Tree}
      (hname : Spells name s) (hgap₁ : IsGap gap₁) (hgap₂ : IsGap gap₂) (h : Writes (.value t) w)
      (hgap₃ : IsGap gap₃) :
      Writes (.members [(s, t)])
        ('"' :: (name ++ '"' :: (gap₁ ++ ':' :: (gap₂ ++ (w ++ (gap₃ ++ ['\x7d']))))))
  | moreMembers {name gap₁ gap₂ w gap₃ gap₄ w' : List Char} {s : List Point} {t : Tree}
      {ms : List (List Point × Tree)} (hname : Spells name s) (hgap₁ : IsGap gap₁)
      (hgap₂ : IsGap gap₂) (h : Writes (.value t) w) (hgap₃ : IsGap gap₃) (hgap₄ : IsGap gap₄)
      (hrest : Writes (.members ms) w') :
      Writes (.members ((s, t) :: ms))
        ('"' :: (name ++ '"' :: (gap₁ ++ ':' :: (gap₂ ++ (w ++ (gap₃ ++ ',' :: (gap₄ ++ w')))))))

/-- The texts of a value, with any blanks around it. -/
def IsTextOf (t : Tree) (s : List Char) : Prop :=
  ∃ before w after, IsGap before ∧ Writes (.value t) w ∧ IsGap after ∧ s = before ++ (w ++ after)

/-! ## What trees mean -/

mutual

/-- The value of a tree. Of the members with one name the last counts, at the place of the first. -/
def Tree.toValue : Tree → Value
  | .null => .null
  | .bool b => .bool b
  | .int n => .int n
  | .float x => .float x
  | .string s => .ofPoints s
  | .array ts => .list (itemsOf ts)
  | .object ms => .map (Keyed.ofList Value.sameKey (entriesOf ms))

def itemsOf : List Tree → List Value
  | [] => []
  | t :: ts => t.toValue :: itemsOf ts

def entriesOf : List (List Point × Tree) → List (Value × Value)
  | [] => []
  | (s, t) :: ms => (.ofPoints s, t.toValue) :: entriesOf ms

end

theorem itemsOf_eq_map (ts : List Tree) : itemsOf ts = ts.map Tree.toValue := by
  induction ts with
  | nil => rfl
  | cons t ts ih => rw [itemsOf, ih, List.map_cons]

theorem entriesOf_eq_map (ms : List (List Point × Tree)) :
    entriesOf ms = ms.map fun m ↦ (.ofPoints m.1, m.2.toValue) := by
  induction ms with
  | nil => rfl
  | cons m ms ih => rw [entriesOf, ih, List.map_cons]

/-- The trees of the members that have a name. -/
def valuesOf (name : String) (ms : List (List Point × Tree)) : List Tree :=
  (ms.filter fun m ↦ decide (m.1 = points name.toList)).map Prod.snd

theorem filter_entriesOf (name : String) (ms : List (List Point × Tree)) :
    ((entriesOf ms).filter fun e ↦ Value.sameKey e.1 (.str name)).map Prod.snd
      = (valuesOf name ms).map Tree.toValue := by
  have hkey (m : List Point × Tree) :
      Value.sameKey (.ofPoints m.1) (.str name) = decide (m.1 = points name.toList) := by
    rw [Bool.eq_iff_iff, Value.sameKey_str_iff, Value.ofPoints_eq_str_iff, decide_eq_true_iff]
  rw [entriesOf_eq_map, List.filter_map, List.map_map, valuesOf, List.map_map]
  simp only [Function.comp_def, hkey]

/-- Under a name an object has the value of the last member with that name. -/
theorem get?_entriesOf (name : String) (ms : List (List Point × Tree)) :
    Value.get? name (Keyed.ofList Value.sameKey (entriesOf ms))
      = (valuesOf name ms).getLast?.map Tree.toValue := by
  rw [Value.get?, Keyed.find?_ofList_of_alone (fun _ ↦ Value.sameKey_str_iff)
    (fun _ ↦ Value.sameKey_str_left_iff), filter_entriesOf, List.getLast?_map]

end CompletionServer.Json
