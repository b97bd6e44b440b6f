import CompletionServer.Proofs.Glob.Language
import CompletionServer.Proofs.Success

/-!
# Brackets as classes

A bracket of a pattern is written as a class of a path expression: backslashes doubled, a leading
`!` turned into `^`, and a leading `^` escaped. Read again, a class written like this has the
characters that the bracket accepts, `has_classOf`, provided something stands in the bracket and its
ranges ascend.

What makes it work is that a doubled backslash is one character to the reader of classes, so that
the reader goes through the body one character or one range at a time, as `isListed` does.
-/

namespace CompletionServer.Glob

/-! ## The class of a bracket -/

/-- The members that are listed in a body. -/
def membersOf : List Char → List Member
  | low :: '-' :: high :: rest => .range low high :: membersOf rest
  | c :: rest => .single c :: membersOf rest
  | [] => []

/-- The class that a bracket stands for. -/
def classOf : (body : List Char) → CharClass
  | '!' :: rest => ⟨true, membersOf rest⟩
  | body => ⟨false, membersOf body⟩

theorem any_has_membersOf (c : Char) (body : List Char) :
    (membersOf body).any (Member.has c) = isListed c body := by
  fun_induction isListed c body with
  | case1 low high rest ih => rw [membersOf, List.any_cons, ih, Member.has]
  | case2 d rest hrange ih => rw [membersOf, List.any_cons, ih, Member.has]; exact hrange
  | case3 => rfl

theorem has_classOf (c : Char) (body : List Char) : (classOf body).has c = bracketHas c body := by
  unfold classOf bracketHas
  split
  · simp [CharClass.has, any_has_membersOf]
  · simp [CharClass.has, any_has_membersOf]

/-! ## One character -/

/-- A character of a body as it is written. -/
def escapedChar (c : Char) : List Char := if c == '\\' then ['\\', '\\'] else [c]

/-- A body as it is written, but for its start. -/
def escaped (body : List Char) : List Char := body.flatMap escapedChar

/-- What is written for a character is read as that character. -/
theorem exists_classChar_eq {c : Char} (hc : c ≠ ']') (after : List Char) :
    ∃ d r text, escapedChar c ++ after = d :: r ∧ d ≠ ']' ∧ classChar d r = (c, text, after) := by
  by_cases h : c = '\\'
  · subst h
    exact ⟨'\\', '\\' :: after, ['\\', '\\'], rfl, by decide, rfl⟩
  · refine ⟨c, after, [c], by simp [escapedChar, h], hc, ?_⟩
    unfold classChar
    split
    · next heq => exact absurd rfl h
    · rfl

theorem head?_escapedChar_ne {c d : Char} (hc : c ≠ d) (hd : d ≠ '\\') (after : List Char) :
    (escapedChar c ++ after).head? ≠ some d := by
  unfold escapedChar
  split
  · simpa using Ne.symm hd
  · simpa using hc

/-! ## The members of a body -/

/-- The reader stops at the bracket that closes the class. -/
theorem classMembers_closing (start fuel : ℕ) (rest : List Char) :
    classMembers start (fuel + 1) false (']' :: rest) = .ok ([], rest) := rfl

/-- A range. -/
theorem exists_classMembers_range (start fuel : ℕ) (first : Bool) {low high : Char}
    (after : List Char) (hlow : low ≠ ']') (hhigh : high ≠ ']') :
    ∃ stop, classMembers start (fuel + 1) first
        (escapedChar low ++ '-' :: (escapedChar high ++ after))
      = if high < low then .error stop else do
        let (members, left) ← classMembers start fuel false after
        return (.range low high :: members, left) := by
  obtain ⟨d, r, text, hspell, hd, hchar⟩ :=
    exists_classChar_eq hlow ('-' :: (escapedChar high ++ after))
  obtain ⟨d', r', text', hspell', hd', hchar'⟩ := exists_classChar_eq hhigh after
  rw [hspell, classMembers, hchar, hspell']
  simp only [hd, hchar', beq_iff_eq, Bool.and_eq_true, false_and, if_false]
  exact ⟨_, rfl⟩

/-- A character that starts no range. -/
theorem classMembers_single (start fuel : ℕ) (first : Bool) {c : Char} {after : List Char}
    (hc : c ≠ ']') (hdash : after.head? ≠ some '-') :
    classMembers start (fuel + 1) first (escapedChar c ++ after) = do
      let (members, left) ← classMembers start fuel false after
      return (.single c :: members, left) := by
  obtain ⟨d, r, text, hspell, hd, hchar⟩ := exists_classChar_eq hc after
  rw [hspell, classMembers, hchar]
  cases after with
  | nil => simp [hd]
  | cons a after =>
    have ha : a ≠ '-' := by simpa using hdash
    simp [hd, ha]

/-- A hyphen at the end is a member, and so is the character before it. -/
theorem classMembers_hyphen {start fuel : ℕ} {first : Bool} {c : Char} (hc : c ≠ ']')
    (rest : List Char) :
    classMembers start (fuel + 1) first (escapedChar c ++ '-' :: ']' :: rest)
      = .ok ([.single c, .single '-'], rest) := by
  obtain ⟨d, r, text, hspell, hd, hchar⟩ := exists_classChar_eq hc ('-' :: ']' :: rest)
  rw [hspell, classMembers, hchar]
  simp [hd]

theorem escaped_cons (c : Char) (body : List Char) :
    escaped (c :: body) = escapedChar c ++ escaped body := List.flatMap_cons

/-- The members of a body are those that are listed in it, if its ranges ascend; otherwise there are
none. -/
theorem exists_classMembers_escaped {body : List Char} (hclosed : ']' ∉ body) (rest : List Char)
    (start : ℕ) {fuel : ℕ} (first : Bool) (hfirst : first = true → body ≠ [])
    (hfuel : body.length < fuel) :
    ∃ stop, classMembers start fuel first (escaped body ++ ']' :: rest)
      = if isAscending body then .ok (membersOf body, rest) else .error stop := by
  obtain ⟨fuel, rfl⟩ : ∃ k, fuel = k + 1 := Nat.exists_eq_add_one.mpr (by omega)
  induction body using membersOf.induct generalizing first fuel with
  | case1 low high body ih =>
    simp only [List.mem_cons, not_or] at hclosed
    obtain ⟨hlow, -, hhigh, hbody⟩ := hclosed
    rw [List.length_cons, List.length_cons, List.length_cons] at hfuel
    obtain ⟨fuel, rfl⟩ : ∃ k, fuel = k + 1 := Nat.exists_eq_add_one.mpr (by omega)
    obtain ⟨stop, hafter⟩ := ih hbody false (by simp) fuel (by omega)
    obtain ⟨stop', hrange⟩ := exists_classMembers_range start (fuel + 1) first
      (escaped body ++ ']' :: rest) (Ne.symm hlow) (Ne.symm hhigh)
    rw [escaped_cons, escaped_cons, escaped_cons, membersOf, isAscending, List.append_assoc,
      List.append_assoc, List.append_assoc]
    change ∃ stop, classMembers start (fuel + 1 + 1) first
      (escapedChar low ++ '-' :: (escapedChar high ++ (escaped body ++ ']' :: rest))) = _
    rw [hrange, hafter]
    by_cases hle : low ≤ high
    · rw [if_neg (Char.not_lt.mpr hle), decide_eq_true hle, Bool.true_and]
      refine ⟨stop, ?_⟩
      split
      · rfl
      · rfl
    · rw [if_pos (Char.not_le.mp hle), decide_eq_false hle, Bool.false_and]
      exact ⟨stop', rfl⟩
  | case2 c body hrange ih =>
    rw [List.mem_cons, not_or] at hclosed
    obtain ⟨hc, hbody⟩ := hclosed
    rw [List.length_cons] at hfuel
    obtain ⟨fuel, rfl⟩ : ∃ k, fuel = k + 1 := Nat.exists_eq_add_one.mpr (by omega)
    obtain ⟨stop, hafter⟩ := ih hbody false (by simp) fuel (by omega)
    rw [escaped_cons, membersOf, isAscending, List.append_assoc]
    · by_cases hhyphen : body = ['-']
      · subst hhyphen
        exact ⟨stop, classMembers_hyphen (Ne.symm hc) rest⟩
      · have hdash : (escaped body ++ ']' :: rest).head? ≠ some '-' := by
          -- A hyphen after `c` would make a range, or end the body.
          cases body with
          | nil => simp [escaped]
          | cons d body =>
            have hd : d ≠ '-' := by
              rintro rfl
              cases body with
              | nil => exact hhyphen rfl
              | cons high body => exact hrange high body rfl
            rw [escaped_cons, List.append_assoc]
            exact head?_escapedChar_ne hd (by decide) _
        rw [classMembers_single start (fuel + 1) first (Ne.symm hc) hdash, hafter]
        refine ⟨stop, ?_⟩
        split
        · rfl
        · rfl
    · exact hrange
    · exact hrange
  | case3 =>
    have : first = false := by simpa using hfirst
    subst this
    exact ⟨⟨.unterminatedClass, start⟩, classMembers_closing start fuel rest⟩

/-! ## Whole classes -/

theorem length_le_length_escaped (body : List Char) : body.length ≤ (escaped body).length := by
  induction body with
  | nil => exact Nat.le_refl 0
  | cons c body ih =>
    have hpos : 0 < (escapedChar c).length := by
      unfold escapedChar
      split
      · exact Nat.succ_pos 1
      · exact Nat.succ_pos 0
    rw [escaped_cons, List.length_append, List.length_cons]
    omega

/-- An escaped `^` is read as the character. Only the wording of a defect could tell. -/
theorem classMembers_caret_iff {start fuel : ℕ} {first : Bool} {r : List Char}
    {found : List Member × List Char} :
    classMembers start fuel first ('\\' :: '^' :: r) = .ok found ↔
      classMembers start fuel first ('^' :: r) = .ok found := by
  have hplain : classChar '^' r = ('^', ['^'], r) := rfl
  have hescaped : classChar '\\' ('^' :: r) = ('^', ['\\', '^'], r) := rfl
  cases fuel with
  | zero => simp only [classMembers]
  | succ fuel =>
    rw [classMembers, classMembers, hplain, hescaped, if_neg (by simp), if_neg (by simp)]
    dsimp only
    split
    · rfl
    · rfl
    · split
      · simp only [reduceCtorEq]
      · rfl
    · rfl

/-- A class is read if its members are. -/
theorem class_eq_ok_iff {negated : Bool} {x : Except Stop (List Member × List Char)}
    {k : CharClass} {left : List Char} :
    (do let (members, left) ← x; return ((⟨negated, members⟩ : CharClass), left)) = .ok (k, left) ↔
      ∃ members, k = ⟨negated, members⟩ ∧ x = .ok (members, left) := by
  constructor
  · intro h
    obtain ⟨⟨members, rest⟩, hx, h⟩ := exists_of_bind_eq_ok h
    cases h
    exact ⟨members, rfl, hx⟩
  · rintro ⟨members, rfl, rfl⟩
    rfl

/-- A class that does not start with `^` is not negated. -/
theorem classBody_plain {inner : List Char} (hcaret : inner.head? ≠ some '^') :
    classBody inner = do
      let (members, left) ← classMembers (inner.length + 1) (inner.length + 1) true inner
      return (⟨false, members⟩, left) := by
  unfold classBody
  split
  next negated body heq =>
    split at heq
    · exact absurd rfl hcaret
    · obtain ⟨rfl, rfl⟩ := Prod.mk.inj heq
      rfl

theorem bracket_bang (body : List Char) :
    bracket ('!' :: body) = '[' :: '^' :: (escaped body ++ [']']) := rfl

theorem bracket_caret (body : List Char) :
    bracket ('^' :: body) = '[' :: '\\' :: '^' :: (escaped body ++ [']']) := rfl

/-- The class of a bracket that does not start with `!` or `^` is its body as it is written. -/
theorem bracket_plain {body : List Char} (hbang : body.head? ≠ some '!')
    (hcaret : body.head? ≠ some '^') : bracket body = '[' :: (escaped body ++ [']']) := by
  have hhead : ∀ d, d ≠ '\\' → body.head? ≠ some d → (escaped body).head? ≠ some d := by
    intro d hd hbody
    cases body with
    | nil => exact nofun
    | cons c body => exact head?_escapedChar_ne (by simpa using hbody) hd (escaped body)
  unfold bracket
  dsimp only
  split
  · next r heq => exact absurd (congrArg List.head? heq) (hhead '!' (by decide) hbang)
  · next r heq => exact absurd (congrArg List.head? heq) (hhead '^' (by decide) hcaret)
  · rfl

/-- Whether a bracket accepts what is not listed in it. -/
def isNegated : (body : List Char) → Bool
  | '!' :: _ => true
  | _ => false

/-- What is listed in a bracket. -/
def listedIn : (body : List Char) → List Char
  | '!' :: rest => rest
  | body => body

theorem isNegated_of_head? {body : List Char} (h : body.head? ≠ some '!') :
    isNegated body = false := by
  unfold isNegated
  split
  · exact absurd rfl h
  · rfl

theorem listedIn_of_head? {body : List Char} (h : body.head? ≠ some '!') : listedIn body = body := by
  unfold listedIn
  split
  · exact absurd rfl h
  · rfl

theorem classOf_eq (body : List Char) :
    classOf body = ⟨isNegated body, membersOf (listedIn body)⟩ := by
  unfold classOf isNegated listedIn
  split
  · rfl
  · rfl

theorem isSoundBody_iff {body : List Char} :
    isSoundBody body = true ↔ listedIn body ≠ [] ∧ isAscending (listedIn body) = true := by
  unfold isSoundBody
  split
  · rw [Bool.and_eq_true, Bool.not_eq_true', List.isEmpty_eq_false_iff]
    rfl
  · next hbang =>
    have hhead : body.head? ≠ some '!' := fun h ↦
      (List.head?_eq_some_iff.mp h).elim fun rest heq ↦ hbang rest heq
    rw [listedIn_of_head? hhead, Bool.and_eq_true, Bool.not_eq_true', List.isEmpty_eq_false_iff]

/-- What is written for a bracket is read as a class exactly if what is listed in it is read as the
members of that class. -/
theorem exists_classBody_bracket_iff (body rest : List Char) :
    ∃ inner start fuel, bracket body ++ rest = '[' :: inner ∧ (listedIn body).length < fuel ∧
      ∀ k left, classBody inner = .ok (k, left) ↔ ∃ members, k = ⟨isNegated body, members⟩ ∧
        classMembers start fuel true (escaped (listedIn body) ++ ']' :: rest)
          = .ok (members, left) := by
  have hlen (b : List Char) : b.length < (escaped b ++ ']' :: rest).length + 1 := by
    have := length_le_length_escaped b
    rw [List.length_append, List.length_cons]
    omega
  by_cases hbang : body.head? = some '!'
  · obtain ⟨body, rfl⟩ : ∃ r, body = '!' :: r := List.head?_eq_some_iff.mp hbang
    exact ⟨'^' :: (escaped body ++ ']' :: rest), (escaped body ++ ']' :: rest).length + 2, _,
      by simp [bracket_bang], hlen body, fun k left ↦ class_eq_ok_iff⟩
  · rw [isNegated_of_head? hbang, listedIn_of_head? hbang]
    by_cases hcaret : body.head? = some '^'
    · obtain ⟨body, rfl⟩ : ∃ r, body = '^' :: r := List.head?_eq_some_iff.mp hcaret
      have hfuel := hlen ('^' :: body)
      refine ⟨'\\' :: '^' :: (escaped body ++ ']' :: rest),
        (escaped ('^' :: body) ++ ']' :: rest).length + 2, _, by simp [bracket_caret],
        Nat.lt_succ_of_lt hfuel, fun k left ↦ ?_⟩
      rw [classBody_plain (by simp), class_eq_ok_iff]
      simp only [classMembers_caret_iff]
      rfl
    · refine ⟨escaped body ++ ']' :: rest, (escaped body ++ ']' :: rest).length + 1, _,
        by simp [bracket_plain hbang hcaret], hlen body, fun k left ↦ ?_⟩
      have hhead : (escaped body ++ ']' :: rest).head? ≠ some '^' := by
        cases body with
        | nil => simp [escaped]
        | cons c body =>
          rw [escaped_cons, List.append_assoc]
          exact head?_escapedChar_ne (by simpa using hcaret) (by decide) _
      rw [classBody_plain hhead]
      exact class_eq_ok_iff

theorem closing_notMem_listedIn {body : List Char} (hclosed : ']' ∉ body) :
    ']' ∉ listedIn body := by
  unfold listedIn
  split
  · exact List.not_mem_of_not_mem_cons hclosed
  · exact hclosed

/-- **The class of a bracket.** What is written for a bracket is read as its class, to the end. -/
theorem classBody_bracket {body : List Char} (hclosed : ']' ∉ body)
    (hsound : isSoundBody body = true) (rest : List Char) :
    ∃ inner, bracket body ++ rest = '[' :: inner ∧ classBody inner = .ok (classOf body, rest) := by
  obtain ⟨inner, start, fuel, hinner, hfuel, hiff⟩ := exists_classBody_bracket_iff body rest
  obtain ⟨hne, hasc⟩ := isSoundBody_iff.mp hsound
  obtain ⟨stop, hmembers⟩ := exists_classMembers_escaped (closing_notMem_listedIn hclosed) rest start
    true (fun _ ↦ hne) hfuel
  rw [if_pos hasc] at hmembers
  exact ⟨inner, hinner, (hiff _ _).mpr ⟨_, classOf_eq body, hmembers⟩⟩

end CompletionServer.Glob
