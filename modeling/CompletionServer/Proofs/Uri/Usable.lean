import CompletionServer.Proofs.Success
import CompletionServer.Uri.Basic

/-!
# Usable URIs

A text is usable as a URI or not, and its authority alone decides it: brackets come in pairs, what
they hold is an address, and no character hides a delimiter. This is `IsUsable`, and it says both
when a document has a name and when it has a scheme, `exists_name_of_isUsable` and
`exists_error_of_not_isUsable`.
-/

namespace CompletionServer.Uri

open Text

/-! ## Addresses -/

/-- The host in a pair of brackets: an address of version 6, or of a later one. -/
def IsAddress (host : List Char) : Prop := isLaterAddress host = true ∨ isIPv6 host = true

theorem fst_cutAt (c : Char) (s : List Char) : (cutAt c s).1 = s.takeWhile (· != c) := by
  have hs := List.takeWhile_append_dropWhile (p := (· != c)) (l := s)
  unfold cutAt
  split
  · next hnone =>
    rw [hnone, List.append_nil] at hs
    exact hs.symm
  · rfl

theorem head?_of_isLaterAddress {host : List Char} (h : isLaterAddress host = true) :
    host.head? = some 'v' := by
  unfold isLaterAddress at h
  split at h
  · rfl
  · cases h

/-- The first part of an address is empty or a number. -/
theorem isHextet_of_areIPv6Parts {first : List Char} {parts : List (List Char)}
    (h : areIPv6Parts (first :: parts) = true) : first = [] ∨ isHextet first = true := by
  unfold areIPv6Parts at h
  split at h
  · cases h
  · split at h
    · rw [Bool.and_eq_true, List.all_cons, Bool.and_eq_true] at h
      exact .inr h.2.1
    · next gap hgap =>
      have hpos : 0 < gap := by
        have hmem : gap ∈ innerGaps (first :: parts) := by
          rw [hgap]
          exact List.mem_cons_self
        have := (List.mem_filter.mp hmem).2
        simp only [Bool.and_eq_true, decide_eq_true_eq] at this
        exact this.1.1
      obtain ⟨gap, rfl⟩ := Nat.exists_eq_succ_of_ne_zero (Nat.ne_of_gt hpos)
      by_cases hfirst : first = []
      · exact .inl hfirst
      · simp [hfirst] at h
        exact .inr h.1.2.1
    · cases h

/-- The parts between the colons of an address of version 6. There are three or more; if the last is
an address of version 4, two numbers stand for it. -/
theorem parts_of_isIPv6 {host : List Char} (h : isIPv6 host = true) {parts : List (List Char)}
    (hparts : splitWhere (· == ':') (host.takeWhile (· != '%')) = parts) :
    3 ≤ parts.length ∧
      (areIPv6Parts parts = true ∨ areIPv6Parts (parts.dropLast ++ [['0'], ['0']]) = true) := by
  unfold isIPv6 at h
  rw [← fst_cutAt] at hparts
  simp only [hparts, Bool.and_eq_true] at h
  have hshaped := h.2
  split at hshaped
  · cases hshaped
  · next hlength =>
    refine ⟨Nat.le_of_not_lt hlength, ?_⟩
    split at hshaped
    · rw [Bool.and_eq_true] at hshaped
      exact .inr hshaped.2
    · exact .inl hshaped

/-- An address of version 6 is none of a later version. -/
theorem head?_of_isIPv6 {host : List Char} (h : isIPv6 host = true) : host.head? ≠ some 'v' := by
  intro hhead
  obtain ⟨rest, rfl⟩ := List.head?_eq_some_iff.mp hhead
  -- The first part starts with the `v`, and so it is no number.
  obtain ⟨first, parts, hparts⟩ : ∃ first parts,
      splitWhere (· == ':') (('v' :: rest).takeWhile (· != '%')) = ('v' :: first) :: parts := by
    rw [List.takeWhile_cons_of_pos (by decide), splitWhere, if_neg (by decide)]
    split
    · exact ⟨[], [], rfl⟩
    · exact ⟨_, _, rfl⟩
  have hnumber : ¬(('v' :: first) = [] ∨ isHextet ('v' :: first) = true) := by
    simp [isHextet, show isHexDigit 'v' = false by decide]
  obtain ⟨hlength, hsix | hfour⟩ := parts_of_isIPv6 h hparts
  · exact hnumber (isHextet_of_areIPv6Parts hsix)
  · cases parts with
    | nil => exact absurd hlength (by simp)
    | cons second parts =>
      rw [List.dropLast_cons_cons, List.cons_append] at hfour
      exact hnumber (isHextet_of_areIPv6Parts hfour)

/-- An address of version 4 is none of version 6: it has no colon. -/
theorem isIPv6_eq_false_of_isIPv4 {host : List Char} (h : isIPv4 host = true) :
    isIPv6 host = false := by
  have hcolon : ':' ∉ host := by
    intro hmem
    obtain hpoint | ⟨w, hw, hc⟩ := mem_splitWhere_of_mem (· == '.') hmem
    · exact absurd hpoint (by decide)
    · have hoctet : isOctet w = true := List.all_eq_true.mp (Bool.and_eq_true_iff.mp h).2 w hw
      simp only [isOctet, Bool.and_eq_true] at hoctet
      exact absurd (List.all_eq_true.mp hoctet.1.1.1 ':' hc) (by decide)
  rw [← Bool.not_eq_true]
  intro hsix
  have hlength := (parts_of_isIPv6 hsix rfl).1
  rw [length_splitWhere, List.countP_eq_zero.mpr] at hlength
  · exact absurd hlength (by decide)
  · intro c hc hd
    obtain rfl := beq_iff_eq.mp hd
    exact hcolon (List.takeWhile_subset _ hc)

theorem checkHost_eq_ok_iff {host : List Char} : checkHost host = .ok () ↔ IsAddress host := by
  rw [checkHost, IsAddress]
  by_cases hv : host.head? = some 'v'
  · have hsix : isIPv6 host ≠ true := fun hsix ↦ head?_of_isIPv6 hsix hv
    rw [if_pos (by rw [hv]; rfl), or_iff_left hsix]
    split <;> simp_all
  · have hlater : isLaterAddress host ≠ true := fun hlater ↦ hv (head?_of_isLaterAddress hlater)
    rw [if_neg (by simpa using hv), or_iff_right hlater]
    by_cases hfour : isIPv4 host = true
    · simp [hfour, isIPv6_eq_false_of_isIPv4 hfour]
    · rw [if_neg hfour]
      split <;> simp_all

/-! ## Authorities -/

/-- **That a text can be an authority.** -/
structure IsAuthority (authority : List Char) : Prop where
  /-- If there is a bracket of one kind, then there is one of the other. -/
  paired : '[' ∈ authority ↔ ']' ∈ authority
  address : '[' ∈ authority → ∃ host, bracketedHost authority = .ok host ∧ IsAddress host
  /-- No character would be read as a delimiter once it is decomposed. -/
  plain : ∀ c ∈ authority, hidesDelimiter c = false

theorem checkAuthority_eq_ok_iff {authority : List Char} :
    checkAuthority authority = .ok () ↔ IsAuthority authority := by
  constructor
  · intro h
    have hplain (h : (if authority.any hidesDelimiter then throw (.normalization authority)
        else pure () : Except Error Unit) = .ok ()) : ∀ c ∈ authority, hidesDelimiter c = false := by
      split at h
      · cases h
      · next hany => simpa using hany
    rw [checkAuthority] at h
    split at h
    · next hopen hclose =>
      obtain ⟨host, hhost, h⟩ := exists_of_bind_eq_ok h
      obtain ⟨⟨⟩, hcheck, h⟩ := exists_of_bind_eq_ok h
      refine ⟨iff_of_true (by simpa using hopen) (by simpa using hclose), fun _ ↦ ?_, hplain h⟩
      exact ⟨host, hhost, checkHost_eq_ok_iff.mp hcheck⟩
    · next hopen hclose =>
      have hopen : '[' ∉ authority := by simpa using hopen
      exact ⟨iff_of_false hopen (by simpa using hclose), fun hmem ↦ absurd hmem hopen, hplain h⟩
    · cases h
  · intro h
    have hany : authority.any hidesDelimiter ≠ true := by simpa using h.plain
    rw [checkAuthority]
    split
    · next hopen _ =>
      obtain ⟨host, hhost, haddress⟩ := h.address (by simpa using hopen)
      rw [hhost]
      change (checkHost host >>= _) = _
      rw [checkHost_eq_ok_iff.mpr haddress]
      exact if_neg hany
    · exact if_neg hany
    · next hboth hneither =>
      by_cases hopen : '[' ∈ authority
      · exact absurd (by simpa using h.paired.mp hopen) (hboth (by simpa using hopen))
      · have hclose : ']' ∉ authority := fun hclose ↦ hopen (h.paired.mpr hclose)
        exact absurd (by simpa using hclose) (hneither (by simpa using hopen))

/-! ## Names and schemes -/

/-- The authority of a URI as it is written. -/
def authorityOf (uri : List Char) : List Char := (splitAuthority (splitScheme (clean uri)).2).1

/-- **That a text can be used as a URI.** -/
def IsUsable (uri : String) : Prop := IsAuthority (authorityOf uri.toList)

theorem split_eq_map (uri : List Char) :
    ∃ parts, split uri = (fun _ ↦ parts) <$> checkAuthority (authorityOf uri) :=
  ⟨_, rfl⟩

/-- A usable URI has parts: the document has a name, which is the URI itself unless the scheme is
that of files. -/
theorem exists_name_of_isUsable {uri : String} (h : IsUsable uri) :
    ∃ name scheme, fileName uri = .ok name ∧ scheme? uri = .ok scheme ∧
      (scheme ≠ some "file" → name = uri) := by
  obtain ⟨parts, hsplit⟩ := split_eq_map uri.toList
  rw [checkAuthority_eq_ok_iff.mpr h] at hsplit
  have hsplit : split uri.toList = .ok parts := hsplit
  by_cases hfile : parts.scheme = "file".toList
  · have hname : fileNameChars uri.toList
        = .ok (filePath (percentDecode parts.authority) (percentDecode parts.path)) := by
      rw [fileNameChars, hsplit]
      exact if_pos (beq_iff_eq.mpr hfile)
    have hscheme : scheme? uri = .ok (some "file") := by
      rw [scheme?, hsplit]
      change Except.ok (if parts.scheme.isEmpty then none else _) = _
      rw [hfile]
      rfl
    rw [fileName, hname]
    exact ⟨_, _, rfl, hscheme, fun hother ↦ absurd rfl hother⟩
  · have hname : fileNameChars uri.toList = .ok uri.toList := by
      rw [fileNameChars, hsplit]
      exact if_neg (mt beq_iff_eq.mp hfile)
    rw [fileName, hname, scheme?, hsplit]
    exact ⟨_, _, rfl, rfl, fun _ ↦ String.ofList_toList⟩

/-- A text that is not usable has neither a name nor a scheme, for one reason. -/
theorem exists_error_of_not_isUsable {uri : String} (h : ¬IsUsable uri) :
    ∃ e, fileName uri = .error e ∧ scheme? uri = .error e := by
  obtain ⟨parts, hsplit⟩ := split_eq_map uri.toList
  cases hcheck : checkAuthority (authorityOf uri.toList) with
  | ok => exact absurd (checkAuthority_eq_ok_iff.mp hcheck) h
  | error e =>
    rw [hcheck] at hsplit
    have hsplit : split uri.toList = .error e := hsplit
    rw [fileName, fileNameChars, scheme?, hsplit]
    exact ⟨e, rfl, rfl⟩

/-- A document with a name has a scheme, or it is known to have none. -/
theorem exists_scheme?_eq_ok {uri name : String} (h : fileName uri = .ok name) :
    ∃ scheme, scheme? uri = .ok scheme := by
  obtain ⟨chars, hchars, -⟩ := exists_of_bind_eq_ok h
  obtain ⟨parts, hparts, -⟩ := exists_of_bind_eq_ok hchars
  rw [scheme?, hparts]
  exact ⟨_, rfl⟩

end CompletionServer.Uri
