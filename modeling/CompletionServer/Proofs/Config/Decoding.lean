import CompletionServer.Proofs.Config.Loading
import CompletionServer.Proofs.Yaml.File

/-!
# Finding and decoding the configuration file

Before a value is checked, the file is looked for and decoded. Much that is wrong there is refused,
as what is wrong with the value is: a file that is named and not there, and a text that is no YAML
document. The rest is said by `Undecodable`: a home directory that is not known, a path that is too
long, bytes that are no text, and scalars that have no value. Such a fault ends the loading before
the options of the client are looked at.
-/

namespace CompletionServer.Config

/-! ## The decoded file -/

/-- The file that is found, with its value: all that is done before a value is checked. -/
def decodedFile (e : Environment) (workspace : Option Path) : Checked (Option (Path × Value)) := do
  match ← findFile e workspace with
  | none => return none
  | some path => return some (path, ← decodeFile path ((e.read? path).getD []))

/-- The configuration of a decoded file, an empty one where there is none. -/
def ofDecoded : Option (Path × Value) → Checked Config
  | none => return {}
  | some (path, v) => do
    let config ← parse (if v.isTruthy then v else .map [])
    return { config with source := some path }

theorem fileConfig_eq_bind (e : Environment) (workspace : Option Path) :
    fileConfig e workspace = decodedFile e workspace >>= ofDecoded := by
  unfold fileConfig decodedFile
  cases findFile e workspace with
  | error f => rfl
  | ok found =>
    cases found with
    | none => rfl
    | some path =>
      change ofFile e path = (decodeFile path ((e.read? path).getD []) >>= _) >>= ofDecoded
      rw [ofFile]
      cases decodeFile path ((e.read? path).getD []) with
      | error f => rfl
      | ok v => rfl

theorem load_of_decodedFile {e : Environment} {workspace : Option Path} {f : ConfigFault}
    (h : decodedFile e workspace = .error f) (options : Value) :
    load e workspace options = .error f := by
  rw [load_eq_bind, fileConfig_eq_bind, h]
  rfl

/-! ## Why there is none -/

/-- The paths at which the file is looked for. -/
def soughtPaths (e : Environment) (workspace : Option Path) : List Path :=
  match named? e with
  | none => placesIn workspace
  | some path => (e.expandHome path).toList

/-- The bytes of the file that is found. -/
def IsFound (e : Environment) (workspace : Option Path) (path : Path) (bytes : List UInt8) : Prop :=
  findFile e workspace = .ok (some path) ∧ (e.read? path).getD [] = bytes

/-- What is refused before a value is checked. -/
inductive RefusesFile (e : Environment) (workspace : Option Path) : ConfigError → Prop where
  /-- The variable names a file that is not there. -/
  | missing {named path : Path} (hnamed : named? e = some named)
      (hpath : e.expandHome named = some path) (h : e.isFile path = false) :
      RefusesFile e workspace (.missingFile path.text)
  /-- The file that is found is malformed. -/
  | malformed {path : Path} {bytes : List UInt8} {error : Yaml.Error}
      (hfound : IsFound e workspace path bytes)
      (h : Yaml.readFile bytes = .error (.malformed error)) :
      RefusesFile e workspace (.malformedFile path.text error)

/-- The other faults that end the loading before a value is checked. -/
inductive Undecodable (e : Environment) (workspace : Option Path) : ConfigFault → Prop where
  /-- The variable names a path in a home directory that is not known. -/
  | noHome {named : Path} (hnamed : named? e = some named) (h : e.expandHome named = none) :
      Undecodable e workspace .noHome
  /-- A path at which the file is looked for is too long. -/
  | tooLong {path : Path} (hpath : path ∈ soughtPaths e workspace) (h : e.isTooLong path = true) :
      Undecodable e workspace (.tooLong path.text)
  /-- The file that is found is no text. -/
  | encoding {path : Path} {bytes : List UInt8} {f : Text.Utf8.Fault}
      (hfound : IsFound e workspace path bytes)
      (h : ∀ text, Text.Utf8.decode bytes ≠ .ok text) : Undecodable e workspace (.encoding f)
  /-- The file that is found has an escape or a scalar without a value. -/
  | scalar {path : Path} {bytes : List UInt8} {f : Yaml.ScalarFault}
      (hfound : IsFound e workspace path bytes) (h : Yaml.IsFaultOf bytes (.impossible f)) :
      Undecodable e workspace (.scalar f)

/-- That a fault is a refusal or one of the others. -/
def IsExpected (e : Environment) (workspace : Option Path) (f : ConfigFault) : Prop :=
  (∃ refusal, f = .refused refusal ∧ RefusesFile e workspace refusal) ∨ Undecodable e workspace f

variable {e : Environment} {workspace : Option Path}

/-- Looking for a file gives one that is there, or none where there is none, or comes upon a path
that is too long. -/
theorem outcome_firstFile (e : Environment) (paths : List Path) :
    Outcome (fun found ↦ found = none → ∀ path ∈ paths, e.isFile path = false)
      (fun f ↦ ∃ path ∈ paths, e.isTooLong path = true ∧ f = .tooLong path.text)
      (firstFile e paths) := by
  induction paths with
  | nil =>
    intro _ path hpath
    exact absurd hpath List.not_mem_nil
  | cons path paths ih =>
    unfold firstFile
    split
    · next hlong => exact ⟨path, List.mem_cons_self, hlong, rfl⟩
    · split
      · intro hnone
        cases hnone
      · next hfile =>
        refine ih.mono (fun found hfound hnone ↦ ?_) ?_
        · exact List.forall_mem_cons.mpr ⟨Bool.eq_false_iff.mpr hfile, hfound hnone⟩
        · rintro f ⟨p, hp, hf⟩
          exact ⟨p, List.mem_cons_of_mem path hp, hf⟩

theorem outcome_findFile (e : Environment) (workspace : Option Path) :
    Outcome (fun _ ↦ True) (IsExpected e workspace) (findFile e workspace) := by
  have hsought {paths : List Path} (hpaths : soughtPaths e workspace = paths) :
      Outcome (fun found ↦ found = none → ∀ path ∈ paths, e.isFile path = false)
        (IsExpected e workspace) (firstFile e paths) := by
    refine (outcome_firstFile e paths).mono (fun _ ↦ id) ?_
    rintro f ⟨path, hpath, hlong, rfl⟩
    exact .inr (.tooLong (hpaths ▸ hpath) hlong)
  unfold findFile
  cases hnamed : named? e with
  | none => exact (hsought (by rw [soughtPaths, hnamed])).mono (fun _ _ ↦ trivial) fun _ ↦ id
  | some named =>
    dsimp only
    cases hpath : e.expandHome named with
    | none => exact .inr (.noHome hnamed hpath)
    | some path =>
      have hpaths : soughtPaths e workspace = [path] := by
        rw [soughtPaths, hnamed]
        dsimp only
        rw [hpath, Option.toList_some]
      refine (hsought hpaths).bind fun found hfound ↦ ?_
      cases found with
      | some file => trivial
      | none =>
        have hmissing := hfound rfl path (List.mem_singleton_self path)
        exact .inl ⟨_, rfl, .missing hnamed hpath hmissing⟩

theorem outcome_decodeFile {path : Path} {bytes : List UInt8}
    (hfound : IsFound e workspace path bytes) :
    Outcome (fun _ ↦ True) (IsExpected e workspace) (decodeFile path bytes) := by
  have hread := Yaml.outcome_readFile bytes
  unfold decodeFile
  cases h : Yaml.readFile bytes with
  | ok v => trivial
  | error f =>
    rw [h] at hread
    cases f with
    | malformed error => exact .inl ⟨_, rfl, .malformed hfound h⟩
    | impossible f => exact .inr (.scalar hfound hread)
    | unreadable f =>
      cases hread with
      | unreadable hbytes => exact .inr (.encoding hfound hbytes)

theorem outcome_decodedFile (e : Environment) (workspace : Option Path) :
    Outcome (fun _ ↦ True) (IsExpected e workspace) (decodedFile e workspace) := by
  have hfind := outcome_findFile e workspace
  unfold decodedFile
  cases hfound : findFile e workspace with
  | error f =>
    rw [hfound] at hfind
    exact hfind
  | ok found =>
    cases found with
    | none => trivial
    | some path => exact (outcome_decodeFile ⟨hfound, rfl⟩).bind fun _ _ ↦ trivial

/-- **Before a value is checked**, whatever bytes a file holds and whatever the variable names,
there is a decoded value or no file to decode, or the file is refused, or it is undecodable. A fault
is then that of the loading, whatever the options are. -/
theorem decoded_or_refused_or_undecodable (e : Environment) (workspace : Option Path) :
    ((∃ found, decodedFile e workspace = .ok found) ∨
      (∃ refusal, decodedFile e workspace = .error (.refused refusal) ∧
        RefusesFile e workspace refusal) ∨
      ∃ f, decodedFile e workspace = .error f ∧ Undecodable e workspace f) ∧
    ∀ f, decodedFile e workspace = .error f →
      ∀ options, load e workspace options = .error f := by
  refine ⟨?_, fun f ↦ load_of_decodedFile⟩
  have h := outcome_decodedFile e workspace
  cases hdecoded : decodedFile e workspace with
  | ok found => exact .inl ⟨found, rfl⟩
  | error f =>
    rw [hdecoded] at h
    rcases h with ⟨refusal, rfl, hrefusal⟩ | hundecodable
    · exact .inr (.inl ⟨refusal, rfl, hrefusal⟩)
    · exact .inr (.inr ⟨f, rfl, hundecodable⟩)

/-! ### What is not refused -/

/-- Surroundings in which the variable names a path in the home directory of an unknown account. -/
def unknownHome : Environment where
  settings := [(fileVariable, "~nobody/x.yml")]

example : decodedFile unknownHome none = .error .noHome := rfl

/-- Surroundings with a file in the workspace `/work`. -/
def withFile (bytes : List UInt8) : Environment where
  read? p := if p = Path.ofString "/work/.completionls.yml" then some bytes else none

/-- A file with a day in a thirteenth month. -/
def impossibleDay : List UInt8 := "a: 2001-13-01\n".toUTF8.toList

/-- Not every fault before a value is checked is a refusal. -/
theorem not_refused_impossibleDay : ¬∀ e workspace,
    (∃ found, decodedFile e workspace = .ok found) ∨
      ∃ refusal, decodedFile e workspace = .error (.refused refusal) := by
  intro h
  have hday : (decodedFile (withFile impossibleDay) (some (Path.ofString "/work"))).map (fun _ ↦ ())
      = .error (.scalar (.calendar .month)) := by
    decide +kernel
  rcases h (withFile impossibleDay) (some (Path.ofString "/work")) with
    ⟨found, hok⟩ | ⟨refusal, hrefused⟩
  · rw [hok] at hday
    cases hday
  · rw [hrefused] at hday
    cases hday

end CompletionServer.Config
