import CompletionServer.Backend.Basic
import CompletionServer.Proofs.Json.Reader
import CompletionServer.Text.Utf8.RoundTrip

/-!
# How a backend fails

Whatever a backend does, what comes of it is a list of candidates or a failure that is named after
the provider. One output is neither: a run of more digits than a whole number may have. Where it is
read as a number it stops the reader, but not as a defect of the notation does, and so it is not
taken for a failure of the backend. And nothing at all comes of a backend that never ends where its
time limit is infinite.

That such a run stands in the output is all that is said of this case. Not every output with one is
turned down: the digits may stand in a text or after a point.
-/

namespace CompletionServer

open Completion

namespace Text

/-! ## Trimmed texts -/

theorem trimWhere_infix (p : Char → Bool) (s : List Char) : trimWhere p s <:+: s := by
  have hright : ((s.dropWhile p).reverse.dropWhile p).reverse <+: s.dropWhile p := by
    rw [← List.reverse_suffix, List.reverse_reverse]
    exact List.dropWhile_suffix p
  exact hright.isInfix.trans (List.dropWhile_suffix p).isInfix

theorem trimWhere_of_forall_not {p : Char → Bool} {s : List Char} (h : ∀ c ∈ s, p c = false) :
    trimWhere p s = s := by
  -- The two ends are alike, apart from the direction.
  have hkept {t : List Char} (ht : ∀ c ∈ t, p c = false) : t.dropWhile p = t := by
    cases t with
    | nil => rfl
    | cons c t =>
      exact List.dropWhile_cons_of_neg (Bool.eq_false_iff.mp (ht c List.mem_cons_self))
  rw [trimWhere, hkept h, hkept fun c hc ↦ h c (List.mem_reverse.mp hc), List.reverse_reverse]

theorem isBlank_of_isDigit {c : Char} (h : isDigit c = true) : isBlank c = false := by
  obtain ⟨hlow, hhigh⟩ := isDigit_iff.mp h
  simp [isBlank]
  omega

end Text

namespace Backend

/-! ## Outputs -/

theorem candidatesOf_ne_json (v : Value) (e : Json.Error) : candidatesOf v ≠ .error (.json e) := by
  unfold candidatesOf
  split
  · exact nofun
  · exact nofun

/-- An output is not read for its size only where it has a run of that many digits. -/
theorem hasLongRun_of_readOutput {stdout : List UInt8} {count : ℕ}
    (h : readOutput stdout = .error (.json (.tooManyDigits count))) :
    Json.HasLongRun (Text.Utf8.decodeLenient stdout) count := by
  unfold readOutput readText at h
  split at h
  · cases h
  · refine Json.HasLongRun.mono ?_ (Text.trimWhere_infix Text.isBlank _)
    change Json.HasLongRun (Text.trim (Text.Utf8.decodeLenient stdout)) count
    cases hread : Json.read (Text.trim (Text.Utf8.decodeLenient stdout)) with
    | ok v =>
      rw [hread] at h
      exact absurd h (candidatesOf_ne_json v _)
    | error e =>
      rw [hread] at h
      cases h
      exact Json.hasLongRun_of_read hread

/-- The output of a program that ended well gives candidates or is a failure of the backend, or it
has a run of too many digits. -/
theorem ofExit_cases (name : String) (exit : Exit) :
    (∃ candidates, ofExit name exit = .ok candidates) ∨
      (∃ e, ofExit name exit = .error (.backend name e)) ∨
      ∃ count, exit.code = 0 ∧ Json.HasLongRun (Text.Utf8.decodeLenient exit.stdout) count ∧
        ofExit name exit = .error (.tooManyDigits count) := by
  unfold ofExit
  split
  · next hcode =>
    cases hread : readOutput exit.stdout with
    | ok candidates => exact .inl ⟨candidates, rfl⟩
    | error e =>
      cases e with
      | notList kindName => exact .inr (.inl ⟨_, rfl⟩)
      | json e =>
        cases e with
        | defect d line column position => exact .inr (.inl ⟨_, rfl⟩)
        | tooManyDigits count =>
          exact .inr (.inr ⟨count, hcode, hasLongRun_of_readOutput hread, rfl⟩)
  · exact .inr (.inl ⟨_, rfl⟩)

/-- A whole number of too many digits is turned down, and not as a failure of the backend. -/
theorem ofExit_of_isDigit (name : String) (stderr : List UInt8) {run : List Char}
    (hrun : ∀ c ∈ run, Text.isDigit c = true) (hhead : run.head? ≠ some '0')
    (hlong : Text.digitLimit < run.length) :
    ofExit name ⟨Text.Utf8.encode run, stderr, 0⟩ = .error (.tooManyDigits run.length) := by
  have htrim : Text.trim run = run :=
    Text.trimWhere_of_forall_not fun c hc ↦ Text.isBlank_of_isDigit (hrun c hc)
  have hread : readText run = .error (.json (.tooManyDigits run.length)) := by
    unfold readText
    split
    · next hnil =>
      rw [← htrim, hnil] at hlong
      exact absurd hlong (by decide)
    · rw [htrim, Json.read_of_isDigit hrun hhead hlong]
      rfl
  rw [ofExit, if_pos rfl, readOutput, Text.Utf8.decodeLenient_encode, hread]
  rfl

/-! ## Runs -/

theorem result_answer (programs : Programs) (cancel : Bool) (b : Backend) (r : Request)
    (past : List Launch) : ((b.answer programs cancel r).run.run past).1 = b.ofEnding
      (run (programs past b.arguments b.directory) b.arguments b.directory b.limit cancel
        r.payload).1 :=
  rfl

/-- The endings of a wait that is not cancelled. -/
theorem ending_course_cases (course : Course) (limit : Limit) :
    course.ending limit false = .timedOut ∨
      (∃ exit, course.exit? = some exit ∧ course.ending limit false = .exited exit) ∨
      course.exit? = none ∧ limit = .never ∧ course.ending limit false = .endless := by
  cases course with
  | atOnce exit => exact .inr (.inl ⟨exit, rfl, rfl⟩)
  | later exit =>
    by_cases hlimit : limit = .atOnce
    · exact .inl (if_pos hlimit)
    · exact .inr (.inl ⟨exit, rfl, if_neg hlimit⟩)
  | never =>
    by_cases hlimit : limit = .never
    · exact .inr (.inr ⟨rfl, hlimit, if_pos hlimit⟩)
    · exact .inl (if_neg hlimit)

/-- The endings of a run that is not cancelled, of a program that can be passed to the system. -/
theorem ending_run_cases {start : Start} (hstart : start ≠ .embeddedNul) (arguments : List String)
    (directory : Option Path) (limit : Limit) (text : String) :
    (∃ message, (run start arguments directory limit false text).1 = .refused message) ∨
      (run start arguments directory limit false text).1 = .timedOut ∨
      (∃ behaviour exit, start = .running behaviour ∧ behaviour.exit = some exit ∧
        (run start arguments directory limit false text).1 = .exited exit) ∨
      ∃ behaviour, start = .running behaviour ∧ behaviour.exit = none ∧ limit = .never ∧
        (run start arguments directory limit false text).1 = .endless := by
  cases start with
  | refused message => exact .inl ⟨message, rfl⟩
  | embeddedNul => exact absurd rfl hstart
  | running behaviour =>
    rw [run]
    dsimp only
    by_cases hspent : limit = .spent
    · rw [runStarted, if_pos hspent]
      exact .inr (.inl rfl)
    · rw [runStarted, if_neg hspent]
      rcases ending_course_cases behaviour.course limit with htimedOut | ⟨exit, hexit, hended⟩ |
        ⟨hexit, hlimit, hendless⟩
      · exact .inr (.inl htimedOut)
      · exact .inr (.inr (.inl ⟨behaviour, exit, rfl, hexit, hended⟩))
      · exact .inr (.inr (.inr ⟨behaviour, rfl, hexit, hlimit, hendless⟩))

/-- **A backend gives candidates or fails as a backend**, whatever it does, if the request is not
cancelled and no character of the command keeps it from being started. Otherwise it ended well, and
its output has a run of too many digits; or it never ends, and the time limit is infinite. -/
theorem gives_candidates_or_fails (programs : Programs) (b : Backend) (r : Request)
    (past : List Launch) (hstart : programs past b.arguments b.directory ≠ .embeddedNul) :
    let result := ((b.answer programs false r).run.run past).1
    (∃ candidates, result = .ok candidates) ∨ (∃ e, result = .error (.backend b.name e)) ∨
      (∃ behaviour exit count, programs past b.arguments b.directory = .running behaviour ∧
        behaviour.exit = some exit ∧ exit.code = 0 ∧
        Json.HasLongRun (Text.Utf8.decodeLenient exit.stdout) count ∧
        result = .error (.tooManyDigits count)) ∨
      ∃ behaviour, programs past b.arguments b.directory = .running behaviour ∧
        behaviour.exit = none ∧ b.limit = .never ∧ result = .error .endless := by
  intro result
  have hresult := result_answer programs false b r past
  rcases ending_run_cases hstart b.arguments b.directory b.limit r.payload with
    ⟨message, hending⟩ | hending | ⟨behaviour, exit, hrunning, hexit, hending⟩ |
    ⟨behaviour, hrunning, hexit, hlimit, hending⟩
  · rw [hending] at hresult
    exact .inr (.inl ⟨.cannotStart message, hresult⟩)
  · rw [hending] at hresult
    exact .inr (.inl ⟨.timedOut _, hresult⟩)
  · rw [hending, ofEnding] at hresult
    rcases ofExit_cases b.name exit with ⟨candidates, hok⟩ | ⟨e, hfailed⟩ |
      ⟨count, hcode, hrun, herror⟩
    · exact .inl ⟨candidates, hresult.trans hok⟩
    · exact .inr (.inl ⟨e, hresult.trans hfailed⟩)
    · exact .inr (.inr (.inl ⟨behaviour, exit, count, hrunning, hexit, hcode, hrun,
        hresult.trans herror⟩))
  · rw [hending, ofEnding] at hresult
    exact .inr (.inr (.inr ⟨behaviour, hrunning, hexit, hlimit, hresult⟩))

/-- A program that answers with these bytes. -/
def answering (bytes : List UInt8) : Programs :=
  fun _ _ _ ↦ .running { course := .later ⟨bytes, [], 0⟩ }

def tenSeconds : Backend :=
  { name := "b", arguments := ["backend"], timeout := ⟨.int 10, by decide +kernel⟩ }

def atStart : Request := { fileName := "/a.cs", line := .int 0, column := .int 0 }

theorem result_answering (bytes : List UInt8) :
    ((tenSeconds.answer (answering bytes) false atStart).run.run []).1
      = ofExit "b" ⟨bytes, [], 0⟩ :=
  rfl

theorem fails_answering_malformed :
    ∃ e, ((tenSeconds.answer (answering [0xFF]) false atStart).run.run []).1
      = .error (.backend "b" e) := by
  rcases gives_candidates_or_fails (answering [0xFF]) tenSeconds atStart [] nofun with
    ⟨candidates, hok⟩ | hfailed |
      ⟨behaviour, exit, count, hrunning, hexit, -, ⟨run, hrun, hlength, hlimit, -⟩, -⟩ |
      ⟨behaviour, -, -, hnever, -⟩
  · have hmalformed : (ofExit "b" ⟨[0xFF], [], 0⟩).isOk = false := by decide +kernel
    rw [← result_answering, hok] at hmalformed
    cases hmalformed
  · exact hfailed
  · cases hrunning
    cases hexit
    -- One byte is read as one character, which is no long run.
    have hone : (Text.Utf8.decodeLenient [0xFF]).length = 1 := by decide
    have hle := hrun.length_le
    rw [hone, hlength] at hle
    exact absurd (hlimit.trans_le hle) (by decide)
  · cases hnever

/-- A whole number of too many digits is no failure of the backend. -/
theorem not_fails_answering_longNumber :
    ¬∀ (programs : Programs) (b : Backend) (r : Request) (past : List Launch) (line column : Int),
      r.line = .int line → r.column = .int column → line.natAbs < Decimal.twoPow 63 →
      column.natAbs < Decimal.twoPow 63 → programs past b.arguments b.directory ≠ .embeddedNul →
      b.limit ≠ .never →
      (∃ candidates, ((b.answer programs false r).run.run past).1 = .ok candidates) ∨
        ∃ e, ((b.answer programs false r).run.run past).1 = .error (.backend b.name e) := by
  intro h
  have hdigits : ∀ c ∈ List.replicate 4301 '1', Text.isDigit c = true := by
    intro c hc
    rw [List.eq_of_mem_replicate hc]
    rfl
  have hhead : (List.replicate 4301 '1').head? ≠ some '0' := by
    rw [List.head?_replicate]
    decide
  have hlong : Text.digitLimit < (List.replicate 4301 '1').length := by
    rw [List.length_replicate]
    decide
  have hresult := (result_answering _).trans (ofExit_of_isDigit "b" [] hdigits hhead hlong)
  rcases h (answering (Text.Utf8.encode (List.replicate 4301 '1'))) tenSeconds atStart [] 0 0 rfl
    rfl (Decimal.twoPow_pos 63) (Decimal.twoPow_pos 63) nofun nofun with
    ⟨candidates, hok⟩ | ⟨e, hfailed⟩
  · cases hok.symm.trans hresult
  · cases hfailed.symm.trans hresult

end Backend

end CompletionServer
