import CompletionServer.Proofs.Backend.Failure

/-!
# Every program is accounted for

A backend is asked again and again, and each time a program is started for it. No program may be
left behind: it ends by itself and is left alone, or the call is broken off and the program is
waited for after that. What programs do may depend on all launches before, so a run of calls is
followed call by call.

Three things may end a call: the program, the client and the time limit. What comes first decides
what the call gives, and a program that would have answered later is no answer.

Killing may fail, because the program is gone by then; the wait comes all the same. That is why
what is done to a program depends on whether it is known to have ended, and not on whether it is
still there.
-/

namespace CompletionServer.Backend

open Completion

/-! ## One call -/

/-- A request to a backend. It may be cancelled as soon as the program got its input. -/
structure Call where
  request : Request
  cancel : Bool

/-- That a call was broken off, because of the time limit or by the client. -/
inductive Failure.IsInterruption : Failure → Prop where
  | timedOut (name timeout : String) : IsInterruption (.backend name (.timedOut timeout))
  | cancelled : IsInterruption .cancelled

/-- That a program which got its input has yet to end when its request may be cancelled. -/
def Course.IsPending (course : Course) : Prop := ∀ exit, course ≠ .atOnce exit

/-- That a call of a backend accounts for its program, by what came of starting it: the call ends by
what comes first, and nothing is done to the program unless the call was broken off. -/
structure IsAccountedFor (b : Backend) (call : Call) (start : Start)
    (result : Except Failure (List Candidate)) (launch : Launch) : Prop where
  /-- Without an interruption, the program is left alone. -/
  leftAlone : (∀ f, result = .error f → ¬f.IsInterruption) → launch.events = []
  /-- With one there is a program. It is waited for at the end, and killed before that unless it is
  known to have ended. -/
  reaped : ∀ f, result = .error f → f.IsInterruption → ∃ behaviour, start = .running behaviour ∧
    launch.events = (if behaviour.exited then [] else [Event.kill]) ++ [Event.wait]
  /-- A program that cannot be started is a failure, and no interruption. -/
  notStarted : (∀ behaviour, start ≠ .running behaviour) →
    ∃ f, result = .error f ∧ ¬f.IsInterruption
  /-- A program that ends before the call is broken off decides what it gives. -/
  answered : ∀ behaviour exit, start = .running behaviour → b.limit ≠ .spent →
    behaviour.course = .atOnce exit ∨
      behaviour.course = .later exit ∧ call.cancel = false ∧ b.limit ≠ .atOnce →
    result = ofExit b.name exit
  /-- A cancelled call is broken off, whatever its program would have answered later. -/
  cancelled : ∀ behaviour, start = .running behaviour → b.limit ≠ .spent → call.cancel = true →
    behaviour.course.IsPending → result = .error .cancelled
  /-- So is a call whose time limit is over before its program ends. -/
  timedOut : ∀ behaviour, start = .running behaviour →
    b.limit = .spent ∨ call.cancel = false ∧
      (b.limit = .atOnce ∧ behaviour.course.IsPending ∨
        b.limit = .later ∧ behaviour.course = .never) →
    result = .error (.backend b.name (.timedOut b.timeout.toValue.text))
  /-- Without a limit, a call waits for ever for a program that never ends. -/
  endless : ∀ behaviour, start = .running behaviour → b.limit = .never → call.cancel = false →
    behaviour.course = .never → result = .error .endless

/-- A program that ended by itself is no interruption, whatever it answered. -/
theorem not_isInterruption_of_ofExit {name : String} {exit : Exit} {f : Failure}
    (h : ofExit name exit = .error f) : ¬f.IsInterruption := by
  unfold ofExit at h
  split at h
  · cases hread : readOutput exit.stdout with
    | ok candidates =>
      rw [hread] at h
      cases h
    | error e =>
      rw [hread] at h
      cases h
      intro hinterruption
      cases e with
      | notList kindName => cases hinterruption
      | json e => cases e <;> cases hinterruption
  · cases h
    exact nofun

/-- A failure is an interruption just where the run was broken off. -/
theorem isInterruption_ofEnding_iff {b : Backend} {ending : Ending} {f : Failure}
    (h : b.ofEnding ending = .error f) : f.IsInterruption ↔ ending.isInterruption = true := by
  cases ending with
  | exited exit => exact iff_of_false (not_isInterruption_of_ofExit h) Bool.false_ne_true
  | timedOut =>
    cases h
    exact iff_of_true (.timedOut _ _) rfl
  | cancelled =>
    cases h
    exact iff_of_true .cancelled rfl
  | _ =>
    cases h
    exact iff_of_false nofun Bool.false_ne_true

theorem exists_ofEnding_eq_error {b : Backend} {ending : Ending}
    (h : ending.isInterruption = true) : ∃ f, b.ofEnding ending = .error f := by
  cases ending with
  | timedOut => exact ⟨_, rfl⟩
  | cancelled => exact ⟨_, rfl⟩
  | _ => cases h

section Started

variable {b : Backend} {behaviour : Behaviour} {limit : Limit} {cancel : Bool} {text : String}

theorem ending_runStarted (h : limit ≠ .spent) :
    (runStarted behaviour limit cancel text).1 = behaviour.course.ending limit cancel := by
  rw [runStarted, if_neg h]

/-- What is done to a program tells whether its run was broken off. -/
theorem events_runStarted (behaviour : Behaviour) (limit : Limit) (cancel : Bool) (text : String) :
    (runStarted behaviour limit cancel text).2.2
      = if (runStarted behaviour limit cancel text).1.isInterruption then behaviour.ended
        else [] := by
  rw [runStarted]
  split
  · rfl
  · rfl

theorem ending_true_of_isPending (h : behaviour.course.IsPending) :
    behaviour.course.ending limit true = .cancelled := by
  cases hcourse : behaviour.course with
  | atOnce exit => exact absurd hcourse (h exit)
  | later exit => rfl
  | never => rfl

theorem ending_atOnce_of_isPending (h : behaviour.course.IsPending) :
    behaviour.course.ending .atOnce false = .timedOut := by
  cases hcourse : behaviour.course with
  | atOnce exit => exact absurd hcourse (h exit)
  | later exit => rfl
  | never => rfl

end Started

/-- A program that could not be started is accounted for if nothing was done to it. -/
theorem isAccountedFor_of_not_running {b : Backend} {start : Start} {ending : Ending}
    {launch : Launch} {f : Failure} (call : Call)
    (hstart : ∀ behaviour, start ≠ .running behaviour) (hf : b.ofEnding ending = .error f)
    (hending : ending.isInterruption = false) (hevents : launch.events = []) :
    IsAccountedFor b call start (b.ofEnding ending) launch := by
  have hinterruption : ¬f.IsInterruption := by
    rw [isInterruption_ofEnding_iff hf, hending]
    exact Bool.false_ne_true
  exact {
    leftAlone := fun _ ↦ hevents
    reaped := fun g hg hg' ↦ absurd hg' (Except.error.inj (hf.symm.trans hg) ▸ hinterruption)
    notStarted := fun _ ↦ ⟨f, hf, hinterruption⟩
    answered := fun behaviour _ hrunning ↦ absurd hrunning (hstart behaviour)
    cancelled := fun behaviour hrunning ↦ absurd hrunning (hstart behaviour)
    timedOut := fun behaviour hrunning ↦ absurd hrunning (hstart behaviour)
    endless := fun behaviour hrunning ↦ absurd hrunning (hstart behaviour) }

/-- A program that runs is accounted for: what is done to it is told by the ending, and so is
whether the result is an interruption. -/
theorem isAccountedFor_runStarted (b : Backend) (call : Call) (behaviour : Behaviour)
    (text : String) {launch : Launch}
    (hevents : launch.events = (runStarted behaviour b.limit call.cancel text).2.2) :
    IsAccountedFor b call (.running behaviour)
      (b.ofEnding (runStarted behaviour b.limit call.cancel text).1) launch := by
  rw [events_runStarted] at hevents
  refine ⟨fun hnone ↦ ?leftAlone, fun f hf hinterruption ↦ ?reaped, fun hstart ↦ ?notStarted,
    fun behaviour' exit hrunning hlimit hexit ↦ ?answered,
    fun behaviour' hrunning hlimit hcancel hpending ↦ ?cancelled,
    fun behaviour' hrunning hover ↦ ?timedOut,
    fun behaviour' hrunning hlimit hcancel hnever ↦ ?endless⟩
  case leftAlone =>
    rw [hevents, if_neg]
    intro hinterruption
    obtain ⟨f, hf⟩ := exists_ofEnding_eq_error (b := b) hinterruption
    exact hnone f hf ((isInterruption_ofEnding_iff hf).mpr hinterruption)
  case reaped =>
    refine ⟨behaviour, rfl, ?_⟩
    rw [hevents, if_pos ((isInterruption_ofEnding_iff hf).mp hinterruption), ended_eq]
  case notStarted => exact absurd rfl (hstart behaviour)
  all_goals obtain rfl := Start.running.inj hrunning
  case answered =>
    rw [ending_runStarted hlimit]
    rcases hexit with hexit | ⟨hexit, hcancel, hatOnce⟩
    · rw [hexit]
      rfl
    · rw [hexit, hcancel, Course.ending, if_neg Bool.false_ne_true, if_neg hatOnce]
      rfl
  case cancelled =>
    rw [ending_runStarted hlimit, hcancel, ending_true_of_isPending hpending]
    rfl
  case timedOut =>
    rcases hover with hspent | ⟨hcancel, ⟨hatOnce, hpending⟩ | ⟨hlater, hnever⟩⟩
    · rw [runStarted, if_pos hspent]
      rfl
    · rw [ending_runStarted (by rw [hatOnce]; decide), hcancel, hatOnce,
        ending_atOnce_of_isPending hpending]
      rfl
    · rw [ending_runStarted (by rw [hlater]; decide), hcancel, hlater, hnever]
      rfl
  case endless =>
    rw [ending_runStarted (by rw [hlimit]; decide), hcancel, hlimit, hnever]
    rfl

/-- A run of a backend accounts for the program, whatever starting it comes to. -/
theorem isAccountedFor_run (b : Backend) (call : Call) (start : Start) (text : String) :
    IsAccountedFor b call start
      (b.ofEnding (run start b.arguments b.directory b.limit call.cancel text).1)
      (run start b.arguments b.directory b.limit call.cancel text).2 := by
  cases start with
  | refused message => exact isAccountedFor_of_not_running call nofun rfl rfl rfl
  | embeddedNul => exact isAccountedFor_of_not_running call nofun rfl rfl rfl
  | running behaviour => exact isAccountedFor_runStarted b call behaviour text rfl

/-! ## Calls in turn -/

/-- What calls of a backend give, one after the other. -/
def answers (programs : Programs) (b : Backend) (calls : List Call) :
    StateM (List Launch) (List (Except Failure (List Candidate))) :=
  calls.mapM fun call ↦ (b.answer programs call.cancel call.request).run

theorem run_answers_cons (programs : Programs) (b : Backend) (call : Call) (calls : List Call)
    (past : List Launch) :
    ∃ result launch, IsAccountedFor b call (programs past b.arguments b.directory) result launch ∧
      (answers programs b (call :: calls)).run past
        = (result :: ((answers programs b calls).run (past ++ [launch])).1,
          ((answers programs b calls).run (past ++ [launch])).2) := by
  refine ⟨_, _, isAccountedFor_run b call (programs past b.arguments b.directory)
    call.request.payload, ?_⟩
  rw [answers, List.mapM_cons]
  rfl

/-- **Every program is accounted for**, in every run of calls of a backend, whatever its time limit
is, whatever programs do and whichever calls are cancelled. There is one result and one launch for
each call, and what was done to the program of a call is told by its result: nothing, unless the
call was broken off; a wait and nothing after it if it was, with one kill before the wait if the
program was not known to have ended. -/
theorem calls_account_for_programs (programs : Programs) (b : Backend) (calls : List Call)
    (past : List Launch) :
    ∃ results launches, (b.answers programs calls).run past = (results, past ++ launches) ∧
      results.length = calls.length ∧ launches.length = calls.length ∧
      ∀ i (hi : i < calls.length), ∃ result launch,
        results[i]? = some result ∧ launches[i]? = some launch ∧
        IsAccountedFor b calls[i] (programs (past ++ launches.take i) b.arguments b.directory)
          result launch := by
  induction calls generalizing past with
  | nil => exact ⟨[], [], by rw [List.append_nil]; rfl, rfl, rfl, fun i hi ↦ nomatch hi⟩
  | cons call calls ih =>
    obtain ⟨result, launch, haccounted, hrun⟩ := run_answers_cons programs b call calls past
    obtain ⟨results, launches, hrest, hresults, hlaunches, hall⟩ := ih (past ++ [launch])
    refine ⟨result :: results, launch :: launches, ?_, congrArg (· + 1) hresults,
      congrArg (· + 1) hlaunches, fun i hi ↦ ?_⟩
    · rw [hrun, hrest, List.append_assoc]
      rfl
    · cases i with
      | zero =>
        refine ⟨result, launch, rfl, rfl, ?_⟩
        rwa [List.take_zero, List.append_nil]
      | succ i =>
        obtain ⟨result', launch', hresult', hlaunch', haccounted'⟩ :=
          hall i (Nat.lt_of_succ_lt_succ hi)
        refine ⟨result', launch', hresult', hlaunch', ?_⟩
        rwa [List.take_succ_cons, List.append_cons]

/-- Programs one after the other, and whether their calls are cancelled. Two of those that never
answer are known to have ended or are gone when they are killed. Of the last three, whose calls are
cancelled, one would have answered later, and one has answered by then. -/
def eightKinds : List (Start × Bool) :=
  [(.refused "No such file or directory", false),
    (.running { course := .later ⟨Text.Utf8.encode "[{}]".toList, [], 0⟩ }, false),
    (.running { course := .later ⟨[], [], 1⟩ }, false),
    (.running { course := .never, exited := true }, false),
    (.running { course := .never, gone := true }, false),
    (.running { course := .never }, true),
    (.running { course := .later ⟨Text.Utf8.encode "[{}]".toList, [], 0⟩ }, true),
    (.running { course := .atOnce ⟨Text.Utf8.encode "[{}]".toList, [], 0⟩ }, true)]

def programsInTurn : Programs := fun launches _ _ ↦
  ((eightKinds.map Prod.fst)[launches.length]?).getD .embeddedNul

def callsInTurn : List Call := eightKinds.map fun kind ↦ ⟨atStart, kind.2⟩

theorem calls_account_for_eightKinds :
    ((tenSeconds.answers programsInTurn callsInTurn).run []).2.map Launch.events
        = [[], [], [], [.wait], [.kill, .wait], [.kill, .wait], [.kill, .wait], []] ∧
      (((tenSeconds.answers programsInTurn callsInTurn).run []).1.map fun result ↦
          (result.map List.length).mapError Failure.kind)
        = [.error "CompletionBackendError", .ok 1, .error "CompletionBackendError",
          .error "CompletionBackendError", .error "CompletionBackendError",
          .error "CancelledError", .error "CancelledError", .ok 1] ∧
      ∃ results launches, (tenSeconds.answers programsInTurn callsInTurn).run []
          = (results, launches) ∧
        results.length = 8 ∧ ∃ result launch, results[6]? = some result ∧
          launches[6]? = some launch ∧
          tenSeconds.IsAccountedFor ⟨atStart, true⟩
            (programsInTurn (launches.take 6) tenSeconds.arguments tenSeconds.directory)
            result launch := by
  refine ⟨by decide +kernel, by decide +kernel, ?_⟩
  obtain ⟨results, launches, hrun, hresults, -, hall⟩ :=
    calls_account_for_programs programsInTurn tenSeconds callsInTurn []
  obtain ⟨result, launch, hresult, hlaunch, haccounted⟩ := hall 6 (by decide)
  exact ⟨results, launches, hrun, hresults, result, launch, hresult, hlaunch, haccounted⟩

end CompletionServer.Backend
