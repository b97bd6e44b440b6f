import CompletionServer.Numeral
import CompletionServer.Path

/-!
# Running a program

A backend is a program that is started for one request, gets it on its standard input, and answers
on its standard output. It may fail to start, answer with any exit code, or never answer. It is
waited for until it ends, until its request is cancelled, or until the time limit is over, whichever
comes first.

There is no clock here. What a program does is an assumption of the run, and so is whether it ends
before or after the other two. What is done to it is recorded: the launch, the text that was sent,
and every kill and wait in order.
-/

namespace CompletionServer.Backend

/-! ## Programs -/

/-- What a program leaves behind when it ends by itself. -/
structure Exit where
  stdout : List UInt8
  stderr : List UInt8
  code : Int
deriving DecidableEq, Repr, Inhabited

/-- What a program that got its input comes to if it is left alone. -/
inductive Course where
  /-- It ends at once: whatever else happens comes too late. -/
  | atOnce (exit : Exit)
  /-- It takes some time, but ends within a time limit that leaves it some. -/
  | later (exit : Exit)
  /-- It does not end within the time limit. -/
  | never
deriving DecidableEq, Repr, Inhabited

/-- What is left behind by a program that ends by itself. -/
def Course.exit? : Course → Option Exit
  | .atOnce exit | .later exit => some exit
  | .never => none

/-- What a program does once it runs. -/
structure Behaviour where
  course : Course
  /-- It is known to have ended by the time it is to be killed. -/
  exited : Bool := false
  /-- It is no longer there when it is killed. -/
  gone : Bool := false
deriving DecidableEq, Repr, Inhabited

/-- What a program leaves behind if it ends by itself within the time limit. -/
def Behaviour.exit (b : Behaviour) : Option Exit := b.course.exit?

/-- What comes of starting a program. -/
inductive Start where
  | refused (message : String)
  /-- An argument or the directory holds the character that ends a text for the system. -/
  | embeddedNul
  | running (b : Behaviour)
deriving DecidableEq, Repr, Inhabited

/-! ## Launches -/

/-- What is done to a program that runs. -/
inductive Event where
  | kill
  | wait
deriving DecidableEq, Repr, Inhabited

/-- A program that was to be started: its arguments and directory, the text it was sent, if any, and
what was done to it. -/
structure Launch where
  arguments : List String
  directory : Option Path
  input : Option String
  events : List Event
deriving DecidableEq, Repr, Inhabited

/-- What programs do, by the launches so far, the arguments and the directory. -/
abbrev Programs := List Launch → List String → Option Path → Start

/-- Kills a program. The signal fails if the program is no longer there. -/
def Behaviour.kill (b : Behaviour) : ExceptT Unit (StateM (List Event)) Unit := do
  modify (· ++ [Event.kill])
  if b.gone then throw ()

/-- Ends a program: it is killed unless it is known to have ended, and waited for in any case. A
signal that finds no program is passed over. -/
def Behaviour.reap (b : Behaviour) : StateM (List Event) Unit := do
  if !b.exited then discard b.kill.run
  modify (· ++ [Event.wait])

/-- What is done to a program to end it. -/
def Behaviour.ended (b : Behaviour) : List Event := (b.reap.run []).2

theorem ended_eq (b : Behaviour) :
    b.ended = (if b.exited then [] else [Event.kill]) ++ [Event.wait] := by
  obtain ⟨course, exited, gone⟩ := b
  cases exited with
  | true => rfl
  | false => cases gone <;> rfl

/-! ## Time limits -/

/-- When a time limit is over. -/
inductive Limit where
  /-- Before the program gets its input: no time was given. -/
  | spent
  /-- As soon as the program got its input. -/
  | atOnce
  | later
  | never
deriving DecidableEq, Repr, Inhabited

/-- The limit that a number of seconds is. A float that is no number does not count as spent, and is
over at once all the same; an infinite one is no limit. -/
def Limit.ofSeconds (s : Seconds) : Limit :=
  match s.numeral with
  | .bool b => if b then .later else .spent
  | .int n => if n ≤ 0 then .spent else .later
  | .float x =>
    if x ≤ 0.0 then .spent else if x.isNaN then .atOnce else if x.isInf then .never else .later

/-! ## Runs -/

/-- How a run ends. -/
inductive Ending where
  | refused (message : String)
  | embeddedNul
  | exited (exit : Exit)
  | timedOut
  | cancelled
  /-- It does not: the program never ends, and nothing breaks the wait off. -/
  | endless
deriving DecidableEq, Repr, Inhabited

/-- Whether a run is broken off while the program is waited for. -/
def Ending.isInterruption : Ending → Bool
  | .timedOut | .cancelled => true
  | _ => false

/-- How the wait for a program ends that got its input: by what comes first. A request that is
cancelled is so at once, and before a limit that is over at once. -/
def Course.ending (limit : Limit) (cancel : Bool) : Course → Ending
  | .atOnce exit => .exited exit
  | .later exit =>
    if cancel then .cancelled else if limit = .atOnce then .timedOut else .exited exit
  | .never => if cancel then .cancelled else if limit = .never then .endless else .timedOut

/-- A run of a program that was started. A limit that is spent ends it before anything is sent. A
program whose run is broken off is ended. -/
def runStarted (b : Behaviour) (limit : Limit) (cancel : Bool) (text : String) :
    Ending × Option String × List Event :=
  if limit = .spent then (.timedOut, none, b.ended)
  else
    let ending := b.course.ending limit cancel
    (ending, some text, if ending.isInterruption then b.ended else [])

/-- A run of a program, and the record of it. `cancel` says that the request is cancelled as soon as
the program got its input, which is too late for a program that ends at once. -/
def run (start : Start) (arguments : List String) (directory : Option Path) (limit : Limit)
    (cancel : Bool) (text : String) : Ending × Launch :=
  match start with
  | .refused message => (.refused message, ⟨arguments, directory, none, []⟩)
  | .embeddedNul => (.embeddedNul, ⟨arguments, directory, none, []⟩)
  | .running b =>
    let (ending, input, events) := runStarted b limit cancel text
    (ending, ⟨arguments, directory, input, events⟩)

end CompletionServer.Backend
