import CompletionServer.Backend.Answer
import CompletionServer.Backend.Run
import CompletionServer.Completion.Source
import CompletionServer.Value.Text

/-!
# Backends

A backend is a program that answers requests, one launch for each. Its failures are named with the
name of the provider. Four endings are none of them: the request was cancelled, what was to be
started holds a character that cannot be passed on, the output holds a whole number of too many
digits, or there is no end, since neither the program nor its time limit comes to one.
-/

namespace CompletionServer

open Completion

/-- A program with its arguments, and how to run it. -/
structure Backend where
  name : String
  arguments : List String
  positionBase : Numeral := .int 0
  timeout : Seconds := .ofFloat 10.0
  directory : Option Path := none
deriving Inhabited

namespace Backend

/-- Why a backend failed. -/
inductive Error where
  | cannotStart (message : String)
  | timedOut (timeout : String)
  | exited (code : Int) (message : String)
  | invalidJson (e : Json.Error)
  | notList (kindName : String)
deriving DecidableEq, Repr

/-- Why there are no candidates. -/
inductive Failure where
  | backend (name : String) (e : Error)
  | embeddedNul
  | tooManyDigits (count : Nat)
  | cancelled
  /-- The call goes on for ever. -/
  | endless
deriving DecidableEq, Repr

def Error.message (name : String) : Error → String
  | .cannotStart message => s!"Cannot start completion backend '{name}': {message}"
  | .timedOut timeout => s!"Completion backend '{name}' timed out after {timeout}s"
  | .exited code message => s!"Completion backend '{name}' exited with {code}: {message}"
  | .invalidJson e => s!"Completion backend '{name}' returned invalid JSON: {e.message}"
  | .notList kindName => s!"Completion backend '{name}' returned {kindName}, expected a list"

/-- The kind of a failure, as it is reported to a client. A call without an end is not reported. -/
def Failure.kind : Failure → String
  | .backend _ _ => "CompletionBackendError"
  | .embeddedNul | .tooManyDigits _ => "ValueError"
  | .cancelled => "CancelledError"
  | .endless => ""

def Failure.message : Failure → String
  | .backend name e => e.message name
  | .embeddedNul => "embedded null byte"
  | .tooManyDigits count => Text.tooManyDigitsMessage count
  | .cancelled | .endless => ""

/-- A failure to read the answer of a backend. -/
def AnswerError.failure (name : String) : AnswerError → Failure
  | .json (.tooManyDigits count) => .tooManyDigits count
  | .json e => .backend name (.invalidJson e)
  | .notList kindName => .backend name (.notList kindName)

/-- The candidates of a program that ended by itself. -/
def ofExit (name : String) (exit : Exit) : Except Failure (List Candidate) :=
  if exit.code = 0 then (readOutput exit.stdout).mapError (AnswerError.failure name)
  else
    let message := String.ofList (Text.trim (Text.Utf8.decodeLenient exit.stderr))
    .error (.backend name (.exited exit.code message))

/-- The candidates of a run, or why there are none. -/
def ofEnding (b : Backend) : Ending → Except Failure (List Candidate)
  | .refused message => .error (.backend b.name (.cannotStart message))
  | .embeddedNul => .error .embeddedNul
  | .exited exit => ofExit b.name exit
  | .timedOut => .error (.backend b.name (.timedOut b.timeout.toValue.text))
  | .cancelled => .error .cancelled
  | .endless => .error .endless

/-- The time limit of a backend. -/
def limit (b : Backend) : Limit := .ofSeconds b.timeout

/-- The answer of a backend to a request. The launch is recorded after those so far, whatever comes
of it. -/
def answer (programs : Programs) (cancel : Bool) (b : Backend) (r : Request) :
    ExceptT Failure (StateM (List Launch)) (List Candidate) :=
  fun launches ↦
    let (ending, launch) :=
      run (programs launches b.arguments b.directory) b.arguments b.directory b.limit cancel
        r.payload
    (b.ofEnding ending, launches ++ [launch])

/-- The backend for a command, which must not be empty. -/
def ofCommand? (name : String) (arguments : List String) (positionBase : Numeral)
    (timeout : Seconds) (directory : Option Path) : Option Backend :=
  if arguments.isEmpty then none else some ⟨name, arguments, positionBase, timeout, directory⟩

end Backend

end CompletionServer
