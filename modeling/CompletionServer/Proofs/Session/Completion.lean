import CompletionServer.Proofs.Completion.Place
import CompletionServer.Proofs.Session.Capability
import CompletionServer.Proofs.Session.History

/-!
# One request for completion

What a session does about a request for completion, after any messages. It launches the backends
that serve the document in the order of the configuration, up to the first that fails, and the
failure of this one is the answer then, whatever those before it gave. Nothing of the session
changes.

Nothing is assumed of the capabilities, since the session is one that messages have led to. The
place must be in the range of floats, because a provider may count from a float: a client that
keeps to the protocol asks for places far below.
-/

namespace CompletionServer

open Backend Completion

variable {programs : Programs} {cancel : Bool}

namespace Session

/-- What a session shows to its capabilities. -/
def view (s : Session) (programs : Programs) (cancel : Bool) : View :=
  ⟨s.documents.getD [], s.snippetSupport, programs, cancel⟩

/-- The language of a document, if it is open. -/
def languageAt (s : Session) (uri : String) : Option (List Text.Point) :=
  ((s.documents.getD []).find? uri).map Document.language

theorem languageOf_view {s : Session} {uri name : String} (huri : Uri.fileName uri = .ok name) :
    Capability.languageOf (s.view programs cancel) uri = .ok (s.languageAt uri) := by
  have hdocuments : (s.view programs cancel).documents = s.documents.getD [] := rfl
  rw [Capability.languageOf, languageAt, hdocuments, huri]
  cases Documents.find? (s.documents.getD []) uri with
  | none => rfl
  | some d => rfl

theorem exists_query_view {s : Session} {p : CompletionParams} {name : String}
    (huri : Uri.fileName p.uri = .ok name) :
    ∃ q, Capability.query (s.view programs cancel) p = .ok q ∧ q.line = .int p.line ∧
      q.column = .int p.column := by
  rw [Capability.query, huri]
  exact ⟨_, rfl, rfl, rfl⟩

/-- The list of a session is joined from the answers of its capabilities. -/
theorem complete_eq_joined {s : Session} {rs : List Registration}
    (hs : s.capabilities = some (rs.map fun r ↦ (Capability.name r, r))) (p : CompletionParams) :
    s.complete programs cancel p = Handlers.joined <$>
      (rs.map fun r ↦ (Capability.name r, Capability.handler (s.view programs cancel) r)).filterMapM
        (Handlers.ask p) := by
  have hhandlers : Capabilities.handlers (s.view programs cancel)
      (rs.map fun r ↦ (Capability.name r, r))
      = rs.map fun r ↦ (Capability.name r, Capability.handler (s.view programs cancel) r) := by
    rw [Capabilities.handlers, List.map_map]
    rfl
  have hcompletes : ∀ e ∈ rs.map fun r ↦
      (Capability.name r, Capability.handler (s.view programs cancel) r), e.2.completes = true := by
    intro e he
    obtain ⟨r, -, rfl⟩ := List.mem_map.mp he
    rfl
  rw [Session.complete, hs]
  change Capabilities.complete (s.view programs cancel) _ p = _
  rw [Capabilities.complete, hhandlers, Handlers.complete_eq_joined, Handlers.answers,
    List.filter_eq_self.mpr hcompletes]

/-- The turn of a request for completion. -/
theorem turn_eq {s : Session} {r : Received} {id : Value} (hopen : s.closing = false)
    (hid : r.message.id = some id) (hmethod : r.message.method = "textDocument/completion")
    {result : Except Fault ItemList} {launches : List Launch}
    (hrun : (s.complete r.programs r.cancel (completionParams r.message)).run.run []
      = (result, launches)) :
    s.turn r = ⟨completionAnswer id result, launches, s⟩ := by
  rw [turn, take, hopen, hid]
  change s.answer r.environment r.programs r.cancel r.message id = _
  rw [answer, hmethod]
  simp only [hrun]

/-- The answer to a request of which a backend failed. A backend that never comes to an end leaves
the request without one. -/
theorem completionAnswer_error (id : Value) (f : Failure) :
    completionAnswer id (.error (.backend f)) =
      if f = .endless then []
      else [if f = .cancelled then .error id requestCancelled (cancellation id)
        else .error id internalError (Fault.backend f).report] := by
  cases f <;> rfl

/-- A request for completion is a run of the backends that serve the document. -/
theorem exists_asked_turn {s : Session} {r : Received} {config : Config} {id : Value}
    {name : String} (hs : s.Configured) (hopen : s.closing = false)
    (hserved : s.served = some config) (hid : r.message.id = some id)
    (hmethod : r.message.method = "textDocument/completion")
    (huri : Uri.fileName r.message.uri = .ok name)
    (hline : (completionParams r.message).line.natAbs < Decimal.twoPow 1023)
    (hcolumn : (completionParams r.message).column.natAbs < Decimal.twoPow 1023) :
    ∃ directory q launches failure result,
      Capability.query (s.view r.programs r.cancel) (completionParams r.message) = .ok q ∧
      Asked r.programs r.cancel q []
        (backendsFor directory r.message.uri (s.languageAt r.message.uri) config.providers) launches
        failure ∧
      s.turn r = ⟨completionAnswer id result, launches, s⟩ ∧ EndsWith result failure := by
  obtain ⟨haccepted, directory, cs, hcs, hof⟩ := hs config hserved
  obtain ⟨rs, hregistered, rfl⟩ := exists_registered_of_ofConfig haccepted hof
  obtain ⟨q, hq, hqline, hqcolumn⟩ : ∃ q,
      Capability.query (s.view r.programs r.cancel) (completionParams r.message) = .ok q ∧
      q.line = .int (completionParams r.message).line ∧
      q.column = .int (completionParams r.message).column :=
    exists_query_view huri
  have hplace (base : Numeral) : ∃ r, Request.ofQuery? base q = some r :=
    Request.exists_ofQuery?_eq_some hqline hqcolumn hline hcolumn base
  obtain ⟨launches, failure, result, hasked, hrun, hends⟩ :=
    isRunOf_registered hregistered haccepted.compiles hq (languageOf_view huri) hplace []
  rw [List.nil_append] at hrun
  refine ⟨directory, q, launches, failure, result.map Handlers.joined, hq, hasked, ?_,
    hends.map Handlers.joined⟩
  refine turn_eq hopen hid hmethod ?_
  rw [complete_eq_joined hcs]
  exact Answering.run_map Handlers.joined hrun

/-- **One request for completion**, after any messages, in a session with a configuration, at a
place in the range of floats: the backends that serve the document are launched in the order of the
configuration, each of them once, up to the first that fails. If none fails the answer is a list;
otherwise it is that failure, and the backends after it are not launched. A backend that never comes
to an end counts as one that fails, and then there is no answer. The session is the same after the
request as before. -/
theorem completion_stops_at_first_failure (history : List Received) (request : Received)
    {config : Config} {id : Value} {name : String}
    (hopen : (reached history).closing = false) (hserved : (reached history).served = some config)
    (hid : request.message.id = some id)
    (hmethod : request.message.method = "textDocument/completion")
    (huri : Uri.fileName request.message.uri = .ok name)
    (hline : (completionParams request.message).line.natAbs < Decimal.twoPow 1023)
    (hcolumn : (completionParams request.message).column.natAbs < Decimal.twoPow 1023) :
    let s := reached history
    let t := s.turn request
    t.after = s ∧ ∃ directory q answered rest,
      Capability.query (s.view request.programs request.cancel) (completionParams request.message)
        = .ok q ∧
      backendsFor directory request.message.uri (s.languageAt request.message.uri) config.providers
        = answered ++ rest ∧
      (∀ i (hi : i < answered.length), ∃ candidates,
        answered[i].Gives request.programs request.cancel q (t.launches.take i) (.ok candidates)) ∧
      ((rest = [] ∧ List.Forall₂ Launch.IsOf t.launches answered ∧
          ∃ list : ItemList, t.sent = [ .result id list.toValue]) ∨
        ∃ b skipped f, rest = b :: skipped ∧
          List.Forall₂ Launch.IsOf t.launches (answered ++ [b]) ∧
          b.Gives request.programs request.cancel q (t.launches.take answered.length) (.error f) ∧
          t.sent = if f = .endless then []
            else [if f = .cancelled then .error id requestCancelled (cancellation id)
              else .error id internalError (Fault.backend f).report]) := by
  intro s t
  obtain ⟨directory, q, launches, failure, result, hq, hasked, ht, hends⟩ :=
    exists_asked_turn (configured_reached history) hopen hserved hid hmethod huri hline hcolumn
  obtain ⟨answered, rest, hbackends, hgave, hnone, hsome⟩ := hasked.exists_answered
  have ht : t = ⟨completionAnswer id result, launches, s⟩ := ht
  rw [ht]
  refine ⟨rfl, directory, q, answered, rest, hq, hbackends, hgave, ?_⟩
  cases failure with
  | none =>
    obtain ⟨list, rfl⟩ := hends
    obtain ⟨hrest, hlaunches⟩ := hnone rfl
    exact .inl ⟨hrest, hlaunches, list, rfl⟩
  | some f =>
    obtain rfl : result = .error (.backend f) := hends
    obtain ⟨b, skipped, hrest, hlaunches, hb⟩ := hsome f rfl
    refine .inr ⟨b, skipped, f, hrest, hlaunches, hb, ?_⟩
    rw [completionAnswer_error]

/-- A program that finds nothing, and others that cannot be started. -/
def oneProgram : Programs := fun _ arguments _ ↦
  if arguments = ["one"] then .running { course := .later ⟨"[]".toUTF8.toList, [], 0⟩ }
  else .refused "Permission denied"

/-- A client with three backends of its own, and fixed candidates between them. -/
def threeBackends : List Received :=
  let provider (name program : String) : Value :=
    .record [("name", .str name), ("command", .list [ .str program])]
  let providers : Value := .list [
    provider "first" "one",
    .record [("name", .str "fixed"), ("kind", .str "static")],
    provider "second" "two",
    provider "third" "three"]
  [⟨{}, oneProgram, false, ⟨some (.int 1), "initialize",
    .record [("initializationOptions", .record [("providers", providers)])]⟩⟩]

/-- A request for completion at the start of a document. -/
def requestAtStart : Received :=
  ⟨{}, oneProgram, false, ⟨some (.int 2), "textDocument/completion",
    .record [("textDocument", .record [("uri", .str "file:///a.py")])]⟩⟩

theorem completion_threeBackends :
    ∃ config, (reached threeBackends).served = some config ∧
      ((reached threeBackends).turn requestAtStart).after = reached threeBackends ∧
      ((reached threeBackends).turn requestAtStart).launches.map Launch.arguments
        = [["one"], ["two"]] ∧
      ∃ directory answered b skipped f,
        backendsFor directory "file:///a.py"
          ((reached threeBackends).languageAt "file:///a.py") config.providers
          = answered ++ b :: skipped ∧
        ((reached threeBackends).turn requestAtStart).sent
          = [ .error (.int 2) internalError (Fault.backend f).report] := by
  obtain ⟨config, hserved⟩ : ∃ config, (reached threeBackends).served = some config :=
    Option.isSome_iff_exists.mp (by decide +kernel)
  have hopen : (reached threeBackends).closing = false := by decide +kernel
  have hid : requestAtStart.message.id = some (.int 2) := rfl
  have huri : Uri.fileName requestAtStart.message.uri = .ok "/a.py" := by decide +kernel
  have hzero : (0 : Int).natAbs < Decimal.twoPow 1023 := Decimal.twoPow_pos 1023
  have hcodes : ((reached threeBackends).turn requestAtStart).sent.map errorCode?
      = [some internalError] := by
    decide +kernel
  obtain ⟨hafter, directory, q, answered, rest, -, hbackends, -, hend⟩ :=
    completion_stops_at_first_failure threeBackends requestAtStart hopen hserved hid rfl huri hzero
      hzero
  refine ⟨config, hserved, hafter, by decide +kernel, directory, answered, ?_⟩
  rcases hend with ⟨-, -, list, hsent⟩ | ⟨b, skipped, f, rfl, -, -, hsent⟩
  · rw [hsent] at hcodes
    simp [errorCode?] at hcodes
  · by_cases hendless : f = .endless
    · rw [hsent, if_pos hendless] at hcodes
      exact absurd hcodes (by decide)
    · rw [if_neg hendless] at hsent
      by_cases hcancelled : f = .cancelled
      · rw [hsent, if_pos hcancelled] at hcodes
        exact absurd hcodes (by decide)
      · rw [if_neg hcancelled] at hsent
        exact ⟨b, skipped, f, hbackends, hsent⟩

end Session

end CompletionServer
