import CompletionServer.Proofs.Completion.Payload
import CompletionServer.Proofs.Session.Completion
import CompletionServer.Proofs.Session.Documents

/-!
# Buffers that are sent

A backend is sent the text of the document if the client has it open, be it empty, and none if it
has not: what is on disk then is the backend's affair. The text is the one that the client sees, and
so is the language by which providers are selected.

Which backends are launched, and what they answer, does not matter here. What is shown holds of
every launch that completion leads to.
-/

namespace CompletionServer

open Backend Completion

/-! ## Launches that an effect adds -/

namespace Answering

variable {α β : Type} {P : Launch → Prop}

/-- That an effect adds launches to the record, all of them with a property, and does nothing else
to it. -/
def Adds (P : Launch → Prop) (x : Answering α) : Prop :=
  ∀ past, ∃ added, (x.run.run past).2 = past ++ added ∧ ∀ l ∈ added, P l

theorem adds_ofExcept (r : Except Fault α) : (ofExcept r).Adds P :=
  fun past ↦ ⟨[], (List.append_nil past).symm, fun _ h ↦ absurd h List.not_mem_nil⟩

theorem adds_pure (a : α) : Adds P (pure a : Answering α) := adds_ofExcept (.ok a)

theorem adds_throw (f : Fault) : Adds P (throw f : Answering α) := adds_ofExcept (.error f)

theorem Adds.bind {x : Answering α} {f : α → Answering β} (hx : x.Adds P)
    (hf : ∀ a, (f a).Adds P) : (x >>= f).Adds P := by
  intro past
  obtain ⟨added, hadded, hP⟩ := hx past
  cases hrun : x.run.run past with
  | mk result after =>
    rw [hrun] at hadded
    obtain rfl : after = past ++ added := hadded
    cases result with
    | error e => exact ⟨added, by rw [run_bind_of_error hrun], hP⟩
    | ok a =>
      obtain ⟨more, hmore, hPmore⟩ := hf a (past ++ added)
      refine ⟨added ++ more, ?_, List.forall_mem_append.mpr ⟨hP, hPmore⟩⟩
      rw [run_bind_of_ok hrun, hmore, List.append_assoc]

theorem Adds.mono {Q : Launch → Prop} {x : Answering α} (hx : x.Adds P) (h : ∀ l, P l → Q l) :
    x.Adds Q := by
  intro past
  obtain ⟨added, hadded, hP⟩ := hx past
  exact ⟨added, hadded, fun l hl ↦ h l (hP l hl)⟩

/-- What comes after a result without effects may depend on the result being this one. -/
theorem adds_ofExcept_bind {r : Except Fault α} {f : α → Answering β}
    (h : ∀ a, r = .ok a → (f a).Adds P) : (ofExcept r >>= f).Adds P := by
  cases r with
  | error e => exact adds_ofExcept (.error e)
  | ok a => exact h a rfl

theorem adds_foldlM {f : β → α → Answering β} {as : List α} (h : ∀ b, ∀ a ∈ as, (f b a).Adds P)
    (b : β) : (as.foldlM f b).Adds P := by
  induction as generalizing b with
  | nil => exact adds_pure b
  | cons a as ih =>
    rw [List.foldlM_cons]
    exact (h b a List.mem_cons_self).bind
      (ih fun b a ha ↦ h b a (List.mem_cons_of_mem _ ha))

end Answering

/-! ## Requests for a document -/

/-- That a launch is sent nothing, or a request for a document with a buffer, if there is one. -/
def Backend.Launch.IsFor (uri : String) (buffer : Option (List Text.Point)) (l : Launch) : Prop :=
  ∀ text, l.input = some text → ∃ r : Request,
    Uri.fileName uri = .ok r.fileName ∧ r.buffer = buffer ∧ r.IsSentAs text

theorem Completion.Request.fields_of_ofQuery? {base : Numeral} {q : Query} {r : Request}
    (h : ofQuery? base q = some r) : r.fileName = q.fileName ∧ r.buffer = q.buffer := by
  unfold ofQuery? at h
  obtain ⟨line, -, h⟩ := Option.bind_eq_some_iff.mp h
  obtain ⟨column, -, h⟩ := Option.bind_eq_some_iff.mp h
  cases h
  exact ⟨rfl, rfl⟩

/-- A program is sent the text that it is run with, or nothing. -/
theorem Backend.eq_of_input_run {start : Start} {arguments : List String}
    {directory : Option Path} {limit : Limit} {cancel : Bool} {text sent : String}
    (h : (run start arguments directory limit cancel text).2.input = some sent) : sent = text := by
  cases start with
  | refused message => cases h
  | embeddedNul => cases h
  | running b =>
    simp only [run, runStarted] at h
    split at h
    · cases h
    · exact (Option.some.inj h).symm

section Requests

variable {uri : String} {buffer : Option (List Text.Point)} {programs : Programs} {cancel : Bool}

/-- A program of a provider is sent the text of the request, or nothing. -/
theorem Provider.adds_answer (programs : Programs) (cancel : Bool) (p : Provider) (r : Request) :
    ((p.source programs cancel).answer r).Adds
      fun l ↦ ∀ text, l.input = some text → text = r.payload := by
  cases p with
  | fixed name base candidates => exact Answering.adds_pure _
  | backend b =>
    intro past
    exact ⟨[_], rfl, List.forall_mem_singleton.mpr fun text htext ↦ eq_of_input_run htext⟩

theorem adds_answer {p : Provider} {r : Request} (hname : Uri.fileName uri = .ok r.fileName)
    (hbuffer : r.buffer = buffer) :
    ((p.source programs cancel).answer r).Adds (Launch.IsFor uri buffer) := by
  apply (p.adds_answer programs cancel r).mono
  intro l hl text htext
  exact ⟨r, hname, hbuffer, hl text htext ▸ r.isSentAs_payload⟩

/-- A query keeps its file name and its buffer, whatever base a source counts from. -/
theorem adds_complete_source {p : Provider} {q : Query} (hname : Uri.fileName uri = .ok q.fileName)
    (hbuffer : q.buffer = buffer) (support : Option Bool) :
    Answering.Adds (Launch.IsFor uri buffer)
      ((p.source programs cancel).complete Fault.placeTooLarge q support) := by
  unfold Source.complete
  split
  · exact Answering.adds_throw _
  · next r hr =>
    obtain ⟨hfile, hkept⟩ := Request.fields_of_ofQuery? hr
    refine (adds_answer ?_ ?_).bind fun candidates ↦ Answering.adds_pure _
    · rw [hname, hfile]
      rfl
    · rw [hkept, ← hbuffer]
      rfl

end Requests

variable {v : View} {p : CompletionParams}

theorem Capability.adds_complete (c : Capability) :
    (c.complete v p).Adds (Launch.IsFor p.uri ((v.documents.find? p.uri).map Document.text)) := by
  refine Answering.adds_ofExcept_bind fun q hq ↦ ?_
  obtain ⟨name, hname, hq⟩ := exists_of_bind_eq_ok hq
  cases hq
  exact adds_complete_source (mapError_eq_ok_iff.mp hname) rfl _

/-- **Completion sends the text of the document**, as it is open, to all backends. -/
theorem Capabilities.adds_complete (cs : Capabilities) :
    (cs.complete v p).Adds (Launch.IsFor p.uri ((v.documents.find? p.uri).map Document.text)) := by
  unfold Capabilities.complete Handlers.complete
  refine (Answering.adds_foldlM (fun kept h hh ↦ ?_) []).bind fun items ↦ Answering.adds_pure _
  obtain ⟨c, rfl⟩ : ∃ c : Capability, h = c.handler v := by
    rw [Handlers.ofKind, handlers, List.map_map] at hh
    obtain ⟨c, -, hc⟩ := List.mem_map.mp (List.mem_filter.mp hh).1
    exact ⟨c.2, hc.symm⟩
  refine Answering.adds_ofExcept_bind fun handles _ ↦ ?_
  cases handles with
  | true => exact c.adds_complete.bind fun list ↦ Answering.adds_pure _
  | false => exact Answering.adds_pure kept

namespace Session

/-! ## Requests after any messages -/

theorem view_documents {s : Session} {ds : Documents} (h : s.documents = some ds)
    (programs : Programs) (cancel : Bool) : (s.view programs cancel).documents = ds := by
  rw [view, h]
  rfl

theorem adds_complete {s : Session} {ds : Documents} (hds : s.documents = some ds)
    (programs : Programs) (cancel : Bool) (p : CompletionParams) :
    (s.complete programs cancel p).Adds
      (Launch.IsFor p.uri ((ds.find? p.uri).map Document.text)) := by
  unfold complete
  split
  · exact Answering.adds_pure _
  · next cs _ =>
    change (cs.complete (s.view programs cancel) p).Adds _
    rw [← view_documents hds programs cancel]
    exact cs.adds_complete

theorem isFor_of_mem_launches {s : Session} {r : Received} {id : Value} {ds : Documents}
    (hopen : s.closing = false) (hds : s.documents = some ds) (hid : r.message.id = some id)
    (hmethod : r.message.method = "textDocument/completion") :
    ∀ l ∈ (s.turn r).launches,
      l.IsFor r.message.uri ((ds.find? r.message.uri).map Document.text) := by
  obtain ⟨launches, hlaunches, hfor⟩ :=
    adds_complete hds r.programs r.cancel (completionParams r.message) []
  cases hrun : (s.complete r.programs r.cancel (completionParams r.message)).run.run [] with
  | mk result after =>
    rw [hrun, List.nil_append] at hlaunches
    obtain rfl : after = launches := hlaunches
    rw [turn_eq hopen hid hmethod hrun]
    exact hfor

/-- A provider is selected by the language of the document, if it is open. One that is not must have
a URI. -/
theorem canHandle_eq {s : Session} {ds : Documents} (hds : s.documents = some ds)
    (programs : Programs) (cancel : Bool) (c : Capability) {p : CompletionParams}
    (huri : ds.find? p.uri = none → (Uri.fileName p.uri).isOk = true) :
    c.canHandle (s.view programs cancel) p
      = (selects c.selector p.uri ((ds.find? p.uri).map Document.language)).mapError
          .selection := by
  rw [Capability.canHandle, Capability.languageOf, view_documents hds]
  cases hfind : ds.find? p.uri with
  | some d => rfl
  | none =>
    cases hname : Uri.fileName p.uri with
    | ok name => rfl
    | error f =>
      have hok := huri hfind
      rw [hname] at hok
      cases hok

/-- **Completion sees the document as the client does**, after an introduction and any messages that
follow it. Of these only the ones about the document count, so that no other document changes what
is seen. Each text that a backend is sent is a request with the file name of the document. It has a
member for the buffer if the document is open, and only then, and this is the text of the document.
And each provider is selected by the language with which it was opened last, and by none if it is
not open. -/
theorem completion_sees_document (before later : List Received) (start request : Received)
    {first id : Value} (hopen : (reached before).closing = false)
    (hfirst : start.message.id = some first) (hbegin : start.message.method = "initialize")
    (hroot : checkRoot start.message.params = .ok ())
    (hlater : ∀ r ∈ later, r.message.method ≠ "initialize" ∧ r.message.method ≠ "shutdown")
    (hid : request.message.id = some id)
    (hmethod : request.message.method = "textDocument/completion") :
    let s := reached (before ++ start :: later)
    let uri := request.message.uri
    let key := Documents.keyOf uri
    let document := documentAfter start.message.columnEncoding key
      ((later.map Received.message).filter (Message.isAbout key))
    (∀ l ∈ (s.turn request).launches, ∀ text, l.input = some text →
      ∃ r : Request, Uri.fileName uri = .ok r.fileName ∧
        r.buffer = document.map Document.text ∧ r.IsSentAs text) ∧
    ∀ c : Capability, (document = none → (Uri.fileName uri).isOk = true) →
      c.canHandle (s.view request.programs request.cancel) (completionParams request.message)
        = (selects c.selector uri (document.map Document.language)).mapError .selection := by
  intro s uri key document
  obtain ⟨hclosing, -, ds, hds, hfind⟩ := follows_reached hopen hfirst hbegin hroot hlater
  have hdocument : ds.find? uri = document := by rw [hfind, ← documentAfter_filter]
  rw [← hdocument]
  exact ⟨isFor_of_mem_launches hclosing hds hid hmethod, fun c huri ↦
    canHandle_eq hds request.programs request.cancel c huri⟩

/-- A message in surroundings where the one program finds nothing. -/
def received (id : Option Value) (method : String) (params : List (String × Value)) : Received :=
  ⟨{}, oneProgram, false, ⟨id, method, .record params⟩⟩

/-- A client with one backend of its own. -/
def oneBackend : Received :=
  let provider : Value := .record [("name", .str "first"), ("command", .list [ .str "one"])]
  received (some (.int 1)) "initialize"
    [("initializationOptions", .record [("providers", .list [provider])])]

/-- A character of two units, and the first of these units alone. -/
def emojiAndHalf : List Text.Point := [.char '😀', .half ⟨0xD83D, by decide⟩]

/-- Opens a document with two characters, replaces the second one, and opens another document. -/
def twoDocuments : List Received :=
  let document (uri : String) (more : List (String × Value)) : String × Value :=
    ("textDocument", .record (("uri", .str uri) :: more))
  let place (column : Int) : Value := .record [("line", .int 0), ("character", .int column)]
  [received none "textDocument/didOpen"
    [document "file:///a.py" [("languageId", .str "python"), ("text", .str "ab")]],
   received none "textDocument/didChange" [document "file:///a.py" [],
    ("contentChanges", .list [ .record
      [("range", .record [("start", place 1), ("end", place 2)]),
        ("text", .ofPoints emojiAndHalf)]])],
   received none "textDocument/didOpen"
    [document "file:///b.py" [("languageId", .str "other"), ("text", .str "")]]]

/-- Asks for completion in the first of them, by a URI that is written otherwise. -/
def requestByEscape : Received :=
  received (some (.int 2)) "textDocument/completion"
    [("textDocument", .record [("uri", .str "file:///%61.py")])]

theorem completion_sees_twoDocuments :
    ((reached ([] ++ oneBackend :: twoDocuments)).turn requestByEscape).launches.map Launch.input
        = [some ("\x7b\"fileName\": \"/a.py\", \"line\": 0, \"column\": 0, \"wantKind\": true, "
          ++ "\"wantDocumentationForEveryCompletionResult\": true, \"wantReturnType\": true, "
          ++ "\"wantSnippet\": false, \"buffer\": \"a\\ud83d\\ude00\\ud83d\"\x7d")] ∧
      (∀ l ∈ ((reached ([] ++ oneBackend :: twoDocuments)).turn requestByEscape).launches,
        ∀ text, l.input = some text → ∃ r : Request,
          Uri.fileName "file:///%61.py" = .ok r.fileName ∧
          r.buffer = some (.char 'a' :: emojiAndHalf) ∧ r.IsSentAs text) ∧
      ∀ c : Capability,
        c.canHandle ((reached ([] ++ oneBackend :: twoDocuments)).view oneProgram false)
            (completionParams requestByEscape.message)
          = (selects c.selector "file:///%61.py" (some (Text.pointsOf "python"))).mapError
              .selection := by
  have hdocument : documentAfter .utf16 "file:///a.py"
      ((twoDocuments.map Received.message).filter (Message.isAbout "file:///a.py"))
      = some ⟨Text.pointsOf "python", .char 'a' :: emojiAndHalf⟩ := by
    decide +kernel
  have hkey : Documents.keyOf requestByEscape.message.uri = "file:///a.py" := by decide +kernel
  have hencoding : oneBackend.message.columnEncoding = .utf16 := by decide +kernel
  have hroot : checkRoot oneBackend.message.params = .ok () := by decide +kernel
  have hlater : ∀ r ∈ twoDocuments,
      r.message.method ≠ "initialize" ∧ r.message.method ≠ "shutdown" := by
    decide +kernel
  have hfirst : oneBackend.message.id = some (.int 1) := rfl
  have hid : requestByEscape.message.id = some (.int 2) := rfl
  obtain ⟨hsent, hselected⟩ := completion_sees_document [] twoDocuments oneBackend requestByEscape
    rfl hfirst rfl hroot hlater hid rfl
  rw [hkey, hencoding, hdocument] at hsent hselected
  exact ⟨by decide +kernel, hsent, fun c ↦ hselected c nofun⟩

end Session

end CompletionServer
