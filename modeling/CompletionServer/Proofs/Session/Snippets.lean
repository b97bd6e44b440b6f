import CompletionServer.Proofs.Completion.Insertion
import CompletionServer.Proofs.Provider.Serving
import CompletionServer.Proofs.Session.Completion

/-!
# Clients without snippets

Two clients say the same, but one of them does not support snippets. Their sessions differ in nothing
but that, after any messages, `withoutSnippets_reached`. Where all providers are static, the client
without snippets is given the list that the other is given, with every item to be inserted as its
label.
-/

namespace CompletionServer

open Completion

/-! ## Capabilities of fixed candidates -/

/-- That a provider is a fixed list of candidates. -/
def Provider.IsFixed (p : Provider) : Prop :=
  ∃ name base candidates, p = .fixed name base candidates

/-- What a capability sees of a session whose client does not support snippets. -/
def View.withoutSnippets (v : View) : View := { v with snippetSupport := false }

variable {v : View} {p : CompletionParams}

namespace Capability

theorem query_withoutSnippets :
    query v.withoutSnippets p = (query v p).map fun q ↦ q.withSupport (some false) := by
  rw [query, query]
  cases Uri.fileName p.uri with
  | error e => rfl
  | ok name => rfl

theorem complete_withoutSnippets {c : Capability} (hfixed : c.provider.IsFixed) :
    c.complete v.withoutSnippets p = ItemList.asPlain <$> c.complete v p := by
  obtain ⟨name, base, candidates, hprovider⟩ := hfixed
  rw [complete, complete, query_withoutSnippets, hprovider]
  cases query v p with
  | error f => rfl
  | ok q =>
    have hanswer (r : Request) : ((Provider.fixed name base candidates).source v.programs
        v.cancel).answer r = pure (fixedAnswer candidates r) := rfl
    exact Source.complete_fixed hanswer .placeTooLarge q (some v.snippetSupport)

end Capability

theorem Capabilities.complete_withoutSnippets {cs : Capabilities}
    (hfixed : ∀ c ∈ cs, c.2.provider.IsFixed) :
    cs.complete v.withoutSnippets p = ItemList.asPlain <$> cs.complete v p := by
  have hhandlers : cs.handlers v.withoutSnippets = (cs.handlers v).plain := by
    rw [handlers, handlers, Handlers.plain, List.map_map]
    refine List.map_congr_left fun c hc ↦ ?_
    have hcomplete : c.2.complete v.withoutSnippets
        = fun p ↦ ItemList.asPlain <$> c.2.complete v p :=
      funext fun _ ↦ Capability.complete_withoutSnippets (hfixed c hc)
    rw [Capability.handler, hcomplete]
    rfl
  rw [complete, hhandlers, Handlers.complete_plain, ← complete]

/-! ## One session -/

namespace Session

/-- The session as it would be if its client did not support snippets. -/
def withoutSnippets (s : Session) : Session := { s with snippetSupport := false }

theorem complete_withoutSnippets {s : Session} {programs : Backend.Programs} {cancel : Bool}
    (hfixed : ∀ cs, s.capabilities = some cs → ∀ c ∈ cs, c.2.provider.IsFixed) :
    s.withoutSnippets.complete programs cancel p
      = ItemList.asPlain <$> s.complete programs cancel p := by
  have hcapabilities : s.withoutSnippets.capabilities = s.capabilities := rfl
  rw [complete, complete, hcapabilities]
  cases hcs : s.capabilities with
  | none => rfl
  | some cs =>
    change Capabilities.complete (s.view programs cancel).withoutSnippets cs p
      = ItemList.asPlain <$> Capabilities.complete (s.view programs cancel) cs p
    exact Capabilities.complete_withoutSnippets (hfixed cs hcs)

end Session

/-! ## Two clients -/

/-- That two messages say the same. They may differ in what a client supports, but for the encodings
of columns. -/
structure Message.SameButSupport (m m' : Message) : Prop where
  id : m'.id = m.id
  method : m'.method = m.method
  params : ∀ key, key ≠ "capabilities" → m'.params.field key = m.params.field key
  general : (m'.params.field "capabilities").field "general"
    = (m.params.field "capabilities").field "general"

/-- That two clients send the same message in the same surroundings. -/
structure Received.SameButSupport (r r' : Received) : Prop where
  environment : r'.environment = r.environment
  message : r.message.SameButSupport r'.message

namespace Message.SameButSupport

variable {m m' : Message}

theorem refl (m : Message) : m.SameButSupport m := ⟨rfl, rfl, fun _ _ ↦ rfl, rfl⟩

theorem uri_eq (h : m.SameButSupport m') : m'.uri = m.uri := by
  rw [uri, uri, h.params "textDocument" (by decide)]

theorem changes_eq (h : m.SameButSupport m') : m'.changes = m.changes := by
  rw [changes, changes, h.params "contentChanges" (by decide)]

theorem columnEncoding_eq (h : m.SameButSupport m') : m'.columnEncoding = m.columnEncoding := by
  rw [columnEncoding, columnEncoding, h.general]

end Message.SameButSupport

theorem Received.SameButSupport.refl (r : Received) : r.SameButSupport r := ⟨rfl, .refl r.message⟩

namespace Session

/-! ## Two sessions -/

variable {s : Session} {m m' : Message}

theorem checkRoot_eq (h : m.SameButSupport m') : checkRoot m'.params = checkRoot m.params := by
  rw [checkRoot, checkRoot, h.params "rootUri" (by decide), h.params "rootPath" (by decide)]

theorem configurationFor_eq (h : m.SameButSupport m') (e : Environment) :
    configurationFor e m' = configurationFor e m := by
  have hroot : workspaceRoot m'.params = workspaceRoot m.params := by
    rw [workspaceRoot, workspaceRoot, h.params "rootUri" (by decide),
      h.params "rootPath" (by decide)]
  rw [configurationFor, configurationFor, hroot, h.params "initializationOptions" (by decide)]

theorem notified_eq (h : m.SameButSupport m') : s.notified m' = s.notified m := by
  have hconcerns : concernsDocuments m' = concernsDocuments m := by
    rw [concernsDocuments, concernsDocuments, h.method, h.changes_eq]
  have hedit (ds : Documents) : s.editDocuments m' ds = s.editDocuments m ds := by
    unfold editDocuments
    rw [h.method, h.uri_eq, h.changes_eq, h.params "textDocument" (by decide)]
  unfold notified
  simp only [hconcerns, hedit]

theorem notified_withoutSnippets :
    s.withoutSnippets.notified m = (s.notified m).map withoutSnippets := by
  have hdocuments : s.withoutSnippets.documents = s.documents := rfl
  have hedit (ds : Documents) : s.withoutSnippets.editDocuments m ds = s.editDocuments m ds := rfl
  unfold notified
  rw [hdocuments]
  split
  · split
    · rfl
    · next ds _ =>
      rw [hedit]
      cases s.editDocuments m ds with
      | error f => rfl
      | ok after => rfl
  · rfl

/-- What an introduction leaves behind, but for snippets, does not depend on what it says of them. -/
theorem after_begin (h : m.SameButSupport m') (e : Environment) (id : Value) :
    (s.begin e m' id).after
      = { (s.begin e m id).after with snippetSupport := m'.snippetSupport } := by
  unfold begin withWorkspace
  rw [checkRoot_eq h, configurationFor_eq h, h.columnEncoding_eq]
  cases checkRoot m.params with
  | error f => rfl
  | ok _ =>
    cases configurationFor e m with
    | error f => rfl
    | ok found =>
      obtain ⟨root, config, told⟩ := found
      unfold withCapabilities
      cases hmade : Capabilities.ofConfig root config with
      | error f => simp [hmade, bind, Except.bind, pure, Except.pure]
      | ok cs => simp [hmade, bind, Except.bind, pure, Except.pure]

/-- What a request leaves behind. -/
theorem after_turn_request {s : Session} {r : Received} {id : Value} (hopen : s.closing = false)
    (hid : r.message.id = some id) : (s.turn r).after =
      if r.message.method = "initialize" then (s.begin r.environment r.message id).after
      else if r.message.method = "shutdown" then { s with closing := true }
      else s := by
  rw [turn, take, hopen, hid]
  change (s.answer r.environment r.programs r.cancel r.message id).after = _
  unfold answer
  split
  · next h => rw [if_pos h]
  · next h => rw [if_neg (by rw [h]; decide), if_pos h]
  · next h =>
    rw [if_neg (by rw [h]; decide), if_neg (by rw [h]; decide)]
    rfl
  · next h => rw [if_neg (by rw [h]; decide), if_neg (by rw [h]; decide)]
  · next hbegin hend _ _ => rw [if_neg hbegin, if_neg hend]

/-- What a notification leaves behind. -/
theorem after_turn_notification {s : Session} {r : Received} (hopen : s.closing = false)
    (hid : r.message.id = none) :
    (s.turn r).after = (s.notified r.message).toOption.getD s := by
  rw [turn, take, hopen, hid]
  cases hnotified : s.notified r.message with
  | error f => rfl
  | ok after => rfl

/-- **One message** of two clients, one of them without snippets, leaves sessions behind that differ
in nothing else if they did not before. -/
theorem withoutSnippets_turn (s : Session) {r r' : Received} (hr : r.SameButSupport r') :
    (s.withoutSnippets.turn r').after.withoutSnippets = (s.turn r).after.withoutSnippets := by
  have hclosing : s.withoutSnippets.closing = s.closing := rfl
  cases hopen : s.closing with
  | true =>
    rw [turn, turn, take_of_closing hopen, take_of_closing (hclosing.trans hopen)]
    rfl
  | false =>
    cases hid : r.message.id with
    | some id =>
      rw [after_turn_request hopen hid, after_turn_request (hclosing.trans hopen)
        (hr.message.id.trans hid), hr.message.method, hr.environment]
      split
      · change (s.begin r.environment r'.message id).after.withoutSnippets = _
        rw [after_begin hr.message]
        rfl
      · split
        · rfl
        · rfl
    | none =>
      rw [after_turn_notification hopen hid, after_turn_notification (hclosing.trans hopen)
        (hr.message.id.trans hid), notified_eq hr.message, notified_withoutSnippets]
      cases s.notified r.message with
      | error f => rfl
      | ok after => rfl

theorem turn_withoutSnippets (s : Session) (r : Received) :
    (s.withoutSnippets.turn r).after.withoutSnippets = (s.turn r).after.withoutSnippets :=
  withoutSnippets_turn s (.refl r)

/-- **Two clients** that say the same, after any messages. -/
theorem withoutSnippets_reached {history history' : List Received}
    (h : List.Forall₂ Received.SameButSupport history history') :
    (reached history').withoutSnippets = (reached history).withoutSnippets := by
  -- From any two sessions, since the clients differ before the messages that are left.
  have hall {s s' : Session} (hs : s'.withoutSnippets = s.withoutSnippets) :
      (history'.foldl (fun s r ↦ (s.turn r).after) s').withoutSnippets
        = (history.foldl (fun s r ↦ (s.turn r).after) s).withoutSnippets := by
    induction h generalizing s s' with
    | nil => exact hs
    | cons hr _ ih =>
      refine ih ?_
      rw [← turn_withoutSnippets, hs, withoutSnippets_turn s hr]
  exact hall rfl

/-! ## Support for snippets -/

theorem withoutSnippets_eq_self {s : Session} (h : s.snippetSupport = false) :
    s.withoutSnippets = s := by
  obtain ⟨documents, columnEncoding, snippetSupport, config, served, capabilities, closing⟩ := s
  obtain rfl : snippetSupport = false := h
  rfl

theorem snippetSupport_turn {s : Session} (hs : s.snippetSupport = false) {r : Received}
    (hr : r.message.method = "initialize" → r.message.snippetSupport = false) :
    (s.turn r).after.snippetSupport = false := by
  cases hopen : s.closing with
  | true =>
    rw [turn, take_of_closing hopen]
    exact hs
  | false =>
    cases hid : r.message.id with
    | some id =>
      rw [after_turn_request hopen hid]
      split
      · next hmethod =>
        rw [after_begin (.refl r.message)]
        exact hr hmethod
      · split
        · exact hs
        · exact hs
    | none =>
      rw [after_turn_notification hopen hid]
      cases hnotified : s.notified r.message with
      | error f => exact hs
      | ok after =>
        -- The session is its own version without snippets, and so is what the message makes of it.
        have hafter : s.withoutSnippets.notified r.message = .ok after.withoutSnippets := by
          rw [notified_withoutSnippets, hnotified]
          rfl
        rw [withoutSnippets_eq_self hs, hnotified] at hafter
        exact congrArg snippetSupport (Except.ok.inj hafter)

/-- A client that never says that it supports snippets. -/
theorem snippetSupport_reached {history : List Received}
    (h : ∀ r ∈ history, r.message.method = "initialize" → r.message.snippetSupport = false) :
    (reached history).snippetSupport = false := by
  induction history using List.reverseRecOn with
  | nil => rfl
  | append_singleton history r ih =>
    rw [List.forall_mem_append, List.forall_mem_singleton] at h
    rw [reached_concat]
    exact snippetSupport_turn (ih h.1) h.2

/-! ## One request of two clients -/

/-- The capabilities of a configuration whose providers are all static. -/
theorem Configured.isFixed {s : Session} (hs : s.Configured) {config : Config}
    (hserved : s.served = some config) (hstatic : ∀ p ∈ config.providers, p.kind = .static) :
    ∀ cs, s.capabilities = some cs → ∀ c ∈ cs, c.2.provider.IsFixed := by
  intro cs hcs c hc
  obtain ⟨haccepted, directory, made, hmade, hof⟩ := hs config hserved
  obtain rfl := Option.some.inj (hcs.symm.trans hmade)
  obtain ⟨rs, hregistered, rfl⟩ := exists_registered_of_ofConfig haccepted hof
  rw [eq_map_registration hregistered, List.map_map] at hc
  obtain ⟨p, hp, rfl⟩ := List.mem_map.mp hc
  refine ⟨p.name, p.positionBase, p.completions.map Candidate.ofEntries, ?_⟩
  change (p.registration directory).provider = _
  rw [ProviderConfig.registration, hstatic p hp]

/-- Static providers are never launched. -/
theorem backendsFor_eq_nil {ps : List ProviderConfig} (hstatic : ∀ p ∈ ps, p.kind = .static)
    (directory : Option Path) (uri : String)
    (language : Option (List Text.Point)) :
    backendsFor directory uri language ps = [] := by
  rw [backendsFor, List.map_eq_nil_iff, List.filter_eq_nil_iff]
  intro p hp
  rw [hstatic p hp]
  exact Bool.false_ne_true

/-- A fault is not answered with a result. -/
theorem completionAnswer_error_ne_result {id v : Value} {f : Fault} :
    completionAnswer id (.error f) ≠ [ .result id v] := by
  unfold completionAnswer
  dsimp only
  split
  · exact nofun
  · split
    · exact nofun
    · exact nofun

/-- **Completion without snippets.** Two clients say the same up to a request for completion, but one
of them never says that it supports snippets, and all providers are static. Both are given lists of
the same items, which insert their labels for this client; or, at a place out of the range of floats,
the same fault. -/
theorem completion_without_snippets {history history' : List Received} (request : Received)
    {config : Config} {id : Value} {name : String}
    (hsame : List.Forall₂ Received.SameButSupport history history')
    (hwithout : ∀ r ∈ history', r.message.method = "initialize" →
      r.message.snippetSupport = false)
    (hopen : (reached history).closing = false) (hserved : (reached history).served = some config)
    (hstatic : ∀ p ∈ config.providers, p.kind = .static)
    (hid : request.message.id = some id)
    (hmethod : request.message.method = "textDocument/completion")
    (huri : Uri.fileName request.message.uri = .ok name) :
    let sent := ((reached history).turn request).sent
    let sent' := ((reached history').turn request).sent
    (∃ list : ItemList, sent = [ .result id list.toValue] ∧
      sent' = [ .result id list.asPlain.toValue]) ∨
    ¬((completionParams request.message).line.natAbs < Decimal.twoPow 1023 ∧
      (completionParams request.message).column.natAbs < Decimal.twoPow 1023) ∧ sent' = sent := by
  intro sent sent'
  have hconfigured := configured_reached history
  have hreached : reached history' = (reached history).withoutSnippets := by
    rw [← withoutSnippets_reached hsame, withoutSnippets_eq_self (snippetSupport_reached hwithout)]
  -- Both answers come from one result.
  obtain ⟨result, launches, hrun⟩ : ∃ result launches,
      ((reached history).complete request.programs request.cancel
        (completionParams request.message)).run.run [] = (result, launches) := ⟨_, _, rfl⟩
  have hrun' := Answering.run_map ItemList.asPlain hrun
  rw [← complete_withoutSnippets (hconfigured.isFixed hserved hstatic)] at hrun'
  have hsent : sent = completionAnswer id result :=
    congrArg Turn.sent (turn_eq hopen hid hmethod hrun)
  have hsent' : sent' = completionAnswer id (result.map ItemList.asPlain) := by
    have hopen' : (reached history).withoutSnippets.closing = false := hopen
    change ((reached history').turn request).sent = _
    rw [hreached]
    exact congrArg Turn.sent (turn_eq hopen' hid hmethod hrun')
  cases result with
  | ok list => exact .inl ⟨list, hsent, hsent'⟩
  | error f =>
    -- In the range of floats only a backend could fail, and there is none.
    refine .inr ⟨fun ⟨hline, hcolumn⟩ ↦ ?_, hsent'.trans hsent.symm⟩
    obtain ⟨directory, q, _, failure, given, -, hasked, hturn, hends⟩ :=
      exists_asked_turn hconfigured hopen hserved hid hmethod huri hline hcolumn
    rw [backendsFor_eq_nil hstatic] at hasked
    cases hasked
    obtain ⟨list, rfl⟩ := hends
    exact completionAnswer_error_ne_result (hsent.symm.trans (congrArg Turn.sent hturn))

/-- Two static providers that repeat texts, each of them and between them, with and without
snippets. -/
def repeatingProviders : Value :=
  let candidate (text display snippet : String) : Value :=
    .record [("CompletionText", .str text), ("DisplayText", .str display),
      ("Snippet", .str snippet)]
  .record [("providers", .list [
    .record [("name", .str "first"), ("kind", .str "static"), ("completions", .list [
      candidate "Add" "Add(int)" "Add($1)", candidate "Sub" "Sub()" "",
      candidate "Add" "Add(string)" ""])],
    .record [("name", .str "second"), ("kind", .str "static"), ("completions", .list [
      candidate "Sub" "Sub(int)" "Sub($1)", candidate "for" "for" "for $1"])]])]

/-- A client with these, and with fields of its own before them. -/
def clientWith (fields : List (String × Value)) : List Received :=
  [⟨{}, oneProgram, false, ⟨some (.int 1), "initialize",
    .record (fields ++ [("initializationOptions", repeatingProviders)])⟩⟩]

/-- What a client says that supports snippets. -/
def supportsSnippets : String × Value :=
  ("capabilities", .record [("textDocument", .record [("completion", .record [
    ("completionItem", .record [("snippetSupport", .bool true)])])])])

/-- The texts that are inserted by the items of an answer. -/
def insertTexts : Sent → List (Option String)
  | .result _ v => ((v.field "items").items?.getD []).map fun i ↦ (Item.ofValue i).insertText
  | _ => []

theorem forall₂_clientWith :
    List.Forall₂ Received.SameButSupport (clientWith [supportsSnippets]) (clientWith []) := by
  refine .cons ⟨rfl, rfl, rfl, fun key hkey ↦ ?_, rfl⟩ .nil
  exact (Value.field_record_cons_of_ne (Ne.symm hkey) supportsSnippets.2 _).symm

/-- The client that supports snippets gets the first snippets of all three texts, the other one gets
the texts. -/
theorem completion_without_snippets_twoProviders :
    ∃ list : ItemList,
      ((reached (clientWith [supportsSnippets])).turn requestAtStart).sent
        = [ .result (.int 2) list.toValue] ∧
      ((reached (clientWith [])).turn requestAtStart).sent
        = [ .result (.int 2) list.asPlain.toValue] ∧
      ((reached (clientWith [supportsSnippets])).turn requestAtStart).sent.map insertTexts
        = [[some "Add($1)", some "Sub", some "for $1"]] := by
  have hwithout : ∀ r ∈ clientWith [], r.message.method = "initialize" →
      r.message.snippetSupport = false := by
    intro r hr
    obtain rfl := List.mem_singleton.mp hr
    exact fun _ ↦ by decide
  have hopen : (reached (clientWith [supportsSnippets])).closing = false := by decide +kernel
  obtain ⟨config, hserved⟩ : ∃ config,
      (reached (clientWith [supportsSnippets])).served = some config :=
    Option.isSome_iff_exists.mp (by decide +kernel)
  have hkinds : (reached (clientWith [supportsSnippets])).served.map
      (fun c ↦ c.providers.map ProviderConfig.kind) = some [.static, .static] := by
    decide +kernel
  have hstatic : ∀ p ∈ config.providers, p.kind = .static := by
    rw [hserved, Option.map_some, Option.some_inj] at hkinds
    intro p hp
    have hkind := List.mem_map_of_mem (f := ProviderConfig.kind) hp
    rw [hkinds] at hkind
    simpa using hkind
  have huri : Uri.fileName requestAtStart.message.uri = .ok "/a.py" := by decide +kernel
  have htexts : ((reached (clientWith [supportsSnippets])).turn requestAtStart).sent.map insertTexts
      = [[some "Add($1)", some "Sub", some "for $1"]] := by
    decide +kernel
  have hzero : (0 : Int).natAbs < Decimal.twoPow 1023 := Decimal.twoPow_pos 1023
  rcases completion_without_snippets requestAtStart forall₂_clientWith hwithout hopen hserved
    hstatic rfl rfl huri with ⟨list, hsent, hsent'⟩ | ⟨hrange, -⟩
  · exact ⟨list, hsent, hsent', htexts⟩
  · exact absurd ⟨hzero, hzero⟩ hrange

end Session

end CompletionServer
