import CompletionServer.Proofs.Session.History
import Mathlib.Data.List.DropRight

/-!
# What a client has open

A session keeps the documents that its client has open, message by message. What it keeps for one of
them can be told from the messages without following the session: the latest message that opens or
closes the document decides whether it is open, and if it is, its text is the one it was opened with
and all changes since. Messages about other documents do not matter.

Documents are told apart by their keys, that is by their URIs with the percent signs decoded.
-/

namespace CompletionServer

open Documents

namespace Message

/-- Whether a message opens the document with a key. Under what is no URI nothing is opened. -/
def opens (key : String) (m : Message) : Bool :=
  m.id.isNone && m.method == "textDocument/didOpen" && keyOf m.uri == key
    && (Uri.fileName m.uri).isOk

/-- Whether a message closes the document with a key. -/
def closes (key : String) (m : Message) : Bool :=
  m.id.isNone && m.method == "textDocument/didClose" && keyOf m.uri == key

/-- The changes of the document with a key that a message brings. -/
def changesOf (key : String) (m : Message) : List Change :=
  if m.id.isNone && m.method == "textDocument/didChange" && keyOf m.uri == key then m.changes
  else []

/-- Whether a message decides about the document with a key, whatever came before. -/
def decides (key : String) (m : Message) : Bool := m.opens key || m.closes key

/-- The document that a message brings. -/
def document (m : Message) : Document :=
  let item := m.params.field "textDocument"
  ⟨(item.field "languageId").points?.getD [], (item.field "text").points?.getD []⟩

end Message

/-- A document after some changes. -/
def Document.changed (e : ColumnEncoding) (changes : List Change) (d : Document) : Document :=
  { d with text := changes.foldl (Change.apply e) d.text }

/-- **The document with a key after some messages**, none if it is not open: as the latest message
that opened it brought it, with all changes of it since, unless a message closed it after that. -/
def documentAfter (e : ColumnEncoding) (key : String) (ms : List Message) : Option Document :=
  let latest := ms.reverse.find? (Message.decides key)
  let since := ms.rtakeWhile fun m ↦ !m.decides key
  (latest.filter (Message.opens key)).map fun opening ↦
    opening.document.changed e (since.flatMap (Message.changesOf key))

/-! ## One message more -/

/-- What a message makes of the document with a key. -/
def Message.applied (e : ColumnEncoding) (key : String) (m : Message) (d : Option Document) :
    Option Document :=
  if m.opens key then some m.document
  else if m.closes key then none
  else d.map (Document.changed e (m.changesOf key))

theorem Document.changed_append (e : ColumnEncoding) (cs cs' : List Change) (d : Document) :
    d.changed e (cs ++ cs') = (d.changed e cs).changed e cs' := by
  rw [changed, List.foldl_append]
  rfl

/-- A message that opens, closes and changes nothing of a document leaves it alone. -/
theorem Message.applied_of_quiet {e : ColumnEncoding} {key : String} {m : Message}
    (hopens : m.opens key = false) (hcloses : m.closes key = false)
    (hchanges : m.changesOf key = []) (d : Option Document) : m.applied e key d = d := by
  rw [applied, hopens, hcloses, hchanges]
  exact Option.map_id'

theorem documentAfter_concat (e : ColumnEncoding) (key : String) (ms : List Message)
    (m : Message) : documentAfter e key (ms ++ [m]) = m.applied e key (documentAfter e key ms) := by
  unfold documentAfter
  rw [List.reverse_concat, List.find?_cons]
  cases hdecides : m.decides key with
  | true =>
    rw [List.rtakeWhile_concat_neg _ _ _ (by simp [hdecides]), Message.applied]
    cases hopens : m.opens key with
    | true => simp [hopens, Document.changed]
    | false =>
      have hcloses : m.closes key = true := by simpa [Message.decides, hopens] using hdecides
      simp [hopens, hcloses]
  | false =>
    obtain ⟨hopens, hcloses⟩ : m.opens key = false ∧ m.closes key = false := by
      simpa [Message.decides] using hdecides
    rw [List.rtakeWhile_concat_pos _ _ _ (by simp [hdecides]), Message.applied, hopens, hcloses,
      if_neg Bool.false_ne_true, if_neg Bool.false_ne_true, Option.map_map]
    refine Option.map_congr fun opening _ ↦ ?_
    rw [List.flatMap_append, List.flatMap_singleton, Document.changed_append]
    rfl

/-- Whether a message is about the document with a key. -/
def Message.isAbout (key : String) (m : Message) : Bool := keyOf m.uri == key

theorem Message.applied_of_not_isAbout {key : String} {m : Message} (h : m.isAbout key = false)
    (e : ColumnEncoding) (d : Option Document) : m.applied e key d = d := by
  have hkey : (keyOf m.uri == key) = false := h
  refine applied_of_quiet ?_ ?_ ?_ d
  · simp [opens, hkey]
  · simp [closes, hkey]
  · simp [changesOf, hkey]

/-- Messages about other documents do not matter. -/
theorem documentAfter_filter (e : ColumnEncoding) (key : String) (ms : List Message) :
    documentAfter e key (ms.filter (Message.isAbout key)) = documentAfter e key ms := by
  induction ms using List.reverseRecOn with
  | nil => rfl
  | append_singleton ms m ih =>
    rw [List.filter_append, documentAfter_concat]
    cases habout : m.isAbout key with
    | true => rw [List.filter_cons_of_pos habout, List.filter_nil, documentAfter_concat, ih]
    | false =>
      rw [List.filter_cons_of_neg (Bool.eq_false_iff.mp habout), List.filter_nil, List.append_nil,
        ih, Message.applied_of_not_isAbout habout]

namespace Message

variable {e : ColumnEncoding} {key : String} {m : Message}

/-- A request does nothing to documents. -/
theorem applied_of_request (hid : m.id.isNone = false) (d : Option Document) :
    m.applied e key d = d := by
  refine applied_of_quiet ?_ ?_ ?_ d
  · simp [opens, hid]
  · simp [closes, hid]
  · simp [changesOf, hid]

theorem applied_of_didOpen (hid : m.id.isNone = true) (hmethod : m.method = "textDocument/didOpen")
    (d : Option Document) : m.applied e key d
      = if keyOf m.uri = key ∧ (Uri.fileName m.uri).isOk = true then some m.document else d := by
  have hclose : ("textDocument/didOpen" == "textDocument/didClose") = false := by decide
  have hchange : ("textDocument/didOpen" == "textDocument/didChange") = false := by decide
  have hcloses : m.closes key = false := by simp [closes, hmethod, hclose]
  have hchanges : m.changesOf key = [] := by simp [changesOf, hmethod, hchange]
  by_cases hopens : keyOf m.uri = key ∧ (Uri.fileName m.uri).isOk = true
  · rw [if_pos hopens, applied, if_pos]
    simp [opens, hid, hmethod, hopens]
  · rw [if_neg hopens]
    refine applied_of_quiet ?_ hcloses hchanges d
    simpa [opens, hid, hmethod] using hopens

theorem applied_of_didClose (hid : m.id.isNone = true)
    (hmethod : m.method = "textDocument/didClose") (d : Option Document) :
    m.applied e key d = if keyOf m.uri = key then none else d := by
  have hopen : ("textDocument/didClose" == "textDocument/didOpen") = false := by decide
  have hchange : ("textDocument/didClose" == "textDocument/didChange") = false := by decide
  have hopens : m.opens key = false := by simp [opens, hmethod, hopen]
  have hchanges : m.changesOf key = [] := by simp [changesOf, hmethod, hchange]
  by_cases hkey : keyOf m.uri = key
  · have hcloses : m.closes key = true := by simp [closes, hid, hmethod, hkey]
    rw [if_pos hkey, applied, hopens, hcloses]
    rfl
  · rw [if_neg hkey]
    refine applied_of_quiet hopens ?_ hchanges d
    simp [closes, hkey]

theorem applied_of_didChange (hid : m.id.isNone = true)
    (hmethod : m.method = "textDocument/didChange") (d : Option Document) :
    m.applied e key d = if keyOf m.uri = key then d.map (Document.changed e m.changes) else d := by
  have hopen : ("textDocument/didChange" == "textDocument/didOpen") = false := by decide
  have hclose : ("textDocument/didChange" == "textDocument/didClose") = false := by decide
  have hopens : m.opens key = false := by simp [opens, hmethod, hopen]
  have hcloses : m.closes key = false := by simp [closes, hmethod, hclose]
  by_cases hkey : keyOf m.uri = key
  · have hchanges : m.changesOf key = m.changes := by simp [changesOf, hid, hmethod, hkey]
    rw [if_pos hkey, applied, hopens, hcloses, hchanges]
    rfl
  · rw [if_neg hkey]
    refine applied_of_quiet hopens hcloses ?_ d
    simp [changesOf, hkey]

theorem applied_of_notMem (hmethod : m.method ∉ Session.documentMethods) (d : Option Document) :
    m.applied e key d = d := by
  obtain ⟨hopen, hchange, hclose⟩ : m.method ≠ "textDocument/didOpen" ∧
      m.method ≠ "textDocument/didChange" ∧ m.method ≠ "textDocument/didClose" := by
    simpa [Session.documentMethods] using hmethod
  refine applied_of_quiet ?_ ?_ ?_ d
  · simp [opens, hopen]
  · simp [closes, hclose]
  · simp [changesOf, hchange]

end Message

namespace Session

/-! ## The documents of a session -/

variable {e : ColumnEncoding} {s : Session} {m : Message} {ds ds' : Documents}

theorem find?_congr {uri u : String} (h : keyOf uri = keyOf u) : ds.find? uri = ds.find? u := by
  rw [Documents.find?, Documents.find?, h]

theorem find?_of_changed? {uri : String} {changes : List Change}
    (h : ds.changed? e uri changes = some ds') (u : String) :
    ds'.find? u = if keyOf uri = keyOf u then (ds.find? u).map (Document.changed e changes)
      else ds.find? u := by
  unfold changed? at h
  split at h
  · cases h
    have hsame : (ds.find? u).map (Document.changed e []) = ds.find? u := Option.map_id'
    rw [hsame, ite_self]
  · next d _ hfind =>
    cases h
    rw [find?_opened]
    by_cases hkey : keyOf uri = keyOf u
    · rw [if_pos hkey.symm, if_pos hkey, ← find?_congr hkey, hfind]
      rfl
    · rw [if_neg (Ne.symm hkey), if_neg hkey]
  · cases h

theorem find?_of_changed?_eq_none {uri : String} {changes : List Change}
    (h : ds.changed? e uri changes = none) : ds.find? uri = none := by
  unfold changed? at h
  split at h
  · cases h
  · cases h
  · next hfind => exact hfind

theorem isOk_of_discard_mapError {ε ε' α : Type} {x : Except ε α} {f : ε → ε'} {u : PUnit}
    (h : discard (x.mapError f) = .ok u) : x.isOk = true := by
  cases x with
  | ok a => rfl
  | error e => cases h

/-- A notification about a document that is dealt with. -/
theorem find?_of_editDocuments (hid : m.id.isNone = true) (h : s.editDocuments m ds = .ok ds')
    (uri : String) :
    ds'.find? uri = m.applied s.columnEncoding (keyOf uri) (ds.find? uri) := by
  unfold editDocuments at h
  split at h
  · next hmethod =>
    obtain ⟨_, hname, h⟩ := exists_of_bind_eq_ok h
    cases h
    rw [Message.applied_of_didOpen hid hmethod, find?_opened, isOk_of_discard_mapError hname]
    simp only [and_true, eq_comm (a := keyOf uri)]
    rfl
  · next hmethod =>
    rw [Message.applied_of_didChange hid hmethod]
    split at h
    · next hchanged =>
      cases h
      exact find?_of_changed? hchanged uri
    · cases h
  · next hmethod =>
    cases h
    rw [Message.applied_of_didClose hid hmethod, find?_closed]
    simp only [eq_comm]
  · next hopen hchange hclose =>
    cases h
    refine (Message.applied_of_notMem ?_ _).symm
    simp only [documentMethods, List.mem_cons, List.not_mem_nil, or_false, not_or]
    exact ⟨hopen, hchange, hclose⟩

/-- One that is not dealt with. -/
theorem applied_of_editDocuments_error {f : Fault} (hid : m.id.isNone = true)
    (h : s.editDocuments m ds = .error f) (uri : String) :
    m.applied s.columnEncoding (keyOf uri) (ds.find? uri) = ds.find? uri := by
  unfold editDocuments at h
  split at h
  · next hmethod =>
    rw [Message.applied_of_didOpen hid hmethod, if_neg]
    rintro ⟨-, hname⟩
    cases hfile : Uri.fileName m.uri with
    | ok name =>
      rw [hfile] at h
      cases h
    | error f =>
      rw [hfile] at hname
      cases hname
  · next hmethod =>
    rw [Message.applied_of_didChange hid hmethod]
    split at h
    · cases h
    · next hchanged =>
      by_cases hkey : keyOf m.uri = keyOf uri
      · rw [if_pos hkey, ← find?_congr hkey, find?_of_changed?_eq_none hchanged]
        rfl
      · rw [if_neg hkey]
  · cases h
  · cases h

/-- A notification that asks for nothing to be done with documents. -/
theorem applied_of_not_concernsDocuments (hid : m.id.isNone = true)
    (h : concernsDocuments m = false) (key : String) (d : Option Document) :
    m.applied e key d = d := by
  by_cases hmem : m.method ∈ documentMethods
  · obtain ⟨hmethod, hchanges⟩ : m.method = "textDocument/didChange" ∧ m.changes = [] := by
      simpa [concernsDocuments, hmem] using h
    rw [Message.applied_of_didChange hid hmethod, hchanges]
    have hsame : d.map (Document.changed e []) = d := Option.map_id'
    rw [hsame, ite_self]
  · exact Message.applied_of_notMem hmem d

/-- That a session is open, counts columns in an encoding, and has open what messages say. -/
structure Follows (s : Session) (e : ColumnEncoding) (ms : List Message) : Prop where
  closing_eq : s.closing = false
  columnEncoding_eq : s.columnEncoding = e
  documents : ∃ ds, s.documents = some ds ∧ ∀ uri, ds.find? uri = documentAfter e (keyOf uri) ms

/-- A message that changes no document and leaves the session as it was. -/
theorem Follows.concat_of_quiet {ms : List Message} (h : s.Follows e ms)
    (hquiet : ∀ uri ds, s.documents = some ds →
      m.applied e (keyOf uri) (ds.find? uri) = ds.find? uri) : s.Follows e (ms ++ [m]) := by
  obtain ⟨hclosing, hencoding, ds, hds, hfind⟩ := h
  refine ⟨hclosing, hencoding, ds, hds, fun uri ↦ ?_⟩
  rw [documentAfter_concat, ← hfind uri, hquiet uri ds hds]

theorem Follows.of_notified {ms : List Message} {after : Session} (h : s.Follows e ms)
    (hid : m.id.isNone = true) (hnotified : s.notified m = .ok after) :
    after.Follows e (ms ++ [m]) := by
  obtain ⟨ds, hds, hfind⟩ := h.documents
  unfold notified at hnotified
  split at hnotified
  · rw [hds] at hnotified
    obtain ⟨ds', hedit, hafter⟩ := exists_of_bind_eq_ok hnotified
    cases hafter
    refine ⟨h.closing_eq, h.columnEncoding_eq, ds', rfl, fun uri ↦ ?_⟩
    rw [documentAfter_concat, ← hfind uri, ← h.columnEncoding_eq]
    exact find?_of_editDocuments hid hedit uri
  · next hconcerns =>
    cases hnotified
    exact h.concat_of_quiet fun uri ds _ ↦
      applied_of_not_concernsDocuments hid (Bool.eq_false_iff.mpr hconcerns) _ _

/-- A notification that is not dealt with leaves the session as it was. -/
theorem Follows.of_notified_error {ms : List Message} {f : Fault} (h : s.Follows e ms)
    (hid : m.id.isNone = true) (hnotified : s.notified m = .error f) :
    s.Follows e (ms ++ [m]) := by
  refine h.concat_of_quiet fun uri ds hds ↦ ?_
  unfold notified at hnotified
  split at hnotified
  · rw [hds] at hnotified
    dsimp only at hnotified
    cases hedit : s.editDocuments m ds with
    | ok ds' =>
      rw [hedit] at hnotified
      cases hnotified
    | error f =>
      rw [← h.columnEncoding_eq]
      exact applied_of_editDocuments_error hid hedit uri
  · cases hnotified

/-- **One message.** Only a new introduction and the end are left out. -/
theorem Follows.turn {ms : List Message} (h : s.Follows e ms) {r : Received}
    (hbegin : r.message.method ≠ "initialize") (hend : r.message.method ≠ "shutdown") :
    (s.turn r).after.Follows e (ms ++ [r.message]) := by
  rw [Session.turn, take, h.closing_eq, if_neg Bool.false_ne_true]
  split
  · next id hid =>
    have hkept : (s.answer r.environment r.programs r.cancel r.message id).after = s := by
      unfold answer
      split
      · next hmethod => exact absurd hmethod hbegin
      · next hmethod => exact absurd hmethod hend
      · rfl
      · rfl
      · rfl
    rw [hkept]
    exact h.concat_of_quiet fun uri ds _ ↦ Message.applied_of_request (by rw [hid]; rfl) _
  · next hid =>
    have hnone : r.message.id.isNone = true := by rw [hid]; rfl
    split
    · next after hafter => exact h.of_notified hnone hafter
    · next f hf => exact h.of_notified_error hnone hf

/-- A client that introduces itself has no documents open yet, whatever becomes of its
configuration. -/
theorem follows_begin {r : Received} {id : Value} (hopen : s.closing = false)
    (hid : r.message.id = some id) (hmethod : r.message.method = "initialize")
    (hroot : checkRoot r.message.params = .ok ()) :
    (s.turn r).after.Follows r.message.columnEncoding [] := by
  rw [Session.turn, take, hopen, hid]
  change (s.answer r.environment r.programs r.cancel r.message id).after.Follows _ _
  rw [answer, hmethod]
  change (s.begin r.environment r.message id).after.Follows _ _
  have hworkspace : withWorkspace { s with snippetSupport := r.message.snippetSupport } r.message
      = .ok { s with
          snippetSupport := r.message.snippetSupport
          documents := some []
          columnEncoding := r.message.columnEncoding } := by
    rw [withWorkspace, hroot]
    rfl
  unfold begin
  dsimp only
  rw [hworkspace]
  dsimp only
  split
  · exact ⟨hopen, rfl, [], rfl, fun uri ↦ rfl⟩
  · split
    · exact ⟨hopen, rfl, [], rfl, fun uri ↦ rfl⟩
    · next hserved =>
      obtain ⟨cs, -, hafter⟩ := exists_of_bind_eq_ok hserved
      cases hafter
      exact ⟨hopen, rfl, [], rfl, fun uri ↦ rfl⟩

/-- **The documents of a session**, after any messages that follow an introduction. -/
theorem follows_reached {before later : List Received} {start : Received} {id : Value}
    (hopen : (reached before).closing = false) (hid : start.message.id = some id)
    (hmethod : start.message.method = "initialize")
    (hroot : checkRoot start.message.params = .ok ())
    (hlater : ∀ r ∈ later, r.message.method ≠ "initialize" ∧ r.message.method ≠ "shutdown") :
    (reached (before ++ start :: later)).Follows start.message.columnEncoding
      (later.map Received.message) := by
  induction later using List.reverseRecOn with
  | nil =>
    rw [reached_concat]
    exact follows_begin hopen hid hmethod hroot
  | append_singleton later r ih =>
    rw [List.forall_mem_append, List.forall_mem_singleton] at hlater
    obtain ⟨hlater, hbegin, hend⟩ := hlater
    rw [← List.cons_append, ← List.append_assoc, reached_concat, List.map_append]
    exact (ih hlater).turn hbegin hend

end Session

end CompletionServer
