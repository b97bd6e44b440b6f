import CompletionServer.Proofs.Backend.Asked
import CompletionServer.Proofs.Completion.Handler
import CompletionServer.Proofs.Provider.Registered
import CompletionServer.Proofs.Provider.Selection

/-!
# Capabilities in turn

What becomes of a request that goes to the capabilities of a configuration: it is the run of the
backends that serve the document, `isRunOf_registered`. Providers of fixed candidates have a share
in the list alone, and a capability whose provider does not serve the document has none.
-/

namespace CompletionServer

open Backend Completion

variable {q : Query}

/-! ## Effects in order -/

namespace Answering

variable {α β : Type} {past mid after : List Launch}

theorem run_bind_of_ok {x : Answering α} {f : α → Answering β} {a : α}
    (h : x.run.run past = (.ok a, after)) : (x >>= f).run.run past = (f a).run.run after := by
  rw [ExceptT.run_bind, StateT.run_bind, h]
  rfl

theorem run_bind_of_error {x : Answering α} {f : α → Answering β} {e : Fault}
    (h : x.run.run past = (.error e, after)) : (x >>= f).run.run past = (.error e, after) := by
  rw [ExceptT.run_bind, StateT.run_bind, h]
  rfl

theorem run_map {x : Answering α} {result : Except Fault α} (f : α → β)
    (h : x.run.run past = (result, after)) : (f <$> x).run.run past = (result.map f, after) := by
  rw [ExceptT.run_map, StateT.run_map, h]
  rfl

theorem run_ofBackend {x : ExceptT Failure (StateM (List Launch)) α} {result : Except Failure α}
    (h : x.run.run past = (result, after)) :
    (ofBackend x).run.run past = (result.mapError Fault.backend, after) := by
  change (x.run >>= fun r ↦ pure (r.mapError Fault.backend)).run past = _
  rw [StateT.run_bind, h]
  rfl

/-- One more answer goes before the others. -/
theorem run_filterMapM_cons {f : α → Answering (Option β)} {x : α} {xs : List α} {b : β}
    {result : Except Fault (List β)} (hx : (f x).run.run past = (.ok (some b), mid))
    (hxs : (xs.filterMapM f).run.run mid = (result, after)) :
    ((x :: xs).filterMapM f).run.run past = (result.map (b :: ·), after) := by
  rw [List.filterMapM_cons, run_bind_of_ok hx]
  exact run_map (b :: ·) hxs

end Answering

/-- That what was asked for ended with a failure, or without one. -/
def EndsWith {α : Type} (result : Except Fault α) : Option Failure → Prop
  | some f => result = .error (.backend f)
  | none => ∃ a, result = .ok a

theorem EndsWith.map {α β : Type} {result : Except Fault α} {failure : Option Failure}
    (h : EndsWith result failure) (f : α → β) : EndsWith (result.map f) failure := by
  cases failure with
  | some failure =>
    obtain rfl : result = .error (.backend failure) := h
    rfl
  | none =>
    obtain ⟨a, rfl⟩ := h
    exact ⟨f a, rfl⟩

/-! ## One capability -/

namespace Capability

variable {v : View} {p : CompletionParams} {c : Capability}

theorem withSupport_query (hq : query v p = .ok q) :
    q.withSupport (some v.snippetSupport) = q := by
  obtain ⟨name, -, h⟩ := exists_of_bind_eq_ok hq
  cases h
  rfl

/-- A capability whose provider does not serve the document is not asked for a list. -/
theorem run_ask_of_not_canHandle (key : String) (past : List Launch)
    (h : c.canHandle v p = .ok false) :
    (Handlers.ask p (key, c.handler v)).run.run past = (.ok none, past) := by
  have hcan : (c.handler v).canHandle p = pure false := congrArg Answering.ofExcept h
  rw [Handlers.ask, hcan, pure_bind]
  rfl

theorem complete_eq_of_query (hq : query v p = .ok q) :
    c.complete v p =
      (c.provider.source v.programs v.cancel).complete .placeTooLarge q (some v.snippetSupport) := by
  rw [complete, hq]
  rfl

/-- A capability gives the list of its source, for the request that there is for a query. -/
theorem complete_eq_listOf (hq : query v p = .ok q) {r : Request}
    (hr : Request.ofQuery? c.provider.positionBase q = some r) :
    c.complete v p = listOf <$> (c.provider.source v.programs v.cancel).answer r := by
  have hr' : Request.ofQuery? (c.provider.source v.programs v.cancel).positionBase
      (q.withSupport (some v.snippetSupport)) = some r := by
    rw [withSupport_query hq]
    exact hr
  rw [complete_eq_of_query hq, Source.complete, hr', map_eq_pure_bind]

/-- A capability whose provider serves the document is asked for its list. -/
theorem ask_of_canHandle (key : String) (h : c.canHandle v p = .ok true) (hq : query v p = .ok q)
    {r : Request} (hr : Request.ofQuery? c.provider.positionBase q = some r) :
    Handlers.ask p (key, c.handler v)
      = (fun candidates ↦ some (key, listOf candidates))
          <$> (c.provider.source v.programs v.cancel).answer r := by
  have hcan : (c.handler v).canHandle p = pure true := congrArg Answering.ofExcept h
  have hcomplete : (c.handler v).complete p
      = listOf <$> (c.provider.source v.programs v.cancel).answer r := complete_eq_listOf hq hr
  rw [Handlers.ask, hcan, pure_bind, hcomplete, map_eq_pure_bind, map_eq_pure_bind, bind_assoc]
  simp only [if_true, pure_bind]

theorem run_ask_fixed {name : String} {base : Numeral} {fixed : List Candidate} (key : String)
    (past : List Launch) (h : c.canHandle v p = .ok true) (hq : query v p = .ok q)
    (hprovider : c.provider = .fixed name base fixed) {r : Request}
    (hr : Request.ofQuery? base q = some r) :
    (Handlers.ask p (key, c.handler v)).run.run past
      = (.ok (some (key, listOf (fixedAnswer fixed r))), past) := by
  rw [ask_of_canHandle key h hq (by rw [hprovider]; exact hr), hprovider]
  rfl

theorem run_ask_backend {b : Backend} (key : String) {past after : List Launch}
    (h : c.canHandle v p = .ok true) (hq : query v p = .ok q) (hprovider : c.provider = .backend b)
    {r : Request} (hr : Request.ofQuery? b.positionBase q = some r)
    {result : Except Failure (List Candidate)}
    (hrun : (b.answer v.programs v.cancel r).run.run past = (result, after)) :
    (Handlers.ask p (key, c.handler v)).run.run past
      = ((result.mapError Fault.backend).map fun candidates ↦ some (key, listOf candidates),
          after) := by
  rw [ask_of_canHandle key h hq (by rw [hprovider]; exact hr), hprovider]
  exact Answering.run_map _ (Answering.run_ofBackend hrun)

end Capability

/-! ## All capabilities -/

/-- Whether the filters of a provider accept a document. -/
def ProviderConfig.serves (uri : String) (language : Option (List Text.Point))
    (p : ProviderConfig) : Bool :=
  match selects p.selector uri language with
  | .ok serves => serves
  | .error _ => false

/-- The backends that serve a document, in the order of the configuration. -/
def backendsFor (directory : Option Path) (uri : String) (language : Option (List Text.Point))
    (ps : List ProviderConfig) : List Backend :=
  (ps.filter fun p ↦ p.kind == .command && p.serves uri language).map
    (ProviderConfig.backend directory)

theorem backendsFor_cons_of {directory : Option Path} {uri : String}
    {language : Option (List Text.Point)} {p : ProviderConfig} {ps : List ProviderConfig}
    (h : (p.kind == .command && p.serves uri language) = true) :
    backendsFor directory uri language (p :: ps)
      = p.backend directory :: backendsFor directory uri language ps := by
  rw [backendsFor, List.filter_cons, if_pos h, List.map_cons]
  rfl

theorem backendsFor_cons_of_not {directory : Option Path} {uri : String}
    {language : Option (List Text.Point)} {p : ProviderConfig} {ps : List ProviderConfig}
    (h : ¬(p.kind == .command && p.serves uri language) = true) :
    backendsFor directory uri language (p :: ps) = backendsFor directory uri language ps := by
  rw [backendsFor, List.filter_cons, if_neg h]
  rfl

/-! ## Asking all of them -/

/-- That asking handlers, after some launches, is a run of backends: the launches of these, and
their failure or else some answers. -/
def IsRunOf (v : View) (p : CompletionParams) (q : Query) (past : List Launch) (bs : List Backend)
    (hs : Handlers CompletionParams Answering) : Prop :=
  ∃ launches failure result, Asked v.programs v.cancel q past bs launches failure ∧
    (hs.filterMapM (Handlers.ask p)).run.run past = (result, past ++ launches) ∧
    EndsWith result failure

namespace IsRunOf

variable {v : View} {p : CompletionParams} {past : List Launch} {b : Backend} {bs : List Backend}
  {h : String × Handler CompletionParams Answering} {hs : Handlers CompletionParams Answering}

theorem nil : IsRunOf v p q past [] [] := by
  refine ⟨[], none, .ok [], .done, ?_, [], rfl⟩
  rw [List.append_nil]
  rfl

/-- One that does not serve the document changes nothing. -/
theorem skip (hask : (Handlers.ask p h).run.run past = (.ok none, past))
    (hrest : IsRunOf v p q past bs hs) : IsRunOf v p q past bs (h :: hs) := by
  obtain ⟨launches, failure, result, hasked, hrun, hends⟩ := hrest
  refine ⟨launches, failure, result, hasked, ?_, hends⟩
  rw [List.filterMapM_cons, Answering.run_bind_of_ok hask]
  exact hrun

/-- One without a backend has an answer and no launch. -/
theorem fixed {a : String × ItemList}
    (hask : (Handlers.ask p h).run.run past = (.ok (some a), past))
    (hrest : IsRunOf v p q past bs hs) : IsRunOf v p q past bs (h :: hs) := by
  obtain ⟨launches, failure, result, hasked, hrun, hends⟩ := hrest
  exact ⟨launches, failure, result.map (a :: ·), hasked, Answering.run_filterMapM_cons hask hrun,
    hends.map _⟩

/-- A backend that fails ends the run: those after it are not asked. -/
theorem failed {l : Launch} {f : Failure} (hl : l.IsOf b)
    (hb : b.Gives v.programs v.cancel q past (.error f))
    (hask : (Handlers.ask p h).run.run past = (.error (.backend f), past ++ [l])) :
    IsRunOf v p q past (b :: bs) (h :: hs) := by
  refine ⟨[l], some f, .error (.backend f), .failed hl hb, ?_, rfl⟩
  rw [List.filterMapM_cons]
  exact Answering.run_bind_of_error hask

/-- A backend with an answer, and then the others. -/
theorem answered {l : Launch} {candidates : List Candidate} {a : String × ItemList}
    (hl : l.IsOf b) (hb : b.Gives v.programs v.cancel q past (.ok candidates))
    (hask : (Handlers.ask p h).run.run past = (.ok (some a), past ++ [l]))
    (hrest : IsRunOf v p q (past ++ [l]) bs hs) : IsRunOf v p q past (b :: bs) (h :: hs) := by
  obtain ⟨launches, failure, result, hasked, hrun, hends⟩ := hrest
  refine ⟨l :: launches, failure, result.map (a :: ·), .answered hl hb hasked, ?_, hends.map _⟩
  rw [List.append_cons]
  exact Answering.run_filterMapM_cons hask hrun

end IsRunOf

/-- **Capabilities in turn.** Asking the capabilities of providers whose patterns compile is a run
of the backends that serve the document. -/
theorem isRunOf_registered {directory : Option Path} {v : View} {p : CompletionParams}
    {ps : List ProviderConfig} {rs : List Registration}
    (hregistered : List.Forall₂ (ProviderConfig.IsRegistered directory) ps rs)
    (hcompiles : ∀ p ∈ ps, ∀ f ∈ p.selector, f.Compiles) (hq : Capability.query v p = .ok q)
    {language : Option (List Text.Point)} (hlanguage : Capability.languageOf v p.uri = .ok language)
    (hplace : ∀ base, ∃ r, Request.ofQuery? base q = some r) (past : List Launch) :
    IsRunOf v p q past (backendsFor directory p.uri language ps)
      (rs.map fun r ↦ (Capability.name r, Capability.handler v r)) := by
  obtain ⟨name, hname, -⟩ := exists_of_bind_eq_ok hq
  have huri : Uri.fileName p.uri = .ok name := mapError_eq_ok_iff.mp hname
  obtain ⟨scheme, hscheme⟩ := Uri.exists_scheme?_eq_ok huri
  induction hregistered generalizing past with
  | nil => exact .nil
  | @cons c r cs rs hr _ ih =>
    have ih := ih fun p hp ↦ hcompiles p (List.mem_cons_of_mem c hp)
    obtain ⟨serves, hserves, -⟩ :=
      exists_selects_eq_ok_iff (hcompiles c List.mem_cons_self) huri hscheme language
    have hcan : Capability.canHandle v r p = .ok serves := by
      rw [Capability.canHandle, hlanguage, hr.selector]
      exact mapError_eq_ok_iff.mpr hserves
    have hservesc : c.serves p.uri language = serves := by
      rw [ProviderConfig.serves, hserves]
    -- A provider that does not serve the document and one without a program add no backend.
    cases serves with
    | false =>
      rw [backendsFor_cons_of_not (by simp [hservesc])]
      exact .skip (Capability.run_ask_of_not_canHandle _ past hcan) (ih past)
    | true =>
      rcases hr.provider_eq with ⟨hkind, hprovider⟩ | ⟨hkind, hprovider⟩
      · rw [backendsFor_cons_of (by simp [hservesc, hkind])]
        obtain ⟨req, hreq⟩ := hplace (c.backend directory).positionBase
        obtain ⟨given, l, hl, hrun⟩ := exists_run_answer (c.backend directory) req past
        have hask := Capability.run_ask_backend (Capability.name r) hcan hq hprovider hreq hrun
        have hgives : (c.backend directory).Gives v.programs v.cancel q past given :=
          ⟨req, hreq, congrArg Prod.fst hrun⟩
        cases given with
        | error f => exact .failed hl hgives hask
        | ok candidates => exact .answered hl hgives hask (ih (past ++ [l]))
      · rw [backendsFor_cons_of_not (by simp [hkind])]
        obtain ⟨req, hreq⟩ := hplace c.positionBase
        exact .fixed (Capability.run_ask_fixed _ past hcan hq hprovider hreq) (ih past)

end CompletionServer
