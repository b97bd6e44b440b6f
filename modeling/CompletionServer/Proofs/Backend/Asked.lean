import CompletionServer.Backend.Basic
import Mathlib.Data.List.Forall2

/-!
# Backends in turn

Backends that serve one request are launched one after the other, up to the first that fails. What
becomes of a backend may depend on all launches before it, so their run is followed launch by
launch, `Asked`.
-/

namespace CompletionServer

open Backend Completion

/-- What a backend gives for a query, after some launches. -/
def Backend.Gives (programs : Programs) (cancel : Bool) (q : Query) (past : List Launch)
    (b : Backend) (result : Except Failure (List Candidate)) : Prop :=
  ∃ r, Request.ofQuery? b.positionBase q = some r ∧
    ((b.answer programs cancel r).run.run past).1 = result

/-- That a launch is one of a backend. -/
def Backend.Launch.IsOf (l : Launch) (b : Backend) : Prop :=
  l.arguments = b.arguments ∧ l.directory = b.directory

/-- **Backends that are asked one after the other**, up to the first that fails: the launches
before, the backends, the launches that follow, and the failure if there is one. -/
inductive Asked (programs : Programs) (cancel : Bool) (q : Query) :
    (past : List Launch) → List Backend → (launches : List Launch) → Option Failure → Prop where
  | done {past : List Launch} : Asked programs cancel q past [] [] none
  | failed {past : List Launch} {b : Backend} {rest : List Backend} {l : Launch} {f : Failure}
      (hl : l.IsOf b) (hb : b.Gives programs cancel q past (.error f)) :
      Asked programs cancel q past (b :: rest) [l] (some f)
  | answered {past launches : List Launch} {b : Backend} {rest : List Backend} {l : Launch}
      {candidates : List Candidate} {failure : Option Failure}
      (hl : l.IsOf b) (hb : b.Gives programs cancel q past (.ok candidates))
      (hrest : Asked programs cancel q (past ++ [l]) rest launches failure) :
      Asked programs cancel q past (b :: rest) (l :: launches) failure

variable {programs : Programs} {cancel : Bool} {q : Query}

/-- Every run of a backend is one launch of it. -/
theorem isOf_run (start : Start) (b : Backend) (text : String) :
    (run start b.arguments b.directory b.limit cancel text).2.IsOf b := by
  cases start with
  | refused message => exact ⟨rfl, rfl⟩
  | embeddedNul => exact ⟨rfl, rfl⟩
  | running behaviour => exact ⟨rfl, rfl⟩

theorem exists_run_answer (b : Backend) (r : Request) (past : List Launch) :
    ∃ result, ∃ l : Launch, l.IsOf b ∧
      (b.answer programs cancel r).run.run past = (result, past ++ [l]) :=
  ⟨_, _, isOf_run (programs past b.arguments b.directory) b r.payload, rfl⟩

/-- What backends in turn come to: some gave candidates, each of them launched once and after the
launches of those before it, and then either there are no more or the next one failed, and no others
are launched. -/
theorem Asked.exists_answered {past launches : List Launch} {bs : List Backend}
    {failure : Option Failure} (h : Asked programs cancel q past bs launches failure) :
    ∃ answered rest, bs = answered ++ rest ∧
      (∀ i (hi : i < answered.length), ∃ candidates,
        answered[i].Gives programs cancel q (past ++ launches.take i) (.ok candidates)) ∧
      (failure = none → rest = [] ∧ List.Forall₂ Launch.IsOf launches answered) ∧
      ∀ f, failure = some f → ∃ b skipped, rest = b :: skipped ∧
        List.Forall₂ Launch.IsOf launches (answered ++ [b]) ∧
        b.Gives programs cancel q (past ++ launches.take answered.length) (.error f) := by
  induction h with
  | done => exact ⟨[], [], rfl, (fun i hi ↦ nomatch hi), fun _ ↦ ⟨rfl, .nil⟩, fun f hf ↦ nomatch hf⟩
  | @failed past b rest l f hl hb =>
    refine ⟨[], b :: rest, rfl, (fun i hi ↦ nomatch hi), (fun hf ↦ nomatch hf), fun g hg ↦ ?_⟩
    obtain rfl := Option.some.inj hg
    refine ⟨b, rest, rfl, .cons hl .nil, ?_⟩
    rwa [List.length_nil, List.take_zero, List.append_nil]
  | @answered past launches b rest l candidates failure hl hb _ ih =>
    obtain ⟨answered, others, rfl, hgave, hnone, hsome⟩ := ih
    have hgave' (i : ℕ) (hi : i < (b :: answered).length) : ∃ candidates,
        (b :: answered)[i].Gives programs cancel q (past ++ (l :: launches).take i)
          (.ok candidates) := by
      cases i with
      | zero =>
        rw [List.take_zero, List.append_nil]
        exact ⟨candidates, hb⟩
      | succ i =>
        rw [List.take_succ_cons, List.append_cons]
        exact hgave i (Nat.lt_of_succ_lt_succ hi)
    refine ⟨b :: answered, others, rfl, hgave', fun hf ↦ ?_, fun f hf ↦ ?_⟩
    · obtain ⟨hrest, hlaunches⟩ := hnone hf
      exact ⟨hrest, .cons hl hlaunches⟩
    · obtain ⟨c, skipped, hrest, hlaunches, hc⟩ := hsome f hf
      refine ⟨c, skipped, hrest, .cons hl hlaunches, ?_⟩
      rwa [List.length_cons, List.take_succ_cons, List.append_cons]

end CompletionServer
