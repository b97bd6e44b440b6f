import Mathlib.Data.List.Basic

/-!
# Outcomes of computations

What is known of a computation whichever way it ends: its result is of one kind, or its fault is of
another. Such statements are put together as the computations are.
-/

namespace CompletionServer

variable {ε α β : Type}

/-- That a computation gives a result of one kind or fails with a fault of another. -/
def Outcome (good : α → Prop) (bad : ε → Prop) : Except ε α → Prop
  | .ok a => good a
  | .error e => bad e

namespace Outcome

variable {good good' : α → Prop} {bad bad' : ε → Prop} {x : Except ε α}

theorem mono (h : Outcome good bad x) (hgood : ∀ a, good a → good' a) (hbad : ∀ e, bad e → bad' e) :
    Outcome good' bad' x := by
  cases x with
  | ok a => exact hgood a h
  | error e => exact hbad e h

theorem bind {next : β → Prop} {f : α → Except ε β} (hx : Outcome good bad x)
    (hf : ∀ a, good a → Outcome next bad (f a)) : Outcome next bad (x >>= f) := by
  cases x with
  | ok a => exact hf a hx
  | error e => exact hx

/-- A result stays as it is where faults are renamed. -/
theorem mapError {ε' : Type} {bad : ε' → Prop} {f : ε → ε'} (h : ∀ e, bad (f e))
    (x : Except ε α) : Outcome (fun _ ↦ True) bad (x.mapError f) := by
  cases x with
  | ok a => exact trivial
  | error e => exact h e

/-- A list that is made element by element fails as one of its elements does. -/
theorem mapM {f : α → Except ε β} {xs : List α}
    (h : ∀ x ∈ xs, Outcome (fun _ ↦ True) bad (f x)) : Outcome (fun _ ↦ True) bad (xs.mapM f) := by
  induction xs with
  | nil => exact trivial
  | cons x xs ih =>
    obtain ⟨hx, hxs⟩ := List.forall_mem_cons.mp h
    rw [List.mapM_cons]
    exact hx.bind fun y _ ↦ (ih hxs).bind fun ys _ ↦ trivial

end Outcome

/-- A list that cannot be made has an element that cannot be made. -/
theorem exists_of_mapM_eq_none {f : α → Option β} {xs : List α}
    (h : xs.mapM f = none) : ∃ x ∈ xs, f x = none := by
  induction xs with
  | nil => cases h
  | cons x xs ih =>
    cases hx : f x with
    | none => exact ⟨x, List.mem_cons_self, hx⟩
    | some y =>
      rw [List.mapM_cons, hx] at h
      cases hxs : xs.mapM f with
      | none =>
        obtain ⟨z, hz, hnone⟩ := ih hxs
        exact ⟨z, List.mem_cons_of_mem x hz, hnone⟩
      | some ys =>
        rw [hxs] at h
        cases h

end CompletionServer
