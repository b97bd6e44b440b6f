import CompletionServer.Proofs.Outcome

/-!
# Computations that keep something of their state

What is known of a computation with a state whichever way it ends: something that held of the state
before it holds after it, or its fault is of one kind. Such statements are put together as the
computations are, and what is kept of the state may say what the faults are that it holds.
-/

namespace CompletionServer

variable {σ ε α β : Type}

/-- That a computation keeps what holds of the state, or fails with a fault of one kind. -/
def Maintains (I : σ → Prop) (bad : ε → Prop) (m : StateT σ (Except ε) α) : Prop :=
  ∀ s, I s → Outcome (fun r ↦ I r.2) bad (m.run s)

namespace Maintains

variable {I : σ → Prop} {bad : ε → Prop} {m : StateT σ (Except ε) α}

theorem pure (a : α) : Maintains I bad (pure a : StateT σ (Except ε) α) := fun _ hs ↦ hs

theorem throw {e : ε} (h : bad e) : Maintains I bad (throw e : StateT σ (Except ε) α) := fun _ _ ↦ h

theorem bind {f : α → StateT σ (Except ε) β} (hm : Maintains I bad m)
    (hf : ∀ a, Maintains I bad (f a)) : Maintains I bad (m >>= f) :=
  fun s hs ↦ (hm s hs).bind fun r hr ↦ hf r.1 r.2 hr

theorem ite {c : Prop} [Decidable c] {m' : StateT σ (Except ε) α} (hm : Maintains I bad m)
    (hm' : Maintains I bad m') : Maintains I bad (if c then m else m') := by
  split
  · exact hm
  · exact hm'

/-- What comes after a look at the state may use what holds of it. -/
theorem get_bind {f : σ → StateT σ (Except ε) β} (hf : ∀ s, I s → Maintains I bad (f s)) :
    Maintains I bad (get >>= f) := fun s hs ↦ hf s hs s hs

theorem set {s : σ} (h : I s) : Maintains I bad (set s : StateT σ (Except ε) PUnit) := fun _ _ ↦ h

theorem modify {f : σ → σ} (h : ∀ s, I s → I (f s)) :
    Maintains I bad (modify f : StateT σ (Except ε) PUnit) := h

/-- A computation without the state may come first. -/
theorem lift_bind {good : α → Prop} {x : Except ε α} {f : α → StateT σ (Except ε) β}
    (hx : Outcome good bad x) (hf : ∀ a, good a → Maintains I bad (f a)) :
    Maintains I bad ((liftM x : StateT σ (Except ε) α) >>= f) := by
  intro s hs
  cases x with
  | error e => exact hx
  | ok a => exact hf a hx s hs

theorem mapM {f : α → StateT σ (Except ε) β} {xs : List α}
    (h : ∀ x ∈ xs, Maintains I bad (f x)) : Maintains I bad (xs.mapM f) := by
  induction xs with
  | nil => exact pure []
  | cons x xs ih =>
    obtain ⟨hx, hxs⟩ := List.forall_mem_cons.mp h
    rw [List.mapM_cons]
    exact hx.bind fun y ↦ (ih hxs).bind fun ys ↦ pure (y :: ys)

theorem forM {f : α → StateT σ (Except ε) PUnit} {xs : List α}
    (h : ∀ x ∈ xs, Maintains I bad (f x)) : Maintains I bad (xs.forM f) := by
  induction xs with
  | nil => exact pure PUnit.unit
  | cons x xs ih =>
    obtain ⟨hx, hxs⟩ := List.forall_mem_cons.mp h
    exact hx.bind fun _ ↦ ih hxs

theorem foldlM {f : β → α → StateT σ (Except ε) β} {xs : List α}
    (h : ∀ b x, Maintains I bad (f b x)) (b : β) : Maintains I bad (xs.foldlM f b) := by
  induction xs generalizing b with
  | nil => exact pure b
  | cons x xs ih =>
    rw [List.foldlM_cons]
    exact (h b x).bind fun b' ↦ ih b'

end Maintains

end CompletionServer
