import Mathlib.Data.List.Basic

/-! # Steps that cannot be seen

Two runs that differ only in steps that cannot be seen end in states that look alike. It is enough to look
at single steps: one that cannot be seen changes nothing of what is seen, and no step tells apart states
that look alike.

* **`Unwinding`** — these two conditions on single steps, for states with an invariant and steps of a kind.
* **`Unwinding.foldl_filter`** — steps that cannot be seen may be left out of a run. -/

namespace AnchoredLedger

variable {State Step View : Type}

/-- **The view of a state unwinds** along single steps: those that are not seen leave it as it is, and what
the others make of it depends on nothing else. This is said of allowed steps from states with an
invariant. -/
structure Unwinding (act : State → Step → State) (view : State → View) (seen : Step → Bool)
    (Allowed : Step → Prop) (Invariant : State → Prop) : Prop where
  /-- Steps keep the invariant. -/
  keep : ∀ s e, Invariant s → Invariant (act s e)
  /-- A step that is not seen changes nothing of the view. -/
  unseen : ∀ s e, Invariant s → Allowed e → seen e = false → view (act s e) = view s
  /-- States with one view have one view after a step. -/
  congr : ∀ s t e, Invariant s → Invariant t → Allowed e → view s = view t →
    view (act s e) = view (act t e)

/-- **Steps that are not seen may be left out of a run.** -/
theorem Unwinding.foldl_filter {act : State → Step → State} {view : State → View} {seen : Step → Bool}
    {Allowed : Step → Prop} {Invariant : State → Prop}
    (hview : Unwinding act view seen Allowed Invariant) {steps : List Step}
    (hallowed : ∀ e ∈ steps, Allowed e) {s t : State} (hs : Invariant s) (ht : Invariant t)
    (h : view s = view t) : view (steps.foldl act s) = view ((steps.filter seen).foldl act t) := by
  -- the run without the unseen steps starts in any state with the same view
  induction steps generalizing s t with
  | nil => exact h
  | cons e es ih =>
    obtain ⟨hfirst, hothers⟩ := List.forall_mem_cons.1 hallowed
    cases hseen : seen e with
    | false =>
      rw [List.filter_cons_of_neg (by simp [hseen])]
      exact ih hothers (hview.keep s e hs) ht ((hview.unseen s e hs hfirst hseen).trans h)
    | true =>
      rw [List.filter_cons_of_pos hseen]
      exact ih hothers (hview.keep s e hs) (hview.keep t e ht) (hview.congr s t e hs ht hfirst h)

end AnchoredLedger
