import Atlas.Lib.Runs

/-!
# A view that stands alone

Operations of a shared state are hidden from a party or visible to it, and the party has a
view of the state, which is a state itself.  When hidden operations leave the view alone, and
visible ones make of the view what they would make of it without the rest of the state, then
the party cannot tell the shared state from its view with the visible operations alone: it
has a state of its own.
-/

namespace Isolation

variable {S O A : Type*} (step : S → O → S) (view : S → S) (visible : O → Bool)

/-- The party is isolated from the operations it does not see. -/
structure Isolated : Prop where
  hidden : ∀ s o, visible o = false → view (step s o) = view s
  alone : ∀ s o, visible o = true → view (step s o) = view (step (view s) o)

variable (answer : S → O → A) (heard : O → Bool)

/-- The answers that the party hears along a run. -/
def answers : S → List O → List A
  | _, [] => []
  | s, o :: ops =>
      if heard o then answer s o :: answers (step s o) ops else answers (step s o) ops

/-- The party hears answers to operations it sees, and they come from its view. -/
structure Answered : Prop where
  sees : ∀ o, heard o = true → visible o = true
  alone : ∀ s o, heard o = true → answer s o = answer (view s) o

variable {step view visible answer heard}

theorem Isolated.congr (h : Isolated step view visible) {s s' : S} (hs : view s = view s') {o : O}
    (ho : visible o = true) : view (step s o) = view (step s' o) := by
  rw [h.alone s o ho, h.alone s' o ho, hs]

theorem answers_cons (s : S) (o : O) (ops : List O) :
    answers step answer heard s (o :: ops) =
      if heard o then answer s o :: answers step answer heard (step s o) ops
      else answers step answer heard (step s o) ops := rfl

/-- **The view stands alone.** -/
theorem Isolated.run (h : Isolated step view visible) {s s' : S} (hs : view s = view s')
    (ops : List O) :
    view (Runs.run step s ops) = view (Runs.run step s' (ops.filter visible)) := by
  induction ops generalizing s s' with
  | nil => exact hs
  | cons o ops ih =>
      rw [Runs.run_cons]
      cases ho : visible o with
      | true =>
          rw [List.filter_cons_of_pos ho, Runs.run_cons]
          exact ih (h.congr hs ho)
      | false =>
          rw [List.filter_cons_of_neg (by simp [ho])]
          exact ih ((h.hidden s o ho).trans hs)

/-- **The party hears what it would hear alone.** -/
theorem Isolated.answers (h : Isolated step view visible) (ha : Answered view visible answer heard)
    {s s' : S} (hs : view s = view s') (ops : List O) :
    answers step answer heard s ops = answers step answer heard s' (ops.filter visible) := by
  induction ops generalizing s s' with
  | nil => rfl
  | cons o ops ih =>
      cases ho : visible o with
      | true =>
          have hrest := ih (h.congr hs ho)
          rw [List.filter_cons_of_pos ho, answers_cons, answers_cons]
          by_cases hheard : heard o = true
          · rw [if_pos hheard, if_pos hheard, hrest, ha.alone s o hheard, ha.alone s' o hheard, hs]
          · rw [if_neg hheard, if_neg hheard, hrest]
      | false =>
          have hunheard : ¬ heard o = true := by
            intro hheard
            rw [ha.sees o hheard] at ho
            cases ho
          rw [List.filter_cons_of_neg (by simp [ho]), answers_cons, if_neg hunheard]
          exact ih ((h.hidden s o ho).trans hs)

end Isolation
