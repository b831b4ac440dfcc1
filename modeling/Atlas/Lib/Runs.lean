import Mathlib.Data.List.Basic
import Mathlib.Data.List.Infix

/-!
# Runs of a deterministic transition function

A run applies a list of operations from left to right.  Three induction rules
are packaged here: an invariant of every step holds in every state reached; an
invariant that a step keeps under a condition holds in every run whose steps all
meet the condition; and when, under a standing invariant, a step keeps a
property *exactly* when the condition holds, the property holds all along a run
if and only if every step meets the condition.
-/

namespace Runs

variable {S O : Type*} (step : S → O → S)

/-- The state after a list of operations. -/
def run (s : S) (ops : List O) : S := ops.foldl step s

@[simp] theorem run_nil (s : S) : run step s [] = s := rfl

@[simp] theorem run_cons (s : S) (o : O) (ops : List O) :
    run step s (o :: ops) = run step (step s o) ops := rfl

theorem run_append (s : S) (xs ys : List O) :
    run step s (xs ++ ys) = run step (run step s xs) ys := by
  simp [run]

/-- Every operation of the run meets `C` in the state it starts from. -/
def EveryStep (C : S → O → Prop) (s : S) (ops : List O) : Prop :=
  ∀ pre o post, ops = pre ++ o :: post → C (run step s pre) o

/-- Every state along the run, its first and its last included, meets `P`. -/
def EveryState (P : S → Prop) (s : S) (ops : List O) : Prop :=
  ∀ pre, pre <+: ops → P (run step s pre)

variable {step}

theorem EveryStep.cons {C : S → O → Prop} {s : S} {o : O} {ops : List O} :
    EveryStep step C s (o :: ops) ↔ C s o ∧ EveryStep step C (step s o) ops := by
  constructor
  · intro h
    refine ⟨h [] o ops rfl, ?_⟩
    intro pre o' post heq
    exact h (o :: pre) o' post (by simp [heq])
  · rintro ⟨h0, h⟩ pre o' post heq
    cases pre with
    | nil =>
        simp only [List.nil_append, List.cons.injEq] at heq
        obtain ⟨rfl, rfl⟩ := heq
        exact h0
    | cons x pre =>
        simp only [List.cons_append, List.cons.injEq] at heq
        obtain ⟨rfl, rfl⟩ := heq
        exact h pre o' post rfl

instance decidableEveryStep {C : S → O → Prop} [∀ s o, Decidable (C s o)] :
    (s : S) → (ops : List O) → Decidable (EveryStep step C s ops)
  | _, [] => .isTrue fun pre o post h => by simp at h
  | s, o :: ops =>
      have : Decidable (EveryStep step C (step s o) ops) := decidableEveryStep (step s o) ops
      decidable_of_iff (C s o ∧ EveryStep step C (step s o) ops) EveryStep.cons.symm

theorem EveryState.cons {P : S → Prop} {s : S} {o : O} {ops : List O} :
    EveryState step P s (o :: ops) ↔ P s ∧ EveryState step P (step s o) ops := by
  constructor
  · intro h
    refine ⟨h [] (List.nil_prefix), ?_⟩
    intro pre hpre
    exact h (o :: pre) (by simpa using hpre)
  · rintro ⟨h0, h⟩ pre hpre
    cases pre with
    | nil => exact h0
    | cons x pre =>
        obtain ⟨rfl, hpre'⟩ := List.cons_prefix_cons.mp hpre
        exact h pre hpre'

/-- **Invariant rule.**  What every step keeps holds in every state reached. -/
theorem invariant {I : S → Prop} (hstep : ∀ s o, I s → I (step s o))
    {s : S} (hs : I s) (ops : List O) : I (run step s ops) := by
  induction ops generalizing s with
  | nil => exact hs
  | cons o ops ih => exact ih (hstep s o hs)

/-- **Conditional invariant rule.**  What a step keeps whenever `C` holds before
it holds at the end of every run whose steps all meet `C`. -/
theorem invariant_of_everyStep {P : S → Prop} {C : S → O → Prop}
    (hstep : ∀ s o, P s → C s o → P (step s o))
    {s : S} (hs : P s) {ops : List O} (hC : EveryStep step C s ops) :
    P (run step s ops) := by
  induction ops generalizing s with
  | nil => exact hs
  | cons o ops ih =>
      obtain ⟨h0, hrest⟩ := EveryStep.cons.mp hC
      exact ih (hstep s o hs h0) hrest

/-- The same all along the run. -/
theorem everyState_of_everyStep {P : S → Prop} {C : S → O → Prop}
    (hstep : ∀ s o, P s → C s o → P (step s o))
    {s : S} (hs : P s) {ops : List O} (hC : EveryStep step C s ops) :
    EveryState step P s ops := by
  intro pre hpre
  obtain ⟨post, rfl⟩ := hpre
  refine invariant_of_everyStep hstep hs ?_
  intro pre' o post' heq
  exact hC pre' o (post' ++ post) (by simp [heq])

theorem EveryState.imp {P Q : S → Prop} (hPQ : ∀ s, P s → Q s) {s : S} {ops : List O}
    (h : EveryState step P s ops) : EveryState step Q s ops :=
  fun pre hpre => hPQ _ (h pre hpre)

/-- **Exact rule.**  Let `I` be kept by a step that goes from `P` to `P`.  If,
under `I`, a step from a state with `P` ends in a state with `P` exactly when `C`
holds before it, then `P` holds in every state of a run exactly when every step
of the run meets `C`. -/
theorem everyState_iff_everyStep_of_kept {I P : S → Prop} {C : S → O → Prop}
    (hinv : ∀ s o, I s → P s → P (step s o) → I (step s o))
    (hstep : ∀ s o, I s → P s → (P (step s o) ↔ C s o))
    {s : S} (hI : I s) (hP : P s) (ops : List O) :
    EveryState step P s ops ↔ EveryStep step C s ops := by
  induction ops generalizing s with
  | nil =>
      constructor
      · intro _ pre o post heq
        simp at heq
      · intro _ pre hpre
        rw [List.prefix_nil.mp hpre]
        exact hP
  | cons o ops ih =>
      rw [EveryState.cons, EveryStep.cons]
      constructor
      · rintro ⟨_, hrest⟩
        have hP' : P (step s o) := hrest [] List.nil_prefix
        exact ⟨(hstep s o hI hP).mp hP', (ih (hinv s o hI hP hP') hP').mp hrest⟩
      · rintro ⟨hC, hrest⟩
        have hP' : P (step s o) := (hstep s o hI hP).mpr hC
        exact ⟨hP, (ih (hinv s o hI hP hP') hP').mpr hrest⟩

/-- The same with an invariant that every step keeps. -/
theorem everyState_iff_everyStep {I P : S → Prop} {C : S → O → Prop}
    (hinv : ∀ s o, I s → I (step s o))
    (hstep : ∀ s o, I s → P s → (P (step s o) ↔ C s o))
    {s : S} (hI : I s) (hP : P s) (ops : List O) :
    EveryState step P s ops ↔ EveryStep step C s ops :=
  everyState_iff_everyStep_of_kept (fun s o hI _ _ => hinv s o hI) hstep hI hP ops

/-! ## What a run collects -/

section Collect

variable {β : Type*} (step) (out : S → O → List β)

/-- The outputs of the steps of a run, in order. -/
def collect : S → List O → List β
  | _, [] => []
  | s, o :: ops => out s o ++ collect (step s o) ops

variable {step out}

/-- An output of a run is one of some step. -/
theorem mem_collect {b : β} {s : S} {ops : List O} :
    b ∈ collect step out s ops ↔
      ∃ pre o post, ops = pre ++ o :: post ∧ b ∈ out (run step s pre) o := by
  induction ops generalizing s with
  | nil => simp [collect]
  | cons o ops ih =>
      rw [collect, List.mem_append, ih]
      constructor
      · rintro (h | ⟨pre, o', post, rfl, h⟩)
        · exact ⟨[], o, ops, rfl, h⟩
        · exact ⟨o :: pre, o', post, rfl, h⟩
      · rintro ⟨pre, o', post, heq, h⟩
        cases pre with
        | nil =>
            obtain ⟨rfl, rfl⟩ := List.cons.inj heq
            exact .inl h
        | cons p pre =>
            obtain ⟨rfl, rfl⟩ := List.cons.inj heq
            exact .inr ⟨pre, o', post, rfl, h⟩

/-- **Collecting rule.**  A view of the state that each step folds its outputs into is
the fold of all the outputs. -/
theorem view_run {V : Type*} (view : S → V) (fold : V → β → V)
    (hstep : ∀ s o, view (step s o) = (out s o).foldl fold (view s)) (s : S) (ops : List O) :
    view (run step s ops) = (collect step out s ops).foldl fold (view s) := by
  induction ops generalizing s with
  | nil => rfl
  | cons o ops ih => rw [run_cons, ih, collect, List.foldl_append, hstep]

end Collect

end Runs
