import Mathlib.Data.List.Basic

/-!
# Actions that may fail and leave a state behind

An action reads and changes a state and either returns a value or raises.  What it did to
the state stays in both cases.  A specification has one postcondition for each way out,
and the rules below carry it through sequences, case splits and bounded loops.
-/

namespace Effects

variable {σ ε α β : Type}

abbrev Action (σ ε α : Type) := ExceptT ε (StateM σ) α

/-- The way out and the state left behind. -/
def exec (m : Action σ ε α) (s : σ) : Except ε α × σ := m.run.run s

/-- A part that touches no state. -/
def fromExcept : Except ε α → Action σ ε α
  | .ok a => pure a
  | .error e => throw e

/-- A question to the state, which may change it. -/
def ask (question : σ → α × σ) : Action σ ε α := fun s => (.ok (question s).1, (question s).2)

/-- From a state with `P`, a returned value satisfies `Q` and an error satisfies `E`, each
with the state that is left. -/
def Spec (P : σ → Prop) (m : Action σ ε α) (Q : α → σ → Prop) (E : ε → σ → Prop) : Prop :=
  ∀ s, P s → match exec m s with
    | (.ok a, s') => Q a s'
    | (.error e, s') => E e s'

variable {P P' : σ → Prop} {Q Q' : α → σ → Prop} {E E' : ε → σ → Prop} {m : Action σ ε α}

theorem Spec.imp (h : Spec P m Q E) (hP : ∀ s, P' s → P s) (hQ : ∀ a s, Q a s → Q' a s)
    (hE : ∀ e s, E e s → E' e s) : Spec P' m Q' E' := by
  intro s hs
  have hout := h s (hP s hs)
  generalize exec m s = out at hout ⊢
  obtain ⟨r, s'⟩ := out
  cases r with
  | error e => exact hE e s' hout
  | ok a => exact hQ a s' hout

theorem spec_pure {a : α} (h : ∀ s, P s → Q a s) : Spec P (pure a : Action σ ε α) Q E := h

theorem spec_throw {e : ε} (h : ∀ s, P s → E e s) : Spec P (throw e : Action σ ε α) Q E := h

theorem spec_fromExcept {x : Except ε α} (hok : ∀ a, x = .ok a → ∀ s, P s → Q a s)
    (herror : ∀ e, x = .error e → ∀ s, P s → E e s) :
    Spec P (fromExcept x : Action σ ε α) Q E := by
  cases x with
  | error e => exact spec_throw (herror e rfl)
  | ok a => exact spec_pure (hok a rfl)

theorem spec_ask {question : σ → α × σ} (h : ∀ s, P s → Q (question s).1 (question s).2) :
    Spec P (ask question : Action σ ε α) Q E := h

/-- In a sequence the first part's errors are the sequence's. -/
theorem Spec.bind {f : α → Action σ ε β} {R : β → σ → Prop} (h : Spec P m Q E)
    (hf : ∀ a, Spec (Q a) (f a) R E) : Spec P (m >>= f) R E := by
  intro s hs
  have hfirst := h s hs
  have hexec : exec (m >>= f) s = match exec m s with
      | (.ok a, s') => exec (f a) s'
      | (.error e, s') => (.error e, s') := by
    change (ExceptT.bind m f) s = _
    unfold ExceptT.bind ExceptT.mk
    change (match m s with | (r, s') => ExceptT.bindCont f r s') = _
    unfold exec
    change _ = match m s with
      | (.ok a, s') => f a s'
      | (.error e, s') => (.error e, s')
    generalize m s = out
    obtain ⟨r, s'⟩ := out
    cases r with
    | error e => rfl
    | ok a => rfl
  rw [hexec]
  generalize exec m s = out at hfirst ⊢
  obtain ⟨r, s'⟩ := out
  cases r with
  | error e => exact hfirst
  | ok a => exact hf a s' hfirst

theorem spec_ite {c : Prop} [Decidable c] {m' : Action σ ε α} (hpos : c → Spec P m Q E)
    (hneg : ¬ c → Spec P m' Q E) : Spec P (if c then m else m') Q E := by
  by_cases h : c
  · rw [if_pos h]
    exact hpos h
  · rw [if_neg h]
    exact hneg h

/-- What a specification says of the value returned. -/
theorem Spec.of_ok (h : Spec P m Q E) {s : σ} {a : α} (hs : P s) (hexec : (exec m s).1 = .ok a) :
    Q a (exec m s).2 := by
  have hout := h s hs
  generalize exec m s = out at hout hexec
  obtain ⟨r, s'⟩ := out
  obtain rfl : r = .ok a := hexec
  exact hout

/-- What holds of the state on both ways out. -/
theorem Spec.of_both (h : Spec P m Q E) {R : σ → Prop} (hQ : ∀ a s, Q a s → R s)
    (hE : ∀ e s, E e s → R s) {s : σ} (hs : P s) : R (exec m s).2 := by
  have hout := h s hs
  generalize exec m s = out at hout
  obtain ⟨r, s'⟩ := out
  cases r with
  | error e => exact hE e s' hout
  | ok a => exact hQ a s' hout

end Effects
