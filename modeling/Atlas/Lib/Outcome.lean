import Mathlib.Data.List.Basic
import Mathlib.Data.List.Forall2

/-!
# Computations that may fail

Use cases return an `Except`: an exception, or a result with the state it
leaves.  The rules below take such a computation apart.  A guard raises unless
its condition holds, and a sequence succeeds exactly when its first part
succeeds with a result from which the second part succeeds.
-/

namespace Outcome

variable {ε α β : Type}

/-- Raise `e` unless `p` holds. -/
def require (p : Prop) [Decidable p] (e : ε) : Except ε Unit :=
  if p then .ok () else .error e

theorem require_ok {p : Prop} [Decidable p] {e : ε} {u : Unit} :
    require p e = .ok u ↔ p := by
  unfold require
  by_cases h : p <;> simp [h]

/-- The value of an option, or an exception. -/
def fromOption (x : Option α) (e : ε) : Except ε α :=
  match x with
  | some a => .ok a
  | none => .error e

theorem fromOption_ok {x : Option α} {e : ε} {a : α} :
    fromOption x e = .ok a ↔ x = some a := by
  cases x <;> simp [fromOption]

theorem bind_ok {x : Except ε α} {f : α → Except ε β} {b : β} :
    (x >>= f) = .ok b ↔ ∃ a, x = .ok a ∧ f a = .ok b := by
  cases x with
  | error e => simp [bind, Except.bind]
  | ok a => simp [bind, Except.bind]

theorem ok_bind {a : α} {f : α → Except ε β} : (Except.ok a >>= f) = f a := rfl

theorem pure_ok {a b : α} : (pure a : Except ε α) = .ok b ↔ a = b := by
  simp [pure, Except.pure]

/-- A result found by evaluation. -/
theorem exists_ok_of_any {x : Except ε α} {P : α → Prop} [DecidablePred P]
    (h : (x.toOption.any fun a => P a) = true) : ∃ a, x = .ok a ∧ P a := by
  cases x with
  | error e => simp [Except.toOption] at h
  | ok a => exact ⟨a, rfl, by simpa [Except.toOption] using h⟩

/-- A loop whose iterations all succeed succeeds. -/
theorem foldlM_total {σ : Type} {f : σ → α → Except ε σ} {xs : List α}
    (hstep : ∀ s, ∀ x ∈ xs, ∃ s', f s x = .ok s') (s : σ) : ∃ s', xs.foldlM f s = .ok s' := by
  induction xs generalizing s with
  | nil => exact ⟨s, rfl⟩
  | cons x xs ih =>
      obtain ⟨s₁, hx⟩ := hstep s x (by simp)
      obtain ⟨s', hrest⟩ := ih (fun t y hy => hstep t y (List.mem_cons_of_mem x hy)) s₁
      exact ⟨s', by rw [List.foldlM_cons, bind_ok]; exact ⟨s₁, hx, hrest⟩⟩

/-- A loop that collects results succeeds with what its iterations give. -/
theorem mapM_ok {f : α → Except ε β} {xs : List α} {ys : List β} :
    xs.mapM f = .ok ys ↔ List.Forall₂ (fun x y => f x = .ok y) xs ys := by
  induction xs generalizing ys with
  | nil =>
      rw [List.mapM_nil, pure_ok, List.forall₂_nil_left_iff]
      exact eq_comm
  | cons x xs ih =>
      simp only [List.mapM_cons, bind_ok, pure_ok, ih, List.forall₂_cons_left_iff]
      constructor
      · rintro ⟨y, hy, rest, hrest, rfl⟩
        exact ⟨y, rest, hy, hrest, rfl⟩
      · rintro ⟨y, rest, hy, hrest, rfl⟩
        exact ⟨y, hy, rest, hrest, rfl⟩

/-- A loop that collects results succeeds when its iterations do. -/
theorem mapM_total {f : α → Except ε β} {xs : List α} (h : ∀ x ∈ xs, ∃ y, f x = .ok y) :
    ∃ ys, xs.mapM f = .ok ys := by
  induction xs with
  | nil => exact ⟨[], rfl⟩
  | cons x xs ih =>
      obtain ⟨y, hy⟩ := h x List.mem_cons_self
      obtain ⟨ys, hys⟩ := ih fun z hz => h z (List.mem_cons_of_mem x hz)
      refine ⟨y :: ys, ?_⟩
      rw [mapM_ok] at hys ⊢
      exact .cons hy hys

/-- A loop that collects results succeeds only when its iterations do. -/
theorem exists_ok_of_mem {f : α → Except ε β} {xs : List α} {ys : List β} (h : xs.mapM f = .ok ys)
    {x : α} (hx : x ∈ xs) : ∃ y, f x = .ok y := by
  rw [mapM_ok] at h
  induction h with
  | nil => cases hx
  | cons hy _ ih =>
      rcases List.mem_cons.mp hx with rfl | hx
      · exact ⟨_, hy⟩
      · exact ih hx

/-- What such a loop collects comes from its iterations. -/
theorem exists_of_mem_mapM {f : α → Except ε β} {xs : List α} {ys : List β} (h : xs.mapM f = .ok ys)
    {y : β} (hy : y ∈ ys) : ∃ x ∈ xs, f x = .ok y := by
  rw [mapM_ok] at h
  induction h with
  | nil => cases hy
  | cons hx _ ih =>
      rcases List.mem_cons.mp hy with rfl | hy
      · exact ⟨_, List.mem_cons_self, hx⟩
      · obtain ⟨x, hmem, hx⟩ := ih hy
        exact ⟨x, List.mem_cons_of_mem _ hmem, hx⟩

/-- A loop that collects results raises what its first failing iteration raises. -/
theorem mapM_error {f : α → Except ε β} {xs : List α} {e : ε} :
    xs.mapM f = .error e ↔ ∃ before x rest, xs = before ++ x :: rest ∧
      (∀ y ∈ before, ∃ z, f y = .ok z) ∧ f x = .error e := by
  induction xs with
  | nil =>
      refine iff_of_false ?_ ?_
      · simp [pure, Except.pure]
      · rintro ⟨before, x, rest, hxs, -⟩
        simp at hxs
  | cons a xs ih =>
      rw [List.mapM_cons]
      cases ha : f a with
      | error e' =>
          have hfirst : ((do
              let b ← Except.error e'
              let bs ← xs.mapM f
              pure (b :: bs)) : Except ε (List β)) = .error e' := rfl
          rw [hfirst]
          constructor
          · intro h
            obtain rfl := Except.error.inj h
            exact ⟨[], a, xs, rfl, by simp, ha⟩
          · rintro ⟨before, x, rest, hxs, hbefore, hx⟩
            cases before with
            | nil =>
                obtain ⟨rfl, -⟩ := List.cons_eq_cons.mp hxs
                rw [Except.error.inj (ha.symm.trans hx)]
            | cons b before =>
                obtain ⟨rfl, -⟩ := List.cons_eq_cons.mp hxs
                obtain ⟨z, hz⟩ := hbefore a List.mem_cons_self
                rw [ha] at hz
                cases hz
      | ok b =>
          have hrest : ((do
              let b ← Except.ok b
              let bs ← xs.mapM f
              pure (b :: bs)) : Except ε (List β)) = .error e ↔ xs.mapM f = .error e := by
            rw [ok_bind]
            cases xs.mapM f with
            | error e' => exact Iff.rfl
            | ok bs => simp [bind, Except.bind, pure, Except.pure]
          rw [hrest, ih]
          constructor
          · rintro ⟨before, x, rest, rfl, hbefore, hx⟩
            exact ⟨a :: before, x, rest, rfl, List.forall_mem_cons.mpr ⟨⟨b, ha⟩, hbefore⟩, hx⟩
          · rintro ⟨before, x, rest, hxs, hbefore, hx⟩
            cases before with
            | nil =>
                obtain ⟨rfl, -⟩ := List.cons_eq_cons.mp hxs
                rw [ha] at hx
                cases hx
            | cons c before =>
                obtain ⟨rfl, rfl⟩ := List.cons_eq_cons.mp hxs
                exact ⟨before, x, rest, rfl, fun y hy => hbefore y (List.mem_cons_of_mem _ hy), hx⟩

/-! ## Computations that agree -/

/-- Two results that agree in a part are two errors or two values that agree in it. -/
theorem cases_of_map_eq {f : α → β} {x y : Except ε α} (h : x.map f = y.map f) :
    (∃ e, x = .error e ∧ y = .error e) ∨ ∃ p p', x = .ok p ∧ y = .ok p' ∧ f p = f p' := by
  cases x with
  | error e =>
      cases y with
      | error e' => exact .inl ⟨e, rfl, by rw [Except.error.inj h]⟩
      | ok p' => cases h
  | ok p =>
      cases y with
      | error e' => cases h
      | ok p' => exact .inr ⟨p, p', rfl, rfl, Except.ok.inj h⟩

theorem bind_congr_ok {x : Except ε α} {f g : α → Except ε β}
    (h : ∀ y, x = .ok y → f y = g y) : (x >>= f) = (x >>= g) := by
  cases x with
  | error e => rfl
  | ok y => exact h y rfl

theorem map_bind_congr {γ : Type} {r : β → γ} {x : Except ε α} {f g : α → Except ε β}
    (h : ∀ y, x = .ok y → (f y).map r = (g y).map r) : (x >>= f).map r = (x >>= g).map r := by
  cases x with
  | error e => rfl
  | ok y => exact h y rfl

theorem fst_of_map {γ : Type} {r r' : Except ε (α × β)} {f : β → γ}
    (h : (r.map fun p => (p.1, f p.2)) = r'.map fun p => (p.1, f p.2)) :
    r.map Prod.fst = r'.map Prod.fst := by
  obtain ⟨e, rfl, rfl⟩ | ⟨p, p', rfl, rfl, hp⟩ := cases_of_map_eq h
  · rfl
  · exact congrArg Except.ok (Prod.ext_iff.mp hp).1

theorem require_congr {p q : Prop} [Decidable p] [Decidable q] {e : ε} (h : p ↔ q) :
    require p e = require q e := by
  unfold require
  by_cases hp : p
  · rw [if_pos hp, if_pos (h.mp hp)]
  · rw [if_neg hp, if_neg fun hq => hp (h.mpr hq)]

end Outcome
