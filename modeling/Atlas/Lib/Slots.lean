import Mathlib.Logic.Function.Basic

/-!
# Slots and exclusive locks

Concurrent parties sit in numbered slots.  A party holds locks on resources, and
a lock discipline is that no two slots hold the lock of one resource.  The rules
below say how a property of every party, and the discipline, survive the two
things that can happen to a slot: a party leaves it, or the slot gets a party
(for the first time, or in a new state).
-/

namespace Slots

variable {T R : Type*}

/-- Every party meets `P`. -/
def All (P : T → Prop) (slots : Nat → Option T) : Prop := ∀ t x, slots t = some x → P x

/-- Nobody holds the lock of the resource. -/
def Free (holds : T → R → Prop) (slots : Nat → Option T) (r : R) : Prop :=
  All (fun x => ¬ holds x r) slots

/-- No two slots hold the lock of one resource. -/
def Exclusive (holds : T → R → Prop) (slots : Nat → Option T) : Prop :=
  ∀ ⦃t t' x x' r⦄, slots t = some x → slots t' = some x' → holds x r → holds x' r → t = t'

/-- Put a party into a slot. -/
def put (slots : Nat → Option T) (t : Nat) (x : T) : Nat → Option T := Function.update slots t (some x)

/-- Empty a slot. -/
def clear (slots : Nat → Option T) (t : Nat) : Nat → Option T := Function.update slots t none

variable {slots : Nat → Option T} {t t' : Nat} {x y : T}

@[simp] theorem put_self (slots : Nat → Option T) (t : Nat) (x : T) : put slots t x t = some x := by
  simp [put]

theorem put_some (h : put slots t x t' = some y) : t' = t ∧ y = x ∨ t' ≠ t ∧ slots t' = some y := by
  by_cases ht : t' = t
  · subst ht
    rw [put_self, Option.some.injEq] at h
    exact .inl ⟨rfl, h.symm⟩
  · rw [put, Function.update_of_ne ht] at h
    exact .inr ⟨ht, h⟩

theorem clear_some (h : clear slots t t' = some y) : t' ≠ t ∧ slots t' = some y := by
  by_cases ht : t' = t
  · subst ht
    simp [clear] at h
  · rw [clear, Function.update_of_ne ht] at h
    exact ⟨ht, h⟩

/-- An emptied slot that was just filled. -/
theorem clear_put (slots : Nat → Option T) (t : Nat) (x : T) : clear (put slots t x) t = clear slots t := by
  unfold clear put
  rw [Function.update_idem]

theorem put_put (slots : Nat → Option T) (t : Nat) (x y : T) : put (put slots t x) t y = put slots t y := by
  unfold put
  rw [Function.update_idem]

/-- Putting back what is there changes nothing. -/
theorem put_of_some (h : slots t = some x) : put slots t x = slots := by
  unfold put
  rw [← h, Function.update_eq_self]

/-- Emptying an empty slot changes nothing. -/
theorem clear_of_none (h : slots t = none) : clear slots t = slots := by
  unfold clear
  rw [← h, Function.update_eq_self]

/-! ## What survives -/

theorem all_empty (P : T → Prop) : All P fun _ => none := by
  intro t x hx
  cases hx

theorem exclusive_empty (holds : T → R → Prop) : Exclusive holds fun _ => none := by
  intro t t' x x' r hx
  cases hx

theorem All.imp {P Q : T → Prop} (h : All P slots) (hPQ : ∀ x, P x → Q x) : All Q slots :=
  fun t x hx => hPQ x (h t x hx)

theorem All.put {P : T → Prop} (h : All P slots) (hx : P x) : All P (put slots t x) := by
  intro t' y hy
  rcases put_some hy with ⟨-, rfl⟩ | ⟨-, hy⟩
  · exact hx
  · exact h t' y hy

theorem All.clear {P : T → Prop} (h : All P slots) : All P (clear slots t) :=
  fun t' y hy => h t' y (clear_some hy).2

theorem Exclusive.clear {holds : T → R → Prop} (h : Exclusive holds slots) :
    Exclusive holds (clear slots t) :=
  fun _ _ _ _ _ hx hx' => h (clear_some hx).2 (clear_some hx').2

/-- A slot gets a party that holds no lock another slot holds. -/
theorem Exclusive.put {holds : T → R → Prop} (h : Exclusive holds slots)
    (hx : ∀ r, holds x r → ∀ t' y, t' ≠ t → slots t' = some y → ¬ holds y r) :
    Exclusive holds (put slots t x) := by
  intro t₁ t₂ y₁ y₂ r h₁ h₂ hr₁ hr₂
  rcases put_some h₁ with ⟨rfl, rfl⟩ | ⟨hne₁, h₁'⟩
  · rcases put_some h₂ with ⟨rfl, -⟩ | ⟨hne₂, h₂'⟩
    · rfl
    · exact absurd hr₂ (hx r hr₁ t₂ y₂ hne₂ h₂')
  · rcases put_some h₂ with ⟨rfl, rfl⟩ | ⟨-, h₂'⟩
    · exact absurd hr₁ (hx r hr₂ t₁ y₁ hne₁ h₁')
    · exact h h₁' h₂' hr₁ hr₂

/-- A party moves on and keeps to the locks it had. -/
theorem Exclusive.advance {holds : T → R → Prop} (h : Exclusive holds slots) (ht : slots t = some x)
    (hy : ∀ r, holds y r → holds x r) : Exclusive holds (Slots.put slots t y) :=
  h.put fun r hr _ _ hne hz hzr => hne (h hz ht hzr (hy r hr))

/-- A party takes the lock of a free resource besides those it had. -/
theorem Exclusive.acquire {holds : T → R → Prop} (h : Exclusive holds slots) (ht : slots t = some x)
    {r₀ : R} (hfree : Free holds slots r₀) (hy : ∀ r, holds y r → holds x r ∨ r = r₀) :
    Exclusive holds (Slots.put slots t y) := by
  refine h.put fun r hr t' z hne hz hzr => ?_
  rcases hy r hr with hx | rfl
  · exact hne (h hz ht hzr hx)
  · exact hfree t' z hz hzr

end Slots
