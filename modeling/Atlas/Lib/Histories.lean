import Mathlib.Data.List.Basic

/-!
# Histories

A list read as a history, oldest entry first: what holds of every entry relative
to the entries before it.
-/

namespace Histories

variable {A : Type*} {P : List A → A → Prop} {l : List A} {x : A}

/-- Every entry stands in the relation to the entries before it. -/
def EachAfter (P : List A → A → Prop) (l : List A) : Prop :=
  ∀ before x after, l = before ++ x :: after → P before x

theorem eachAfter_nil : EachAfter P [] := by
  intro before x after h
  simp at h

/-- The newest entry splits off. -/
theorem eachAfter_append : EachAfter P (l ++ [x]) ↔ EachAfter P l ∧ P l x := by
  constructor
  · intro h
    refine ⟨?_, h l x [] rfl⟩
    intro before y after hl
    exact h before y (after ++ [x]) (by rw [hl, List.append_assoc, List.cons_append])
  · rintro ⟨hl, hx⟩ before y after h
    rcases List.eq_nil_or_concat after with rfl | ⟨after', z, rfl⟩
    · obtain ⟨rfl, hlast⟩ := List.append_inj' h rfl
      rw [List.cons.injEq] at hlast
      rw [← hlast.1]
      exact hx
    · rw [List.concat_eq_append, ← List.cons_append, ← List.append_assoc] at h
      obtain ⟨rfl, -⟩ := List.append_inj' h rfl
      exact hl before y after' rfl

theorem eachAfter_iff : EachAfter P l ↔ ∀ i : Fin l.length, P (l.take i) (l.get i) := by
  constructor
  · intro h i
    refine h (l.take i) (l.get i) (l.drop (i + 1)) ?_
    rw [List.get_eq_getElem, List.getElem_cons_drop, List.take_append_drop]
  · rintro h before x after rfl
    have hlt : before.length < (before ++ x :: after).length := by simp
    have hx := h ⟨before.length, hlt⟩
    simp only [List.take_left, List.get_eq_getElem, List.getElem_append_right (Nat.le_refl _),
      Nat.sub_self, List.getElem_cons_zero] at hx
    exact hx

instance [∀ before x, Decidable (P before x)] : Decidable (EachAfter P l) :=
  decidable_of_iff _ eachAfter_iff.symm

theorem EachAfter.congr {Q : List A → A → Prop} (h : ∀ before, ∀ x ∈ l, P before x ↔ Q before x) :
    EachAfter P l ↔ EachAfter Q l := by
  have hmem : ∀ before x after, l = before ++ x :: after → x ∈ l := by
    rintro before x after rfl
    exact List.mem_append_right _ List.mem_cons_self
  constructor
  · intro hP before x after hl
    exact (h before x (hmem before x after hl)).mp (hP before x after hl)
  · intro hQ before x after hl
    exact (h before x (hmem before x after hl)).mpr (hQ before x after hl)

end Histories
