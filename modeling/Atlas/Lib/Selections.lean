import Atlas.Lib.Rows

/-!
# Selections of a table

A selection keeps the rows that meet a predicate.  A read of selected rows is a read of the
table; a write commutes with the selection when it keeps rows inside it inside and rows outside
it outside, and shows nothing when it writes outside rows only.
-/

namespace Selections

open Rows

variable {α κ : Type*} {q p : α → Bool} {f : α → α} {rows : List α}

theorem find?_within (h : ∀ x, p x = true → q x = true) : (rows.filter q).find? p = rows.find? p := by
  rw [List.find?_filter]
  congr 1
  funext x
  cases hp : p x with
  | true => simp [h x hp]
  | false => simp

theorem filter_within (h : ∀ x, p x = true → q x = true) : (rows.filter q).filter p = rows.filter p := by
  rw [List.filter_filter]
  apply List.filter_congr
  intro x _
  cases hp : p x with
  | true => rw [h x hp, Bool.and_true]
  | false => rw [Bool.false_and]

theorem append_within (rows rows' : List α) :
    (rows.filter q ++ rows').filter q = (rows ++ rows').filter q := by
  rw [List.filter_append, List.filter_append, filter_within fun x h => h]

theorem updateWhere_within (hf : ∀ x, q (f x) = q x) :
    (updateWhere p f (rows.filter q)).filter q = (updateWhere p f rows).filter q := by
  induction rows with
  | nil => rfl
  | cons x rows ih =>
      have hx : q (if p x then f x else x) = q x := by
        split
        · exact hf x
        · rfl
      rw [updateWhere_cons]
      cases hq : q x with
      | true =>
          rw [List.filter_cons_of_pos hq, updateWhere_cons, List.filter_cons_of_pos (hx.trans hq),
            List.filter_cons_of_pos (hx.trans hq), ih]
      | false =>
          rw [List.filter_cons_of_neg (by simp [hq]), List.filter_cons_of_neg (by simp [hx, hq]), ih]

theorem updateWhere_outside (hf : ∀ x, q (f x) = q x) (hp : ∀ x, p x = true → q x = false) :
    (updateWhere p f rows).filter q = rows.filter q :=
  filter_updateWhere fun x _ h => ⟨hp x h, (hf x).trans (hp x h)⟩

theorem append_outside {new : List α} (h : ∀ x ∈ new, q x = false) :
    (rows ++ new).filter q = rows.filter q := by
  have hnone : new.filter q = [] := List.filter_eq_nil_iff.mpr (by simpa using h)
  rw [List.filter_append, hnone, List.append_nil]

variable [DecidableEq κ] {key : α → κ} {row : α}

/-- A row that is put, where the selection goes by the key. -/
theorem upsertWith_within (hkey : ∀ x, key x = key row → q x = q row) (hf : ∀ x, q (f x) = q x) :
    (upsertWith key row f (rows.filter q)).filter q = (upsertWith key row f rows).filter q := by
  unfold upsertWith
  by_cases hrow : q row = true
  · have hthere : (∃ r ∈ rows.filter q, key r = key row) ↔ ∃ r ∈ rows, key r = key row := by
      constructor
      · intro ⟨r, hr, heq⟩
        exact ⟨r, List.mem_of_mem_filter hr, heq⟩
      · intro ⟨r, hr, heq⟩
        exact ⟨r, List.mem_filter.mpr ⟨hr, (hkey r heq).trans hrow⟩, heq⟩
    by_cases h : ∃ r ∈ rows, key r = key row
    · rw [if_pos (hthere.mpr h), if_pos h, updateWhere_within hf]
    · rw [if_neg (mt hthere.mp h), if_neg h, append_within]
  · have hrow : q row = false := by simpa using hrow
    have hother : ∀ x, decide (key x = key row) = true → q x = false := by
      intro x hx
      exact (hkey x (of_decide_eq_true hx)).trans hrow
    have hnew : ∀ x ∈ [row], q x = false := by simpa using hrow
    split <;> split <;>
      simp only [updateWhere_outside hf hother, append_outside hnew, filter_within fun x h => h]

theorem upsertWith_outside (hkey : ∀ x, key x = key row → q x = false) (hf : ∀ x, q (f x) = q x) :
    (upsertWith key row f rows).filter q = rows.filter q := by
  unfold upsertWith
  split
  · exact updateWhere_outside hf fun x hx => hkey x (of_decide_eq_true hx)
  · exact append_outside (by simpa using hkey row rfl)


end Selections
