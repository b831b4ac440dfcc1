import Mathlib.Data.List.Forall2
import Mathlib.Data.Set.Function
import Atlas.Lib.Rows

/-!
# Keyed tables and what their rows are about

The rows of a table stand for subjects, one row for each, and a row is upserted
under a key of its subject.  If the key tells subjects apart, the upserts of a list
of subjects leave one row for each subject there is.

Readers may count rows by a coarser class of their subjects.  A table with one row
for each class keeps it under the upserts of new subjects exactly when no new
subject falls into a class that has a row.
-/

namespace Subjects

open Rows

variable {α σ κ γ : Type*}

/-- As many rows as subjects meet a predicate that a row and its subject share. -/
theorem length_filter_eq {R : α → σ → Prop} {p : α → Bool} {q : σ → Bool} {rows : List α}
    {subs : List σ} (h : List.Forall₂ R rows subs) (hpq : ∀ a x, R a x → x ∈ subs → p a = q x) :
    (rows.filter p).length = (subs.filter q).length := by
  induction h with
  | nil => rfl
  | @cons a x rows subs hax hrest ih =>
      have ih := ih fun b y hby hy => hpq b y hby (List.mem_cons_of_mem _ hy)
      rw [List.filter_cons, List.filter_cons, hpq a x hax List.mem_cons_self]
      split
      · rw [List.length_cons, List.length_cons, ih]
      · exact ih

theorem exists_subject {R : α → σ → Prop} {rows : List α} {subs : List σ}
    (h : List.Forall₂ R rows subs) {a : α} (ha : a ∈ rows) : ∃ x ∈ subs, R a x := by
  induction h with
  | nil => cases ha
  | @cons b y rows subs hby hrest ih =>
      rcases List.mem_cons.mp ha with rfl | ha
      · exact ⟨y, List.mem_cons_self, hby⟩
      · obtain ⟨x, hx, hax⟩ := ih ha
        exact ⟨x, List.mem_cons_of_mem _ hx, hax⟩

section Keys

variable {R : α → σ → Prop} {key : α → κ} {keyOf : σ → κ} {rows : List α} {subs : List σ}

/-- A key is in use exactly when its subject is there. -/
theorem exists_key_iff (hkey : ∀ a x, R a x → key a = keyOf x) (hinj : Function.Injective keyOf)
    (h : List.Forall₂ R rows subs) {x : σ} : (∃ a ∈ rows, key a = keyOf x) ↔ x ∈ subs := by
  induction h with
  | nil => simp
  | @cons a y rows subs hay hrest ih =>
      rw [List.exists_mem_cons_iff, List.mem_cons, ih, hkey a y hay, hinj.eq_iff, eq_comm]

variable [DecidableEq κ] [DecidableEq σ]

/-- An upsert under the key of a subject adds a row for it, or refreshes the one
there is. -/
theorem forall₂_upsertWith {R' : α → σ → Prop} (hkey : ∀ a x, R a x → key a = keyOf x)
    (hinj : Function.Injective keyOf) (h : List.Forall₂ R rows subs) {row : α} {f : α → α} {x : σ}
    (hrow : key row = keyOf x) (hold : ∀ a y, R a y → y ≠ x → R' a y)
    (hsame : ∀ a, R a x → R' (f a) x) (hnew : x ∉ subs → R' row x) :
    List.Forall₂ R' (upsertWith key row f rows) (insertKey subs x) := by
  have hthere : (∃ r ∈ rows, key r = key row) ↔ x ∈ subs := by
    rw [hrow]
    exact exists_key_iff hkey hinj h
  unfold upsertWith insertKey
  by_cases hx : x ∈ subs
  · rw [if_pos (hthere.mpr hx), if_pos hx]
    unfold updateWhere
    rw [List.forall₂_map_left_iff]
    refine h.imp ?_
    intro a y hay
    by_cases hyx : y = x
    · subst hyx
      rw [if_pos (by simp [hkey a y hay, hrow])]
      exact hsame a hay
    · rw [if_neg]
      · exact hold a y hay hyx
      · simp only [hkey a y hay, hrow, decide_eq_true_eq]
        exact fun heq => hyx (hinj heq)
  · rw [if_neg (mt hthere.mp hx), if_neg hx]
    refine List.rel_append ?_ (.cons (hnew hx) .nil)
    clear hthere hnew
    induction h with
    | nil => exact .nil
    | @cons a y rows subs hay hrest ih =>
        simp only [List.mem_cons, not_or] at hx
        exact .cons (hold a y hay (Ne.symm hx.1)) (ih hx.2)

end Keys

/-- **One row for each class.**  Subjects that are not there are added to a list with
one subject for each class, and the new ones differ in class. -/
theorem injOn_foldl_insertKey [DecidableEq σ] {cls : σ → γ} {subs news : List σ} (hsubs : Set.InjOn cls {x | x ∈ subs})
    (hnews : Set.InjOn cls {x | x ∈ news}) (hfresh : ∀ x ∈ news, x ∉ subs) :
    Set.InjOn cls {x | x ∈ news.foldl insertKey subs} ↔
      ∀ x ∈ news, ∀ y ∈ subs, cls y ≠ cls x := by
  have hset : {x | x ∈ news.foldl insertKey subs} = {x | x ∈ subs} ∪ {x | x ∈ news} := by
    ext x
    exact mem_foldl_insertKey
  have hdisjoint : Disjoint {x | x ∈ subs} {x | x ∈ news} := by
    rw [Set.disjoint_right]
    exact hfresh
  rw [hset, Set.injOn_union hdisjoint]
  constructor
  · rintro ⟨-, -, hne⟩ x hx y hy
    exact hne y hy x hx
  · intro hne
    exact ⟨hsubs, hnews, fun y hy x hx => hne x hx y hy⟩

end Subjects
