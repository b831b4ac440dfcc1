import Atlas.Lib.Histories
import Mathlib.Order.Lattice
import Mathlib.Order.Monotone.Basic
import Mathlib.Data.List.Induction
import Mathlib.Data.List.Pairwise
import Mathlib.Data.List.TakeWhile

/-!
# Sliding windows over a log of times

Times are logged in order at the end of a list.  A window opens at the cutoff of the
moment it is looked at, and a log is pruned by dropping the times in front of the cutoff.
On a log in order, pruning keeps exactly the times inside the window, and a log that was
pruned before gives the same as the whole log.

An admission is logged only while fewer than `n` times are inside the window of its
moment.  Then no window ever holds more than `n` of them.
-/

namespace Window

variable {T : Type*} [LinearOrder T]

/-- The log without the times in front of the cutoff at its head. -/
def pruned (c : T) (log : List T) : List T := log.dropWhile fun t => decide (t < c)

/-- The times of the log at or behind the cutoff. -/
def within (c : T) (log : List T) : List T := log.filter fun t => decide (c ≤ t)

variable {c d t : T} {log : List T}

theorem pruned_suffix : pruned c log <:+ log := List.dropWhile_suffix _

theorem mem_of_mem_pruned (h : t ∈ pruned c log) : t ∈ log := pruned_suffix.subset h

/-- What is pruned at a later cutoff may be pruned at an earlier one first. -/
theorem pruned_pruned (h : c ≤ d) : pruned d (pruned c log) = pruned d log := by
  induction log with
  | nil => rfl
  | cons t log ih =>
      unfold pruned at ih ⊢
      by_cases hc : t < c
      · have hd : t < d := hc.trans_le h
        rw [List.dropWhile_cons_of_pos (by simpa using hc), ih,
          List.dropWhile_cons_of_pos (by simpa using hd)]
      · rw [List.dropWhile_cons_of_neg (by simpa using hc)]

/-- A time behind the cutoff is logged on in the place of the log. -/
theorem pruned_append (h : c ≤ t) : pruned c (log ++ [t]) = pruned c log ++ [t] := by
  induction log with
  | nil =>
      unfold pruned
      rw [List.nil_append, List.dropWhile_cons_of_neg (by simpa using h)]
      rfl
  | cons x log ih =>
      unfold pruned at ih ⊢
      rw [List.cons_append]
      by_cases hx : x < c
      · rw [List.dropWhile_cons_of_pos (by simpa using hx), ih,
          List.dropWhile_cons_of_pos (by simpa using hx)]
      · rw [List.dropWhile_cons_of_neg (by simpa using hx),
          List.dropWhile_cons_of_neg (by simpa using hx)]
        rfl

/-- On a log in order, what is left is what the window holds. -/
theorem pruned_eq_within (hsorted : log.Pairwise (· ≤ ·)) : pruned c log = within c log := by
  induction log with
  | nil => rfl
  | cons x log ih =>
      obtain ⟨hx, hlog⟩ := List.pairwise_cons.mp hsorted
      unfold pruned within at ih ⊢
      by_cases hc : x < c
      · rw [List.dropWhile_cons_of_pos (by simpa using hc), ih hlog,
          List.filter_cons_of_neg (by simpa using hc)]
      · have hall : ∀ t ∈ x :: log, decide (c ≤ t) = true := by
          intro t ht
          have hxt : x ≤ t := by
            cases List.mem_cons.mp ht with
            | inl heq => exact heq.ge
            | inr hmem => exact hx t hmem
          exact decide_eq_true ((not_lt.mp hc).trans hxt)
        rw [List.dropWhile_cons_of_neg (by simpa using hc), List.filter_eq_self.mpr hall]

theorem le_of_mem_pruned (hsorted : log.Pairwise (· ≤ ·)) (h : t ∈ pruned c log) : c ≤ t := by
  rw [pruned_eq_within hsorted] at h
  simpa using (List.mem_filter.mp h).2

/-! ## Bounded admission -/

/-- Every logged time found fewer than `n` others inside its window. -/
def Admitted (cutoff : T → T) (n : Nat) (log : List T) : Prop :=
  Histories.EachAfter (fun before t => (within (cutoff t) before).length < n) log

theorem admitted_append {cutoff : T → T} {n : Nat} :
    Admitted cutoff n (log ++ [t]) ↔
      Admitted cutoff n log ∧ (within (cutoff t) log).length < n :=
  Histories.eachAfter_append

/-- The times of the log in the window that closes at `t`. -/
def windowAt (cutoff : T → T) (t : T) (log : List T) : List T :=
  log.filter fun x => decide (cutoff t ≤ x ∧ x ≤ t)

/-- A window that closes at `t` or later and opens no later than the one at `x` is part of
what `x` found. -/
theorem windowAt_sublist {cutoff : T → T} (hcutoff : Monotone cutoff) {x : T} (hx : x ≤ t) :
    (windowAt cutoff t log).Sublist (within (cutoff x) log) := by
  unfold windowAt within
  have hle : cutoff x ≤ cutoff t := hcutoff hx
  induction log with
  | nil => exact List.Sublist.slnil
  | cons y log ih =>
      rw [List.filter_cons, List.filter_cons]
      by_cases hin : cutoff t ≤ y ∧ y ≤ t
      · rw [if_pos (by simpa using hin), if_pos (by simpa using hle.trans hin.1)]
        exact ih.cons_cons y
      · rw [if_neg (by simpa using hin)]
        split
        · exact ih.cons y
        · exact ih

/-- **No window holds more than `n` admissions.** -/
theorem Admitted.length_windowAt {cutoff : T → T} (hcutoff : Monotone cutoff) {n : Nat}
    (h : Admitted cutoff n log) (t : T) : (windowAt cutoff t log).length ≤ n := by
  induction log using List.reverseRecOn with
  | nil => exact Nat.zero_le n
  | append_singleton log x ih =>
      obtain ⟨hlog, hfound⟩ := admitted_append.mp h
      have hrest := ih hlog
      have hsplit : windowAt cutoff t (log ++ [x]) = windowAt cutoff t log ++ windowAt cutoff t [x] :=
        List.filter_append ..
      rw [hsplit, List.length_append]
      by_cases hin : cutoff t ≤ x ∧ x ≤ t
      · -- what else is in the window was in the window in which `x` was admitted
        have hothers := (@windowAt_sublist _ _ _ log _ hcutoff _ hin.2).length_le
        have hone : (windowAt cutoff t [x]).length ≤ 1 := List.length_filter_le ..
        omega
      · have hnone : windowAt cutoff t [x] = [] := by
          apply List.filter_eq_nil_iff.mpr
          intro y hy
          rw [List.mem_singleton.mp hy]
          simpa using hin
        rw [hnone]
        exact hrest

end Window
