import Atlas.Lib.Histories
import Mathlib.Data.List.Count

/-!
# Leases with fencing tokens

A resource is handed out under a token that counts up.  Its holder may release
it, and others may revoke it.  A log of these entries is a *trace* of the
resource when every entry fits the lease the log before it ends in.

In a trace a release follows the acquisition of its own token, with no other
entry of the resource in between, and no token is acquired or released twice.
-/

namespace Leases

variable {K : Type*}

inductive Entry (K : Type*) where
  | acquire (k : K) (n : Nat)
  | release (k : K) (n : Nat)
  | revoke (k : K)
deriving DecidableEq

def Entry.key : Entry K → K
  | .acquire k _ => k
  | .release k _ => k
  | .revoke k => k

/-- The token given out last, and whether its holder still has it. -/
structure Lease where
  token : Nat
  held : Bool

inductive Step (k : K) : Lease → Entry K → Lease → Prop where
  | acquire {n : Nat} : Step k ⟨n, false⟩ (.acquire k (n + 1)) ⟨n + 1, true⟩
  | release {n : Nat} : Step k ⟨n, true⟩ (.release k n) ⟨n, false⟩
  | revoke {n : Nat} : Step k ⟨n, true⟩ (.revoke k) ⟨n, false⟩

/-- The log is a trace of the resource that ends in this lease. -/
inductive Traces (k : K) : List (Entry K) → Lease → Prop where
  | start : Traces k [] ⟨0, false⟩
  | other {log : List (Entry K)} {l : Lease} {e : Entry K} (h : Traces k log l) (hne : e.key ≠ k) :
      Traces k (log ++ [e]) l
  | step {log : List (Entry K)} {l l' : Lease} {e : Entry K} (h : Traces k log l)
      (hstep : Step k l e l') : Traces k (log ++ [e]) l'

/-- The last entry of the resource is the acquisition of this token. -/
def Latest (k : K) (n : Nat) (log : List (Entry K)) : Prop :=
  ∃ before after, log = before ++ .acquire k n :: after ∧ ∀ e ∈ after, e.key ≠ k

/-- Every release stands under the latest acquisition. -/
def Fenced (k : K) (log : List (Entry K)) : Prop :=
  Histories.EachAfter (fun before e => ∀ n, e = .release k n → Latest k n before) log

variable {k : K} {log : List (Entry K)} {l : Lease} {e : Entry K}

theorem Step.key_eq {l' : Lease} (h : Step k l e l') : e.key = k := by
  cases h <;> rfl

theorem Latest.append {n : Nat} (h : Latest k n log) (hne : e.key ≠ k) :
    Latest k n (log ++ [e]) := by
  obtain ⟨before, after, rfl, hafter⟩ := h
  refine ⟨before, after ++ [e], by simp, ?_⟩
  intro x hx
  rcases List.mem_append.mp hx with hx | hx
  · exact hafter x hx
  · rw [List.mem_singleton.mp hx]
    exact hne

/-- While a lease is held, its token is the latest one acquired. -/
theorem Traces.latest (h : Traces k log l) (hheld : l.held = true) : Latest k l.token log := by
  induction h with
  | start => cases hheld
  | other _ hne ih => exact (ih hheld).append hne
  | @step log l l' e _ hstep ih =>
      cases hstep with
      | acquire => exact ⟨log, [], rfl, fun e he => by cases he⟩
      | release => cases hheld
      | revoke => cases hheld

/-- Right after an acquisition its token is held. -/
theorem Traces.after_acquire {n : Nat} (h : Traces k (log ++ [.acquire k n]) l) : l = ⟨n, true⟩ := by
  generalize hlog : log ++ [Entry.acquire k n] = full at h
  cases h with
  | start => simp at hlog
  | other _ hne =>
      obtain ⟨-, he⟩ := List.append_inj' hlog rfl
      rw [List.cons.injEq] at he
      rw [← he.1] at hne
      exact absurd rfl hne
  | step _ hstep =>
      obtain ⟨-, he⟩ := List.append_inj' hlog rfl
      rw [List.cons.injEq] at he
      rw [← he.1] at hstep
      cases hstep
      rfl

/-- **A release takes effect only under the latest acquisition.** -/
theorem Traces.fenced (h : Traces k log l) : Fenced k log := by
  induction h with
  | start => exact Histories.eachAfter_nil
  | other _ hne ih =>
      refine Histories.eachAfter_append.mpr ⟨ih, ?_⟩
      rintro n rfl
      exact absurd rfl hne
  | @step log l l' e htrace hstep ih =>
      refine Histories.eachAfter_append.mpr ⟨ih, ?_⟩
      rintro n rfl
      cases hstep with
      | release => exact htrace.latest rfl

/-! ## Tokens are used once -/

/-- A token above the current one was never acquired, and the current one not yet
released while it is held. -/
theorem Traces.unused (h : Traces k log l) :
    (∀ n, l.token < n → Entry.acquire k n ∉ log ∧ Entry.release k n ∉ log) ∧
      (l.held = true → Entry.release k l.token ∉ log) := by
  induction h with
  | start => simp
  | @other log l e _ hne ih =>
      have hacquire : ∀ n, Entry.acquire k n ≠ e := by
        rintro n rfl
        exact hne rfl
      have hrelease : ∀ n, Entry.release k n ≠ e := by
        rintro n rfl
        exact hne rfl
      obtain ⟨habove, hcurrent⟩ := ih
      simp only [List.mem_append, List.mem_singleton, hacquire, hrelease, or_false]
      exact ⟨habove, hcurrent⟩
  | @step log l l' e _ hstep ih =>
      obtain ⟨habove, hcurrent⟩ := ih
      cases hstep with
      | @acquire m =>
          refine ⟨?_, ?_⟩
          · intro n hn
            obtain ⟨ha, hr⟩ := habove n (by simp only at hn ⊢; omega)
            simp only at hn
            simp only [List.mem_append, List.mem_singleton, Entry.acquire.injEq, reduceCtorEq, or_false,
              not_or]
            exact ⟨⟨ha, by omega⟩, hr⟩
          · intro _
            simp only [List.mem_append, List.mem_singleton, reduceCtorEq, or_false]
            exact (habove (m + 1) (Nat.lt_succ_self m)).2
      | @release m =>
          refine ⟨?_, fun hheld => by cases hheld⟩
          intro n hn
          obtain ⟨ha, hr⟩ := habove n hn
          simp only at hn
          simp only [List.mem_append, List.mem_singleton, Entry.release.injEq, reduceCtorEq, or_false,
            not_or]
          exact ⟨ha, hr, by omega⟩
      | revoke =>
          refine ⟨?_, fun hheld => by cases hheld⟩
          intro n hn
          obtain ⟨ha, hr⟩ := habove n hn
          simp only [List.mem_append, List.mem_singleton, reduceCtorEq, or_false]
          exact ⟨ha, hr⟩

variable [DecidableEq K]

/-- An entry that is new whenever it fits is in the log at most once. -/
theorem Traces.once {x : Entry K} (h : Traces k log l) (hkey : x.key = k)
    (hnew : ∀ log l l', Traces k log l → Step k l x l' → x ∉ log) : log.count x ≤ 1 := by
  induction h with
  | start => simp
  | @other log l e _ hne ih =>
      have hx : e ≠ x := by
        rintro rfl
        exact hne hkey
      rw [List.count_append, List.count_singleton, if_neg (by simpa using hx)]
      omega
  | @step log l l' e htrace hstep ih =>
      rw [List.count_append, List.count_singleton]
      split
      · rename_i heq
        simp only [beq_iff_eq] at heq
        subst heq
        have hzero := List.count_eq_zero_of_not_mem (hnew log l l' htrace hstep)
        omega
      · omega

/-- **No token is acquired twice.** -/
theorem Traces.acquire_once (h : Traces k log l) (n : Nat) : log.count (.acquire k n) ≤ 1 := by
  refine h.once rfl ?_
  intro log l l' htrace hstep
  cases hstep with
  | @acquire m => exact (htrace.unused.1 (m + 1) (Nat.lt_succ_self m)).1

/-- **No token is released twice.** -/
theorem Traces.release_once (h : Traces k log l) (n : Nat) : log.count (.release k n) ≤ 1 := by
  refine h.once rfl ?_
  intro log l l' htrace hstep
  cases hstep with
  | release => exact htrace.unused.2 rfl

end Leases
