import Mathlib.Data.List.Chain
import Mathlib.Data.List.Range

/-!
# Journals of state changes

A journal is a list of entries, each with a number, the state it starts from
(none for the first) and the state it ends in.  It replays when the numbers count
up from 1 and every entry starts where the one before it ended.
-/

namespace Journal

variable {E S : Type*} (seq : E → Nat) (before : E → Option S) (after : E → S)

/-- The numbers count up from 1, and each entry starts where the previous one
ended. -/
structure Replays (log : List E) : Prop where
  numbered : log.map seq = List.range' 1 log.length
  chained : log.IsChain fun a b => before b = some (after a)

variable {seq before after} {log : List E} {e : E}

theorem replays_single (hseq : seq e = 1) : Replays seq before after [e] :=
  ⟨by simp [hseq], List.isChain_singleton e⟩

theorem Replays.append (h : Replays seq before after log) (hseq : seq e = log.length + 1)
    (hstart : ∀ a, log.getLast? = some a → before e = some (after a)) :
    Replays seq before after (log ++ [e]) := by
  constructor
  · rw [List.map_append, h.numbered, List.length_append, List.length_singleton,
      List.range'_concat]
    simp [hseq, Nat.add_comm]
  · refine h.chained.append (List.isChain_singleton e) ?_
    intro a ha b hb
    simp only [List.head?_cons, Option.mem_def, Option.some.injEq] at hb
    subst hb
    exact hstart a ha

theorem foldl_max_range' (n : Nat) : (List.range' 1 n).foldl max 0 = n := by
  induction n with
  | zero => rfl
  | succ n ih =>
      rw [List.range'_concat, List.foldl_append, ih]
      simp only [List.foldl_cons, List.foldl_nil]
      omega

/-- The next free number, as the maximum plus one. -/
theorem Replays.max_succ (h : Replays seq before after log) :
    (log.map seq).foldl max 0 + 1 = log.length + 1 := by
  rw [h.numbered, foldl_max_range']

end Journal
