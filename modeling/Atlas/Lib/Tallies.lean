import Atlas.Lib.Rows
import Mathlib.Algebra.Ring.Nat

/-!
# Tables of counts

Events fall into cells, and a table keeps one row for each of some cells with the
number of the cell's events.  Posting a list of cells upserts the row of each.  The
counts of the rows of a part of the table add up to the number of the events whose
cell has a row there, so a part misses an event exactly when the event's cell has
no row.
-/

namespace Tallies

open Rows

variable {E K R : Type*} [DecidableEq K]

/-- The number of events of a cell. -/
def tally (cell : E → K) (events : List E) (k : K) : Nat := events.countP fun e => cell e = k

theorem tally_add_countP {cell : E → K} {k : K} {ks : List K} (hk : k ∉ ks) (events : List E) :
    tally cell events k + events.countP (fun e => cell e ∈ ks) =
      events.countP fun e => cell e ∈ k :: ks := by
  unfold tally
  induction events with
  | nil => rfl
  | cons e events ih =>
      simp only [List.countP_cons, List.mem_cons, decide_eq_true_eq] at ih ⊢
      by_cases heq : cell e = k
      · simp [heq, hk] at ih ⊢
        omega
      · simp [heq] at ih ⊢
        omega

/-- Events of different cells are counted once each. -/
theorem sum_tally {cell : E → K} {events : List E} {ks : List K} (hks : ks.Nodup) :
    (ks.map (tally cell events)).sum = events.countP fun e => cell e ∈ ks := by
  induction ks with
  | nil => simp
  | cons k ks ih =>
      obtain ⟨hk, hks⟩ := List.nodup_cons.mp hks
      rw [List.map_cons, List.sum_cons, ih hks, tally_add_countP hk]

variable {key : R → K} {count : R → Nat} {cell : E → K} {events : List E}

/-- The counts of a part of a table whose rows hold the tallies of their cells. -/
theorem sum_count {rows : List R} (hunique : Unique key rows)
    (hcount : ∀ r ∈ rows, count r = tally cell events (key r)) :
    (rows.map count).sum = events.countP fun e => cell e ∈ rows.map key := by
  rw [← sum_tally hunique, List.map_map]
  congr 1
  apply List.map_congr_left
  intro r hr
  exact hcount r hr

/-- What posting the tallies of the cells `ks` does to a table. -/
structure Posted (cell : E → K) (events : List E) (key : R → K) (count : R → Nat) (ks : List K)
    (rows rows' : List R) : Prop where
  unique : Unique key rows → Unique key rows'
  others : ∀ r, key r ∉ ks → (r ∈ rows' ↔ r ∈ rows)
  counted : ∀ r ∈ rows', key r ∈ ks → count r = tally cell events (key r)
  present : ∀ k ∈ ks, ∃ r ∈ rows', key r = k

theorem Posted.nil (rows : List R) : Posted cell events key count [] rows rows :=
  ⟨fun h => h, fun _ _ => Iff.rfl, fun _ _ h => absurd h (by simp), fun _ h => absurd h (by simp)⟩

/-- Posting one list of cells, then another. -/
theorem Posted.append {ks ks' : List K} {rows rows₁ rows' : List R}
    (h : Posted cell events key count ks rows rows₁)
    (h' : Posted cell events key count ks' rows₁ rows') :
    Posted cell events key count (ks ++ ks') rows rows' := by
  refine ⟨fun hu => h'.unique (h.unique hu), ?_, ?_, ?_⟩
  · intro r hr
    rw [List.mem_append, not_or] at hr
    rw [h'.others r hr.2, h.others r hr.1]
  · intro r hr hks
    by_cases hlast : key r ∈ ks'
    · exact h'.counted r hr hlast
    · have hfirst := (List.mem_append.mp hks).resolve_right hlast
      exact h.counted r ((h'.others r hlast).mp hr) hfirst
  · intro k hk
    by_cases hlast : k ∈ ks'
    · exact h'.present k hlast
    · obtain ⟨r, hr, rfl⟩ := h.present k ((List.mem_append.mp hk).resolve_right hlast)
      exact ⟨r, (h'.others r hlast).mpr hr, rfl⟩

/-- Posting one cell by an upsert. -/
theorem Posted.upsert {row : R} {f : R → R} (hkey : ∀ r, key (f r) = key r)
    (hrow : count row = tally cell events (key row)) (hf : ∀ r, count (f r) = count row)
    (rows : List R) :
    Posted cell events key count [key row] rows (upsertWith key row f rows) := by
  refine ⟨fun h => h.upsertWith hkey, ?_, ?_, ?_⟩
  · intro r hr
    have hr : key r ≠ key row := by simpa using hr
    rw [mem_upsertWith]
    constructor
    · rintro (⟨hmem, -⟩ | ⟨old, -, hold, rfl⟩ | ⟨rfl, -⟩)
      · exact hmem
      · exact absurd ((hkey old).trans hold) hr
      · exact absurd rfl hr
    · intro hmem
      exact .inl ⟨hmem, hr⟩
  · intro r hmem hr
    have hr : key r = key row := by simpa using hr
    rw [hr]
    rcases mem_upsertWith.mp hmem with ⟨-, hne⟩ | ⟨old, -, -, rfl⟩ | ⟨rfl, -⟩
    · exact absurd hr hne
    · rw [hf, hrow]
    · exact hrow
  · intro k hk
    rw [List.mem_singleton.mp hk]
    by_cases h : ∃ old ∈ rows, key old = key row
    · obtain ⟨old, hold, heq⟩ := h
      exact ⟨f old, mem_upsertWith.mpr (.inr (.inl ⟨old, hold, heq, rfl⟩)), (hkey old).trans heq⟩
    · refine ⟨row, mem_upsertWith.mpr (.inr (.inr ⟨rfl, ?_⟩)), rfl⟩
      intro old hold heq
      exact h ⟨old, hold, heq⟩

/-- Posting in a loop. -/
theorem Posted.foldl {α : Type*} {step : List R → α → List R} {cells : α → List K}
    (hstep : ∀ rows a, Posted cell events key count (cells a) rows (step rows a)) (xs : List α)
    (rows : List R) :
    Posted cell events key count (xs.flatMap cells) rows (xs.foldl step rows) := by
  induction xs generalizing rows with
  | nil => exact .nil rows
  | cons a xs ih =>
      rw [List.flatMap_cons, List.foldl_cons]
      exact (hstep rows a).append (ih (step rows a))

/-- A posted cell is found with its tally. -/
theorem Posted.lookup_of_mem {ks : List K} {rows rows' : List R}
    (h : Posted cell events key count ks rows rows') {k : K} (hk : k ∈ ks) :
    (lookup key k rows').map count = some (tally cell events k) := by
  obtain ⟨r, hr, hkey⟩ := h.present k hk
  cases hl : lookup key k rows' with
  | none => exact absurd hkey (lookup_none.mp hl r hr)
  | some x =>
      obtain ⟨hx, rfl⟩ := lookup_some hl
      rw [Option.map_some, h.counted x hx hk]

/-- Another cell is found as before. -/
theorem Posted.lookup_of_not_mem {ks : List K} {rows rows' : List R}
    (h : Posted cell events key count ks rows rows') (hunique : Unique key rows) {k : K}
    (hk : k ∉ ks) : lookup key k rows' = lookup key k rows := by
  cases hl : lookup key k rows with
  | none =>
      rw [lookup_none]
      intro r hr hkey
      exact lookup_none.mp hl r ((h.others r (hkey ▸ hk)).mp hr) hkey
  | some r =>
      obtain ⟨hr, rfl⟩ := lookup_some hl
      exact (h.unique hunique).lookup_eq ((h.others r hk).mpr hr)

/-- The table of a part counts every event of a wider condition only if no event is
left out. -/
theorem of_countP_eq {p q : E → Bool} (hpq : ∀ e, p e = true → q e = true)
    (h : events.countP p = events.countP q) : ∀ e ∈ events, q e = true → p e = true := by
  induction events with
  | nil => simp
  | cons x events ih =>
      have hle : events.countP p ≤ events.countP q :=
        List.countP_mono_left fun e _ he => hpq e he
      rw [List.countP_cons, List.countP_cons] at h
      intro e he hq
      by_cases hqx : q x = true
      · by_cases hpx : p x = true
        · rw [if_pos hpx, if_pos hqx] at h
          rcases List.mem_cons.mp he with rfl | he
          · exact hpx
          · exact ih (by omega) e he hq
        · rw [if_neg hpx, if_pos hqx] at h
          omega
      · have hpx : ¬ p x = true := fun hp => hqx (hpq x hp)
        rw [if_neg hpx, if_neg hqx] at h
        rcases List.mem_cons.mp he with rfl | he
        · exact absurd hq hqx
        · exact ih (by omega) e he hq

end Tallies
