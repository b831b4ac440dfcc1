import Atlas.Lib.Leases
import Atlas.Lib.RowLocks

/-!
# Rows that are leased

A table whose rows carry their own lease: a counter that grows with every lease
and a mark while it is held.  When every write of a row is a step of its lease,
the log of the table is a trace of each row.
-/

namespace RowLocks

open Rows Relation

variable {R K E : Type} [DecidableEq K] {key : R → K} {Fresh : R → Prop}
  {Allowed : List E → List E → R → Write R E → Prop} {L L' : Ledger R E}

/-! ## Rules for runs of a ledger -/

/-- What new rows have, and every write hands on from the row and the entries
before it to its own row and entry, all rows and entries have. -/
theorem Ledger.rows_rule {P : R → Prop} {Q : E → Prop} (hfresh : ∀ r, Fresh r → P r)
    (hwrite : ∀ log own r w, own <:+ log → (∀ e ∈ log, Q e) → P r → Allowed log own r w →
      P w.row ∧ Q w.entry)
    (hrun : ReflTransGen (Ledger.Step key Fresh Allowed) ⟨[], []⟩ L) :
    (∀ r ∈ L.rows, P r) ∧ ∀ e ∈ L.log, Q e := by
  induction hrun with
  | refl =>
      refine ⟨?_, ?_⟩
      · intro r hr
        cases hr
      · intro e he
        cases he
  | tail _ hstep ih =>
      obtain ⟨hrows, hlog⟩ := ih
      cases hstep with
      | insert hnew _ =>
          refine ⟨?_, hlog⟩
          intro r hr
          rcases List.mem_append.mp hr with hr | hr
          · exact hrows r hr
          · rw [List.mem_singleton.mp hr]
            exact hfresh _ hnew
      | write hown hfits =>
          obtain ⟨x, hx, -, hallowed⟩ := hfits
          obtain ⟨hrow, hentry⟩ := hwrite _ _ x _ hown hlog (hrows x hx) hallowed
          refine ⟨?_, ?_⟩
          · intro r hr
            rcases Ledger.mem_apply.mp hr with ⟨_, _, _, rfl⟩ | ⟨hr, -⟩
            · exact hrow
            · exact hrows r hr
          · intro e he
            rcases List.mem_append.mp he with he | he
            · exact hlog e he
            · rw [List.mem_singleton.mp he]
              exact hentry

/-- What holds of every write when it is made, relative to the log so far, holds
of every entry of the log. -/
theorem Ledger.log_rule {P : List E → E → Prop}
    (hwrite : ∀ log own r w, own <:+ log → Allowed log own r w → P log w.entry)
    (hrun : ReflTransGen (Ledger.Step key Fresh Allowed) ⟨[], []⟩ L) :
    Histories.EachAfter P L.log := by
  induction hrun with
  | refl => exact Histories.eachAfter_nil
  | tail _ hstep ih =>
      cases hstep with
      | insert => exact ih
      | write hown hfits =>
          obtain ⟨r, -, -, hallowed⟩ := hfits
          exact Histories.eachAfter_append.mpr ⟨ih, hwrite _ _ r _ hown hallowed⟩

/-- A row that no write may change stays. -/
theorem Ledger.keeps {T : R → Prop} (hids : Unique key L.rows)
    (hterminal : ∀ log own r w, Allowed log own r w → ¬ T r)
    (hrun : ReflTransGen (Ledger.Step key Fresh Allowed) L L') {r : R} (hr : r ∈ L.rows)
    (hT : T r) : Unique key L'.rows ∧ r ∈ L'.rows := by
  induction hrun with
  | refl => exact ⟨hids, hr⟩
  | tail _ hstep ih =>
      obtain ⟨hids', hr'⟩ := ih
      cases hstep with
      | insert _ hnew => exact ⟨hids'.append_single hnew, List.mem_append_left _ hr'⟩
      | @write own w _ hfits =>
          obtain ⟨x, hx, hk, hallowed⟩ := hfits
          refine ⟨hids'.replace w.row, Ledger.mem_apply.mpr (.inr ⟨hr', ?_⟩)⟩
          intro hkr
          rw [hids'.eq_of_key hx hr' (hk.trans hkr.symm)] at hallowed
          exact hterminal _ _ _ _ hallowed hT

/-! ## Leases -/

variable (leaseOf : R → Leases.Lease) (entryOf : E → Leases.Entry K)

/-- The lease of a resource: that of its row, if it has one yet. -/
def leaseAt (key : R → K) (k : K) (rows : List R) : Leases.Lease :=
  ((lookup key k rows).map leaseOf).getD ⟨0, false⟩

/-- New rows are free, and every write is a step of the row's lease, as far as
the log of the leases tells. -/
structure Leased (key : R → K) (Fresh : R → Prop)
    (Allowed : List E → List E → R → Write R E → Prop) : Prop where
  fresh : ∀ r, Fresh r → leaseOf r = ⟨0, false⟩
  step : ∀ log own r w, own <:+ log → Leases.Traces (key r) (log.map entryOf) (leaseOf r) →
    key r = key w.row → Allowed log own r w →
    Leases.Step (key r) (leaseOf r) (entryOf w.entry) (leaseOf w.row)

variable {leaseOf entryOf}

/-- **The log is a trace of every row.** -/
theorem Leased.traces (h : Leased leaseOf entryOf key Fresh Allowed)
    (hrun : ReflTransGen (Ledger.Step key Fresh Allowed) ⟨[], []⟩ L) :
    Unique key L.rows ∧
      ∀ k, Leases.Traces k (L.log.map entryOf) (leaseAt leaseOf key k L.rows) := by
  induction hrun with
  | refl => exact ⟨unique_nil key, fun k => .start⟩
  | @tail M _ _ hstep ih =>
      obtain ⟨hids, htraces⟩ := ih
      cases hstep with
      | @insert r hfresh hnew =>
          refine ⟨hids.append_single hnew, fun k => ?_⟩
          have hsame : leaseAt leaseOf key k (M.rows ++ [r]) = leaseAt leaseOf key k M.rows := by
            unfold leaseAt
            rw [lookup_append_single hnew]
            by_cases hk : k = key r
            · subst hk
              rw [if_pos rfl, lookup_none.mpr hnew]
              exact h.fresh r hfresh
            · rw [if_neg hk]
          rw [hsame]
          exact htraces k
      | @write own w hown hfits =>
          obtain ⟨r, hr, hk, hallowed⟩ := hfits
          refine ⟨hids.replace w.row, fun k => ?_⟩
          have hold : leaseAt leaseOf key (key r) M.rows = leaseOf r := by
            unfold leaseAt
            rw [hids.lookup_eq hr]
            rfl
          have hstep := h.step _ _ _ _ hown (hold ▸ htraces (key r)) hk hallowed
          unfold Ledger.apply
          rw [List.map_append, List.map_singleton]
          by_cases hkr : k = key r
          · subst hkr
            have hnew : leaseAt leaseOf key (key r)
                (updateWhere (fun x => key x = key w.row) (fun _ => w.row) M.rows) =
                leaseOf w.row := by
              unfold leaseAt
              rw [hk, lookup_replace_self ⟨r, hr, hk⟩]
              rfl
            rw [hnew]
            refine .step (htraces (key r)) ?_
            rw [hold]
            exact hstep
          · have hsame : leaseAt leaseOf key k
                (updateWhere (fun x => key x = key w.row) (fun _ => w.row) M.rows) =
                leaseAt leaseOf key k M.rows := by
              unfold leaseAt
              rw [lookup_replace_ne (hk ▸ hkr)]
            rw [hsame]
            refine .other (htraces k) ?_
            rw [hstep.key_eq]
            exact Ne.symm hkr

omit [DecidableEq K] in
/-- A logged release stands under the latest acquisition of its row. -/
theorem latest_of_release {log before after : List E} {e : E} {k : K} {n : Nat}
    (h : Leases.Fenced k (log.map entryOf)) (hlog : log = before ++ e :: after)
    (he : entryOf e = .release k n) :
    ∃ older x newer, before = older ++ x :: newer ∧ entryOf x = .acquire k n ∧
      ∀ y ∈ newer, (entryOf y).key ≠ k := by
  have hmap : log.map entryOf = before.map entryOf ++ .release k n :: after.map entryOf := by
    rw [hlog, List.map_append, List.map_cons, he]
  obtain ⟨b, a, hba, ha⟩ := h _ _ _ hmap n rfl
  obtain ⟨older, rest, rfl, hb, hrest⟩ := List.map_eq_append_iff.mp hba
  obtain ⟨x, newer, rfl, hx, rfl⟩ := List.map_eq_cons_iff.mp hrest
  exact ⟨older, x, newer, rfl, hx, fun y hy => ha _ (List.mem_map_of_mem hy)⟩

/-- Two entries of one log that a map sends to a value it has once are equal. -/
theorem eq_of_count_map_le_one {A B : Type} [DecidableEq B] {f : A → B} {log : List A} {x y : A}
    (hx : x ∈ log) (hy : y ∈ log) (hxy : f x = f y) (hcount : (log.map f).count (f x) ≤ 1) :
    x = y := by
  by_contra hne
  obtain ⟨before, after, rfl⟩ := List.append_of_mem hx
  have hrest : f x ∈ (before ++ after).map f := by
    have hy' : y ∈ before ++ after := by
      rcases List.mem_append.mp hy with hy | hy
      · exact List.mem_append_left _ hy
      · rcases List.mem_cons.mp hy with rfl | hy
        · exact absurd rfl hne
        · exact List.mem_append_right _ hy
    rw [hxy]
    exact List.mem_map_of_mem hy'
  have hpos := List.count_pos_iff.mpr hrest
  simp only [List.map_append, List.map_cons, List.count_append, List.count_cons_self] at hcount hpos
  omega

end RowLocks
