import Mathlib.Data.List.Basic
import Mathlib.Data.List.Nodup
import Mathlib.Data.List.Perm.Subperm
import Mathlib.Tactic.Tauto

/-!
# Tables as lists of rows

A table is a list of rows, read with `filter` and `find?` and changed by
appending rows or by an update of the rows that meet a predicate, the effect of
`UPDATE … WHERE …`.  A key is a function on rows; `Unique` says that no two rows
share it.
-/

namespace Rows

variable {α : Type*} {κ : Type*}

/-- `UPDATE rows SET f WHERE p`. -/
def updateWhere (p : α → Bool) (f : α → α) (rows : List α) : List α :=
  rows.map fun r => if p r then f r else r

theorem updateWhere_cons {p : α → Bool} {f : α → α} {r : α} {rows : List α} :
    updateWhere p f (r :: rows) = (if p r then f r else r) :: updateWhere p f rows := rfl

theorem mem_updateWhere {p : α → Bool} {f : α → α} {rows : List α} {r' : α} :
    r' ∈ updateWhere p f rows ↔ ∃ r ∈ rows, (if p r then f r else r) = r' := by
  simp [updateWhere]

/-- An update that no row meets does nothing. -/
theorem updateWhere_of_none {p : α → Bool} {f : α → α} {rows : List α}
    (h : ∀ r ∈ rows, p r = false) : updateWhere p f rows = rows := by
  induction rows with
  | nil => rfl
  | cons r rows ih =>
      rw [updateWhere_cons, h r List.mem_cons_self, ih fun x hx => h x (List.mem_cons_of_mem _ hx)]
      rfl

/-- An update that keeps a column leaves the column's list alone. -/
theorem map_updateWhere {p : α → Bool} {f : α → α} {rows : List α} (key : α → κ)
    (hkey : ∀ r, key (f r) = key r) :
    (updateWhere p f rows).map key = rows.map key := by
  simp only [updateWhere, List.map_map]
  apply List.map_congr_left
  intro r _
  by_cases h : p r = true <;> simp [h, hkey]

/-- An update that keeps a column of the rows it meets leaves the column's list alone. -/
theorem map_updateWhere_of_mem {p : α → Bool} {f : α → α} {rows : List α} (key : α → κ)
    (hkey : ∀ r ∈ rows, p r = true → key (f r) = key r) :
    (updateWhere p f rows).map key = rows.map key := by
  simp only [updateWhere, List.map_map]
  apply List.map_congr_left
  intro r hr
  by_cases h : p r = true
  · simp [h, hkey r hr h]
  · simp [h]

/-- An update within the rows that a selection leaves out does not change the
selection. -/
theorem filter_updateWhere {p q : α → Bool} {f : α → α} {rows : List α}
    (h : ∀ r ∈ rows, p r = true → q r = false ∧ q (f r) = false) :
    (updateWhere p f rows).filter q = rows.filter q := by
  induction rows with
  | nil => rfl
  | cons r rows ih =>
      have ih := ih fun x hx => h x (List.mem_cons_of_mem r hx)
      rw [updateWhere_cons]
      by_cases hp : p r = true
      · obtain ⟨hq, hqf⟩ := h r (by simp) hp
        rw [if_pos hp, List.filter_cons_of_neg (by simp [hqf]), List.filter_cons_of_neg (by simp [hq]),
          ih]
      · rw [if_neg hp, List.filter_cons, List.filter_cons, ih]

/-- A deletion of rows that a selection leaves out does not change the selection. -/
theorem filter_filter_of_none {p q : α → Bool} {rows : List α}
    (h : ∀ r ∈ rows, p r = false → q r = false) : (rows.filter p).filter q = rows.filter q := by
  rw [List.filter_filter]
  apply List.filter_congr
  intro r hr
  cases hp : p r with
  | true => rw [Bool.and_true]
  | false => rw [h r hr hp, Bool.false_and]

/-- A row that a selection leaves out does not change it. -/
theorem filter_append_single {q : α → Bool} {rows : List α} {r : α} (h : q r = false) :
    (rows ++ [r]).filter q = rows.filter q := by
  rw [List.filter_append, List.filter_cons_of_neg (by simp [h]), List.filter_nil, List.append_nil]

/-- The first row that meets a predicate, after an update of rows that meet it. -/
theorem find?_updateWhere {p q : α → Bool} {f : α → α} (rows : List α)
    (hp : ∀ r, p r = true → q (f r) = q r) :
    (updateWhere p f rows).find? q = (rows.find? q).map fun r => if p r then f r else r := by
  induction rows with
  | nil => rfl
  | cons r rows ih =>
      have hq : q (if p r then f r else r) = q r := by
        by_cases hpr : p r = true
        · rw [if_pos hpr, hp r hpr]
        · rw [if_neg hpr]
      rw [updateWhere_cons]
      by_cases hqr : q r = true
      · rw [List.find?_cons_of_pos (hq.trans hqr), List.find?_cons_of_pos hqr, Option.map_some]
      · rw [List.find?_cons_of_neg (by rw [hq]; exact hqr), List.find?_cons_of_neg hqr, ih]

/-- No two rows share the key. -/
def Unique (key : α → κ) (rows : List α) : Prop := (rows.map key).Nodup

theorem unique_nil (key : α → κ) : Unique key ([] : List α) := List.nodup_nil

/-- Rows of a table with a unique key are determined by it. -/
theorem Unique.eq_of_key {key : α → κ} {rows : List α} (h : Unique key rows)
    {a b : α} (ha : a ∈ rows) (hb : b ∈ rows) (hab : key a = key b) : a = b :=
  List.inj_on_of_nodup_map h ha hb hab

theorem Unique.updateWhere {key : α → κ} {rows : List α} (h : Unique key rows)
    {p : α → Bool} {f : α → α} (hkey : ∀ r, key (f r) = key r) :
    Unique key (updateWhere p f rows) := by
  unfold Unique
  rw [map_updateWhere key hkey]
  exact h

/-- Appending one row with an unused key keeps the key unique. -/
theorem Unique.append_single {key : α → κ} {rows : List α} (h : Unique key rows)
    {r : α} (hr : ∀ x ∈ rows, key x ≠ key r) : Unique key (rows ++ [r]) := by
  unfold Unique
  rw [List.map_append, List.map_singleton, List.nodup_append]
  refine ⟨h, List.nodup_singleton _, ?_⟩
  intro a ha b hb
  obtain ⟨x, hx, rfl⟩ := List.mem_map.mp ha
  rw [List.mem_singleton.mp hb]
  exact hr x hx

/-- In a list without repeats, at most one value meets a predicate exactly when any
two that meet it are one. -/
theorem length_filter_le_one_iff {xs : List α} {p : α → Bool} (hnodup : xs.Nodup) :
    (xs.filter p).length ≤ 1 ↔ ∀ a ∈ xs, ∀ b ∈ xs, p a → p b → a = b := by
  have hfilter := hnodup.filter p
  constructor
  · intro hle a ha b hb hpa hpb
    have hmema := List.mem_filter.mpr ⟨ha, hpa⟩
    have hmemb := List.mem_filter.mpr ⟨hb, hpb⟩
    match hxs : xs.filter p with
    | [] => simp [hxs] at hmema
    | [x] =>
        rw [hxs, List.mem_singleton] at hmema hmemb
        rw [hmema, hmemb]
    | x :: y :: rest => simp [hxs] at hle
  · intro hone
    match hxs : xs.filter p with
    | [] => simp
    | [x] => simp
    | x :: y :: rest =>
        have hx : x ∈ xs.filter p := by simp [hxs]
        have hy : y ∈ xs.filter p := by simp [hxs]
        obtain ⟨hx, hpx⟩ := List.mem_filter.mp hx
        obtain ⟨hy, hpy⟩ := List.mem_filter.mp hy
        rw [hxs, hone x hx y hy hpx hpy] at hfilter
        simp at hfilter

/-- A list without repeats whose members are one value is that value alone. -/
theorem eq_singleton_of_nodup {xs : List α} {a : α} (hnodup : xs.Nodup) (ha : a ∈ xs)
    (hall : ∀ x ∈ xs, x = a) : xs = [a] := by
  match xs with
  | [] => cases ha
  | [x] => rw [hall x (by simp)]
  | x :: y :: rest =>
      have hx := hall x (by simp)
      have hy := hall y (by simp)
      rw [hx, hy] at hnodup
      simp at hnodup

variable [DecidableEq κ]

/-- `SELECT … WHERE key = k`, the first row. -/
def lookup (key : α → κ) (k : κ) (rows : List α) : Option α :=
  rows.find? fun r => key r = k

theorem lookup_some {key : α → κ} {k : κ} {rows : List α} {r : α}
    (h : lookup key k rows = some r) : r ∈ rows ∧ key r = k :=
  ⟨List.mem_of_find?_eq_some h, by simpa using List.find?_some h⟩

theorem lookup_none {key : α → κ} {k : κ} {rows : List α} :
    lookup key k rows = none ↔ ∀ r ∈ rows, key r ≠ k := by
  simp [lookup, List.find?_eq_none]

/-- With a unique key, a row is found under its own key. -/
theorem Unique.lookup_eq {key : α → κ} {rows : List α} (h : Unique key rows)
    {r : α} (hr : r ∈ rows) : lookup key (key r) rows = some r := by
  cases hl : lookup key (key r) rows with
  | none => exact absurd rfl (lookup_none.mp hl r hr)
  | some x =>
      obtain ⟨hx, hk⟩ := lookup_some hl
      rw [h.eq_of_key hx hr hk]

/-- With a unique key, a row is the only one of its key. -/
theorem Unique.filter_key {key : α → κ} {rows : List α} (h : Unique key rows) {r : α}
    (hr : r ∈ rows) : (rows.filter fun x => key x = key r) = [r] := by
  have hnodup : rows.Nodup := List.Nodup.of_map key h
  refine eq_singleton_of_nodup (hnodup.filter _) (List.mem_filter.mpr ⟨hr, by simp⟩) ?_
  intro x hx
  obtain ⟨hx, hkey⟩ := List.mem_filter.mp hx
  exact h.eq_of_key hx hr (of_decide_eq_true hkey)

theorem lookup_cons {key : α → κ} {k : κ} {r : α} {rows : List α} :
    lookup key k (r :: rows) = if key r = k then some r else lookup key k rows := by
  unfold lookup
  rw [List.find?_cons]
  by_cases hr : key r = k <;> simp [hr]

/-- An update that keeps the key and a column leaves the column of a lookup
alone. -/
theorem map_lookup_updateWhere {β : Type*} {key : α → κ} {k : κ} {p : α → Bool} {f : α → α}
    (col : α → β) (hkey : ∀ r, key (f r) = key r) (hcol : ∀ r, col (f r) = col r) (rows : List α) :
    (lookup key k (updateWhere p f rows)).map col = (lookup key k rows).map col := by
  induction rows with
  | nil => rfl
  | cons r rows ih =>
      rw [updateWhere_cons, lookup_cons, lookup_cons]
      have hr : key (if p r then f r else r) = key r := by
        split
        · exact hkey r
        · rfl
      rw [hr]
      by_cases hk : key r = k
      · rw [if_pos hk, if_pos hk, Option.map_some, Option.map_some]
        split
        · rw [hcol]
        · rfl
      · rw [if_neg hk, if_neg hk, ih]

/-- An update of the rows of one key, found under that key. -/
theorem lookup_updateWhere_self {key : α → κ} {k : κ} {f : α → α} (hkey : ∀ r, key (f r) = key r)
    (rows : List α) :
    lookup key k (updateWhere (fun r => key r = k) f rows) = (lookup key k rows).map f := by
  induction rows with
  | nil => rfl
  | cons r rows ih =>
      rw [updateWhere_cons, lookup_cons, lookup_cons]
      by_cases hr : key r = k
      · simp [hr, hkey]
      · simp [hr, ih]

/-- An update of the rows of one key changes no lookup of another. -/
theorem lookup_updateWhere_ne {key : α → κ} {k j : κ} {f : α → α} (hkey : ∀ r, key (f r) = key r)
    (hk : k ≠ j) (rows : List α) :
    lookup key k (updateWhere (fun r => key r = j) f rows) = lookup key k rows := by
  induction rows with
  | nil => rfl
  | cons r rows ih =>
      rw [updateWhere_cons, lookup_cons, lookup_cons, ih]
      by_cases hr : key r = j
      · simp [hr, hkey, Ne.symm hk]
      · simp [hr]

/-- Replacing the rows of one key changes no lookup of another. -/
theorem lookup_replace_ne {key : α → κ} {k : κ} {p : α} (hk : k ≠ key p) (rows : List α) :
    lookup key k (updateWhere (fun r => key r = key p) (fun _ => p) rows) = lookup key k rows := by
  induction rows with
  | nil => rfl
  | cons r rows ih =>
      rw [updateWhere_cons, lookup_cons, lookup_cons, ih]
      by_cases hr : key r = key p
      · simp [hr, Ne.symm hk]
      · simp [hr]

/-- Replacing the rows of one key keeps the key unique. -/
theorem Unique.replace {key : α → κ} {rows : List α} (h : Unique key rows) (p : α) :
    Unique key (Rows.updateWhere (fun r => key r = key p) (fun _ => p) rows) := by
  have hmap : (Rows.updateWhere (fun r => key r = key p) (fun _ => p) rows).map key = rows.map key := by
    unfold Rows.updateWhere
    rw [List.map_map]
    apply List.map_congr_left
    intro r _
    by_cases hr : key r = key p
    · simp [hr]
    · simp [hr]
  unfold Unique
  rw [hmap]
  exact h

/-- Replacing the rows of a key that is there: the key leads to the new row. -/
theorem lookup_replace_self {key : α → κ} {p : α} {rows : List α} (h : ∃ r ∈ rows, key r = key p) :
    lookup key (key p) (updateWhere (fun r => key r = key p) (fun _ => p) rows) = some p := by
  induction rows with
  | nil => simp at h
  | cons r rows ih =>
      rw [updateWhere_cons, lookup_cons]
      by_cases hr : key r = key p
      · simp [hr]
      · obtain ⟨x, hx, hxp⟩ := h
        rcases List.mem_cons.mp hx with rfl | hx
        · exact absurd hxp hr
        · simp [hr, ih ⟨x, hx, hxp⟩]

theorem lookup_append_single {key : α → κ} {k : κ} {p : α} {rows : List α}
    (h : ∀ r ∈ rows, key r ≠ key p) :
    lookup key k (rows ++ [p]) = if k = key p then some p else lookup key k rows := by
  unfold lookup
  rw [List.find?_append]
  by_cases hk : k = key p
  · subst hk
    rw [if_pos rfl, List.find?_eq_none.mpr (by simpa using h)]
    simp
  · rw [if_neg hk]
    simp [Ne.symm hk]

/-- `INSERT … ON CONFLICT (key) DO UPDATE SET f`. -/
def upsertWith (key : α → κ) (row : α) (f : α → α) (rows : List α) : List α :=
  if ∃ r ∈ rows, key r = key row then updateWhere (fun r => key r = key row) f rows
  else rows ++ [row]

/-- A row after an upsert: a row of another key, the old row updated, or the new
row. -/
theorem mem_upsertWith {key : α → κ} {row : α} {f : α → α} {rows : List α} {r : α} :
    r ∈ upsertWith key row f rows ↔
      (r ∈ rows ∧ key r ≠ key row) ∨ (∃ old ∈ rows, key old = key row ∧ r = f old) ∨
        (r = row ∧ ∀ old ∈ rows, key old ≠ key row) := by
  unfold upsertWith
  by_cases h : ∃ r ∈ rows, key r = key row
  · rw [if_pos h, mem_updateWhere]
    obtain ⟨old, hold, heq⟩ := h
    constructor
    · rintro ⟨x, hx, rfl⟩
      by_cases hkey : key x = key row
      · rw [if_pos (by simpa using hkey)]
        exact .inr (.inl ⟨x, hx, hkey, rfl⟩)
      · rw [if_neg (by simpa using hkey)]
        exact .inl ⟨hx, hkey⟩
    · rintro (⟨hr, hkey⟩ | ⟨x, hx, hkey, rfl⟩ | ⟨-, hnone⟩)
      · exact ⟨r, hr, by simp [hkey]⟩
      · exact ⟨x, hx, by simp [hkey]⟩
      · exact absurd heq (hnone old hold)
  · rw [if_neg h, List.mem_append, List.mem_singleton]
    have hnone : ∀ old ∈ rows, key old ≠ key row := fun old hold heq => h ⟨old, hold, heq⟩
    constructor
    · rintro (hr | rfl)
      · exact .inl ⟨hr, hnone r hr⟩
      · exact .inr (.inr ⟨rfl, hnone⟩)
    · rintro (⟨hr, -⟩ | ⟨x, hx, hkey, -⟩ | ⟨rfl, -⟩)
      · exact .inl hr
      · exact absurd hkey (hnone x hx)
      · exact .inr rfl

theorem Unique.upsertWith {key : α → κ} {row : α} {f : α → α} {rows : List α}
    (h : Unique key rows) (hkey : ∀ r, key (f r) = key r) :
    Unique key (upsertWith key row f rows) := by
  unfold Rows.upsertWith
  split
  · exact h.updateWhere hkey
  · rename_i hnone
    exact h.append_single fun x hx heq => hnone ⟨x, hx, heq⟩

/-- What an upsert leaves under its key. -/
theorem lookup_upsertWith_self {key : α → κ} {row : α} {f : α → α} (hkey : ∀ r, key (f r) = key r)
    (rows : List α) :
    lookup key (key row) (upsertWith key row f rows) =
      some ((lookup key (key row) rows).elim row f) := by
  unfold upsertWith
  cases hold : lookup key (key row) rows with
  | none =>
      have hnone := lookup_none.mp hold
      rw [if_neg (by simpa using hnone), lookup_append_single hnone, if_pos rfl]
      rfl
  | some old =>
      rw [if_pos ⟨old, lookup_some hold⟩, lookup_updateWhere_self hkey, hold]
      rfl

/-- What an upsert leaves under any key. -/
theorem lookup_upsertWith {key : α → κ} {k : κ} {row : α} {f : α → α}
    (hkey : ∀ r, key (f r) = key r) (rows : List α) :
    lookup key k (upsertWith key row f rows) =
      if k = key row then some ((lookup key (key row) rows).elim row f) else lookup key k rows := by
  by_cases hk : k = key row
  · rw [if_pos hk, hk, lookup_upsertWith_self hkey]
  · rw [if_neg hk]
    unfold upsertWith
    split
    · exact lookup_updateWhere_ne hkey hk rows
    · rename_i hnone
      rw [lookup_append_single fun r hr heq => hnone ⟨r, hr, heq⟩, if_neg hk]

/-- An upsert that replaces the row: its key leads to the new row, the others where they led. -/
theorem lookup_upsert {key : α → κ} {k : κ} {row : α} (rows : List α) :
    lookup key k (upsertWith key row (fun _ => row) rows) =
      if k = key row then some row else lookup key k rows := by
  unfold upsertWith
  split
  · rename_i hthere
    split
    · rename_i hk
      rw [hk, lookup_replace_self hthere]
    · rename_i hk
      exact lookup_replace_ne hk rows
  · rename_i hnone
    exact lookup_append_single fun r hr heq => hnone ⟨r, hr, heq⟩

/-- Deleting the rows of one key changes no lookup of another. -/
theorem lookup_delete_ne {key : α → κ} {k j : κ} (hk : k ≠ j) (rows : List α) :
    lookup key k (rows.filter fun r => key r ≠ j) = lookup key k rows := by
  induction rows with
  | nil => rfl
  | cons r rows ih =>
      by_cases hr : key r = j
      · rw [List.filter_cons_of_neg (by simpa using hr), ih, lookup_cons, if_neg]
        rw [hr]
        exact hk.symm
      · rw [List.filter_cons_of_pos (by simpa using hr), lookup_cons, lookup_cons, ih]

/-! ## Distinct values in first-seen order -/

/-- Add a value unless it is there: what inserting a key into a dictionary does
to its list of keys. -/
def insertKey (keys : List κ) (k : κ) : List κ := if k ∈ keys then keys else keys ++ [k]

/-- The distinct values of a list in the order they first occur. -/
def distinct (ks : List κ) : List κ := ks.foldl insertKey []

theorem mem_insertKey {ks : List κ} {k x : κ} : x ∈ insertKey ks k ↔ x ∈ ks ∨ x = k := by
  unfold insertKey
  by_cases hk : k ∈ ks
  · rw [if_pos hk]
    grind
  · rw [if_neg hk]
    simp

theorem mem_foldl_insertKey {ks acc : List κ} {k : κ} :
    k ∈ ks.foldl insertKey acc ↔ k ∈ acc ∨ k ∈ ks := by
  induction ks generalizing acc with
  | nil => simp
  | cons x ks ih =>
      rw [List.foldl_cons, ih, mem_insertKey, List.mem_cons]
      tauto

@[simp] theorem mem_distinct {ks : List κ} {k : κ} : k ∈ distinct ks ↔ k ∈ ks := by
  simp [distinct, mem_foldl_insertKey]

theorem nodup_foldl_insertKey {ks acc : List κ} (hacc : acc.Nodup) :
    (ks.foldl insertKey acc).Nodup := by
  induction ks generalizing acc with
  | nil => exact hacc
  | cons x ks ih =>
      apply ih
      unfold insertKey
      by_cases hx : x ∈ acc
      · rw [if_pos hx]
        exact hacc
      · rw [if_neg hx]
        exact List.nodup_append.mpr ⟨hacc, List.nodup_singleton x, by
          intro a ha b hb
          rw [List.mem_singleton.mp hb]
          intro hab
          exact hx (hab ▸ ha)⟩

theorem nodup_insertKey {ks : List κ} (h : ks.Nodup) (k : κ) : (insertKey ks k).Nodup := by
  have hone : ([k].foldl insertKey ks).Nodup := nodup_foldl_insertKey h
  exact hone

theorem nodup_distinct (ks : List κ) : (distinct ks).Nodup :=
  nodup_foldl_insertKey List.nodup_nil

theorem foldl_insertKey_of_nodup {ks acc : List κ} (hks : ks.Nodup) (hacc : ∀ k ∈ ks, k ∉ acc) :
    ks.foldl insertKey acc = acc ++ ks := by
  induction ks generalizing acc with
  | nil => simp
  | cons k ks ih =>
      obtain ⟨hk, hks⟩ := List.nodup_cons.mp hks
      have hins : insertKey acc k = acc ++ [k] := if_neg (hacc k List.mem_cons_self)
      rw [List.foldl_cons, hins, ih hks, List.append_assoc, List.singleton_append]
      intro x hx hmem
      rcases List.mem_append.mp hmem with hold | hnew
      · exact hacc x (List.mem_cons_of_mem _ hx) hold
      · rw [List.mem_singleton.mp hnew] at hx
        exact hk hx

theorem distinct_of_nodup {ks : List κ} (hks : ks.Nodup) : distinct ks = ks := by
  have h := @foldl_insertKey_of_nodup κ _ ks [] hks (by simp)
  rwa [List.nil_append] at h

/-- A list holds two different values exactly when it has at least two distinct
ones. -/
theorem two_le_distinct {ks : List κ} :
    2 ≤ (distinct ks).length ↔ ∃ a ∈ ks, ∃ b ∈ ks, a ≠ b := by
  have hnodup := nodup_distinct ks
  constructor
  · intro h
    match hd : distinct ks, h with
    | a :: b :: rest, _ =>
        rw [hd] at hnodup
        have ha : a ∈ distinct ks := by rw [hd]; simp
        have hb : b ∈ distinct ks := by rw [hd]; simp
        refine ⟨a, mem_distinct.mp ha, b, mem_distinct.mp hb, ?_⟩
        intro hab
        simp [hab] at hnodup
  · intro h
    obtain ⟨a, ha, b, hb, hab⟩ := h
    have ha' := mem_distinct.mpr ha
    have hb' := mem_distinct.mpr hb
    match hd : distinct ks with
    | [] => simp [hd] at ha'
    | [x] =>
        rw [hd, List.mem_singleton] at ha' hb'
        exact absurd (ha'.trans hb'.symm) hab
    | x :: y :: rest => simp

/-! ## Inserting once -/

/-- `INSERT … ON CONFLICT (key) DO NOTHING`. -/
def insertAbsent (key : α → κ) (row : α) (rows : List α) : List α :=
  if ∃ r ∈ rows, key r = key row then rows else rows ++ [row]

theorem mem_insertAbsent {key : α → κ} {row r : α} {rows : List α}
    (h : r ∈ insertAbsent key row rows) : r ∈ rows ∨ r = row := by
  unfold insertAbsent at h
  split at h
  · exact .inl h
  · simpa using h

/-- A key after an insertion leads where it led, or to the new row. -/
theorem lookup_insertAbsent {key : α → κ} {k : κ} {row : α} (rows : List α) :
    lookup key k (insertAbsent key row rows) =
      (lookup key k rows).or (if k = key row then some row else none) := by
  unfold insertAbsent
  split
  · rename_i hthere
    cases hfound : lookup key k rows with
    | some r => rfl
    | none =>
        rw [if_neg]
        · rfl
        · rintro rfl
          obtain ⟨r, hr, heq⟩ := hthere
          exact lookup_none.mp hfound r hr heq
  · rename_i hnone
    have hnone : ∀ r ∈ rows, key r ≠ key row := fun r hr heq => hnone ⟨r, hr, heq⟩
    rw [lookup_append_single hnone]
    split
    · rename_i hk
      rw [hk, lookup_none.mpr hnone]
      rfl
    · rw [Option.or_none]

/-- The keys after an insertion. -/
theorem map_insertAbsent (key : α → κ) (row : α) (rows : List α) :
    (insertAbsent key row rows).map key = insertKey (rows.map key) (key row) := by
  unfold insertAbsent insertKey
  simp only [List.mem_map]
  split
  · rfl
  · rw [List.map_append]
    rfl

end Rows
