import Mathlib.Data.List.Sort
import Mathlib.Data.Prod.Lex

/-!
# Keyset pagination

Rows are listed in descending order of a key and handed out in batches.  A batch
is fetched with one row more than its limit, so that a row left over tells that
there is more; its last row is then the cursor, and the next batch begins with
the rows whose key is below the cursor's.  When no two rows share a key, the
batches are consecutive pieces of the listing.
-/

namespace Keyset

variable {α κ : Type*} [LinearOrder κ] (key : α → κ)

/-- `ORDER BY key DESC`. -/
def listing (rows : List α) : List α := rows.insertionSort fun a b => key b ≤ key a

/-- `WHERE key < k`. -/
def below (k : κ) (rows : List α) : List α := rows.filter fun r => key r < k

/-- `LIMIT limit + 1`, trimmed: the batch and its last row if rows are left. -/
def batch (limit : Nat) (rows : List α) : List α × Option α :=
  if limit < rows.length then (rows.take limit, (rows.take limit).getLast?) else (rows, none)

/-- Strictly descending keys. -/
def Descending (rows : List α) : Prop := rows.Pairwise fun a b => key b < key a

variable {key}

theorem mem_listing {rows : List α} {r : α} : r ∈ listing key rows ↔ r ∈ rows :=
  List.mem_insertionSort _

theorem perm_listing (rows : List α) : (listing key rows).Perm rows := List.perm_insertionSort _ _

/-- A listing of rows with different keys strictly descends. -/
theorem descending_listing {rows : List α} (h : (rows.map key).Nodup) :
    Descending key (listing key rows) := by
  have hnodup : ((listing key rows).map key).Nodup :=
    ((perm_listing rows).map key).nodup_iff.mpr h
  have hdistinct : (listing key rows).Pairwise fun a b => key a ≠ key b := List.pairwise_map.mp hnodup
  have : Std.Total fun a b : α => key b ≤ key a := ⟨fun a b => le_total (key b) (key a)⟩
  have : IsTrans α fun a b : α => key b ≤ key a := ⟨fun a b c hab hbc => le_trans hbc hab⟩
  have hsorted : (listing key rows).Pairwise fun a b => key b ≤ key a :=
    List.pairwise_insertionSort (fun a b : α => key b ≤ key a) rows
  refine (hsorted.and hdistinct).imp ?_
  rintro a b ⟨hle, hne⟩
  exact lt_of_le_of_ne hle (Ne.symm hne)

/-- The rows below a row of a descending list are those behind it. -/
theorem below_eq {pre post : List α} {c : α} (h : Descending key (pre ++ c :: post)) :
    below key (key c) (pre ++ c :: post) = post := by
  have hparts := List.pairwise_append.mp h
  have hpost := List.pairwise_cons.mp hparts.2.1
  have hpre : below key (key c) pre = [] := by
    rw [below, List.filter_eq_nil_iff]
    intro r hr
    have hlt := hparts.2.2 r hr c (by simp)
    simpa using hlt.le
  have hafter : below key (key c) post = post := by
    rw [below, List.filter_eq_self]
    intro r hr
    simpa using hpost.1 r hr
  have hsplit : below key (key c) (pre ++ c :: post) =
      below key (key c) pre ++ below key (key c) (c :: post) := List.filter_append _ _
  have hself : below key (key c) (c :: post) = below key (key c) post := by
    simp [below]
  rw [hsplit, hself, hpre, hafter, List.nil_append]

/-- A batch is everything, or a first piece with its last row as the cursor. -/
theorem batch_cases {limit : Nat} (hlimit : 0 < limit) (rows : List α) :
    batch limit rows = (rows, none) ∨
    ∃ pre c post, rows = pre ++ c :: post ∧ batch limit rows = (pre ++ [c], some c) := by
  unfold batch
  split
  · rename_i hmore
    obtain ⟨pre, c, hpre⟩ : ∃ pre c, rows.take limit = pre ++ [c] := by
      have hne : rows.take limit ≠ [] := by
        intro hnil
        have hlength := congrArg List.length hnil
        simp only [List.length_take, List.length_nil] at hlength
        omega
      exact ⟨_, _, (List.dropLast_concat_getLast hne).symm⟩
    refine .inr ⟨pre, c, rows.drop limit, ?_, ?_⟩
    · have hsplit := List.take_append_drop limit rows
      rw [hpre] at hsplit
      simpa using hsplit.symm
    · rw [hpre]
      simp
  · exact .inl rfl

/-! ## The first rows of a listing -/

/-- The rows of a listing with different keys do not depend on the order of the table. -/
theorem listing_congr {rows rows' : List α} (h : (rows.map key).Nodup) (hperm : rows.Perm rows') :
    listing key rows = listing key rows' := by
  have h' : (rows'.map key).Nodup := (hperm.map key).nodup_iff.mp h
  refine List.Perm.eq_of_pairwise ?_ (descending_listing h) (descending_listing h')
    ((perm_listing rows).trans (hperm.trans (perm_listing rows').symm))
  intro a b _ _ hab hba
  exact absurd hab hba.asymm

/-- A row is among the first `limit` of a descending list exactly when it is there and fewer than
`limit` rows stand before it. -/
theorem mem_take_of_descending {rows : List α} (h : Descending key rows) {limit : Nat} {r : α} :
    r ∈ rows.take limit ↔ r ∈ rows ∧ (rows.countP fun x => key r < key x) < limit := by
  induction rows generalizing limit with
  | nil => simp
  | cons c rows ih =>
      obtain ⟨hc, hrows⟩ := List.pairwise_cons.mp h
      cases limit with
      | zero => simp
      | succ limit =>
          rw [List.take_succ_cons, List.mem_cons, List.mem_cons, ih hrows, List.countP_cons]
          constructor
          · rintro (rfl | ⟨hr, hlt⟩)
            · refine ⟨.inl rfl, ?_⟩
              have hnone : (rows.countP fun x => key r < key x) = 0 := by
                rw [List.countP_eq_zero]
                intro x hx
                simpa using (hc x hx).le
              simp [hnone]
            · refine ⟨.inr hr, ?_⟩
              split <;> omega
          · rintro ⟨rfl | hr, hlt⟩
            · exact .inl rfl
            · rw [if_pos (by simpa using hc r hr)] at hlt
              exact .inr ⟨hr, by omega⟩

/-- **The first rows** of a listing with different keys. -/
theorem mem_take_listing {rows : List α} (h : (rows.map key).Nodup) {limit : Nat} {r : α} :
    r ∈ (listing key rows).take limit ↔
      r ∈ rows ∧ (rows.countP fun x => key r < key x) < limit := by
  rw [mem_take_of_descending (descending_listing h), mem_listing, (perm_listing rows).countP_eq]

end Keyset
