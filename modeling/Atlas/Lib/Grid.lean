import Atlas.Lib.Tallies
import Mathlib.Algebra.Order.BigOperators.Group.List
import Mathlib.Data.List.Sort
import Mathlib.Data.List.TakeWhile
import Mathlib.Data.Rat.Floor

/-!
# Points in cells

A query groups points by their cell, and lists the fullest groups.  The sizes of the groups add up
to the number of the points.  The order of groups of one size is left open: a group can be among
the first `n` exactly when fewer than `n` groups are larger.

A line that is divided from an origin into cells of one width has its points in cells that are
closed to the left and open to the right.  So of a span that is divided into `p` cells all points
but its end are in the first `p`, and the mean of the points of a cell is in the cell.  On a circle
a point that is moved back by less than a turn leaves its cell, unless it has the room.
-/

namespace Grid

open Rows Tallies

/-! ## Groups -/

section Groups

variable {E K : Type*} [DecidableEq K] {cell : E → K} {events : List E}

/-- The events, grouped by their cell. -/
def groups (cell : E → K) (events : List E) : List (K × List E) :=
  (distinct (events.map cell)).map fun k => (k, events.filter fun e => cell e = k)

theorem mem_groups {g : K × List E} :
    g ∈ groups cell events ↔
      ∃ e ∈ events, g = (cell e, events.filter fun x => cell x = cell e) := by
  simp only [groups, List.mem_map, mem_distinct]
  constructor
  · rintro ⟨k, ⟨e, he, rfl⟩, rfl⟩
    exact ⟨e, he, rfl⟩
  · rintro ⟨e, he, rfl⟩
    exact ⟨cell e, ⟨e, he, rfl⟩, rfl⟩

/-- The members of a group are the events of its cell. -/
theorem mem_group {g : K × List E} (hg : g ∈ groups cell events) {e : E} :
    e ∈ g.2 ↔ e ∈ events ∧ cell e = g.1 := by
  obtain ⟨x, -, rfl⟩ := mem_groups.mp hg
  simp

theorem group_ne_nil {g : K × List E} (hg : g ∈ groups cell events) : g.2 ≠ [] := by
  obtain ⟨e, he, rfl⟩ := mem_groups.mp hg
  exact List.ne_nil_of_mem (List.mem_filter.mpr ⟨he, by simp⟩)

theorem groups_eq_nil : groups cell events = [] ↔ events = [] := by
  rw [List.eq_nil_iff_forall_not_mem]
  simp only [mem_groups, not_exists, not_and]
  constructor
  · intro h
    rw [List.eq_nil_iff_forall_not_mem]
    exact fun e he => h _ e he rfl
  · rintro rfl g e he
    exact absurd he List.not_mem_nil

/-- **The sizes of the groups add up to the number of events.** -/
theorem sum_length_groups :
    ((groups cell events).map fun g => g.2.length).sum = events.length := by
  have hsizes : (groups cell events).map (fun g => g.2.length) =
      (distinct (events.map cell)).map (tally cell events) := by
    unfold groups tally
    rw [List.map_map]
    apply List.map_congr_left
    intro k _
    exact List.countP_eq_length_filter.symm
  rw [hsizes, sum_tally (nodup_distinct _), List.countP_eq_length]
  intro e he
  simp only [decide_eq_true_eq]
  exact mem_distinct.mpr (List.mem_map_of_mem he)

end Groups

/-! ## The first of a descending order -/

section Descending

variable {α : Type*} {weight : α → Nat} {x : α} {xs : List α} {n : Nat}

/-- An order by descending weight. -/
structure Descending (weight : α → Nat) where
  sort : List α → List α
  perm : ∀ xs, (sort xs).Perm xs
  sorted : ∀ xs, (sort xs).Pairwise fun a b => weight b ≤ weight a

/-- The entries of more weight. -/
def heavier (weight : α → Nat) (xs : List α) (x : α) : List α :=
  xs.filter fun y => weight x < weight y

/-- What is among the first `n` has fewer than `n` entries of more weight. -/
theorem Descending.length_heavier (d : Descending weight) (h : x ∈ (d.sort xs).take n) :
    (heavier weight xs x).length < n := by
  obtain ⟨front, back, hsplit⟩ := List.append_of_mem h
  have hlength : front.length + 1 ≤ n := by
    have := congrArg List.length hsplit
    simp only [List.length_take, List.length_append, List.length_cons] at this
    omega
  have hsort : d.sort xs = front ++ x :: (back ++ (d.sort xs).drop n) := by
    rw [← List.cons_append, ← List.append_assoc, ← hsplit, List.take_append_drop]
  have hafter : ∀ y ∈ back ++ (d.sort xs).drop n, ¬ weight x < weight y := by
    have hsorted := d.sorted xs
    rw [hsort, List.pairwise_append, List.pairwise_cons] at hsorted
    exact fun y hy => not_lt.mpr (hsorted.2.1.1 y hy)
  have hperm : (heavier weight xs x).Perm (heavier weight (d.sort xs) x) :=
    ((d.perm xs).filter _).symm
  have hbefore : heavier weight (d.sort xs) x = front.filter fun y => weight x < weight y := by
    have hnone : (back ++ (d.sort xs).drop n).filter (fun y => decide (weight x < weight y)) = [] :=
      List.filter_eq_nil_iff.mpr fun y hy => by simpa using hafter y hy
    unfold heavier
    rw [hsort, List.filter_append, List.filter_cons_of_neg (by simp), hnone, List.append_nil]
  rw [hperm.length_eq, hbefore]
  exact lt_of_le_of_lt (List.length_filter_le _ _) (by omega)

instance total_weight (weight : α → Nat) : Std.Total fun a b : α => weight b ≤ weight a :=
  ⟨fun a b => le_total (weight b) (weight a)⟩

instance trans_weight (weight : α → Nat) : IsTrans α fun a b => weight b ≤ weight a :=
  ⟨fun _ _ _ hab hbc => le_trans hbc hab⟩

/-- The insertion sort. -/
def Descending.stable (weight : α → Nat) : Descending weight where
  sort := List.insertionSort fun a b => weight b ≤ weight a
  perm := List.perm_insertionSort _
  sorted := List.pairwise_insertionSort _

/-- The order that puts `x` before the other entries of its weight. -/
def Descending.first [DecidableEq α] (weight : α → Nat) (x : α) : Descending weight where
  sort xs := if x ∈ xs then (x :: xs.erase x).insertionSort fun a b => weight b ≤ weight a
    else xs.insertionSort fun a b => weight b ≤ weight a
  perm xs := by
    split
    · rename_i hx
      exact (List.perm_insertionSort _ _).trans (List.perm_cons_erase hx).symm
    · exact List.perm_insertionSort _ _
  sorted xs := by
    split <;> exact List.pairwise_insertionSort _ _

/-- **What can be among the first `n`**: the entries with fewer than `n` entries of more
weight. -/
theorem Descending.mem_take_first [DecidableEq α] (hx : x ∈ xs)
    (h : (heavier weight xs x).length < n) :
    x ∈ ((Descending.first weight x).sort xs).take n := by
  let rest := (xs.erase x).insertionSort fun a b => weight b ≤ weight a
  let front := rest.takeWhile fun b => ¬ weight b ≤ weight x
  have hsort : (Descending.first weight x).sort xs =
      front ++ x :: rest.dropWhile fun b => ¬ weight b ≤ weight x := by
    have hif : (Descending.first weight x).sort xs =
        (x :: xs.erase x).insertionSort fun a b => weight b ≤ weight a := if_pos hx
    rw [hif]
    exact List.orderedInsert_eq_take_drop _ _ _
  have hfront : front.length ≤ (heavier weight xs x).length := by
    have hheavy : front = front.filter fun y => weight x < weight y := by
      symm
      rw [List.filter_eq_self]
      intro y hy
      have := List.mem_takeWhile_imp hy
      simpa using this
    rw [hheavy]
    have hsub : (front.filter fun y => weight x < weight y).Sublist (heavier weight rest x) :=
      (List.takeWhile_sublist _).filter _
    have hperm : (heavier weight rest x).Perm (heavier weight (xs.erase x) x) :=
      (List.perm_insertionSort _ _).filter _
    have herase : (heavier weight (xs.erase x) x).Sublist (heavier weight xs x) :=
      List.erase_sublist.filter _
    exact hsub.length_le.trans (hperm.length_eq.le.trans herase.length_le)
  rw [hsort, List.take_append, List.mem_append]
  right
  obtain ⟨k, hk⟩ : ∃ k, n - front.length = k + 1 := ⟨n - front.length - 1, by omega⟩
  rw [hk, List.take_succ_cons]
  exact List.mem_cons_self

end Descending

/-! ## Means -/

/-- The mean, `0` of no points. -/
def mean (xs : List ℚ) : ℚ := xs.sum / xs.length

theorem mean_mem {a b : ℚ} {xs : List ℚ} (hne : xs ≠ []) (h : ∀ x ∈ xs, a ≤ x ∧ x < b) :
    a ≤ mean xs ∧ mean xs < b := by
  have hpos : (0 : ℚ) < xs.length := by
    exact_mod_cast List.length_pos_iff.mpr hne
  have hlow : xs.length * a ≤ xs.sum := by
    have := List.card_nsmul_le_sum xs a fun x hx => (h x hx).1
    simpa using this
  have hhigh : xs.sum < xs.length * b := by
    have := List.sum_lt_sum_of_ne_nil hne id (fun _ => b) fun x hx => (h x hx).2
    simpa using this
  unfold mean
  rw [le_div_iff₀ hpos, div_lt_iff₀ hpos]
  exact ⟨by linarith, by linarith⟩

/-- Moving the points that meet a condition moves the mean in proportion. -/
theorem mean_map_shift {E : Type*} (f : E → ℚ) (p : E → Bool) (c : ℚ) (es : List E) :
    mean (es.map fun e => if p e then f e + c else f e) =
      mean (es.map f) + c * es.countP p / es.length := by
  have hsum : (es.map fun e => if p e then f e + c else f e).sum =
      (es.map f).sum + c * es.countP p := by
    induction es with
    | nil => simp
    | cons e es ih =>
        rw [List.map_cons, List.sum_cons, ih, List.map_cons, List.sum_cons, List.countP_cons]
        cases p e
        · simp only [Bool.false_eq_true, if_false, Nat.add_zero]
          ring
        · simp only [if_true, Nat.cast_add, Nat.cast_one]
          ring
  unfold mean
  rw [hsum, List.length_map, List.length_map, add_div]

/-! ## Cells of a line -/

/-- The cell of a point. -/
def index (origin width x : ℚ) : Int := ⌊(x - origin) / width⌋

variable {origin width span x : ℚ}

/-- A point lies in its cell. -/
theorem index_bounds (hwidth : 0 < width) :
    origin + index origin width x * width ≤ x ∧
      x < origin + index origin width x * width + width := by
  have hlow : (index origin width x : ℚ) ≤ (x - origin) / width := Int.floor_le _
  have hhigh : (x - origin) / width < index origin width x + 1 := Int.lt_floor_add_one _
  rw [le_div_iff₀ hwidth] at hlow
  rw [div_lt_iff₀ hwidth] at hhigh
  exact ⟨by linarith, by linarith⟩

theorem index_nonneg (hwidth : 0 < width) (hx : origin ≤ x) : 0 ≤ index origin width x :=
  Int.floor_nonneg.mpr (div_nonneg (by linarith) hwidth.le)

/-- **A span divided into `p` cells**: its points but the end are in the first `p`. -/
theorem index_lt_iff {p : Nat} (hp : 0 < p) (hspan : 0 < span) (hx : x ≤ origin + span) :
    index origin (span / p) x < p ↔ x ≠ origin + span := by
  have hpos : (0 : ℚ) < p := by exact_mod_cast hp
  unfold index
  rw [Int.floor_lt, Int.cast_natCast, div_lt_iff₀ (div_pos hspan hpos), mul_div_cancel₀ _ hpos.ne']
  constructor
  · intro h heq
    linarith
  · intro h
    have := lt_of_le_of_ne hx h
    linarith

/-- **A point of a cell, moved back on a circle**, is in the cell up to turns when the way is not
longer than to the left end, or the rest of the turn is shorter than to the right end. -/
theorem moved_mem_iff {turn left width m back : ℚ} (hwidth : width ≤ turn)
    (hm : left ≤ m ∧ m < left + width) (hback : 0 ≤ back ∧ back ≤ turn) :
    (∃ turns : Int, left ≤ m - back + turn * turns ∧ m - back + turn * turns < left + width) ↔
      back ≤ m - left ∨ turn - back < left + width - m := by
  have hturn : 0 ≤ turn := hback.1.trans hback.2
  constructor
  · rintro ⟨turns, hlow, hhigh⟩
    rcases lt_trichotomy turns 0 with hneg | rfl | hpos
    · -- a turn less leaves the cell to the left
      have hle : (turns : ℚ) ≤ -1 := by exact_mod_cast Int.le_sub_one_of_lt hneg
      have hfar := mul_le_mul_of_nonneg_left hle hturn
      linarith
    · rw [Int.cast_zero] at hlow
      exact .inl (by linarith)
    · rcases (Int.add_one_le_of_lt hpos).eq_or_lt with hone | htwo
      · rw [← hone] at hhigh
        norm_num at hhigh
        exact .inr (by linarith)
      · -- and a second turn more to the right
        have hle : (2 : ℚ) ≤ turns := by exact_mod_cast Int.add_one_le_of_lt htwo
        have hfar := mul_le_mul_of_nonneg_left hle hturn
        linarith
  · rintro (hleft | hright)
    · refine ⟨0, ?_⟩
      rw [Int.cast_zero]
      exact ⟨by linarith, by linarith⟩
    · refine ⟨1, ?_⟩
      rw [Int.cast_one]
      exact ⟨by linarith, by linarith⟩

end Grid
