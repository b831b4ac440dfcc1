import Mathlib.Data.List.Dedup
import Mathlib.Data.List.Sort
import Mathlib.Data.List.TakeWhile
import Mathlib.Data.Finset.Dedup
import Mathlib.Data.Finset.Card
import Mathlib.Tactic.Tauto

/-!
# The most recent distinct values of a log

Values are logged at the end of a list.  `recent n log` keeps the last places of its `n` most
recent distinct values, in the order of the log.  A value is kept exactly when fewer than `n`
others were logged behind its last place.  What is kept can be logged on in the place of the
log, so a bounded list that is cut after every write holds what the whole log would leave.

Two ways to compute it are compared with it: a scan from the end, and a query that groups the
places of each value, orders the groups by their last place and takes the first `n`.
-/

namespace Recent

variable {α : Type*} [DecidableEq α]

/-- The `n` most recent distinct values. -/
def recent (n : Nat) (log : List α) : List α := log.dedup.drop (log.dedup.length - n)

/-- The distinct values logged behind the last place of `x`. -/
def newer (x : α) (log : List α) : List α := (log.reverse.takeWhile (· ≠ x)).dedup

variable {n : Nat} {x a : α} {log xs ys : List α}

@[simp] theorem recent_nil : recent n ([] : List α) = [] := by
  simp [recent]

theorem nodup_recent : (recent n log).Nodup := log.nodup_dedup.sublist (List.drop_sublist _ _)

theorem length_recent : (recent n log).length = min n log.dedup.length := by
  unfold recent
  rw [List.length_drop]
  omega

theorem length_recent_le : (recent n log).length ≤ n := by
  rw [length_recent]
  exact min_le_left _ _

theorem mem_of_mem_recent (h : x ∈ recent n log) : x ∈ log :=
  List.mem_dedup.mp (List.mem_of_mem_drop h)

theorem recent_of_length_le (h : log.dedup.length ≤ n) : recent n log = log.dedup := by
  unfold recent
  rw [Nat.sub_eq_zero_of_le h, List.drop_zero]

/-- Logs of the same values have as many distinct ones. -/
theorem length_dedup_congr (h : ∀ x, x ∈ xs ↔ x ∈ ys) : xs.dedup.length = ys.dedup.length := by
  rw [← List.card_toFinset, ← List.card_toFinset]
  congr 1
  ext x
  simpa using h x

theorem length_dedup_le (h : xs ⊆ ys) : xs.dedup.length ≤ ys.dedup.length := by
  rw [← List.card_toFinset, ← List.card_toFinset]
  exact Finset.card_le_card fun x hx => List.mem_toFinset.mpr (h (List.mem_toFinset.mp hx))

/-- An older value is kept when it does not come again and there is room. -/
theorem recent_cons :
    recent n (a :: log) =
      if a ∉ log ∧ log.dedup.length < n then a :: recent n log else recent n log := by
  unfold recent
  by_cases ha : a ∈ log
  · rw [List.dedup_cons_of_mem ha, if_neg (by simp [ha])]
  · rw [List.dedup_cons_of_notMem ha, List.length_cons]
    by_cases hn : log.dedup.length < n
    · rw [if_pos ⟨ha, hn⟩, Nat.sub_eq_zero_of_le hn, Nat.sub_eq_zero_of_le hn.le]
      rfl
    · rw [if_neg (by simp [hn]), Nat.succ_sub (by omega)]
      rfl

theorem mem_recent_of_length_lt (h : log.dedup.length ≤ n) : x ∈ recent n log ↔ x ∈ log := by
  rw [recent_of_length_le h, List.mem_dedup]

/-! ## What is kept -/

theorem newer_cons_of_mem (h : x ∈ log) : newer x (a :: log) = newer x log := by
  unfold newer
  rw [List.reverse_cons, List.takeWhile_append, if_neg]
  intro hlen
  have hall := List.takeWhile_eq_self_iff.mp (List.takeWhile_prefix _ |>.eq_of_length hlen)
  simpa using hall x (List.mem_reverse.mpr h)

theorem length_newer_cons_self (h : a ∉ log) :
    (newer a (a :: log)).length = log.dedup.length := by
  have hall : log.reverse.takeWhile (· ≠ a) = log.reverse := by
    rw [List.takeWhile_eq_self_iff]
    intro y hy
    have hne : y ≠ a := by
      rintro rfl
      exact h (List.mem_reverse.mp hy)
    simpa using hne
  have hnewer : newer a (a :: log) = log.reverse.dedup := by
    unfold newer
    rw [List.reverse_cons, List.takeWhile_append, hall, if_pos rfl]
    simp
  rw [hnewer]
  exact length_dedup_congr (by simp)

/-- **What is kept.**  A value is kept exactly when it was logged and fewer than `n` others
were logged behind it. -/
theorem mem_recent : x ∈ recent n log ↔ x ∈ log ∧ (newer x log).length < n := by
  induction log with
  | nil => simp
  | cons a log ih =>
      rw [recent_cons]
      by_cases hx : x ∈ log
      · rw [newer_cons_of_mem hx]
        have hmem : x ∈ a :: log := List.mem_cons_of_mem a hx
        split
        · rename_i hcond
          have hne : x ≠ a := by
            rintro rfl
            exact hcond.1 hx
          rw [List.mem_cons, ih]
          tauto
        · rw [ih]
          tauto
      · have hold : x ∉ recent n log := fun h => hx (mem_of_mem_recent h)
        by_cases hxa : x = a
        · subst hxa
          rw [length_newer_cons_self hx]
          by_cases hn : log.dedup.length < n
          · simp [hx, hn]
          · simp [hn, hold]
        · have hmem : x ∉ a :: log := by simp [hxa, hx]
          split
          · simp [hxa, hold, hx]
          · simp [hold, hmem]

/-! ## Cutting a log as it grows -/

/-- **What is kept stands for the log.** -/
theorem recent_append_left : recent n (recent n xs ++ ys) = recent n (xs ++ ys) := by
  induction xs with
  | nil => rw [recent_nil]
  | cons a xs ih =>
      rw [List.cons_append, recent_cons, @recent_cons _ _ n a (xs ++ ys)]
      by_cases hroom : a ∉ xs ∧ xs.dedup.length < n
      · rw [if_pos hroom, List.cons_append, recent_cons, ih]
        have hsame : ∀ y, y ∈ recent n xs ++ ys ↔ y ∈ xs ++ ys := by
          intro y
          rw [List.mem_append, List.mem_append, mem_recent_of_length_lt hroom.2.le]
        simp only [hsame, length_dedup_congr hsame]
      · rw [if_neg hroom, ih, if_neg]
        rintro ⟨hnew, hlen⟩
        have hle : xs.dedup.length ≤ (xs ++ ys).dedup.length :=
          length_dedup_le (List.subset_append_left xs ys)
        exact hroom ⟨fun h => hnew (List.mem_append_left ys h), by omega⟩

theorem recent_recent : recent n (recent n xs) = recent n xs := by
  have h := @recent_append_left _ _ n xs []
  rwa [List.append_nil, List.append_nil] at h

/-- The same behind another log. -/
theorem recent_append_right : recent n (xs ++ recent n ys) = recent n (xs ++ ys) := by
  induction xs with
  | nil => exact recent_recent
  | cons a xs ih =>
      rw [List.cons_append, List.cons_append, recent_cons, @recent_cons _ _ n a (xs ++ ys), ih]
      by_cases hys : ys.dedup.length ≤ n
      · have hsame : ∀ y, y ∈ xs ++ recent n ys ↔ y ∈ xs ++ ys := by
          intro y
          rw [List.mem_append, List.mem_append, mem_recent_of_length_lt hys]
        simp only [hsame, length_dedup_congr hsame]
      · -- a log with more than `n` values leaves no room for an older one
        have hlen : n ≤ (xs ++ recent n ys).dedup.length := by
          have hle : (recent n ys).dedup.length ≤ (xs ++ recent n ys).dedup.length :=
            length_dedup_le (List.subset_append_right xs _)
          rw [nodup_recent.dedup, length_recent] at hle
          omega
        have hlen' : n ≤ (xs ++ ys).dedup.length := by
          have hle : ys.dedup.length ≤ (xs ++ ys).dedup.length :=
            length_dedup_le (List.subset_append_right xs _)
          omega
        rw [if_neg (by omega), if_neg (by omega)]

/-! ## A scan from the end -/

/-- Collect distinct items until there are `n`. -/
def collectRecent (n : Nat) : List α → List α → List α
  | kept, [] => kept
  | kept, item :: rest =>
      if item ∈ kept then collectRecent n kept rest
      else if n ≤ (kept ++ [item]).length then kept ++ [item]
      else collectRecent n (kept ++ [item]) rest

/-- A log that fills the room leaves none for older values. -/
theorem recent_append_full (h : n ≤ log.dedup.length) (older : List α) :
    recent n (older ++ log) = recent n log := by
  induction older with
  | nil => rfl
  | cons a older ih =>
      have hle : log.dedup.length ≤ (older ++ log).dedup.length :=
        length_dedup_le (List.subset_append_right older log)
      rw [List.cons_append, recent_cons, if_neg (by omega), ih]

theorem collectRecent_recent (hroom : log.dedup.length < n) (older : List α) :
    collectRecent n (recent n log).reverse older = (recent n (older.reverse ++ log)).reverse := by
  induction older generalizing log with
  | nil => rfl
  | cons a older ih =>
      rw [List.reverse_cons, List.append_assoc, List.singleton_append]
      unfold collectRecent
      by_cases ha : a ∈ log
      · have hcut : recent n (a :: log) = recent n log := by
          rw [recent_cons, if_neg (by simp [ha])]
        have hroom' : (a :: log).dedup.length < n := by rwa [List.dedup_cons_of_mem ha]
        rw [if_pos (List.mem_reverse.mpr ((mem_recent_of_length_lt hroom.le).mpr ha)), ← hcut,
          ih hroom']
      · have hkept : (recent n log).reverse ++ [a] = (recent n (a :: log)).reverse := by
          rw [recent_cons, if_pos ⟨ha, hroom⟩, List.reverse_cons]
        rw [if_neg (by rw [List.mem_reverse]; exact fun h => ha (mem_of_mem_recent h)), hkept]
        have hlen : (a :: log).dedup.length = log.dedup.length + 1 := by
          rw [List.dedup_cons_of_notMem ha, List.length_cons]
        split
        · rename_i hfull
          rw [List.length_reverse, length_recent] at hfull
          rw [recent_append_full (by omega)]
        · rename_i hfull
          rw [List.length_reverse, length_recent] at hfull
          exact ih (by omega)

/-- **The scan.**  Collecting distinct items from the end keeps the most recent ones. -/
theorem collectRecent_eq (hn : 0 < n) (log : List α) :
    (collectRecent n [] log.reverse).reverse = recent n log := by
  have h := @collectRecent_recent _ _ n [] (by simpa using hn) log.reverse
  rw [recent_nil, List.reverse_nil, List.reverse_reverse, List.append_nil] at h
  rw [h, List.reverse_reverse]

/-! ## A query over the places -/

/-- The places of a value, counting from `k`. -/
def places (k : Nat) (x : α) (log : List α) : List Nat :=
  ((log.zipIdx k).filter fun p => p.1 = x).map Prod.snd

/-- The last place of a value. -/
def lastPlace (k : Nat) (x : α) (log : List α) : Nat := (places k x log).max?.getD 0

/-- `ORDER BY` a number, then by another order. -/
def orderBy (key : α → Nat) (lt : Nat → Nat → Prop) [DecidableRel lt] (tie : α → α → Prop)
    [DecidableRel tie] (rows : List α) : List α :=
  rows.insertionSort fun a b => lt (key a) (key b) ∨ (key a = key b ∧ tie a b)

/-- `SELECT … GROUP BY elem ORDER BY MAX(ord) DESC, elem LIMIT n`, put in the order of the
places again.  The groups may come in any order. -/
def cappedUnion (n : Nat) (tie : α → α → Prop) [DecidableRel tie] (groups log : List α) : List α :=
  let key := fun x => lastPlace 1 x log
  orderBy key (· < ·) tie ((orderBy key (· > ·) tie groups).take n)

section OrderBy

variable {key : α → Nat} {lt : Nat → Nat → Prop} [DecidableRel lt] [IsStrictTotalOrder Nat lt]
  {tie : α → α → Prop} [DecidableRel tie]

omit [DecidableEq α] in
theorem pairwise_orderedInsert {rows : List α} (hrows : rows.Pairwise fun a b => lt (key a) (key b))
    (ha : ∀ b ∈ rows, key a ≠ key b) :
    (rows.orderedInsert (fun a b => lt (key a) (key b) ∨ (key a = key b ∧ tie a b)) a).Pairwise
      fun a b => lt (key a) (key b) := by
  induction rows with
  | nil => simp
  | cons b rows ih =>
      obtain ⟨hb, hrows⟩ := List.pairwise_cons.mp hrows
      have hne := ha b List.mem_cons_self
      rw [List.orderedInsert_cons]
      split
      · rename_i hab
        have hlt : lt (key a) (key b) := hab.resolve_right fun h => hne h.1
        refine List.pairwise_cons.mpr ⟨?_, List.pairwise_cons.mpr ⟨hb, hrows⟩⟩
        intro c hc
        rcases List.mem_cons.mp hc with rfl | hc
        · exact hlt
        · exact IsTrans.trans _ _ _ hlt (hb c hc)
      · rename_i hab
        have hlt : lt (key b) (key a) := by
          rcases trichotomous_of lt (key a) (key b) with h | h | h
          · exact absurd (.inl h) hab
          · exact absurd h hne
          · exact h
        refine List.pairwise_cons.mpr ⟨?_, ih hrows fun c hc => ha c (List.mem_cons_of_mem b hc)⟩
        intro c hc
        rcases (List.mem_orderedInsert _).mp hc with rfl | hc
        · exact hlt
        · exact hb c hc

omit [DecidableEq α] in
theorem pairwise_orderBy {rows : List α} (hrows : rows.Pairwise fun a b => key a ≠ key b) :
    (orderBy key lt tie rows).Pairwise fun a b => lt (key a) (key b) := by
  unfold orderBy
  induction rows with
  | nil => simp
  | cons a rows ih =>
      obtain ⟨ha, hrows⟩ := List.pairwise_cons.mp hrows
      rw [List.insertionSort_cons]
      exact pairwise_orderedInsert (ih hrows) fun b hb => ha b ((List.mem_insertionSort _).mp hb)

omit [DecidableEq α] in
/-- Rows with different numbers are ordered by the numbers. -/
theorem orderBy_eq {rows sorted : List α} (hperm : rows.Perm sorted)
    (hsorted : sorted.Pairwise fun a b => lt (key a) (key b)) : orderBy key lt tie rows = sorted := by
  have hne : sorted.Pairwise fun a b => key a ≠ key b := by
    refine hsorted.imp ?_
    intro a b hlt heq
    rw [heq] at hlt
    exact irrefl_of lt _ hlt
  have hrows : rows.Pairwise fun a b => key a ≠ key b :=
    (hperm.pairwise_iff fun h => Ne.symm h).mpr hne
  refine List.Perm.eq_of_pairwise ?_ (pairwise_orderBy hrows) hsorted
    ((List.perm_insertionSort _ _).trans hperm)
  intro a b _ _ hab hba
  exact absurd hba (asymm_of lt hab)

end OrderBy

theorem places_cons (k : Nat) :
    places k x (a :: log) = if a = x then k :: places (k + 1) x log else places (k + 1) x log := by
  unfold places
  rw [List.zipIdx_cons, List.filter_cons]
  by_cases ha : a = x <;> simp [ha]

theorem le_of_mem_places {k p : Nat} (hp : p ∈ places k x log) : k ≤ p := by
  induction log generalizing k with
  | nil => simp [places] at hp
  | cons a log ih =>
      rw [places_cons] at hp
      split at hp
      · rcases List.mem_cons.mp hp with rfl | hp
        · exact le_rfl
        · exact (Nat.le_succ k).trans (ih hp)
      · exact (Nat.le_succ k).trans (ih hp)

theorem places_eq_nil {k : Nat} : places k x log = [] ↔ x ∉ log := by
  induction log generalizing k with
  | nil => simp [places]
  | cons a log ih =>
      rw [places_cons]
      by_cases ha : a = x
      · simp [ha]
      · simp [ha, ih, Ne.symm ha]

/-- The last place of a value that comes again is the one behind. -/
theorem lastPlace_cons_of_mem {k : Nat} (hx : x ∈ log) :
    lastPlace k x (a :: log) = lastPlace (k + 1) x log := by
  unfold lastPlace
  rw [places_cons]
  split
  · cases hp : places (k + 1) x log with
    | nil => exact absurd hx (places_eq_nil.mp hp)
    | cons p ps =>
        have hle : k ≤ p := by
          have hmem : p ∈ places (k + 1) x log := by simp [hp]
          exact (Nat.le_succ k).trans (le_of_mem_places hmem)
        simp only [List.max?_cons', List.foldl_cons, max_eq_right hle]
  · rfl

theorem lastPlace_cons_self {k : Nat} (ha : a ∉ log) : lastPlace k a (a :: log) = k := by
  unfold lastPlace
  rw [places_cons, if_pos rfl, places_eq_nil.mpr ha]
  rfl

theorem le_lastPlace {k : Nat} (hx : x ∈ log) : k ≤ lastPlace k x log := by
  unfold lastPlace
  cases hmax : (places k x log).max? with
  | none => exact absurd hx (places_eq_nil.mp (List.max?_eq_none_iff.mp hmax))
  | some p => exact le_of_mem_places (List.max?_mem hmax)

/-- The distinct values stand in the order of their last places. -/
theorem pairwise_lastPlace (k : Nat) (log : List α) :
    log.dedup.Pairwise fun a b => lastPlace k a log < lastPlace k b log := by
  induction log generalizing k with
  | nil => simp
  | cons a log ih =>
      have hlog : log.dedup.Pairwise fun b c => lastPlace k b (a :: log) < lastPlace k c (a :: log) := by
        refine (ih (k + 1)).imp_of_mem ?_
        intro b c hb hc hlt
        rwa [lastPlace_cons_of_mem (List.mem_dedup.mp hb), lastPlace_cons_of_mem (List.mem_dedup.mp hc)]
      by_cases ha : a ∈ log
      · rw [List.dedup_cons_of_mem ha]
        exact hlog
      · rw [List.dedup_cons_of_notMem ha]
        refine List.pairwise_cons.mpr ⟨?_, hlog⟩
        intro b hb
        have hmem := List.mem_dedup.mp hb
        rw [lastPlace_cons_self ha, lastPlace_cons_of_mem hmem]
        exact le_lastPlace hmem

/-- **The query.**  Whatever the order of the groups and of ties, the query gives the most recent
distinct values. -/
theorem cappedUnion_eq (tie : α → α → Prop) [DecidableRel tie] {groups : List α}
    (hgroups : groups.Perm log.dedup) : cappedUnion n tie groups log = recent n log := by
  unfold cappedUnion
  dsimp only
  have hasc := pairwise_lastPlace 1 log
  have hdesc : log.dedup.reverse.Pairwise fun a b => lastPlace 1 a log > lastPlace 1 b log :=
    List.pairwise_reverse.mpr hasc
  rw [orderBy_eq (hgroups.trans (List.reverse_perm _).symm) hdesc, List.take_reverse]
  exact orderBy_eq (List.reverse_perm _) (hasc.sublist (List.drop_sublist _ _))

end Recent
