import Atlas.Lib.Rows

/-!
# A cache in order of use

Entries stand in the order they were last used in, the oldest first.  Using an entry moves
it to the end, and a cache that has grown over its size loses entries at the front.
Whatever is done, what is in the cache was put there.
-/

namespace OrderedCache

variable {κ ν : Type*} {cache : List (κ × ν)} {b : κ × ν}

/-- The newest entries, so many of them. -/
def trim (size : Nat) (cache : List (κ × ν)) : List (κ × ν) := cache.drop (cache.length - size)

theorem mem_of_mem_trim {size : Nat} (h : b ∈ trim size cache) : b ∈ cache := List.mem_of_mem_drop h

theorem unique_trim (h : Rows.Unique Prod.fst cache) (size : Nat) :
    Rows.Unique Prod.fst (trim size cache) :=
  List.Nodup.sublist ((List.drop_sublist _ _).map _) h

theorem length_trim_le (size : Nat) (cache : List (κ × ν)) : (trim size cache).length ≤ size := by
  unfold trim
  rw [List.length_drop]
  omega

variable [DecidableEq κ]

/-- The entry of a key, without using it. -/
def get (k : κ) (cache : List (κ × ν)) : Option ν := (Rows.lookup Prod.fst k cache).map Prod.snd

def pop (k : κ) (cache : List (κ × ν)) : List (κ × ν) := cache.filter fun b => decide (b.1 ≠ k)

/-- A new entry, or a new value for a key that has one, at the end either way. -/
def put (k : κ) (v : ν) (cache : List (κ × ν)) : List (κ × ν) := pop k cache ++ [(k, v)]

variable {k : κ} {v : ν}

theorem get_some (h : get k cache = some v) : (k, v) ∈ cache := by
  unfold get at h
  obtain ⟨b, hfound, rfl⟩ := Option.map_eq_some_iff.mp h
  obtain ⟨hmem, rfl⟩ := Rows.lookup_some hfound
  exact hmem

theorem mem_of_mem_pop (h : b ∈ pop k cache) : b ∈ cache := (List.mem_filter.mp h).1

theorem mem_put (h : b ∈ put k v cache) : b = (k, v) ∨ b ∈ cache := by
  cases List.mem_append.mp h with
  | inl hold => exact .inr (mem_of_mem_pop hold)
  | inr hnew => exact .inl (List.mem_singleton.mp hnew)

theorem unique_pop (h : Rows.Unique Prod.fst cache) (k : κ) : Rows.Unique Prod.fst (pop k cache) :=
  List.Nodup.sublist (List.filter_sublist.map _) h

theorem unique_put (h : Rows.Unique Prod.fst cache) (k : κ) (v : ν) :
    Rows.Unique Prod.fst (put k v cache) := by
  apply (unique_pop h k).append_single
  intro b hb
  simpa using (List.mem_filter.mp hb).2

theorem length_pop_le (k : κ) (cache : List (κ × ν)) : (pop k cache).length ≤ cache.length :=
  List.length_filter_le _ _

/-- A value put in place of another takes no more room. -/
theorem length_put_le (h : (k, v) ∈ cache) (v' : ν) : (put k v' cache).length ≤ cache.length := by
  have hless : (pop k cache).length < cache.length := by
    apply List.length_filter_lt_length_iff_exists.mpr
    exact ⟨(k, v), h, by simp⟩
  unfold put
  rw [List.length_append, List.length_singleton]
  exact hless

theorem self_mem_put (k : κ) (v : ν) (cache : List (κ × ν)) : (k, v) ∈ put k v cache :=
  List.mem_append_right _ (List.mem_singleton.mpr rfl)

end OrderedCache
