import Mathlib.Data.List.Forall2
import Mathlib.Data.List.NodupEquivFin
import Atlas.Provenance

/-!
# Two equalities of JSON values

Python's `==` takes `1`, `1.0` and `True` for one value; their texts are three.  Two values
have the same canonical text exactly when they are equal for Python and every number or
boolean in them has the same type on both sides.
-/

namespace Atlas

namespace Json

/-- A value as Python holds it: no NaN, and the keys of every mapping are distinct. -/
inductive Proper : Json → Prop
  | null : Proper .null
  | bool (b : Bool) : Proper (.bool b)
  | num {n : PyNum} (hnan : n.exact ≠ .nan) : Proper (.num n)
  | str (s : String) : Proper (.str s)
  | arr {xs : List Json} (hitems : ∀ x ∈ xs, Proper x) : Proper (.arr xs)
  | obj {kvs : List (String × Json)} (hkeys : (kvs.map Prod.fst).Nodup)
      (hvalues : ∀ kv ∈ kvs, Proper kv.2) : Proper (.obj kvs)

/-- The types whose values `==` compares by number. -/
inductive NumberType where
  | bool
  | int
  | float
deriving DecidableEq

def numberType : Json → Option NumberType
  | .bool _ => some .bool
  | .num (.int _) => some .int
  | .num (.float _) => some .float
  | _ => none

/-- At some place both values have a number, of different types. -/
inductive Retyped : Json → Json → Prop
  | here {a b : Json} {s t : NumberType} (ha : a.numberType = some s) (hb : b.numberType = some t)
      (hne : s ≠ t) : Retyped a b
  | item {xs ys : List Json} {p : Json × Json} (hp : p ∈ xs.zip ys) (h : Retyped p.1 p.2) :
      Retyped (.arr xs) (.arr ys)
  | value {xs ys : List (String × Json)} {k : String} {x y : Json} (hx : (k, x) ∈ xs)
      (hy : (k, y) ∈ ys) (h : Retyped x y) : Retyped (.obj xs) (.obj ys)

/-! ## Lists and mappings -/

theorem pyEqList_iff (xs ys : List Json) :
    pyEqList xs ys = true ↔ List.Forall₂ (fun x y => pyEq x y = true) xs ys := by
  induction xs generalizing ys with
  | nil => cases ys <;> simp [pyEqList]
  | cons x xs ih => cases ys <;> simp [pyEqList, ih]

theorem pyEqFields_iff (xs ys : List (String × Json)) :
    pyEqFields xs ys = true ↔
      ∀ kv ∈ xs, ∃ y, ys.lookup kv.1 = some y ∧ pyEq kv.2 y = true := by
  induction xs with
  | nil => simp [pyEqFields]
  | cons kv xs ih =>
      obtain ⟨k, x⟩ := kv
      rw [pyEqFields, Bool.and_eq_true, ih, List.forall_mem_cons]
      refine and_congr ?_ Iff.rfl
      cases ys.lookup k <;> simp

/-- Sorting by key forgets the order of entries with distinct keys, and nothing else. -/
theorem sortFields_eq_iff {xs ys : List (String × Json)} (hkeys : (xs.map Prod.fst).Nodup) :
    sortFields xs = sortFields ys ↔ xs.Perm ys := by
  unfold sortFields
  have hx := List.perm_insertionSort (fun a b : String × Json => a.1 ≤ b.1) xs
  have hy := List.perm_insertionSort (fun a b : String × Json => a.1 ≤ b.1) ys
  constructor
  · intro h
    exact hx.symm.trans (h ▸ hy)
  · intro h
    refine (hx.trans (h.trans hy.symm)).eq_of_pairwise ?_ (List.pairwise_insertionSort _ xs)
      (List.pairwise_insertionSort _ ys)
    intro p q hp hq hpq hqp
    have hp' : p ∈ xs := hx.mem_iff.mp hp
    have hq' : q ∈ xs := h.mem_iff.mpr (hy.mem_iff.mp hq)
    exact List.inj_on_of_nodup_map hkeys hp' hq' (le_antisymm hpq hqp)

theorem mem_canonicalFields {kvs : List (String × Json)} {k : String} {v : Json} :
    (k, v) ∈ canonicalFields kvs ↔ ∃ x, (k, x) ∈ kvs ∧ x.canonical = v := by
  rw [canonicalFields_eq]
  simp only [List.mem_map, Prod.mk.injEq, Prod.exists]
  constructor
  · intro h
    obtain ⟨j, x, hx, rfl, rfl⟩ := h
    exact ⟨x, hx, rfl⟩
  · intro h
    obtain ⟨x, hx, rfl⟩ := h
    exact ⟨k, x, hx, rfl, rfl⟩

/-- The equivalence, for one pair of values. -/
def TextIff (a b : Json) : Prop :=
  a.canonical = b.canonical ↔ a.pyEq b = true ∧ ¬ Retyped a b

theorem retyped_arr {xs ys : List Json} :
    Retyped (.arr xs) (.arr ys) ↔ ∃ p ∈ xs.zip ys, Retyped p.1 p.2 := by
  constructor
  · intro h
    cases h with
    | here ha => cases ha
    | item hp h => exact ⟨_, hp, h⟩
  · intro h
    obtain ⟨p, hp, h⟩ := h
    exact .item hp h

theorem retyped_obj {xs ys : List (String × Json)} :
    Retyped (.obj xs) (.obj ys) ↔ ∃ k x y, (k, x) ∈ xs ∧ (k, y) ∈ ys ∧ Retyped x y := by
  constructor
  · intro h
    cases h with
    | here ha => cases ha
    | value hx hy h => exact ⟨_, _, _, hx, hy, h⟩
  · intro h
    obtain ⟨k, x, y, hx, hy, h⟩ := h
    exact .value hx hy h

theorem textIff_arr {xs ys : List Json} (hitems : ∀ p ∈ xs.zip ys, TextIff p.1 p.2) :
    TextIff (.arr xs) (.arr ys) := by
  have hcanonical : canonical (.arr xs) = canonical (.arr ys) ↔
      List.Forall₂ (fun x y => x.canonical = y.canonical) xs ys := by
    rw [canonical, canonical, canonicalList_eq, canonicalList_eq, Json.arr.injEq,
      ← List.forall₂_eq_eq_eq, List.forall₂_map_left_iff, List.forall₂_map_right_iff]
  unfold TextIff
  rw [hcanonical, pyEq, pyEqList_iff, retyped_arr, List.forall₂_iff_zip, List.forall₂_iff_zip]
  constructor
  · intro h
    refine ⟨⟨h.1, fun hp => ((hitems _ hp).mp (h.2 hp)).1⟩, ?_⟩
    intro hretyped
    obtain ⟨p, hp, hretyped⟩ := hretyped
    exact ((hitems p hp).mp (h.2 hp)).2 hretyped
  · intro h
    refine ⟨h.1.1, fun hp => (hitems _ hp).mpr ⟨h.1.2 hp, ?_⟩⟩
    intro hretyped
    exact h.2 ⟨_, hp, hretyped⟩

theorem nodup_canonicalFields {kvs : List (String × Json)} (hkeys : (kvs.map Prod.fst).Nodup) :
    ((canonicalFields kvs).map Prod.fst).Nodup := by
  rw [canonicalFields_eq, List.map_map]
  exact hkeys

theorem textIff_obj {xs ys : List (String × Json)} (hxs : (xs.map Prod.fst).Nodup)
    (hys : (ys.map Prod.fst).Nodup)
    (hvalues : ∀ k x y, (k, x) ∈ xs → (k, y) ∈ ys → TextIff x y) :
    TextIff (.obj xs) (.obj ys) := by
  unfold TextIff
  rw [canonical, canonical, Json.obj.injEq, sortFields_eq_iff (nodup_canonicalFields hxs), pyEq,
    Bool.and_eq_true, beq_iff_eq, pyEqFields_iff, retyped_obj]
  constructor
  · intro hperm
    have hlength : xs.length = ys.length := by
      have hlen := hperm.length_eq
      rw [canonicalFields_eq, canonicalFields_eq, List.length_map, List.length_map] at hlen
      exact hlen
    -- The entries under one key have one text.
    have htext : ∀ k x y, (k, x) ∈ xs → (k, y) ∈ ys → x.canonical = y.canonical := by
      intro k x y hx hy
      have hfound : (k, x.canonical) ∈ canonicalFields ys :=
        hperm.mem_iff.mp (mem_canonicalFields.mpr ⟨x, hx, rfl⟩)
      have hother : (k, y.canonical) ∈ canonicalFields ys := mem_canonicalFields.mpr ⟨y, hy, rfl⟩
      have hsame := List.inj_on_of_nodup_map (nodup_canonicalFields hys) hfound hother rfl
      exact (Prod.mk.inj hsame).2
    refine ⟨⟨hlength, ?_⟩, ?_⟩
    · intro kv hkv
      obtain ⟨k, x⟩ := kv
      have hfound : (k, x.canonical) ∈ canonicalFields ys :=
        hperm.mem_iff.mp (mem_canonicalFields.mpr ⟨x, hkv, rfl⟩)
      obtain ⟨y, hy, -⟩ := mem_canonicalFields.mp hfound
      refine ⟨y, (lookup_eq_some_iff_mem hys k y).mpr hy, ?_⟩
      exact ((hvalues k x y hkv hy).mp (htext k x y hkv hy)).1
    · intro h
      obtain ⟨k, x, y, hx, hy, hretyped⟩ := h
      exact ((hvalues k x y hx hy).mp (htext k x y hx hy)).2 hretyped
  · intro h
    obtain ⟨⟨hlength, hfound⟩, hretyped⟩ := h
    have hsub : canonicalFields xs ⊆ canonicalFields ys := by
      intro kv hkv
      obtain ⟨k, v⟩ := kv
      obtain ⟨x, hx, rfl⟩ := mem_canonicalFields.mp hkv
      obtain ⟨y, hy, heq⟩ := hfound (k, x) hx
      have hy := (lookup_eq_some_iff_mem hys k y).mp hy
      refine mem_canonicalFields.mpr ⟨y, hy, ?_⟩
      exact ((hvalues k x y hx hy).mpr ⟨heq, fun h => hretyped ⟨k, x, y, hx, hy, h⟩⟩).symm
    have hnodup : (canonicalFields xs).Nodup := List.Nodup.of_map _ (nodup_canonicalFields hxs)
    refine (List.subperm_of_subset hnodup hsub).perm_of_length_le ?_
    rw [canonicalFields_eq, canonicalFields_eq, List.length_map, List.length_map]
    exact hlength.ge

/-- Numbers: one text is one number of one type. -/
theorem textIff_num {n m : PyNum} (hnan : n.exact ≠ .nan) : TextIff (.num n) (.num m) := by
  unfold TextIff
  rw [canonical, canonical, Json.num.injEq, pyEq, PyNum.pyEq]
  · constructor
    · intro h
      subst h
      refine ⟨by simp [hnan], ?_⟩
      intro h
      cases h with
      | here ha hb hne => exact hne (Option.some.inj (ha.symm.trans hb))
    · intro h
      obtain ⟨hequal, htype⟩ := h
      simp only [Bool.and_eq_true, beq_iff_eq] at hequal
      cases n with
      | int i =>
          cases m with
          | int j => simpa [PyNum.exact] using hequal.1
          | float g => exact absurd (.here rfl rfl (by decide)) htype
      | float f =>
          cases m with
          | int j => exact absurd (.here rfl rfl (by decide)) htype
          | float g => simpa [PyNum.exact] using hequal.1
  all_goals simp

theorem textIff_of_ne {a b : Json} (hne : a.canonical ≠ b.canonical)
    (h : a.pyEq b = false ∨ Retyped a b) : TextIff a b := by
  refine ⟨fun heq => absurd heq hne, ?_⟩
  intro hboth
  rcases h with hfalse | hretyped
  · rw [hfalse] at hboth
    exact absurd hboth.1 Bool.false_ne_true
  · exact absurd hretyped hboth.2

theorem textIff_bool (x y : Bool) : TextIff (.bool x) (.bool y) := by
  by_cases hxy : x = y
  · subst hxy
    refine ⟨fun _ => ⟨by simp [pyEq], ?_⟩, fun _ => rfl⟩
    intro h
    cases h with
    | here ha hb hne => exact hne (Option.some.inj (ha.symm.trans hb))
  · exact textIff_of_ne (by simpa [canonical] using hxy) (.inl (by simpa [pyEq] using hxy))

theorem retyped_bool_num (x : Bool) (n : PyNum) :
    Retyped (.bool x) (.num n) ∧ Retyped (.num n) (.bool x) := by
  cases n with
  | int => exact ⟨.here rfl rfl (by decide), .here rfl rfl (by decide)⟩
  | float => exact ⟨.here rfl rfl (by decide), .here rfl rfl (by decide)⟩

theorem textIff_str (s t : String) : TextIff (.str s) (.str t) := by
  by_cases hst : s = t
  · subst hst
    refine ⟨fun _ => ⟨by simp [pyEq], ?_⟩, fun _ => rfl⟩
    intro h
    cases h with
    | here ha => cases ha
  · exact textIff_of_ne (by simpa [canonical] using hst) (.inl (by simpa [pyEq] using hst))

theorem textIff_null : TextIff .null .null := by
  refine ⟨fun _ => ⟨rfl, ?_⟩, fun _ => rfl⟩
  intro h
  cases h with
  | here ha => cases ha

/-- **One text is one value with the numbers of one type.** -/
theorem canonical_eq_iff {a b : Json} (ha : Proper a) (hb : Proper b) : TextIff a b := by
  -- Values of two kinds have two texts; only booleans and numbers are equal all the same.
  induction ha generalizing b with
  | null =>
      cases hb with
      | null => exact textIff_null
      | _ => exact textIff_of_ne (by simp [canonical]) (.inl rfl)
  | bool x =>
      cases hb with
      | bool y => exact textIff_bool x y
      | num => exact textIff_of_ne (by simp [canonical]) (.inr (retyped_bool_num _ _).1)
      | _ => exact textIff_of_ne (by simp [canonical]) (.inl rfl)
  | num hnan =>
      cases hb with
      | bool y => exact textIff_of_ne (by simp [canonical]) (.inr (retyped_bool_num _ _).2)
      | num => exact textIff_num hnan
      | _ => exact textIff_of_ne (by simp [canonical]) (.inl rfl)
  | str s =>
      cases hb with
      | str t => exact textIff_str s t
      | _ => exact textIff_of_ne (by simp [canonical]) (.inl rfl)
  | arr _ ih =>
      cases hb with
      | arr hitems =>
          refine textIff_arr fun p hp => ?_
          obtain ⟨hx, hy⟩ := List.of_mem_zip hp
          exact ih p.1 hx (hitems p.2 hy)
      | _ => exact textIff_of_ne (by simp [canonical]) (.inl rfl)
  | obj hkeys _ ih =>
      cases hb with
      | obj hkeys' hvalues =>
          refine textIff_obj hkeys hkeys' fun k x y hx hy => ?_
          exact ih (k, x) hx (hvalues (k, y) hy)
      | _ => exact textIff_of_ne (by simp [canonical]) (.inl rfl)

end Json

end Atlas
