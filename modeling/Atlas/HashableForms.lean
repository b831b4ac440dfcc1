import Mathlib.Data.List.Forall2
import Atlas.ConflictDetector

/-!
# Set members and normalised values

Detection compares normalised values through the set members `_make_hashable` makes of
them; reconciliation compares the normalised values themselves.  The set member of a list,
of a mapping and of a boolean is a tuple, and nothing in it says which of the three it was:
a mapping reads as the list of its `[key, value]` pairs in key order, and a boolean as the
pair of its mark and its number.

So the two comparisons agree on a pair of values exactly when the values do not read alike,
or have their lists, mappings and booleans in the same places.
-/

namespace Atlas

namespace PyVal

/-- The members of a list, of a mapping (its pairs) or of a boolean (its mark and number). -/
def asSequence : PyVal → Option (List PyVal)
  | .tuple xs => some xs
  | .list xs => some xs
  | .dict kvs => some (kvs.map fun kv => .list [.str kv.1, kv.2])
  | _ => .none

/-- What a value is, apart from its contents. -/
inductive Kind where
  | scalar
  | bool
  | list
  | mapping
deriving DecidableEq

def kind : PyVal → Kind
  | .tuple _ => .bool
  | .list _ => .list
  | .dict _ => .mapping
  | _ => .scalar

/-- The values read alike: equal scalars that are not NaN, or sequences that read alike
member by member. -/
inductive ReadAlike : PyVal → PyVal → Prop
  | scalar {v : PyVal} (hscalar : v.asSequence = .none) (hnan : v.hasNan = false) : ReadAlike v v
  | sequence {u v : PyVal} {xs ys : List PyVal} (hu : u.asSequence = some xs)
      (hv : v.asSequence = some ys) (hlength : xs.length = ys.length)
      (hmembers : ∀ p ∈ xs.zip ys, ReadAlike p.1 p.2) : ReadAlike u v

/-- At some place the values are of different kinds. -/
inductive DifferInKind : PyVal → PyVal → Prop
  | here {u v : PyVal} (hkind : u.kind ≠ v.kind) : DifferInKind u v
  | inside {u v : PyVal} {xs ys : List PyVal} {p : PyVal × PyVal} (hu : u.asSequence = some xs)
      (hv : v.asSequence = some ys) (hp : p ∈ xs.zip ys) (hdiffer : DifferInKind p.1 p.2) :
      DifferInKind u v

/-! ## Values that read alike -/

theorem eq_of_kind_of_asSequence {u v : PyVal} {xs : List PyVal} (hkind : u.kind = v.kind)
    (hu : u.asSequence = some xs) (hv : v.asSequence = some xs) : u = v := by
  have hpairs : Function.Injective fun kv : String × PyVal => PyVal.list [.str kv.1, kv.2] := by
    intro a b hab
    simp only [PyVal.list.injEq, List.cons.injEq, PyVal.str.injEq, and_true] at hab
    exact Prod.ext hab.1 hab.2
  cases u with
  | none | num | str => cases hu
  | tuple us =>
      cases v with
      | tuple vs => rw [Option.some.inj (hu.trans hv.symm)]
      | none | num | str | list | dict => cases hkind
  | list us =>
      cases v with
      | list vs => rw [Option.some.inj (hu.trans hv.symm)]
      | none | num | str | tuple | dict => cases hkind
  | dict us =>
      cases v with
      | dict vs => rw [hpairs.list_map (Option.some.inj (hu.trans hv.symm))]
      | none | num | str | tuple | list => cases hkind

theorem eq_of_zip {xs ys : List PyVal} (hlength : xs.length = ys.length)
    (heq : ∀ p ∈ xs.zip ys, p.1 = p.2) : xs = ys := by
  have hall : List.Forall₂ Eq xs ys := List.forall₂_iff_zip.mpr ⟨hlength, fun hp => heq _ hp⟩
  exact List.forall₂_eq_eq_eq ▸ hall

theorem zip_self {xs : List PyVal} {p : PyVal × PyVal} (hp : p ∈ xs.zip xs) : p.1 = p.2 := by
  have hall : List.Forall₂ Eq xs xs := List.forall₂_eq_eq_eq ▸ rfl
  exact (List.forall₂_iff_zip.mp hall).2 hp

/-- Values that read alike and have the same kinds are equal. -/
theorem ReadAlike.eq_of_kinds {u v : PyVal} (h : ReadAlike u v) (hkinds : ¬ DifferInKind u v) :
    u = v := by
  induction h with
  | scalar => rfl
  | @sequence u v xs ys hu hv hlength _ ih =>
      have hkind : u.kind = v.kind := by
        by_contra hne
        exact hkinds (.here hne)
      have hmembers : xs = ys := by
        refine eq_of_zip hlength fun p hp => ih p hp fun hdiffer => ?_
        exact hkinds (.inside hu hv hp hdiffer)
      subst hmembers
      exact eq_of_kind_of_asSequence hkind hu hv

theorem DifferInKind.ne {u v : PyVal} (h : DifferInKind u v) : u ≠ v := by
  induction h with
  | here hkind => exact fun heq => hkind (congrArg kind heq)
  | inside hu hv hp _ ih =>
      intro heq
      subst heq
      cases Option.some.inj (hu.symm.trans hv)
      exact ih (zip_self hp)

/-! ## Set members -/

/-- What normalisation makes: a tuple stands for a boolean, and the keys of a mapping are
in order. -/
inductive Normal : PyVal → Prop
  | scalar {v : PyVal} (hscalar : v.asSequence = .none) : Normal v
  | bool {mark : String} {n : PyFloat} : Normal (.tuple [.str mark, .num n])
  | list {xs : List PyVal} (hmembers : ∀ x ∈ xs, Normal x) : Normal (.list xs)
  | dict {kvs : List (String × PyVal)} (hsorted : kvs.Pairwise fun a b => a.1 ≤ b.1)
      (hvalues : ∀ kv ∈ kvs, Normal kv.2) : Normal (.dict kvs)

theorem Normal.members {v : PyVal} (h : Normal v) {xs : List PyVal} (hv : v.asSequence = some xs) :
    ∀ x ∈ xs, Normal x := by
  cases h with
  | scalar hscalar =>
      rw [hscalar] at hv
      cases hv
  | @bool mark n =>
      cases hv
      intro x hx
      rcases List.mem_pair.mp hx with rfl | rfl
      · exact .scalar rfl
      · exact .scalar rfl
  | list hmembers =>
      cases hv
      exact hmembers
  | dict _ hvalues =>
      cases hv
      intro x hx
      obtain ⟨kv, hkv, rfl⟩ := List.mem_map.mp hx
      refine .list fun y hy => ?_
      rcases List.mem_pair.mp hy with rfl | rfl
      · exact .scalar rfl
      · exact hvalues kv hkv

theorem hashableList_eq (xs : List PyVal) : hashableList xs = xs.map makeHashable := by
  induction xs with
  | nil => rfl
  | cons x xs ih => rw [hashableList, ih, List.map_cons]

theorem hashableFields_eq (kvs : List (String × PyVal)) :
    hashableFields kvs = kvs.map fun kv => (kv.1, makeHashable kv.2) := by
  induction kvs with
  | nil => rfl
  | cons kv kvs ih => rw [hashableFields, ih, List.map_cons]

/-- The set member of a scalar is the scalar. -/
theorem makeHashable_scalar {v : PyVal} (hv : v.asSequence = .none) : makeHashable v = v := by
  cases v with
  | none | num | str => rfl
  | tuple | list | dict => cases hv

/-- The set member of anything else is the tuple of those of its members. -/
theorem makeHashable_sequence {v : PyVal} (h : Normal v) {xs : List PyVal}
    (hv : v.asSequence = some xs) : makeHashable v = .tuple (xs.map makeHashable) := by
  cases h with
  | scalar hscalar =>
      rw [hscalar] at hv
      cases hv
  | bool =>
      cases hv
      rfl
  | list =>
      cases hv
      rw [makeHashable, hashableList_eq]
  | @dict kvs hsorted =>
      cases hv
      have hstay : sortFields (hashableFields kvs) = hashableFields kvs := by
        refine List.Pairwise.insertionSort_eq ?_
        rw [hashableFields_eq]
        exact List.pairwise_map.mpr hsorted
      rw [makeHashable, hstay, hashableFields_eq, List.map_map, List.map_map]
      rfl

theorem hasNan_members {v : PyVal} {xs : List PyVal} (hv : v.asSequence = some xs) :
    v.hasNan = false ↔ ∀ x ∈ xs, x.hasNan = false := by
  have hlist : hasNanList xs = false ↔ ∀ x ∈ xs, x.hasNan = false := by
    rw [← Bool.not_eq_true, hasNanList_iff]
    simp
  cases v with
  | none | num | str => cases hv
  | tuple | list =>
      cases hv
      exact hlist
  | dict kvs =>
      cases hv
      rw [hasNan, ← Bool.not_eq_true, hasNanFields_iff, List.forall_mem_map]
      simp [hasNan, hasNanList]

theorem hasNan_zip {xs ys : List PyVal} (hlength : xs.length = ys.length)
    (h : ∀ p ∈ xs.zip ys, p.1.hasNan = false) : ∀ x ∈ xs, x.hasNan = false := by
  intro x hx
  have hfst : x ∈ (xs.zip ys).map Prod.fst := by
    rw [List.map_fst_zip hlength.le]
    exact hx
  obtain ⟨p, hp, rfl⟩ := List.mem_map.mp hfst
  exact h p hp

/-- Normal values that read alike have one set member, without a NaN. -/
theorem ReadAlike.makeHashable_eq {u v : PyVal} (h : ReadAlike u v) (hu : Normal u) (hv : Normal v) :
    makeHashable u = makeHashable v ∧ u.hasNan = false := by
  induction h with
  | scalar _ hnan => exact ⟨rfl, hnan⟩
  | @sequence u v xs ys hxs hys hlength _ ih =>
      have hmembers : ∀ p ∈ xs.zip ys, makeHashable p.1 = makeHashable p.2 ∧ p.1.hasNan = false := by
        intro p hp
        obtain ⟨hx, hy⟩ := List.of_mem_zip hp
        exact ih p hp (hu.members hxs _ hx) (hv.members hys _ hy)
      refine ⟨?_, (hasNan_members hxs).mpr (hasNan_zip hlength fun p hp => (hmembers p hp).2)⟩
      rw [makeHashable_sequence hu hxs, makeHashable_sequence hv hys]
      congr 1
      have hall : List.Forall₂ (fun x y => makeHashable x = makeHashable y) xs ys :=
        List.forall₂_iff_zip.mpr ⟨hlength, fun hp => (hmembers _ hp).1⟩
      have heq : List.Forall₂ Eq (xs.map makeHashable) (ys.map makeHashable) :=
        List.forall₂_map_left_iff.mpr (List.forall₂_map_right_iff.mpr hall)
      exact List.forall₂_eq_eq_eq ▸ heq

/-- Everything with the set member of the value reads like it. -/
def FoundByMember (u : PyVal) : Prop :=
  ∀ v, Normal v → u.hasNan = false → makeHashable u = makeHashable v → ReadAlike u v

theorem foundByMember_scalar {u : PyVal} (hu : u.asSequence = .none) : FoundByMember u := by
  intro v hv hnan heq
  rw [makeHashable_scalar hu] at heq
  cases hys : v.asSequence with
  | none =>
      rw [makeHashable_scalar hys] at heq
      exact heq ▸ .scalar hu hnan
  | some ys =>
      rw [makeHashable_sequence hv hys] at heq
      rw [heq] at hu
      cases hu

theorem foundByMember_sequence {u : PyVal} (hu : Normal u) {xs : List PyVal}
    (hxs : u.asSequence = some xs) (hfound : ∀ x ∈ xs, FoundByMember x) : FoundByMember u := by
  intro v hv hnan heq
  rw [makeHashable_sequence hu hxs] at heq
  cases hys : v.asSequence with
  | none =>
      rw [makeHashable_scalar hys] at heq
      rw [← heq] at hys
      cases hys
  | some ys =>
      rw [makeHashable_sequence hv hys, PyVal.tuple.injEq] at heq
      have hlength : xs.length = ys.length := by simpa using congrArg List.length heq
      have hall : List.Forall₂ (fun x y => makeHashable x = makeHashable y) xs ys := by
        rw [← List.forall₂_map_right_iff, ← List.forall₂_map_left_iff, heq,
          List.forall₂_eq_eq_eq]
      refine .sequence hxs hys hlength fun p hp => ?_
      obtain ⟨hx, hy⟩ := List.of_mem_zip hp
      exact hfound p.1 hx p.2 (hv.members hys _ hy) ((hasNan_members hxs).mp hnan _ hx)
        ((List.forall₂_iff_zip.mp hall).2 hp)

theorem foundByMember {u : PyVal} (hu : Normal u) : FoundByMember u := by
  induction hu with
  | scalar hscalar => exact foundByMember_scalar hscalar
  | bool =>
      refine foundByMember_sequence .bool rfl fun x hx => ?_
      rcases List.mem_pair.mp hx with rfl | rfl
      · exact foundByMember_scalar rfl
      · exact foundByMember_scalar rfl
  | list hmembers ih => exact foundByMember_sequence (.list hmembers) rfl ih
  | @dict kvs hsorted hvalues ih =>
      refine foundByMember_sequence (.dict hsorted hvalues) rfl fun x hx => ?_
      obtain ⟨kv, hkv, rfl⟩ := List.mem_map.mp hx
      have hpair : Normal (.list [.str kv.1, kv.2]) :=
        (Normal.dict hsorted hvalues).members rfl _ hx
      refine foundByMember_sequence hpair rfl fun y hy => ?_
      rcases List.mem_pair.mp hy with rfl | rfl
      · exact foundByMember_scalar rfl
      · exact ih kv hkv

/-- **What one set member means**: the values read alike. -/
theorem pyEq_makeHashable_iff {u v : PyVal} (hu : Normal u) (hv : Normal v) :
    (makeHashable u).pyEq (makeHashable v) = true ↔ ReadAlike u v := by
  simp only [pyEq, Bool.and_eq_true, decide_eq_true_eq, Bool.not_eq_true',
    hasNan_makeHashable]
  constructor
  · intro h
    exact foundByMember hu v hv h.2 h.1
  · intro h
    exact h.makeHashable_eq hu hv

end PyVal

/-! ## Normalised values -/

section Normalised

variable [PyText]

theorem asSequence_coerceNumeric (s : String) : (coerceNumeric s).asSequence = none := by
  rcases coerceNumeric_eq s with ⟨n, -, hint⟩ | hfloat
  · rw [hint]
    rfl
  · rw [hfloat]
    cases pyFloat (strip s).toList <;> rfl

mutual
theorem normal_normalizeValue : ∀ a : Json, (normalizeValue a).Normal
  | .null => .scalar rfl
  | .bool _ => .bool
  | .num _ => .scalar rfl
  | .str s => .scalar (asSequence_coerceNumeric (collapse s))
  | .arr xs => .list (normal_normalizeList xs)
  | .obj kvs => by
      refine .dict ?_ fun kv hkv => ?_
      · exact List.pairwise_insertionSort _ _
      · exact normal_normalizeFields kvs kv ((List.mem_insertionSort _).mp hkv)

theorem normal_normalizeList : ∀ xs : List Json, ∀ x ∈ normalizeList xs, x.Normal
  | [] => by simp [normalizeList]
  | x :: xs => by
      intro y hy
      rcases List.mem_cons.mp hy with rfl | hy
      · exact normal_normalizeValue x
      · exact normal_normalizeList xs y hy

theorem normal_normalizeFields : ∀ kvs : List (String × Json),
    ∀ kv ∈ normalizeFields kvs, kv.2.Normal
  | [] => by simp [normalizeFields]
  | (k, x) :: kvs => by
      intro kv hkv
      rcases List.mem_cons.mp hkv with rfl | hkv
      · exact normal_normalizeValue x
      · exact normal_normalizeFields kvs kv hkv
end

/-- **When detection and reconciliation compare alike.**  Two claim values have one set member
exactly when their normalised values are equal, unless these read alike and differ in kind. -/
theorem hashable_forms_agree_iff (a b : Json) :
    (((makeHashable (normalizeValue a)).pyEq (makeHashable (normalizeValue b)) = true ↔
        (normalizeValue a).pyEq (normalizeValue b) = true)) ↔
      ¬ ((normalizeValue a).ReadAlike (normalizeValue b) ∧
        (normalizeValue a).DifferInKind (normalizeValue b)) := by
  have hmember := PyVal.pyEq_makeHashable_iff (normal_normalizeValue a) (normal_normalizeValue b)
  constructor
  · intro h ⟨halike, hdiffer⟩
    have hequal := h.mp (hmember.mpr halike)
    rw [PyVal.pyEq, Bool.and_eq_true, decide_eq_true_eq] at hequal
    exact hdiffer.ne hequal.1
  · intro h
    constructor
    · intro hone
      have halike := hmember.mp hone
      have heq : normalizeValue a = normalizeValue b :=
        halike.eq_of_kinds fun hdiffer => h ⟨halike, hdiffer⟩
      have hnan := (halike.makeHashable_eq (normal_normalizeValue a) (normal_normalizeValue b)).2
      rw [PyVal.pyEq, Bool.and_eq_true, decide_eq_true_eq]
      exact ⟨heq, by rw [hnan]; rfl⟩
    · exact pyEq_makeHashable

end Normalised

/-- The empty mapping and the empty list are two values with one set member. -/
theorem empty_mapping_and_list_have_one_member :
    ¬ ∀ a b : Json, (makeHashable (normalizeValue a)).pyEq (makeHashable (normalizeValue b)) = true ↔
      (normalizeValue a).pyEq (normalizeValue b) = true := by
  intro h
  have hmember := (h (.obj []) (.arr [])).mp (by decide)
  exact absurd hmember (by decide)

end Atlas
