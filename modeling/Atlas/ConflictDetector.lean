import Atlas.Store

/-!
# Detecting disagreement

`normalize_value` brings a claim value to the form conflict detection compares,
`_make_hashable` turns that into a set member, and `ConflictDetector.detect`
groups the active claims by event and field and reports the groups that hold
more than one value across at least two sources.

Normalised values are Python values compared with `==`.  A boolean becomes the
tuple `("__bool__", b)`, and inside a tuple `True` equals `1`; a NaN, which only
a numeral string such as `"nan"` can produce, equals nothing.
-/

namespace Atlas

/-- A Python value up to `==`: numbers are kept by their exact value. -/
inductive PyVal where
  | none
  | num (x : PyFloat)
  | str (s : String)
  | tuple (xs : List PyVal)
  | list (xs : List PyVal)
  | dict (kvs : List (String × PyVal))
deriving Repr

mutual
def PyVal.beq : PyVal → PyVal → Bool
  | .none, .none => true
  | .num a, .num b => a == b
  | .str a, .str b => a == b
  | .tuple xs, .tuple ys => PyVal.beqList xs ys
  | .list xs, .list ys => PyVal.beqList xs ys
  | .dict xs, .dict ys => PyVal.beqFields xs ys
  | _, _ => false

def PyVal.beqList : List PyVal → List PyVal → Bool
  | [], [] => true
  | x :: xs, y :: ys => PyVal.beq x y && PyVal.beqList xs ys
  | _, _ => false

def PyVal.beqFields : List (String × PyVal) → List (String × PyVal) → Bool
  | [], [] => true
  | (k, x) :: xs, (l, y) :: ys => k == l && PyVal.beq x y && PyVal.beqFields xs ys
  | _, _ => false
end

mutual
theorem PyVal.beq_iff : ∀ a b : PyVal, PyVal.beq a b = true ↔ a = b
  | .none, b => by cases b <;> simp [PyVal.beq]
  | .num a, b => by cases b <;> simp [PyVal.beq]
  | .str a, b => by cases b <;> simp [PyVal.beq]
  | .tuple xs, b => by
      cases b <;> simp [PyVal.beq]
      exact PyVal.beqList_iff xs _
  | .list xs, b => by
      cases b <;> simp [PyVal.beq]
      exact PyVal.beqList_iff xs _
  | .dict xs, b => by
      cases b <;> simp [PyVal.beq]
      exact PyVal.beqFields_iff xs _

theorem PyVal.beqList_iff : ∀ xs ys : List PyVal, PyVal.beqList xs ys = true ↔ xs = ys
  | [], ys => by cases ys <;> simp [PyVal.beqList]
  | x :: xs, ys => by
      cases ys with
      | nil => simp [PyVal.beqList]
      | cons y ys => simp [PyVal.beqList, PyVal.beq_iff x y, PyVal.beqList_iff xs ys]

theorem PyVal.beqFields_iff : ∀ xs ys : List (String × PyVal),
    PyVal.beqFields xs ys = true ↔ xs = ys
  | [], ys => by cases ys <;> simp [PyVal.beqFields]
  | (k, x) :: xs, ys => by
      cases ys with
      | nil => simp [PyVal.beqFields]
      | cons y ys =>
          obtain ⟨l, y⟩ := y
          simp [PyVal.beqFields, PyVal.beq_iff x y, PyVal.beqFields_iff xs ys]
end

instance : DecidableEq PyVal := fun a b =>
  decidable_of_iff _ (PyVal.beq_iff a b)

mutual
/-- A NaN occurs somewhere in the value. -/
def PyVal.hasNan : PyVal → Bool
  | .num .nan => true
  | .tuple xs => PyVal.hasNanList xs
  | .list xs => PyVal.hasNanList xs
  | .dict kvs => PyVal.hasNanFields kvs
  | _ => false

def PyVal.hasNanList : List PyVal → Bool
  | [] => false
  | x :: xs => PyVal.hasNan x || PyVal.hasNanList xs

def PyVal.hasNanFields : List (String × PyVal) → Bool
  | [] => false
  | (_, x) :: kvs => PyVal.hasNan x || PyVal.hasNanFields kvs
end

/-- Python's `==` between two separately computed values: every NaN is an object
of its own, so a value that holds one equals nothing. -/
def PyVal.pyEq (a b : PyVal) : Bool := decide (a = b) && !a.hasNan

theorem PyVal.pyEq_symm {a b : PyVal} (h : a.pyEq b = true) : b.pyEq a = true := by
  simp only [PyVal.pyEq, Bool.and_eq_true, decide_eq_true_eq] at h ⊢
  exact ⟨h.1.symm, h.1 ▸ h.2⟩

theorem PyVal.pyEq_trans {a b c : PyVal} (hab : a.pyEq b = true) (hbc : b.pyEq c = true) :
    a.pyEq c = true := by
  simp only [PyVal.pyEq, Bool.and_eq_true, decide_eq_true_eq] at hab hbc ⊢
  exact ⟨hab.1.trans hbc.1, hab.2⟩

/-! ## Normalisation -/

section Normalise

variable [PyText]

/-- `_coerce_numeric`: an integer numeral in canonical form, else whatever
`float` accepts, else the string itself. -/
def coerceNumeric (value : String) : PyVal :=
  let stripped := strip value
  let asFloat :=
    match pyFloat stripped.toList with
    | some f => .num f
    | none => .str value
  match pyInt stripped.toList with
  | some n =>
      if toString n = stripped ∧ (stripped = "0" ∨ stripped.toList.head? ≠ some '0') then
        .num (.finite n)
      else asFloat
  | none => asFloat

/-- A text that is no integer in canonical form is what `float` makes of it, or itself. -/
theorem coerceNumeric_eq (value : String) :
    (∃ n : Int, (pyInt (strip value).toList = some n ∧ toString n = strip value) ∧
        coerceNumeric value = .num (.finite n)) ∨
      coerceNumeric value = ((pyFloat (strip value).toList).map PyVal.num).getD (.str value) := by
  unfold coerceNumeric
  dsimp only
  cases hint : pyInt (strip value).toList with
  | none =>
      right
      cases pyFloat (strip value).toList <;> rfl
  | some n =>
      by_cases hcanonical : toString n = strip value ∧
          (strip value = "0" ∨ (strip value).toList.head? ≠ some '0')
      · exact .inl ⟨n, ⟨rfl, hcanonical.1⟩, if_pos hcanonical⟩
      · right
        dsimp only
        rw [if_neg hcanonical]
        cases pyFloat (strip value).toList <;> rfl

/-- Order of `sorted(value.items())`; keys are distinct. -/
def sortFields {α : Type} (kvs : List (String × α)) : List (String × α) :=
  kvs.insertionSort fun a b => a.1 ≤ b.1

mutual
/-- `normalize_value`. -/
def normalizeValue : Json → PyVal
  | .null => .none
  | .bool b => .tuple [.str "__bool__", .num (boolNum b).exact]
  | .num n => .num n.exact
  | .str s => coerceNumeric (collapse s)
  | .arr xs => .list (normalizeList xs)
  | .obj kvs => .dict (sortFields (normalizeFields kvs))

def normalizeList : List Json → List PyVal
  | [] => []
  | x :: xs => normalizeValue x :: normalizeList xs

def normalizeFields : List (String × Json) → List (String × PyVal)
  | [] => []
  | (k, x) :: kvs => (k, normalizeValue x) :: normalizeFields kvs
end

end Normalise

mutual
/-- `_make_hashable`: dictionaries become tuples of pairs in key order, lists
become tuples, everything else stays. -/
def makeHashable : PyVal → PyVal
  | .dict kvs => .tuple ((sortFields (hashableFields kvs)).map fun kv => .tuple [.str kv.1, kv.2])
  | .list xs => .tuple (hashableList xs)
  | v => v

def hashableList : List PyVal → List PyVal
  | [] => []
  | x :: xs => makeHashable x :: hashableList xs

def hashableFields : List (String × PyVal) → List (String × PyVal)
  | [] => []
  | (k, x) :: kvs => (k, makeHashable x) :: hashableFields kvs
end

theorem hasNanList_iff (xs : List PyVal) :
    PyVal.hasNanList xs = true ↔ ∃ x ∈ xs, x.hasNan = true := by
  induction xs with
  | nil => simp [PyVal.hasNanList]
  | cons x xs ih => simp [PyVal.hasNanList, ih]

theorem hasNanFields_iff (kvs : List (String × PyVal)) :
    PyVal.hasNanFields kvs = true ↔ ∃ kv ∈ kvs, kv.2.hasNan = true := by
  induction kvs with
  | nil => simp [PyVal.hasNanFields]
  | cons kv kvs ih =>
      obtain ⟨k, x⟩ := kv
      simp [PyVal.hasNanFields, ih]

mutual
/-- Hashing neither hides a NaN nor makes one. -/
theorem hasNan_makeHashable : ∀ v : PyVal, (makeHashable v).hasNan = v.hasNan
  | .none => rfl
  | .num _ => rfl
  | .str _ => rfl
  | .tuple _ => rfl
  | .list xs => by
      simp only [makeHashable, PyVal.hasNan]
      exact hasNanList_hashableList xs
  | .dict kvs => by
      simp only [makeHashable, PyVal.hasNan]
      rw [← hasNanFields_hashableFields kvs]
      rw [Bool.eq_iff_iff, hasNanList_iff, hasNanFields_iff]
      simp [sortFields, PyVal.hasNan, PyVal.hasNanList]

theorem hasNanList_hashableList : ∀ xs : List PyVal,
    PyVal.hasNanList (hashableList xs) = PyVal.hasNanList xs
  | [] => rfl
  | x :: xs => by
      simp [hashableList, PyVal.hasNanList, hasNan_makeHashable x, hasNanList_hashableList xs]

theorem hasNanFields_hashableFields : ∀ kvs : List (String × PyVal),
    PyVal.hasNanFields (hashableFields kvs) = PyVal.hasNanFields kvs
  | [] => rfl
  | (k, x) :: kvs => by
      simp [hashableFields, PyVal.hasNanFields, hasNan_makeHashable x,
        hasNanFields_hashableFields kvs]
end

/-- Equal normalised values have equal set members. -/
theorem pyEq_makeHashable {a b : PyVal} (h : a.pyEq b = true) :
    (makeHashable a).pyEq (makeHashable b) = true := by
  simp only [PyVal.pyEq, Bool.and_eq_true, decide_eq_true_eq] at h ⊢
  rw [hasNan_makeHashable, h.1]
  exact ⟨rfl, h.1 ▸ h.2⟩

/-! ## The set of values of some claims -/

/-- Add a member to a set unless an equal one is there. -/
def insertValue (set : List PyVal) (v : PyVal) : List PyVal :=
  if set.any fun w => w.pyEq v then set else set ++ [v]

theorem length_le_foldl_insertValue (set vs : List PyVal) :
    set.length ≤ (vs.foldl insertValue set).length := by
  induction vs generalizing set with
  | nil => simp
  | cons v vs ih =>
      refine le_trans ?_ (ih (insertValue set v))
      unfold insertValue
      split <;> simp

/-- Folding into the set of one value stays there exactly when every further
value equals it. -/
theorem one_lt_foldl_insertValue (v : PyVal) (vs : List PyVal) :
    1 < (vs.foldl insertValue [v]).length ↔ ∃ w ∈ vs, v.pyEq w = false := by
  induction vs with
  | nil => simp
  | cons w vs ih =>
      cases hw : v.pyEq w with
      | true =>
          have hstay : insertValue [v] w = [v] := by simp [insertValue, hw]
          rw [List.foldl_cons, hstay, ih]
          simp [hw]
      | false =>
          have hgrow : insertValue [v] w = [v, w] := by simp [insertValue, hw]
          rw [List.foldl_cons, hgrow]
          have hlen := length_le_foldl_insertValue [v, w] vs
          constructor
          · intro _
            exact ⟨w, by simp, hw⟩
          · intro _
            exact lt_of_lt_of_le (by simp) hlen

/-- The claims come from at least two sources. -/
def MultiSource (claims : List Claim) : Prop :=
  ∃ a ∈ claims, ∃ b ∈ claims, a.sourceId ≠ b.sourceId

theorem multiSource_iff {claims : List Claim} :
    MultiSource claims ↔ 2 ≤ (Rows.distinct (claims.map Claim.sourceId)).length := by
  rw [Rows.two_le_distinct]
  simp [MultiSource]

section Detect

variable [PyText]

/-- The set member of a claim. -/
def hashableValue (c : Claim) : PyVal := makeHashable (normalizeValue c.fieldValue)

/-- `unique_normalised_values`: the set of distinct normalised values. -/
def uniqueNormalisedValues (claims : List Claim) : List PyVal :=
  (claims.map hashableValue).foldl insertValue []

/-- The claims do not all carry one value. -/
def Disagree (claims : List Claim) : Prop := 1 < (uniqueNormalisedValues claims).length

instance (claims : List Claim) : Decidable (Disagree claims) := by
  unfold Disagree
  infer_instance

/-- Two claims carry one value. -/
def SameValue (a b : Claim) : Prop := (hashableValue a).pyEq (hashableValue b) = true

/-- Claims disagree exactly when two of them carry different values. -/
theorem disagree_iff {claims : List Claim} :
    Disagree claims ↔ ¬ claims.Pairwise SameValue := by
  cases claims with
  | nil => simp [Disagree, uniqueNormalisedValues]
  | cons c cs =>
      have hset : Disagree (c :: cs) ↔ ∃ w ∈ cs.map hashableValue, (hashableValue c).pyEq w = false := by
        unfold Disagree uniqueNormalisedValues
        rw [List.map_cons, List.foldl_cons, ← one_lt_foldl_insertValue]
        simp [insertValue]
      rw [hset, List.pairwise_cons]
      constructor
      · intro h hpair
        obtain ⟨w, hw, hne⟩ := h
        obtain ⟨d, hd, rfl⟩ := List.mem_map.mp hw
        have := hpair.1 d hd
        unfold SameValue at this
        rw [hne] at this
        cases this
      · intro h
        by_contra hall
        push Not at hall
        have hhead : ∀ d ∈ cs, SameValue c d := by
          intro d hd
          have := hall (hashableValue d) (List.mem_map_of_mem hd)
          simpa [SameValue] using this
        refine h ⟨hhead, ?_⟩
        exact List.pairwise_of_forall_mem_list fun a ha b hb =>
          PyVal.pyEq_trans (PyVal.pyEq_symm (hhead a ha)) (hhead b hb)

/-- Disagreement survives adding claims. -/
theorem Disagree.of_sublist {xs ys : List Claim} (h : Disagree xs) (hsub : xs.Sublist ys) :
    Disagree ys := by
  rw [disagree_iff] at h ⊢
  intro hpair
  exact h (hpair.sublist hsub)

/-- Whatever value is singled out, some of the disagreeing claims contradict it. -/
theorem Disagree.exists_ne {claims : List Claim} (h : Disagree claims) (v : PyVal) :
    ∃ c ∈ claims, (normalizeValue c.fieldValue).pyEq v = false := by
  by_contra hall
  push Not at hall
  refine disagree_iff.mp h (List.pairwise_of_forall_mem_list fun a ha b hb => ?_)
  have hav : (normalizeValue a.fieldValue).pyEq v = true := by simpa using hall a ha
  have hbv : (normalizeValue b.fieldValue).pyEq v = true := by simpa using hall b hb
  exact pyEq_makeHashable (PyVal.pyEq_trans hav (PyVal.pyEq_symm hbv))

/-! ## Detection -/

/-- A conflict `detect` reports.  Its identifier is drawn when it is inserted. -/
structure PotentialConflict where
  eventId : Uuid
  fieldName : String
  claimIds : List Uuid
deriving DecidableEq, Repr

/-- The active claims of one event and field, in list order. -/
def fieldGroup (claims : List Claim) (key : Uuid × String) : List Claim :=
  claims.filter fun c => c.isActive ∧ (c.eventId, c.fieldName) = key

/-- One group of `ConflictDetector.detect`. -/
def detectGroup (requireMultipleSources : Bool) (claims : List Claim) (key : Uuid × String) :
    Option PotentialConflict :=
  let fieldClaims := fieldGroup claims key
  if (uniqueNormalisedValues fieldClaims).length ≤ 1 then none
  else if requireMultipleSources ∧ (Rows.distinct (fieldClaims.map Claim.sourceId)).length < 2 then
    none
  else some ⟨key.1, key.2, fieldClaims.map Claim.id⟩

/-- `ConflictDetector.detect`: the groups are visited in the order their first
active claim occurs. -/
def detect (requireMultipleSources : Bool) (claims : List Claim) : List PotentialConflict :=
  (Rows.distinct ((claims.filter Claim.isActive).map fun c => (c.eventId, c.fieldName))).filterMap
    (detectGroup requireMultipleSources claims)

/-- **What detection reports.**  Exactly the groups that disagree across at
least two sources, each with all its claims. -/
theorem mem_detect {claims : List Claim} {p : PotentialConflict} :
    p ∈ detect true claims ↔
      Disagree (fieldGroup claims (p.eventId, p.fieldName)) ∧
        MultiSource (fieldGroup claims (p.eventId, p.fieldName)) ∧
        p.claimIds = (fieldGroup claims (p.eventId, p.fieldName)).map Claim.id := by
  unfold detect
  rw [List.mem_filterMap]
  constructor
  · intro h
    obtain ⟨key, _, hgroup⟩ := h
    dsimp only [detectGroup] at hgroup
    split at hgroup
    · cases hgroup
    · rename_i hvals
      split at hgroup
      · cases hgroup
      · rename_i hsrc
        simp only [Option.some.injEq] at hgroup
        subst hgroup
        refine ⟨not_le.mp hvals, multiSource_iff.mpr ?_, rfl⟩
        by_contra hlt
        exact hsrc ⟨rfl, not_le.mp hlt⟩
  · intro h
    obtain ⟨hdis, hsrc, hids⟩ := h
    refine ⟨(p.eventId, p.fieldName), ?_, ?_⟩
    · obtain ⟨a, ha, _⟩ := hsrc
      have ha' := List.mem_filter.mp ha
      simp only [decide_eq_true_eq, Prod.mk.injEq] at ha'
      rw [Rows.mem_distinct, List.mem_map]
      exact ⟨a, List.mem_filter.mpr ⟨ha'.1, ha'.2.1⟩, by simp [ha'.2.2]⟩
    · unfold detectGroup
      rw [if_neg (not_le.mpr hdis), if_neg]
      · simp [← hids]
      · have := multiSource_iff.mp hsrc
        simp only [true_and, not_lt]
        exact this

/-- No two reported conflicts are about one event and field. -/
theorem detect_nodup (requireMultipleSources : Bool) (claims : List Claim) :
    ((detect requireMultipleSources claims).map fun p => (p.eventId, p.fieldName)).Nodup := by
  have hkey : ∀ key p, detectGroup requireMultipleSources claims key = some p →
      (p.eventId, p.fieldName) = key := by
    intro key p h
    unfold detectGroup at h
    grind
  have hnodup := Rows.nodup_distinct
    ((claims.filter Claim.isActive).map fun c => (c.eventId, c.fieldName))
  unfold detect
  rw [List.map_filterMap]
  refine hnodup.filterMap ?_
  intro a b c ha hb
  simp only [Option.mem_def, Option.map_eq_some_iff] at ha hb
  obtain ⟨p, hp, rfl⟩ := ha
  obtain ⟨q, hq, hpq⟩ := hb
  rw [← hkey a p hp, ← hkey b q hq, hpq]

end Detect

/-! ## The authoritative resolved conflict -/

/-- The ordering key `(version, updated_at)` of `a` is greater than that of `b`. -/
def laterThan (a b : ClaimConflict) : Bool :=
  b.version < a.version ∨ (b.version = a.version ∧ b.updatedAt < a.updatedAt)

/-- One iteration of `latest_resolved_conflicts_by_field`, for one field. -/
def laterResolved (fieldName : String) (best : Option ClaimConflict) (c : ClaimConflict) :
    Option ClaimConflict :=
  if c.status = .resolved ∧ c.fieldName = fieldName then
    match best with
    | none => some c
    | some b => if laterThan c b then some c else some b
  else best

/-- `latest_resolved_conflicts_by_field(conflicts).get(field)`. -/
def latestResolved (conflicts : List ClaimConflict) (fieldName : String) : Option ClaimConflict :=
  conflicts.foldl (laterResolved fieldName) none

theorem foldl_laterResolved_some {fieldName : String} {conflicts : List ClaimConflict}
    {best : Option ClaimConflict} {c : ClaimConflict}
    (h : conflicts.foldl (laterResolved fieldName) best = some c) :
    best = some c ∨ (c ∈ conflicts ∧ c.status = .resolved ∧ c.fieldName = fieldName) := by
  induction conflicts generalizing best with
  | nil => exact Or.inl h
  | cons d ds ih =>
      rcases ih h with hbest | ⟨hmem, hrest⟩
      · clear ih h
        unfold laterResolved at hbest
        grind
      · exact Or.inr ⟨List.mem_cons_of_mem d hmem, hrest⟩

theorem foldl_laterResolved_isSome {fieldName : String} {conflicts : List ClaimConflict}
    {best : Option ClaimConflict}
    (h : best.isSome ∨ ∃ c ∈ conflicts, c.status = .resolved ∧ c.fieldName = fieldName) :
    (conflicts.foldl (laterResolved fieldName) best).isSome := by
  induction conflicts generalizing best with
  | nil => simpa using h
  | cons d ds ih =>
      apply ih
      clear ih
      unfold laterResolved
      grind

/-- The latest resolved conflict of a field is a resolved conflict of it. -/
theorem latestResolved_some {conflicts : List ClaimConflict} {fieldName : String}
    {c : ClaimConflict} (h : latestResolved conflicts fieldName = some c) :
    c ∈ conflicts ∧ c.status = .resolved ∧ c.fieldName = fieldName := by
  rcases foldl_laterResolved_some h with hnone | hsome
  · cases hnone
  · exact hsome

theorem latestResolved_none {conflicts : List ClaimConflict} {fieldName : String}
    (h : latestResolved conflicts fieldName = none) :
    ∀ c ∈ conflicts, c.fieldName = fieldName → c.status ≠ .resolved := by
  intro c hc hf hs
  have : (latestResolved conflicts fieldName).isSome :=
    foldl_laterResolved_isSome (Or.inr ⟨c, hc, hs, hf⟩)
  rw [h] at this
  cases this

end Atlas
