import Atlas.Numerals
import Atlas.WinnerPolicy

/-!
# Claims that carry one value

Claims of one field that all carry the same value should not be in conflict.  Normalising is a
function, so they have the same normalised value; but a normalised value that holds a NaN does
not equal itself, and `_coerce_numeric` makes a NaN of the text `"nan"`.
-/

namespace Atlas

section Identical

variable [PyText]

mutual
/-- A text in the value is read as a NaN.  (Or a number is one, which no number of JSON is.) -/
def Json.readsNan : Json → Bool
  | .num n => n.exact = .nan
  | .str s => (collapse s).toList ∈ nanTexts
  | .arr xs => Json.readsNanList xs
  | .obj kvs => Json.readsNanFields kvs
  | _ => false

def Json.readsNanList : List Json → Bool
  | [] => false
  | x :: xs => Json.readsNan x || Json.readsNanList xs

def Json.readsNanFields : List (String × Json) → Bool
  | [] => false
  | (_, x) :: kvs => Json.readsNan x || Json.readsNanFields kvs
end

/-- A coerced text is a number or a text. -/
theorem coerceNumeric_cases (s : String) :
    (∃ x, coerceNumeric s = .num x) ∨ ∃ t, coerceNumeric s = .str t := by
  rcases coerceNumeric_eq s with ⟨n, -, hint⟩ | hfloat
  · exact .inl ⟨_, hint⟩
  · cases hread : pyFloat (strip s).toList with
    | none => exact .inr ⟨s, by rw [hfloat, hread]; rfl⟩
    | some f => exact .inl ⟨f, by rw [hfloat, hread]; rfl⟩

theorem hasNan_coerceNumeric {s : String} :
    (coerceNumeric s).hasNan = true ↔ coerceNumeric s = .num .nan := by
  rcases coerceNumeric_cases s with ⟨x, hx⟩ | ⟨t, ht⟩
  · rw [hx]
    cases x <;> simp [PyVal.hasNan]
  · rw [ht]
    simp [PyVal.hasNan]

omit [PyText] in
theorem hasNan_sortFields (kvs : List (String × PyVal)) :
    PyVal.hasNanFields (sortFields kvs) = PyVal.hasNanFields kvs := by
  rw [Bool.eq_iff_iff, hasNanFields_iff, hasNanFields_iff]
  simp [sortFields]

mutual
/-- A value's normal form holds a NaN exactly when one of its texts is read as one. -/
theorem hasNan_normalizeValue : ∀ v : Json, (normalizeValue v).hasNan = v.readsNan
  | .null => by simp [normalizeValue, PyVal.hasNan, Json.readsNan]
  | .bool b => by simp [normalizeValue, PyVal.hasNan, PyVal.hasNanList, Json.readsNan, boolNum, PyNum.exact]
  | .num n => by
      cases hn : n.exact <;> simp [normalizeValue, PyVal.hasNan, Json.readsNan, hn]
  | .str s => by
      simp only [normalizeValue, Json.readsNan]
      rw [Bool.eq_iff_iff, hasNan_coerceNumeric, coerceNumeric_eq_nan, strip_collapse, decide_eq_true_iff]
  | .arr xs => by
      simp only [normalizeValue, PyVal.hasNan, Json.readsNan]
      exact hasNanList_normalizeList xs
  | .obj kvs => by
      simp only [normalizeValue, PyVal.hasNan, Json.readsNan, hasNan_sortFields]
      exact hasNanFields_normalizeFields kvs

theorem hasNanList_normalizeList : ∀ xs : List Json,
    PyVal.hasNanList (normalizeList xs) = Json.readsNanList xs
  | [] => by simp [normalizeList, PyVal.hasNanList, Json.readsNanList]
  | x :: xs => by
      simp [normalizeList, PyVal.hasNanList, Json.readsNanList, hasNan_normalizeValue x,
        hasNanList_normalizeList xs]

theorem hasNanFields_normalizeFields : ∀ kvs : List (String × Json),
    PyVal.hasNanFields (normalizeFields kvs) = Json.readsNanFields kvs
  | [] => by simp [normalizeFields, PyVal.hasNanFields, Json.readsNanFields]
  | (k, x) :: kvs => by
      simp [normalizeFields, PyVal.hasNanFields, Json.readsNanFields, hasNan_normalizeValue x,
        hasNanFields_normalizeFields kvs]
end

/-! ## The values of the claims -/

/-- Active claims of one field of an event that carry one value. -/
def CarryOneValue (e : Uuid) (f : String) (v : Json) (claims : List Claim) : Prop :=
  ∀ c ∈ claims, c.isActive = true ∧ c.eventId = e ∧ c.fieldName = f ∧ c.fieldValue = v

variable {e : Uuid} {f : String} {v : Json} {claims : List Claim}

/-- Claims that carry one value disagree exactly when there are two and the value holds a NaN. -/
theorem disagree_one_value (h : CarryOneValue e f v claims) :
    Disagree claims ↔ 1 < claims.length ∧ v.readsNan = true := by
  have hsame (a b : Claim) (ha : a ∈ claims) (hb : b ∈ claims) : SameValue a b ↔ v.readsNan = false := by
    unfold SameValue hashableValue PyVal.pyEq
    rw [(h a ha).2.2.2, (h b hb).2.2.2, hasNan_makeHashable, hasNan_normalizeValue]
    simp
  rw [disagree_iff]
  cases hnan : v.readsNan with
  | false =>
      simp only [Bool.false_eq_true, and_false, iff_false, not_not]
      exact List.pairwise_of_forall_mem_list fun a ha b hb => (hsame a b ha hb).mpr hnan
  | true =>
      simp only [and_true]
      match claims with
      | [] => simp
      | [a] => simp
      | a :: b :: rest =>
          refine iff_of_true ?_ (by simp)
          intro hpair
          have hab := (List.pairwise_cons.mp hpair).1 b (by simp)
          rw [hsame a b (by simp) (by simp), hnan] at hab
          cases hab

theorem length_uniqueNormalisedValues_pos (h : claims ≠ []) :
    0 < (uniqueNormalisedValues claims).length := by
  obtain ⟨c, cs, rfl⟩ := List.exists_cons_of_ne_nil h
  have hle := length_le_foldl_insertValue (insertValue [] (hashableValue c)) (cs.map hashableValue)
  have hone : (insertValue [] (hashableValue c)).length = 1 := by simp [insertValue]
  unfold uniqueNormalisedValues
  rw [List.map_cons, List.foldl_cons]
  omega

/-- One value, once. -/
theorem single_value_iff :
    (uniqueNormalisedValues claims).length = 1 ↔ claims ≠ [] ∧ ¬ Disagree claims := by
  unfold Disagree
  constructor
  · intro hone
    refine ⟨?_, by omega⟩
    rintro rfl
    simp [uniqueNormalisedValues] at hone
  · rintro ⟨hne, hle⟩
    have hpos := length_uniqueNormalisedValues_pos hne
    omega

/-! ## Detection and projection -/

omit [PyText] in
theorem fieldGroup_eq_self (h : CarryOneValue e f v claims) : fieldGroup claims (e, f) = claims := by
  unfold fieldGroup
  rw [List.filter_eq_self]
  intro c hc
  obtain ⟨hactive, rfl, rfl, -⟩ := h c hc
  simp [hactive]

theorem detect_eq_nil (h : CarryOneValue e f v claims) (hagree : ¬ Disagree claims) (multi : Bool) :
    detect multi claims = [] := by
  unfold detect
  rw [List.filterMap_eq_nil_iff]
  intro key hkey
  rw [Rows.mem_distinct, List.mem_map] at hkey
  obtain ⟨c, hc, rfl⟩ := hkey
  obtain ⟨-, he, hf, -⟩ := h c (List.mem_filter.mp hc).1
  unfold detectGroup
  dsimp only
  rw [he, hf, fieldGroup_eq_self h, if_pos (not_lt.mp hagree)]

theorem tierValue_one_value {sources : List Source} {tier : List Claim}
    (htier : ∀ c ∈ tier, c.isActive = true ∧ c.fieldValue = v) (hne : tier ≠ [])
    (hagree : ¬ Disagree tier) : tierValue sources tier = some (.value v) := by
  have hall : tier.filter Claim.canWin = tier := by
    rw [List.filter_eq_self]
    intro c hc
    rw [Claim.canWin_eq_isActive]
    exact (htier c hc).1
  unfold tierValue
  rw [if_neg hagree, chooseWinner_eq_argmax, hall]
  cases hbest : tier.argmax (sortKey sources) with
  | none => exact absurd (List.argmax_eq_none.mp hbest) hne
  | some c => simp [(htier c (List.argmax_mem hbest)).2]

theorem tieredValue_one_value (h : CarryOneValue e f v claims) (hne : claims ≠ [])
    (hagree : ¬ Disagree claims) (sources : List Source) :
    tieredValue sources claims = some (.value v) := by
  have htier (t : ClaimType) (hsome : ofType t claims ≠ []) :
      tierValue sources (ofType t claims) = some (.value v) := by
    refine tierValue_one_value ?_ hsome fun hdis => hagree (hdis.of_sublist List.filter_sublist)
    intro c hc
    obtain ⟨hactive, -, -, hvalue⟩ := h c (mem_ofType.mp hc).1
    exact ⟨hactive, hvalue⟩
  unfold tieredValue
  dsimp only
  split
  · rename_i hoverride
    exact htier _ hoverride
  · rename_i hoverride
    split
    · rename_i hconfirmed
      exact htier _ hconfirmed
    · rename_i hconfirmed
      rw [ne_eq, not_not] at hoverride hconfirmed
      refine htier _ ?_
      -- an active claim of no higher tier is a raw one
      obtain ⟨c, cs, rfl⟩ := List.exists_cons_of_ne_nil hne
      have hnone (t : ClaimType) (hempty : ofType t (c :: cs) = []) : c.claimType ≠ t := by
        intro htype
        have hmem : c ∈ ofType t (c :: cs) := mem_ofType.mpr ⟨List.mem_cons_self, htype⟩
        rw [hempty] at hmem
        cases hmem
      have hraw : c.claimType = .raw := by
        have hactive := (h c List.mem_cons_self).1
        have ho := hnone _ hoverride
        have hc := hnone _ hconfirmed
        unfold Claim.isActive ClaimType.isActive at hactive
        cases htype : c.claimType <;> simp_all
      intro hempty
      exact hnone _ hempty hraw

/-- Claims with one value do not conflict: detection reports nothing, there is one normalised
value, and without conflict rows the field is projected with the value. -/
structure NeverConflict (e : Uuid) (f : String) (v : Json) (claims : List Claim) : Prop where
  undetected : ∀ multi, detect multi claims = []
  single : (uniqueNormalisedValues claims).length = 1
  projected : ∀ sources version now,
    (build e claims [] sources version now).fields.lookup f = some (.value v) ∧
      f ∉ (build e claims [] sources version now).unresolvedConflictFields

/-- Two sources report one operator. -/
def reportedTwice (name : String) : List Claim :=
  let report (source : Uuid) : Claim :=
    { id := source, eventId := 5, sourceId := source, rawSnapshotId := source,
      fieldName := "operator", fieldValue := .str name, claimType := .raw, createdAt := source,
      createdBy := none, supersededBy := none }
  [report 0, report 1]

omit [PyText] in
theorem carryOneValue_reportedTwice (name : String) :
    CarryOneValue 5 "operator" (.str name) (reportedTwice name) := by
  intro c hc
  simp only [reportedTwice, List.mem_cons, List.not_mem_nil, or_false] at hc
  rcases hc with rfl | rfl <;> exact ⟨rfl, rfl, rfl, rfl⟩

/-- **Identical values.**  Claims with one value do not conflict exactly when there is one claim, or
there are some and no text in the value is read as a NaN. -/
theorem identical_values_iff (h : CarryOneValue e f v claims) :
    NeverConflict e f v claims ↔
      claims.length = 1 ∨ (claims ≠ [] ∧ v.readsNan = false) := by
  have hcondition : (uniqueNormalisedValues claims).length = 1 ↔
      claims.length = 1 ∨ (claims ≠ [] ∧ v.readsNan = false) := by
    rw [single_value_iff, disagree_one_value h]
    have hpos : claims ≠ [] ↔ 0 < claims.length := List.length_pos_iff.symm
    rw [hpos]
    cases v.readsNan
    · simp
      omega
    · simp
      omega
  rw [← hcondition]
  refine ⟨fun hnever => hnever.single, fun hsingle => ?_⟩
  obtain ⟨hne, hagree⟩ := single_value_iff.mp hsingle
  refine ⟨detect_eq_nil h hagree, hsingle, ?_⟩
  intro sources version now
  have hfield : projectField e claims [] sources f = some (.value v) := by
    unfold projectField
    rw [fieldGroup_eq_self h]
    exact tieredValue_one_value h hne hagree sources
  refine ⟨by rw [lookup_build, hfield], ?_⟩
  unfold build
  dsimp only
  rw [List.mem_filter, hfield]
  simp

end Identical

/-- Two sources that agree on a name do not conflict. -/
theorem reported_names_agree : NeverConflict 5 "operator" (.str "Acme") (reportedTwice "Acme") :=
  (identical_values_iff (carryOneValue_reportedTwice "Acme")).mpr
    (.inr ⟨by simp [reportedTwice], by decide +kernel⟩)

/-- Two sources that agree on the text `"nan"` are in conflict. -/
theorem reported_nans_conflict :
    CarryOneValue 5 "operator" (.str "nan") (reportedTwice "nan") ∧
      detect true (reportedTwice "nan") ≠ [] ∧
        ¬ NeverConflict 5 "operator" (.str "nan") (reportedTwice "nan") := by
  have hdetected : (detect true (reportedTwice "nan")).isEmpty = false := by decide +kernel
  have hne : detect true (reportedTwice "nan") ≠ [] := by simpa using hdetected
  exact ⟨carryOneValue_reportedTwice "nan", hne, fun h => hne (h.undetected true)⟩

end Atlas
