import Atlas.MatchingLaws
import Atlas.NtsbIngestion

/-!
# NTSB records as precedents

Echo builds a precedent from the fields of a projection, and reads them under the
names the importer gave them.  For an event whose only claims are those of one NTSB
record, every field that Echo reads is projected as the importer sent it, except
`aircraft_model`, which the generic aliases have renamed.  So the precedent is the
importer's own exactly when there is no aircraft model to lose.
-/

namespace Atlas

open Outcome Rows

/-! ## The projection of an event with one claim for each field -/

/-- A claim as the normaliser made it. -/
def Claim.normalised (c : Claim) : NormalisedClaim := ⟨c.fieldName, c.fieldValue⟩

/-- The claims of an event that one submission wrote, in any order. -/
structure OnlyClaims (eventId : Uuid) (claims : List Claim) (out : List NormalisedClaim) : Prop where
  event : ∀ c ∈ claims, c.eventId = eventId
  raw : ∀ c ∈ claims, c.claimType = .raw
  values : (claims.map Claim.normalised).Perm out

section Projection

variable [PyText]

/-- One raw claim alone decides its field. -/
theorem tieredValue_single (sources : List Source) {c : Claim} (hraw : c.claimType = .raw) :
    tieredValue sources [c] = some (.value c.fieldValue) := by
  have hagree : ¬ Disagree [c] := by
    rw [disagree_iff, not_not]
    exact List.pairwise_singleton _ _
  have hwinner : chooseWinner [c] sources = some c := by
    simp [chooseWinner, Claim.canWin, hraw]
  simp [tieredValue, ofType, hraw, tierValue, hagree, hwinner]

/-- **The projection of a field** of such an event is the value submitted for it. -/
theorem OnlyClaims.projectField {eventId : Uuid} {claims : List Claim} {out : List NormalisedClaim}
    (h : OnlyClaims eventId claims out) (hnames : (out.map NormalisedClaim.fieldName).Nodup)
    (sources : List Source) (name : String) :
    projectField eventId claims [] sources name =
      (lookup NormalisedClaim.fieldName name out).map fun d => .value d.fieldValue := by
  have hunique : Rows.Unique Claim.fieldName claims := by
    have hperm := h.values.map NormalisedClaim.fieldName
    rw [List.map_map] at hperm
    exact hperm.nodup_iff.mpr hnames
  have hgroup : fieldGroup claims (eventId, name) = claims.filter fun c => c.fieldName = name := by
    unfold fieldGroup
    apply List.filter_congr
    intro c hc
    simp [Claim.isActive, h.raw c hc, h.event c hc, ClaimType.isActive]
  have hplain : Atlas.projectField eventId claims [] sources name =
      tieredValue sources (claims.filter fun c => c.fieldName = name) := by
    unfold Atlas.projectField
    rw [hgroup]
    simp [resolvedWinner, latestResolved]
  rw [hplain]
  cases hfound : lookup NormalisedClaim.fieldName name out with
  | none =>
      rw [lookup_none] at hfound
      have hnil : (claims.filter fun c => c.fieldName = name) = [] := by
        rw [List.filter_eq_nil_iff]
        intro c hc hname
        exact hfound c.normalised (h.values.subset (List.mem_map_of_mem hc))
          (of_decide_eq_true hname)
      rw [hnil]
      simp [tieredValue, ofType, tierValue, chooseWinner, Disagree, uniqueNormalisedValues]
  | some d =>
      obtain ⟨hd, hname⟩ := lookup_some hfound
      obtain ⟨c, hc, rfl⟩ := List.mem_map.mp (h.values.symm.subset hd)
      have hone : (claims.filter fun c => c.fieldName = name) = [c] := by
        rw [← hname]
        exact hunique.filter_key hc
      rw [hone, tieredValue_single sources (h.raw c hc)]
      rfl

end Projection

/-- The fields of a list of claims with distinct names. -/
theorem claimsDataFields_eq {out : List NormalisedClaim}
    (h : Rows.Unique NormalisedClaim.fieldName out) (name : String) :
    claimsDataFields out name =
      ((lookup NormalisedClaim.fieldName name out).map NormalisedClaim.fieldValue).getD .null := by
  cases hfound : lookup NormalisedClaim.fieldName name out with
  | none =>
      apply Ntsb.claimsDataFields_of_notMem
      rw [lookup_none] at hfound
      intro hmem
      obtain ⟨c, hc, hname⟩ := List.mem_map.mp hmem
      exact hfound c hc hname
  | some d =>
      obtain ⟨hd, rfl⟩ := lookup_some hfound
      have hreverse : Rows.Unique NormalisedClaim.fieldName out.reverse := by
        unfold Rows.Unique
        rw [List.map_reverse, List.nodup_reverse]
        exact h
      have hlast := hreverse.lookup_eq (List.mem_reverse.mpr hd)
      unfold lookup at hlast
      unfold claimsDataFields
      rw [hlast]
      rfl

namespace Ntsb

/-! ## Fields by their names -/

theorem NtsbField.genericName_injective : Function.Injective NtsbField.genericName := by
  intro f g h
  exact List.inj_on_of_nodup_map nodup_genericNames (mem_allNtsbFields f) (mem_allNtsbFields g) h

theorem NtsbField.name_injective : Function.Injective NtsbField.name := by
  intro f g h
  exact List.inj_on_of_nodup_map nodup_names (mem_allNtsbFields f) (mem_allNtsbFields g) h

/-- A field is found under its name when no other has it. -/
theorem lookup_named {ps : List (NtsbField × Json)} {out : List NormalisedClaim} {f : NtsbField}
    {name : String}
    (h : List.Forall₂ (fun p d => (p.1 = f → d = ⟨name, p.2⟩) ∧ (p.1 ≠ f → d.fieldName ≠ name))
      ps out) :
    lookup NormalisedClaim.fieldName name out = (ps.lookup f).map fun v => ⟨name, v⟩ := by
  induction h with
  | nil => rfl
  | @cons p d _ _ hd _ ih =>
      rw [lookup_cons, List.lookup_cons, ih]
      by_cases hf : p.1 = f
      · rw [hd.1 hf, if_pos rfl, hf, beq_self_eq_true]
        rfl
      · have hne : (f == p.1) = false := by simpa using fun h => hf h.symm
        rw [if_neg (hd.2 hf), hne]

section Fields

variable [PyText] [PyRepr] [PyUpper] [PyIso]

/-- A field that keeps its name and its value. -/
def Kept (f : NtsbField) : Prop := f.genericName = f.name ∧ fieldCoercer f.name = none

/-- A kept field after normalisation. -/
theorem Normalised.lookup_kept {ps : List (NtsbField × Json)} {out : List NormalisedClaim}
    (h : Normalised ps out) {f : NtsbField} (hf : Kept f) :
    lookup NormalisedClaim.fieldName f.name out = (ps.lookup f).map fun v => ⟨f.name, v⟩ := by
  apply lookup_named
  refine h.imp ?_
  intro p d hd
  constructor
  · rintro rfl
    have hname : externalFieldName none p.1.name = p.1.name := by
      rw [externalFieldName_name, hf.1]
    have hplain := @normalizeClaim_plain _ _ _ _ none ⟨p.1.name, p.2⟩ (by rw [hname]; exact hf.2)
    rw [hd, hname] at hplain
    exact Except.ok.inj hplain
  · intro hne hname
    rw [normalizeClaim_fieldName hd, externalFieldName_name, ← hf.1] at hname
    exact hne (NtsbField.genericName_injective hname)

/-- No normalised claim is named `aircraft_model`. -/
theorem Normalised.no_aircraftModel {ps : List (NtsbField × Json)} {out : List NormalisedClaim}
    (h : Normalised ps out) : lookup NormalisedClaim.fieldName "aircraft_model" out = none := by
  rw [lookup_none]
  intro d hd hname
  have hnot : "aircraft_model" ∉ out.map NormalisedClaim.fieldName :=
    h.notMem_names (by decide +kernel)
  exact hnot (List.mem_map.mpr ⟨d, hd, hname⟩)

/-- The importer's own claims, by name. -/
theorem dumped_field {rows : EadmsRecord} {decoder : EadmsCodeDecoder}
    {ps : List (NtsbField × Json)} (h : rows.pairs decoder = .ok ps) (f : NtsbField) :
    claimsDataFields ((ps.map claimOf).map fun c => ⟨c.fieldName, c.fieldValue⟩) f.name =
      (ps.lookup f).getD .null := by
  have hunique : Rows.Unique NormalisedClaim.fieldName
      ((ps.map claimOf).map fun c => ⟨c.fieldName, c.fieldValue⟩) := by
    have hnames := ((pairs_sublist h).map NtsbField.name).nodup nodup_names
    unfold Rows.Unique
    simpa [List.map_map, Function.comp_def, claimOf] using hnames
  have hlookup : lookup NormalisedClaim.fieldName f.name
      ((ps.map claimOf).map fun c => ⟨c.fieldName, c.fieldValue⟩) =
        (ps.lookup f).map fun v => ⟨f.name, v⟩ := by
    apply lookup_named
    rw [List.map_map, List.forall₂_map_right_iff, List.forall₂_same]
    intro p hp
    refine ⟨?_, ?_⟩
    · rintro rfl
      rfl
    · intro hne hname
      exact hne (NtsbField.name_injective hname)
  rw [claimsDataFields_eq hunique, hlookup, Option.map_map]
  cases ps.lookup f <;> rfl

/-- A field that Echo reads from the projection. -/
def projectedFields (eventId : Uuid) (claims : List Claim) (sources : List Source) (v : Nat)
    (now : Time) : ClaimFields := fun name =>
  ((serialiseFields (build eventId claims [] sources v now).fields).lookup name).getD .null

omit [PyRepr] [PyUpper] [PyIso] in
theorem projectedFields_eq {eventId : Uuid} {claims : List Claim} {out : List NormalisedClaim}
    (h : OnlyClaims eventId claims out) (hnames : (out.map NormalisedClaim.fieldName).Nodup)
    (sources : List Source) (v : Nat) (now : Time) (name : String) :
    projectedFields eventId claims sources v now name =
      ((lookup NormalisedClaim.fieldName name out).map NormalisedClaim.fieldValue).getD .null := by
  unfold projectedFields
  rw [lookup_serialiseFields, lookup_build, h.projectField hnames]
  cases lookup NormalisedClaim.fieldName name out <;> rfl

theorem Normalised.nodup_names {rows : EadmsRecord} {decoder : EadmsCodeDecoder}
    {ps : List (NtsbField × Json)} {out : List NormalisedClaim} (h : Normalised ps out)
    (hps : rows.pairs decoder = .ok ps) : (out.map NormalisedClaim.fieldName).Nodup := by
  have hnodup := ((pairs_sublist hps).map NtsbField.genericName).nodup nodup_genericNames
  rw [List.map_map] at hnodup
  rw [h.names]
  exact hnodup

end Fields

/-! ## The precedent -/

/-- Leaving out the second of two parts shows, unless it is empty. -/
theorem joinParts_eq_iff (a b : String) :
    joinParts " " [a, ""] = joinParts " " [a, b] ↔ b = "" := by
  constructor
  · intro h
    by_contra hb
    by_cases ha : a = ""
    · simp [joinParts, ha, hb] at h
    · have hone : joinParts " " [a, ""] = some a := by
        simp only [joinParts, List.filter_cons, ha, ne_eq, not_false_eq_true, decide_true, if_true]
        rfl
      have htwo : joinParts " " [a, b] = some (a ++ " " ++ b) := by
        simp only [joinParts, List.filter_cons, ha, hb, ne_eq, not_false_eq_true, decide_true,
          if_true]
        rfl
      rw [hone, htwo, Option.some.injEq] at h
      have hlen := congrArg String.length h
      rw [String.length_append, String.length_append] at hlen
      have hspace : (" " : String).length = 1 := rfl
      omega
  · rintro rfl
    rfl

section Precedent

variable [PyText] [PyRepr] [PyUpper] [PyIso]

/-- What Echo reads besides the aircraft's model. -/
def echoFields : List NtsbField :=
  [.causalFindings, .highestInjuryLevel, .probableCauseNarrative, .factualNarrative, .farPart,
    .aircraftCategory, .occurredOn, .locationCity, .locationState, .aircraftMake]

theorem echoFields_kept : ∀ f ∈ echoFields, Kept f := by
  simp [echoFields, Kept, NtsbField.genericName, NtsbField.name, fieldCoercer]

omit [PyUpper] [PyIso] in
/-- Two records of fields that differ in the aircraft's model only. -/
theorem precedentRecord_ok_iff {a b : ClaimFields} {id : String} {r : PrecedentRecord}
    (hagree : ∀ f ∈ echoFields, a f.name = b f.name)
    (hb : precedentRecordFromNtsbClaims id b = .ok r) :
    precedentRecordFromNtsbClaims id a = .ok r ↔
      joinParts " " [textOrEmpty (b "aircraft_make"), textOrEmpty (a "aircraft_model")] =
        joinParts " " [textOrEmpty (b "aircraft_make"), textOrEmpty (b "aircraft_model")] := by
  have hfindings : a "causal_findings" = b "causal_findings" := hagree .causalFindings (by decide)
  have hseverity : a "highest_injury_level" = b "highest_injury_level" :=
    hagree .highestInjuryLevel (by decide)
  have hcause : a "probable_cause_narrative" = b "probable_cause_narrative" :=
    hagree .probableCauseNarrative (by decide)
  have hfactual : a "factual_narrative" = b "factual_narrative" :=
    hagree .factualNarrative (by decide)
  have hpart : a "far_part" = b "far_part" := hagree .farPart (by decide)
  have hcategory : a "aircraft_category" = b "aircraft_category" :=
    hagree .aircraftCategory (by decide)
  have hdate : a "occurred_on" = b "occurred_on" := hagree .occurredOn (by decide)
  have hcity : a "location_city" = b "location_city" := hagree .locationCity (by decide)
  have hstate : a "location_state" = b "location_state" := hagree .locationState (by decide)
  have hmake : a "aircraft_make" = b "aircraft_make" := hagree .aircraftMake (by decide)
  simp only [precedentRecordFromNtsbClaims, bind_ok, pure_ok] at hb ⊢
  obtain ⟨categories, hcategories, severity, hsev, rfl⟩ := hb
  rw [hfindings, hseverity, hcause, hfactual, hpart, hcategory, hdate, hcity, hstate, hmake,
    hcategories, hsev]
  simp

/-! ## The importer's own precedent -/

omit [PyText] [PyRepr] [PyUpper] [PyIso] in
theorem lookup_put_ne {f g : NtsbField} (h : f ≠ g) (v : Option Json) : (put g v).lookup f = none := by
  rw [List.lookup_eq_none_iff]
  intro p hp
  have hmem := (put_sublist g v).subset (List.mem_map_of_mem hp)
  rw [List.mem_singleton] at hmem
  simpa [hmem] using h

omit [PyText] [PyRepr] [PyUpper] [PyIso] in
theorem lookup_put_text (f : NtsbField) (text : Option String) :
    (put f (text.map .str)).lookup f = (text.filter fun s => strip s ≠ "").map .str := by
  cases text with
  | none => rfl
  | some s =>
      by_cases hs : strip s = "" <;> simp [put, hs]

omit [PyText] [PyUpper] [PyIso] in
/-- The text of a cell is stripped and not blank. -/
theorem cleanStr_some {j : Json} {s : String} (h : cleanStr j = some s) :
    strip s = s ∧ s ≠ "" := by
  have hclean : s = strip (pyStr j) ∧ s ≠ "" := by
    unfold cleanStr at h
    split at h
    · exact absurd h (by simp)
    · split at h
      · exact absurd h (by simp)
      · rename_i hne
        rw [Option.some.injEq] at h
        exact ⟨h.symm, h ▸ hne⟩
  refine ⟨?_, hclean.2⟩
  rw [hclean.1]
  unfold strip
  rw [String.toList_ofList, stripChars_eq_self (head_stripChars _) (last_stripChars _)]

omit [PyText] [PyUpper] [PyIso] in
theorem filter_cleanStr (j : Json) :
    (cleanStr j).filter (fun s => decide (¬ strip s = "")) = cleanStr j := by
  cases h : cleanStr j with
  | none => rfl
  | some s =>
      have hs := cleanStr_some h
      simp [Option.filter, hs.1, hs.2]

omit [PyText] [PyRepr] [PyUpper] [PyIso] in
/-- A block of claims has nothing of a field outside it. -/
theorem lookup_of_sublist {ps : List (NtsbField × Json)} {fs : List NtsbField} {f : NtsbField}
    (h : (ps.map Prod.fst).Sublist fs) (hf : f ∉ fs) : ps.lookup f = none := by
  rw [List.lookup_eq_none_iff]
  intro p hp
  have hmem := h.subset (List.mem_map_of_mem hp)
  have hne : f ≠ p.1 := by
    rintro rfl
    exact hf hmem
  simpa using hne

/-- The severity is a text. -/
theorem lookup_highestInjuryLevel {rows : EadmsRecord} {decoder : EadmsCodeDecoder}
    {ps : List (NtsbField × Json)} (h : rows.pairs decoder = .ok ps) :
    ∃ text : Option String, ps.lookup .highestInjuryLevel = text.map .str := by
  obtain ⟨event, aircraft, hevent, haircraft, rfl⟩ := pairs_ok h
  have hother : aircraft.lookup .highestInjuryLevel = none := by
    obtain ⟨_, _, -, -, haircraft⟩ | ⟨-, rfl⟩ := haircraft
    · exact lookup_of_sublist (aircraftPairs_sublist haircraft) (by decide)
    · rfl
  rw [List.lookup_append, List.lookup_append, hother,
    lookup_of_sublist (narrativePairs_sublist _ _) (by decide)]
  simp only [eventPairs, bind_ok, pure_ok] at hevent
  obtain ⟨time, -, wind, -, gust, -, fatal, -, serious, -, minor, -, uninjured, -, rfl⟩ := hevent
  simp only [putText, putInt, putFloat, List.lookup_append, lookup_put_text]
  simp only [ne_eq, reduceCtorEq, not_false_eq_true, lookup_put_ne, Option.none_or, Option.or_none]
  exact ⟨_, rfl⟩

/-- The aircraft's model is that of the primary aircraft. -/
theorem lookup_aircraftModel {rows : EadmsRecord} {decoder : EadmsCodeDecoder}
    {ps : List (NtsbField × Json)} (h : rows.pairs decoder = .ok ps) :
    ps.lookup .aircraftModel = none ∧ rows.primaryAircraft = .ok none ∨
      ∃ primary, rows.primaryAircraft = .ok (some primary) ∧
        ps.lookup .aircraftModel = (cleanStr (cell primary "acft_model")).map .str := by
  obtain ⟨event, aircraft, hevent, haircraft, rfl⟩ := pairs_ok h
  rw [List.lookup_append, List.lookup_append,
    lookup_of_sublist (eventPairs_sublist hevent) (by decide),
    lookup_of_sublist (narrativePairs_sublist _ _) (by decide), Option.none_or, Option.or_none]
  obtain ⟨sorted, primary, hsorted, hhead, haircraft⟩ | ⟨hnone, rfl⟩ := haircraft
  · refine .inr ⟨primary, ?_, ?_⟩
    · unfold EadmsRecord.primaryAircraft
      simp only [bind_ok, pure_ok]
      exact ⟨sorted, hsorted, hhead⟩
    · simp only [aircraftPairs, bind_ok, pure_ok] at haircraft
      obtain ⟨engines, -, seats, -, rfl⟩ := haircraft
      simp only [putText, putInt, List.lookup_append, lookup_put_text]
      simp only [ne_eq, reduceCtorEq, not_false_eq_true, lookup_put_ne, Option.none_or,
        Option.or_none]
      rw [filter_cleanStr]
  · exact .inl ⟨rfl, hnone⟩

omit [PyText] [PyIso] in
/-- The findings are a list of objects. -/
theorem buildFindingItems_obj {findings : List EadmsRow} {item : Json}
    (h : item ∈ buildFindingItems findings) : ∃ kvs, item = .obj kvs := by
  unfold buildFindingItems at h
  obtain ⟨p, hp, rfl⟩ := List.mem_map.mp h
  obtain ⟨row, -, hrow⟩ := List.mem_filterMap.mp (List.mem_insertionSort _ |>.mp hp)
  unfold findingItem at hrow
  dsimp only at hrow
  split at hrow
  · exact absurd hrow (by simp)
  · rw [Option.some.injEq] at hrow
    exact ⟨_, by rw [← hrow]⟩

theorem lookup_causalFindings {rows : EadmsRecord} {decoder : EadmsCodeDecoder}
    {ps : List (NtsbField × Json)} (h : rows.pairs decoder = .ok ps) :
    ps.lookup .causalFindings = none ∨
      ps.lookup .causalFindings = some (.arr (buildFindingItems rows.findings)) := by
  obtain ⟨event, aircraft, hevent, haircraft, rfl⟩ := pairs_ok h
  have hother : aircraft.lookup .causalFindings = none := by
    obtain ⟨_, _, -, -, haircraft⟩ | ⟨-, rfl⟩ := haircraft
    · exact lookup_of_sublist (aircraftPairs_sublist haircraft) (by decide)
    · rfl
  rw [List.lookup_append, List.lookup_append, hother,
    lookup_of_sublist (eventPairs_sublist hevent) (by decide), Option.none_or, Option.none_or]
  unfold narrativePairs
  simp only [putText, List.lookup_append]
  simp only [ne_eq, reduceCtorEq, not_false_eq_true, lookup_put_ne, Option.none_or]
  split
  · exact .inl rfl
  · exact .inr (by simp [put])

/-- The importer's own claims make a precedent. -/
theorem imported_precedent {rows : EadmsRecord} {decoder : EadmsCodeDecoder}
    {ps : List (NtsbField × Json)} (h : rows.pairs decoder = .ok ps) (id : String) :
    ∃ r, precedentRecordFromNtsbClaims id
      (claimsDataFields ((ps.map claimOf).map fun c => ⟨c.fieldName, c.fieldValue⟩)) = .ok r := by
  have hfindings := dumped_field h .causalFindings
  have hseverity := dumped_field h .highestInjuryLevel
  have hcategories : ∃ categories, findingCategories
      ((ps.lookup .causalFindings).getD .null) = .ok categories := by
    rcases lookup_causalFindings h with hnone | hsome
    · rw [hnone]
      exact ⟨∅, rfl⟩
    · rw [hsome]
      have hkeys : ∃ keys, (buildFindingItems rows.findings).mapM findingKey = .ok keys := by
        apply mapM_total
        intro item hitem
        obtain ⟨kvs, rfl⟩ := buildFindingItems_obj hitem
        exact ⟨_, rfl⟩
      obtain ⟨keys, hkeys⟩ := hkeys
      refine ⟨(keys.filterMap fun k => k).toFinset, ?_⟩
      change categoriesFromFindingItems _ = _
      unfold categoriesFromFindingItems
      simp only [bind_ok, pure_ok]
      exact ⟨keys, hkeys, rfl⟩
  have hsev : ∃ severity, normalizeSeverity
      ((ps.lookup .highestInjuryLevel).getD .null) = .ok severity := by
    obtain ⟨text, htext⟩ := lookup_highestInjuryLevel h
    rw [htext]
    unfold normalizeSeverity
    cases text with
    | none => exact ⟨none, rfl⟩
    | some s =>
        dsimp only [Option.map_some, Option.getD_some]
        split <;> exact ⟨_, rfl⟩
  rw [← hfindings] at hcategories
  rw [← hseverity] at hsev
  obtain ⟨categories, hcategories⟩ := hcategories
  obtain ⟨severity, hsev⟩ := hsev
  simp only [precedentRecordFromNtsbClaims, bind_ok, pure_ok]
  exact ⟨_, categories, hcategories, severity, hsev, rfl⟩

/-! ## The precedent after ingestion -/

/-- The primary aircraft, if any, has no model. -/
def NoAircraftModel (rows : EadmsRecord) : Prop :=
  ∀ primary, rows.primaryAircraft = .ok (some primary) → cleanStr (cell primary "acft_model") = none

/-- The model that Echo would show. -/
theorem imported_model_blank_iff {rows : EadmsRecord} {decoder : EadmsCodeDecoder}
    {ps : List (NtsbField × Json)} (h : rows.pairs decoder = .ok ps) :
    textOrEmpty ((ps.lookup .aircraftModel).getD .null) = "" ↔ NoAircraftModel rows := by
  unfold NoAircraftModel
  rcases lookup_aircraftModel h with ⟨hlookup, hnone⟩ | ⟨primary, hprimary, hlookup⟩
  · rw [hlookup, hnone]
    simp [textOrEmpty, Json.truthy]
  · rw [hlookup, hprimary]
    cases hmodel : cleanStr (cell primary "acft_model") with
    | none => simp [hmodel, textOrEmpty, Json.truthy]
    | some s =>
        have hs := (cleanStr_some hmodel).2
        simp [hmodel, textOrEmpty, Json.truthy, pyStr, hs]

/-- The corpus loader builds the importer's own precedent. -/
def PrecedentSurvives (record : NtsbEventRecord) (eventId : Uuid)
    (projection : ProjectedAccidentRecord) : Prop :=
  ∃ r, precedentRecordFromNtsbClaims (uuidStr eventId) (claimsDataFields record.dumped) = .ok r ∧
    corpusRecord (uuidStr eventId) (serialiseFields projection.fields) = some r

/-- The precedent of the pairs of a record, before and after ingestion. -/
theorem Normalised.precedent_iff {rows : EadmsRecord} {decoder : EadmsCodeDecoder}
    {ps : List (NtsbField × Json)} {out : List NormalisedClaim} {eventId : Uuid}
    {claims : List Claim} {record : NtsbEventRecord} (hnormalised : Normalised ps out)
    (hps : rows.pairs decoder = .ok ps) (hrecord : record.claims = ps.map claimOf)
    (hclaims : OnlyClaims eventId claims out) (sources : List Source) (v : Nat) (now : Time) :
    PrecedentSurvives record eventId (build eventId claims [] sources v now) ↔
      NoAircraftModel rows := by
  have hdumped : record.dumped = (ps.map claimOf).map fun c => ⟨c.fieldName, c.fieldValue⟩ := by
    unfold NtsbEventRecord.dumped
    rw [hrecord]
  have hprojected := projectedFields_eq hclaims (hnormalised.nodup_names hps) sources v now
  obtain ⟨r, hr⟩ := imported_precedent hps (uuidStr eventId)
  have hagree : ∀ f ∈ echoFields, projectedFields eventId claims sources v now f.name =
      claimsDataFields ((ps.map claimOf).map fun c => ⟨c.fieldName, c.fieldValue⟩) f.name := by
    intro f hf
    rw [hprojected, dumped_field hps, hnormalised.lookup_kept (echoFields_kept f hf),
      Option.map_map]
    cases ps.lookup f <;> rfl
  have hlost : textOrEmpty (projectedFields eventId claims sources v now "aircraft_model") = "" := by
    rw [hprojected, hnormalised.no_aircraftModel]
    rfl
  have hmodel := dumped_field hps .aircraftModel
  have hiff := precedentRecord_ok_iff hagree hr
  rw [hlost, joinParts_eq_iff, show ("aircraft_model" : String) = NtsbField.aircraftModel.name from
    rfl, hmodel, imported_model_blank_iff hps] at hiff
  have hcorpus : corpusRecord (uuidStr eventId)
      (serialiseFields (build eventId claims [] sources v now).fields) = some r ↔
        precedentRecordFromNtsbClaims (uuidStr eventId)
          (projectedFields eventId claims sources v now) = .ok r := by
    change (precedentRecordFromNtsbClaims _ (projectedFields eventId claims sources v now)).toOption =
      some r ↔ _
    cases precedentRecordFromNtsbClaims (uuidStr eventId)
      (projectedFields eventId claims sources v now) <;> simp [Except.toOption]
  unfold PrecedentSurvives
  rw [hdumped, ← hiff, ← hcorpus]
  constructor
  · rintro ⟨r', hr', hsurvives⟩
    obtain rfl : r' = r := Except.ok.inj (hr'.symm.trans hr)
    exact hsurvives
  · intro hsurvives
    exact ⟨r, hr, hsurvives⟩

variable [FloatRepr] {sha256 : List Char → String}

/-- **When an NTSB precedent survives ingestion**: exactly when the primary aircraft has
no model to lose. -/
theorem ntsb_precedent_survives_iff {rows : EadmsRecord} {decoder : EadmsCodeDecoder}
    {capturedAt : Time} {record : NtsbEventRecord} {out : List NormalisedClaim} {eventId : Uuid}
    {claims : List Claim}
    (hbuilt : buildEventRecord sha256 rows decoder capturedAt = .ok (some record))
    (hout : externalNormalize record.dumped none = .ok out)
    (hclaims : OnlyClaims eventId claims out) (sources : List Source) (v : Nat) (now : Time) :
    PrecedentSurvives record eventId (build eventId claims [] sources v now) ↔
      NoAircraftModel rows := by
  obtain ⟨evId, ps, -, hps, rfl⟩ := buildEventRecord_ok hbuilt
  exact (externalNormalize_claims hout).precedent_iff hps rfl hclaims sources v now

end Precedent

/-- The claims of event 5 that a submission wrote. -/
def writtenClaims (out : List NormalisedClaim) : List Claim :=
  out.zipIdx.map fun d => ⟨6 + d.2, 5, 0, none, d.1.fieldName, d.1.fieldValue, .raw, 0, none, none⟩

theorem onlyClaims_writtenClaims (out : List NormalisedClaim) :
    OnlyClaims 5 (writtenClaims out) out where
  event := by
    intro c hc
    obtain ⟨d, -, rfl⟩ := List.mem_map.mp hc
    rfl
  raw := by
    intro c hc
    obtain ⟨d, -, rfl⟩ := List.mem_map.mp hc
    rfl
  values := by
    unfold writtenClaims
    rw [List.map_map]
    exact .of_eq (List.zipIdx_map_fst 0 out)

theorem seattle_has_model : ¬ NoAircraftModel seattleAccident := by
  intro h
  have hnone := h seattleAircraft (by decide +kernel)
  exact absurd hnone (by decide +kernel)

theorem seattle_precedent_iff : ∃ record out,
    buildEventRecord seattleDigest seattleAccident noCodes 0 = .ok (some record) ∧
      externalNormalize record.dumped none = .ok out ∧
      (PrecedentSurvives record 5 (build 5 (writtenClaims out) [] [] 1 0) ↔
        NoAircraftModel seattleAccident) := by
  obtain ⟨record, hbuilt, -, out, hout⟩ := seattle_built
  exact ⟨record, out, hbuilt, hout,
    ntsb_precedent_survives_iff hbuilt hout (onlyClaims_writtenClaims out) [] 1 0⟩

theorem not_every_precedent_survives : ¬ ∀ (rows : EadmsRecord) (decoder : EadmsCodeDecoder)
    (capturedAt : Time) (record : NtsbEventRecord) (out : List NormalisedClaim)
    (claims : List Claim),
    buildEventRecord seattleDigest rows decoder capturedAt = .ok (some record) →
      externalNormalize record.dumped none = .ok out → OnlyClaims 5 claims out →
      PrecedentSurvives record 5 (build 5 claims [] [] 1 0) := by
  intro hall
  obtain ⟨record, hbuilt, -, out, hout⟩ := seattle_built
  have hsurvives := hall _ _ _ record out _ hbuilt hout (onlyClaims_writtenClaims out)
  obtain ⟨evId, ps, -, hps, rfl⟩ := buildEventRecord_ok hbuilt
  exact seattle_has_model (((externalNormalize_claims hout).precedent_iff hps rfl
    (onlyClaims_writtenClaims out) [] 1 0).mp hsurvives)

end Ntsb

end Atlas
