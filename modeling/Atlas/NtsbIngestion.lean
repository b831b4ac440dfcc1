import Atlas.IdentityIndex
import Atlas.Ntsb
import Atlas.Precedents
import Atlas.Replays

/-!
# NTSB records on their way through Atlas

The importer picks its own names, the registry checks and maps names, the identity
index and the precedents of Echo read names.  This module follows the claims of a
record along that way.  The mapping that the load command registers is refused as a
whole.  Under the generic aliases the importer's names stay apart, and two of them
change: `registration_number` becomes `registration`, which the identity index reads,
and `aircraft_model` becomes `aircraft_type`, so that Echo no longer finds it.  The
date stays `occurred_on`, which the identity index does not read.
-/

namespace Atlas

open Outcome Rows

namespace Ntsb

/-! ## The importer's names under the generic aliases -/

/-- The fields in the order of the claims. -/
def allNtsbFields : List NtsbField :=
  [.ntsbNumber, .eventType, .occurredOn, .occurredTimeLocal, .occurredTimezone, .locationCity,
    .locationState, .locationCountry, .latitude, .longitude, .nearestAirportName,
    .nearestAirportDistanceNm, .lightCondition, .ceilingCondition, .visibilityStatuteMiles,
    .temperatureC, .windSpeedKnots, .windGustKnots, .highestInjuryLevel, .fatalitiesTotal,
    .seriousInjuriesTotal, .minorInjuriesTotal, .uninjuredTotal, .registrationNumber,
    .aircraftRegistrationNumbers, .aircraftMake, .aircraftModel, .aircraftSeries,
    .aircraftCategory, .farPart, .aircraftDamage, .amateurBuilt, .engineCount, .totalSeats,
    .probableCauseNarrative, .factualNarrative, .analysisNarrative, .causalFindings]

/-- The name of a claim after normalisation. -/
def NtsbField.genericName : NtsbField → String
  | registrationNumber => "registration"
  | aircraftModel => "aircraft_type"
  | f => f.name

theorem externalFieldName_name (f : NtsbField) : externalFieldName none f.name = f.genericName := by
  cases f <;> decide +kernel

theorem mem_allNtsbFields (f : NtsbField) : f ∈ allNtsbFields := by
  cases f <;> decide

theorem nodup_genericNames : (allNtsbFields.map NtsbField.genericName).Nodup := by
  decide +kernel

theorem nodup_names : (allNtsbFields.map NtsbField.name).Nodup := by
  decide +kernel

/-! ## The pairs of a record -/

section Pairs

variable [PyText] [PyRepr] [PyUpper] [PyIso]

omit [PyText] [PyRepr] [PyUpper] [PyIso] in
theorem put_sublist (f : NtsbField) (v : Option Json) : ((put f v).map Prod.fst).Sublist [f] := by
  unfold put
  split
  · exact List.nil_sublist _
  · exact List.nil_sublist _
  · split
    · exact List.nil_sublist _
    · exact List.Sublist.refl _
  · exact List.Sublist.refl _

omit [PyText] [PyRepr] [PyUpper] [PyIso] in
/-- Claims made one after the other. -/
theorem append_sublist {ps qs : List (NtsbField × Json)} {fs gs : List NtsbField}
    (hps : (ps.map Prod.fst).Sublist fs) (hqs : (qs.map Prod.fst).Sublist gs) :
    ((ps ++ qs).map Prod.fst).Sublist (fs ++ gs) := by
  rw [List.map_append]
  exact hps.append hqs

theorem eventPairs_sublist {row : EadmsRow} {decoder : EadmsCodeDecoder}
    {ps : List (NtsbField × Json)} (h : eventPairs row decoder = .ok ps) :
    (ps.map Prod.fst).Sublist (allNtsbFields.take 23) := by
  simp only [eventPairs, bind_ok, pure_ok] at h
  obtain ⟨time, -, wind, -, gust, -, fatal, -, serious, -, minor, -, uninjured, -, rfl⟩ := h
  apply List.Sublist.trans
  · repeat' apply append_sublist
    all_goals exact put_sublist _ _
  · exact List.Sublist.refl _

omit [PyIso] in
theorem aircraftPairs_sublist {row : EadmsRow} {registrations : List String}
    {decoder : EadmsCodeDecoder} {ps : List (NtsbField × Json)}
    (h : aircraftPairs row registrations decoder = .ok ps) :
    (ps.map Prod.fst).Sublist ((allNtsbFields.drop 23).take 11) := by
  simp only [aircraftPairs, bind_ok, pure_ok] at h
  obtain ⟨engines, -, seats, -, rfl⟩ := h
  apply List.Sublist.trans
  · repeat' apply append_sublist
    all_goals exact put_sublist _ _
  · exact List.Sublist.refl _

omit [PyText] [PyIso] in
theorem narrativePairs_sublist (narrative : EadmsRow) (findings : List EadmsRow) :
    ((narrativePairs narrative findings).map Prod.fst).Sublist (allNtsbFields.drop 34) := by
  unfold narrativePairs
  apply List.Sublist.trans
  · repeat' apply append_sublist
    all_goals exact put_sublist _ _
  · exact List.Sublist.refl _

/-- What the pairs of a record are made of. -/
theorem pairs_ok {rows : EadmsRecord} {decoder : EadmsCodeDecoder} {ps : List (NtsbField × Json)}
    (h : rows.pairs decoder = .ok ps) :
    ∃ event aircraft, eventPairs rows.event decoder = .ok event ∧
      ((∃ sorted primary, sortedAircraft rows.aircraft = .ok sorted ∧ sorted.head? = some primary ∧
          aircraftPairs primary (collectRegistrations [] sorted) decoder = .ok aircraft) ∨
        rows.primaryAircraft = .ok none ∧ aircraft = []) ∧
      ps = event ++ aircraft ++ narrativePairs (rows.narratives.head?.getD []) rows.findings := by
  simp only [EadmsRecord.pairs, bind_ok] at h
  obtain ⟨sorted, hsorted, event, hevent, h⟩ := h
  split at h
  · rename_i primary hhead
    simp only [bind_ok, pure_ok] at h
    obtain ⟨aircraft, haircraft, rfl⟩ := h
    exact ⟨event, aircraft, hevent, .inl ⟨sorted, primary, hsorted, hhead, haircraft⟩, rfl⟩
  · rename_i hhead
    simp only [bind_ok, pure_ok] at h
    obtain ⟨aircraft, rfl, rfl⟩ := h
    refine ⟨event, [], hevent, .inr ⟨?_, rfl⟩, rfl⟩
    unfold EadmsRecord.primaryAircraft
    simp only [bind_ok, pure_ok]
    exact ⟨sorted, hsorted, hhead⟩

/-- A record makes at most one claim for each field, in the order of the fields. -/
theorem pairs_sublist {rows : EadmsRecord} {decoder : EadmsCodeDecoder}
    {ps : List (NtsbField × Json)} (h : rows.pairs decoder = .ok ps) :
    (ps.map Prod.fst).Sublist allNtsbFields := by
  obtain ⟨event, aircraft, hevent, haircraft, rfl⟩ := pairs_ok h
  have hsub : (aircraft.map Prod.fst).Sublist ((allNtsbFields.drop 23).take 11) := by
    obtain ⟨_, _, -, -, haircraft⟩ | ⟨-, rfl⟩ := haircraft
    · exact aircraftPairs_sublist haircraft
    · exact List.nil_sublist _
  exact append_sublist (append_sublist (eventPairs_sublist hevent) hsub)
    (narrativePairs_sublist _ _)

end Pairs

/-! ## The load -/

/-- The claims as the normaliser gets them. -/
def NtsbEventRecord.dumped (record : NtsbEventRecord) : List NormalisedClaim :=
  record.claims.map fun c => ⟨c.fieldName, c.fieldValue⟩

section Load

variable [PyText] [PyRepr] [PyUpper] [PyIso]

/-- The normaliser takes the record under the configuration that the load command
registers: it returns, keeps every claim and tells their names apart. -/
def Accepted (registered : Option SourceFieldMapper) (record : NtsbEventRecord) : Prop :=
  ∃ out, registryNormalize .external record.dumped ntsbFieldMapping registered = .ok out ∧
    out.length = record.claims.length ∧ (out.map NormalisedClaim.fieldName).Nodup

omit [PyText] [PyRepr] [PyUpper] [PyIso] in
/-- The first target of the mapping is no field that Atlas requires. -/
theorem ntsbFieldMapping_refused :
    SourceFieldMapper.make ntsbFieldMapping = .error (.unknownTarget "ntsb_number") := by
  decide +kernel

theorem registryNormalize_ntsb (claims : List NormalisedClaim)
    (registered : Option SourceFieldMapper) :
    registryNormalize .external claims ntsbFieldMapping registered =
      .error (.unknownTarget "ntsb_number") := by
  unfold registryNormalize
  rw [ntsbFieldMapping_refused]
  rfl

variable [FloatRepr] {sha256 : List Char → String}

/-- What a built record is made of. -/
theorem buildEventRecord_ok {rows : EadmsRecord} {decoder : EadmsCodeDecoder} {capturedAt : Time}
    {record : NtsbEventRecord}
    (h : buildEventRecord sha256 rows decoder capturedAt = .ok (some record)) :
    ∃ evId ps, cleanStr (cell rows.event "ev_id") = some evId ∧ rows.pairs decoder = .ok ps ∧
      record = ⟨evId, capturedAt, rawPayload evId rows, ps.map claimOf,
        "ntsb-eadms:" ++ evId ++ ":" ++
          takeText 16 (sha256 (contentMaterial evId rows (ps.map claimOf)).canonicalText),
        sha256 (contentMaterial evId rows (ps.map claimOf)).canonicalText⟩ := by
  unfold buildEventRecord at h
  split at h
  · exact absurd h (by simp)
  · rename_i evId hid
    simp only [bind_ok, pure_ok, Option.some.injEq] at h
    obtain ⟨ps, hps, rfl⟩ := h
    exact ⟨evId, ps, hid, hps, rfl⟩

/-- **The NTSB load is refused**: there is no record whose claims the normaliser takes
under the mapping that the load registers. -/
theorem ntsb_load_refused {rows : EadmsRecord} {decoder : EadmsCodeDecoder} {capturedAt : Time}
    {record : NtsbEventRecord}
    (_hbuilt : buildEventRecord sha256 rows decoder capturedAt = .ok (some record))
    (_hclaims : record.claims ≠ []) (registered : Option SourceFieldMapper) :
    ¬ Accepted registered record := by
  rintro ⟨out, hout, -, -⟩
  rw [registryNormalize_ntsb] at hout
  exact absurd hout (by simp)

end Load

/-- An accident with one aircraft. -/
def seattleAircraft : EadmsRow := [("Aircraft_Key", .str "1"), ("regis_no", .str "N123AB"),
  ("acft_make", .str "CESSNA"), ("acft_model", .str "172")]

def seattleAccident : EadmsRecord where
  event := [("ev_id", .str "20080109X00036"), ("ev_date", .str "01/02/08 00:00:00")]
  aircraft := [seattleAircraft]
  narratives := []
  findings := []

/-- An empty data dictionary. -/
def noCodes : EadmsCodeDecoder := ⟨fun _ _ _ => none⟩

/-- The claims made of it. -/
def seattleClaims : List IngestionClaimDTO :=
  [claimOf (.occurredOn, .str "2008-01-02"), claimOf (.registrationNumber, .str "N123AB"),
    claimOf (.aircraftRegistrationNumbers, .arr [.str "N123AB"]),
    claimOf (.aircraftMake, .str "CESSNA"), claimOf (.aircraftModel, .str "172")]

/-- A digest given on some texts; every other text is marked and kept. -/
def tableDigest (table : List (List Char × String)) (text : List Char) : String :=
  (table.lookup text).getD (String.ofList ("text: 0123456789 ".toList ++ text))

/-- SHA-256 on the content of the accident. -/
def seattleDigest : List Char → String := tableDigest
  [((contentMaterial "20080109X00036" seattleAccident seattleClaims).canonicalText,
    "d4d63710dc2c772004e4fe7bb7d53a080cd5df2a14a6065f485b54b4252bb88f")]

theorem seattle_built : ∃ record,
    buildEventRecord seattleDigest seattleAccident noCodes 0 = .ok (some record) ∧
      record.claims ≠ [] ∧ ∃ out, externalNormalize record.dumped none = .ok out := by
  have hbuilt : ∃ r, buildEventRecord seattleDigest seattleAccident noCodes 0 = .ok r ∧
      (r.any fun record => record.claims.length ≠ 0 ∧
        (externalNormalize record.dumped none).toOption.isSome) = true :=
    exists_ok_of_any (by decide +kernel)
  obtain ⟨r, hbuilt, hr⟩ := hbuilt
  cases r with
  | none => exact absurd hr (by simp)
  | some record =>
      simp only [Option.any_some, decide_eq_true_eq] at hr
      refine ⟨record, hbuilt, ?_, ?_⟩
      · intro hnil
        exact hr.1 (by simp [hnil])
      · cases hout : externalNormalize record.dumped none with
        | error e => simp [hout, Except.toOption] at hr
        | ok out => exact ⟨out, rfl⟩

theorem seattle_load_refused : ∃ record,
    buildEventRecord seattleDigest seattleAccident noCodes 0 = .ok (some record) ∧
      record.claims ≠ [] ∧ ¬ Accepted none record := by
  obtain ⟨record, hbuilt, hclaims, -⟩ := seattle_built
  exact ⟨record, hbuilt, hclaims, ntsb_load_refused hbuilt hclaims none⟩

theorem not_every_load_accepted : ¬ ∀ (rows : EadmsRecord) (decoder : EadmsCodeDecoder)
    (capturedAt : Time) (record : NtsbEventRecord),
    buildEventRecord seattleDigest rows decoder capturedAt = .ok (some record) →
      record.claims ≠ [] → Accepted none record := by
  intro hall
  obtain ⟨record, hbuilt, hclaims, -⟩ := seattle_built
  obtain ⟨out, hout, -, -⟩ := hall _ _ _ record hbuilt hclaims
  rw [registryNormalize_ntsb] at hout
  exact absurd hout (by simp)

/-! ## Claims under the generic aliases -/

section Generic

variable [PyText] [PyRepr] [PyUpper] [PyIso]

theorem normalizeClaim_fieldName {mapper : Option SourceFieldMapper} {c d : NormalisedClaim}
    (h : normalizeClaim mapper c = .ok d) : d.fieldName = externalFieldName mapper c.fieldName := by
  unfold normalizeClaim at h
  dsimp only at h
  split at h
  · simp only [Except.ok.injEq] at h
    rw [← h]
  · split at h
    · exact absurd h (by simp)
    · split at h
      · simp only [Except.ok.injEq] at h
        rw [← h]
      · split at h
        · exact absurd h (by simp)
        · simp only [Except.ok.injEq] at h
          rw [← h]
      · exact absurd h (by simp)

/-- A field without a coercer keeps its value. -/
theorem normalizeClaim_plain {mapper : Option SourceFieldMapper} {c : NormalisedClaim}
    (h : fieldCoercer (externalFieldName mapper c.fieldName) = none) :
    normalizeClaim mapper c = .ok ⟨externalFieldName mapper c.fieldName, c.fieldValue⟩ := by
  unfold normalizeClaim
  dsimp only
  rw [h]

/-- The claims of a record, normalised. -/
def Normalised (ps : List (NtsbField × Json)) (out : List NormalisedClaim) : Prop :=
  List.Forall₂ (fun p d => normalizeClaim none ⟨p.1.name, p.2⟩ = .ok d) ps out

theorem externalNormalize_claims {ps : List (NtsbField × Json)} {out : List NormalisedClaim}
    (h : externalNormalize ((ps.map claimOf).map fun c => ⟨c.fieldName, c.fieldValue⟩) none =
      .ok out) : Normalised ps out := by
  unfold externalNormalize at h
  rw [mapM_ok, List.map_map, List.forall₂_map_left_iff] at h
  exact h

/-- The names of the normalised claims. -/
theorem Normalised.names {ps : List (NtsbField × Json)} {out : List NormalisedClaim}
    (h : Normalised ps out) :
    out.map NormalisedClaim.fieldName = ps.map fun p => p.1.genericName := by
  induction h with
  | nil => rfl
  | cons hd _ ih =>
      rw [List.map_cons, List.map_cons, ih, normalizeClaim_fieldName hd, externalFieldName_name]

/-! ## The identity of an imported event -/

/-- The identity entry of normalised claims has the date and the registration, and a
report of that date and registration is attached to it. -/
structure Identified (out : List NormalisedClaim) (d : PyDate) (regisNo : String)
    (eventId : Uuid) (now : Time) : Prop where
  date : (buildIdentityEntry eventId (claimsDataFields out) now).eventDateNorm = some (some d)
  registration : (buildIdentityEntry eventId (claimsDataFields out) now).registrationNorm =
    normReg (.str regisNo)
  attached : ∀ incoming : ClaimFields, incoming "event_date" = .str d.isoformat →
    incoming "registration" = .str regisNo →
    highConfidence ≤
      (scoreMatch incoming (buildIdentityEntry eventId (claimsDataFields out) now).fields).score

omit [PyText] [PyRepr] [PyUpper] [PyIso] in
/-- A field that no claim has reads as `None`. -/
theorem claimsDataFields_of_notMem {out : List NormalisedClaim} {name : String}
    (h : name ∉ out.map NormalisedClaim.fieldName) : claimsDataFields out name = .null := by
  have hnone : (out.reverse.find? fun c => c.fieldName = name) = none := by
    rw [List.find?_eq_none]
    intro c hc hname
    exact h (List.mem_map.mpr ⟨c, List.mem_reverse.mp hc, by simpa using hname⟩)
  unfold claimsDataFields
  rw [hnone]

/-- A name that the importer's fields do not get is the name of no claim. -/
theorem Normalised.notMem_names {ps : List (NtsbField × Json)} {out : List NormalisedClaim}
    (h : Normalised ps out) {name : String}
    (hname : name ∉ allNtsbFields.map NtsbField.genericName) :
    name ∉ out.map NormalisedClaim.fieldName := by
  rw [h.names]
  intro hmem
  obtain ⟨p, -, hp⟩ := List.mem_map.mp hmem
  exact hname (List.mem_map.mpr ⟨p.1, mem_allNtsbFields p.1, hp⟩)

/-- No claim of a record is named `event_date`. -/
theorem Normalised.no_eventDate {ps : List (NtsbField × Json)} {out : List NormalisedClaim}
    (h : Normalised ps out) : claimsDataFields out "event_date" = .null :=
  claimsDataFields_of_notMem (h.notMem_names (by decide +kernel))

theorem Normalised.not_identified {ps : List (NtsbField × Json)} {out : List NormalisedClaim}
    (h : Normalised ps out) (d : PyDate) (registration : String) (eventId : Uuid) (now : Time) :
    ¬ Identified out d registration eventId now := by
  intro hid
  have hdate := hid.date
  unfold buildIdentityEntry at hdate
  simp [h.no_eventDate, Json.truthy] at hdate

variable [FloatRepr] {sha256 : List Char → String}

/-- **The identity of an imported event does not reach the matcher**: the date of an
accident is never in the identity entry of its claims. -/
theorem ntsb_event_never_identified {rows : EadmsRecord} {decoder : EadmsCodeDecoder}
    {capturedAt : Time} {record : NtsbEventRecord} {d : PyDate} {primary : EadmsRow}
    {registration : String}
    (hbuilt : buildEventRecord sha256 rows decoder capturedAt = .ok (some record))
    (_hdate : parseEventDate (cell rows.event "ev_date") = some d)
    (_hprimary : rows.primaryAircraft = .ok (some primary))
    (_hregistration : cleanStr (cell primary "regis_no") = some registration)
    (eventId : Uuid) (now : Time) :
    ¬ ∃ out, externalNormalize record.dumped none = .ok out ∧
      Identified out d registration eventId now := by
  rintro ⟨out, hout, hid⟩
  obtain ⟨evId, ps, -, hps, rfl⟩ := buildEventRecord_ok hbuilt
  exact (externalNormalize_claims hout).not_identified d registration eventId now hid

end Generic

/-- The date of the accident. -/
def seattleDate : PyDate := ⟨2008, 1, 2, by decide⟩

theorem seattle_identity : parseEventDate (cell seattleAccident.event "ev_date") = some seattleDate ∧
    seattleAccident.primaryAircraft = .ok (some seattleAircraft) ∧
    cleanStr (cell seattleAircraft "regis_no") = some "N123AB" := by
  decide +kernel

theorem seattle_never_identified : ∃ record,
    buildEventRecord seattleDigest seattleAccident noCodes 0 = .ok (some record) ∧
      ¬ ∃ out, externalNormalize record.dumped none = .ok out ∧
        Identified out seattleDate "N123AB" 5 0 := by
  obtain ⟨record, hbuilt, -⟩ := seattle_built
  obtain ⟨hdate, hprimary, hregistration⟩ := seattle_identity
  exact ⟨record, hbuilt, ntsb_event_never_identified hbuilt hdate hprimary hregistration 5 0⟩

theorem not_every_event_identified : ¬ ∀ (rows : EadmsRecord) (decoder : EadmsCodeDecoder)
    (capturedAt : Time) (record : NtsbEventRecord) (d : PyDate) (primary : EadmsRow)
    (registration : String),
    buildEventRecord seattleDigest rows decoder capturedAt = .ok (some record) →
      parseEventDate (cell rows.event "ev_date") = some d →
      rows.primaryAircraft = .ok (some primary) →
      cleanStr (cell primary "regis_no") = some registration →
      ∃ out, externalNormalize record.dumped none = .ok out ∧
        Identified out d registration 5 0 := by
  intro hall
  obtain ⟨record, hbuilt, -⟩ := seattle_built
  obtain ⟨hdate, hprimary, hregistration⟩ := seattle_identity
  obtain ⟨out, hout, hid⟩ := hall _ _ _ record _ _ _ hbuilt hdate hprimary hregistration
  obtain ⟨evId, ps, -, hps, rfl⟩ := buildEventRecord_ok hbuilt
  exact (externalNormalize_claims hout).not_identified _ _ _ _ hid

end Ntsb

end Atlas
