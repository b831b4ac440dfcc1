import Atlas.Idempotency

/-!
# Repeated submissions

A run of a source is answered once.  The hash of a submission tells apart what the
client sent: the payload and the claims up to the order of object keys and of the
claims, the trimmed source record id, the explicit event and the capture time.  A
committed snapshot keeps its hash and its result through every later operation, so
the same content is answered from the stored result and other content is refused.
-/

namespace Atlas

open Codes Outcome

/-! ## What a submission says -/

/-- A claim up to the order of the keys in its value. -/
def IngestionClaimDTO.content (c : IngestionClaimDTO) : String × Json :=
  (c.fieldName, c.fieldValue.canonical)

/-- Two requests with the same content, the claims in any order. -/
structure SameContent (a b : IngestRequest) : Prop where
  payload : (Json.obj a.rawPayload).canonical = (Json.obj b.rawPayload).canonical
  claims : (a.claimsData.map IngestionClaimDTO.content).Perm
    (b.claimsData.map IngestionClaimDTO.content)
  record : Db.normaliseSourceRecordId a.sourceRecordId = Db.normaliseSourceRecordId b.sourceRecordId
  event : a.eventId = b.eventId
  captured : a.capturedAt = b.capturedAt

theorem uuidStr_injective [Pydantic] : Function.Injective uuidStr := by
  intro a b h
  have hread := congrArg (fun s => Pydantic.uuid (.str s)) h
  simpa only [Pydantic.uuid_str, Option.some.injEq] using hread

theorem isoformat_injective [Pydantic] : Function.Injective (Pydantic.isoformat) := by
  intro a b h
  have hread := congrArg (fun s => Pydantic.datetime (.str s)) h
  simpa only [Pydantic.datetime_isoformat, Option.some.injEq] using hread

theorem Json.ofText_injective : Function.Injective Json.ofText := by
  intro a b h
  cases a <;> cases b <;> simp_all [Json.ofText]

/-! ## Sorting the claims -/

section Claims

variable [FloatRepr]

/-- The order of the claims in a fingerprint, on their contents. -/
def byText (p q : String × Json) : Prop := toLex (p.1, p.2.render) ≤ toLex (q.1, q.2.render)

instance : DecidableRel byText := fun p q =>
  inferInstanceAs (Decidable (toLex (p.1, p.2.render) ≤ toLex (q.1, q.2.render)))

instance : Std.Total byText := ⟨fun p q => le_total (toLex (p.1, p.2.render)) (toLex (q.1, q.2.render))⟩

instance : IsTrans (String × Json) byText := ⟨fun _ _ _ hab hbc => le_trans hab hbc⟩

/-- The item of a fingerprint that says so. -/
def contentItem (p : String × Json) : Json := .obj [("field_name", .str p.1), ("field_value", p.2)]

/-- On values with a text the order decides which comes first. -/
theorem byText_antisymm {p q : String × Json} (hp : p.2.dumpable = true) (hq : q.2.dumpable = true)
    (hpq : byText p q) (hqp : byText q p) : p = q := by
  have hkey : (p.1, p.2.render) = (q.1, q.2.render) := toLex_inj.mp (le_antisymm hpq hqp)
  obtain ⟨hname, htext⟩ := Prod.mk.inj hkey
  have hvalue := Json.render_inj p.2 q.2 [] [] hp hq (leaves_nil _) (leaves_nil _)
    (congrArg (· ++ []) htext)
  exact Prod.ext hname hvalue.1

/-- The sorted contents say which contents there are, and nothing of their
order. -/
theorem sorted_eq_iff {ps qs : List (String × Json)} (hps : ∀ p ∈ ps, p.2.dumpable = true)
    (hqs : ∀ q ∈ qs, q.2.dumpable = true) :
    ps.insertionSort byText = qs.insertionSort byText ↔ ps.Perm qs := by
  constructor
  · intro h
    have hleft := List.perm_insertionSort byText ps
    rw [h] at hleft
    exact hleft.symm.trans (List.perm_insertionSort byText qs)
  · intro h
    have hperm : (ps.insertionSort byText).Perm (qs.insertionSort byText) :=
      (List.perm_insertionSort byText ps).trans (h.trans (List.perm_insertionSort byText qs).symm)
    refine hperm.eq_of_pairwise ?_ (List.pairwise_insertionSort byText ps)
      (List.pairwise_insertionSort byText qs)
    intro p q hp hq hpq hqp
    exact byText_antisymm (hps p ((List.mem_insertionSort byText).mp hp))
      (hqs q ((List.mem_insertionSort byText).mp hq)) hpq hqp

theorem canonicalBytes_ok {label : String} {j : Json} {text : List Char} :
    j.canonicalBytes label = .ok text ↔ j.dumpable = true ∧ text = j.canonicalText := by
  unfold Json.canonicalBytes
  split_ifs with h
  · simp [h, eq_comm]
  · simp [h]

/-- A claim with its sort key. -/
def IngestionClaimDTO.keyed (c : IngestionClaimDTO) : (String × List Char) × Json :=
  ((c.fieldName, c.fieldValue.canonicalText), c.fingerprintItem)

theorem keyedClaims_ok {claims : List IngestionClaimDTO} {l : List ((String × List Char) × Json)} :
    keyedClaims claims = .ok l ↔
      (∀ c ∈ claims, c.fieldValue.dumpable = true) ∧ l = claims.map IngestionClaimDTO.keyed := by
  induction claims generalizing l with
  | nil =>
      rw [keyedClaims, List.mapM_nil, pure_ok, List.map_nil]
      exact ⟨fun h => ⟨by simp, h.symm⟩, fun h => h.2.symm⟩
  | cons c claims ih =>
      unfold keyedClaims at ih ⊢
      simp only [List.mapM_cons, bind_ok, pure_ok, canonicalBytes_ok]
      constructor
      · rintro ⟨_, ⟨text, ⟨hc, rfl⟩, rfl⟩, rest, hrest, rfl⟩
        obtain ⟨hall, rfl⟩ := ih.mp hrest
        refine ⟨?_, rfl⟩
        intro d hd
        rcases List.mem_cons.mp hd with rfl | hd
        · exact hc
        · exact hall d hd
      · rintro ⟨hall, rfl⟩
        refine ⟨_, ⟨_, ⟨hall c List.mem_cons_self, rfl⟩, rfl⟩, claims.map IngestionClaimDTO.keyed,
          ih.mpr ⟨fun d hd => hall d (List.mem_cons_of_mem _ hd), rfl⟩, rfl⟩

omit [FloatRepr] in
theorem canonical_fingerprintItem (c : IngestionClaimDTO) :
    c.fingerprintItem.canonical = contentItem c.content := by
  have hle : ("field_name" : String) ≤ "field_value" := by decide
  simp [IngestionClaimDTO.fingerprintItem, Json.canonical, Json.canonicalFields, sortFields,
    contentItem, IngestionClaimDTO.content, hle]

omit [FloatRepr] in
theorem contentItem_injective : Function.Injective contentItem := by
  intro p q h
  simp only [contentItem, Json.obj.injEq, List.cons.injEq, Prod.mk.injEq, Json.str.injEq] at h
  exact Prod.ext h.1.2 h.2.1.2

/-- The claims of a fingerprint in canonical form: the sorted contents. -/
theorem sortedClaims_ok {claims : List IngestionClaimDTO} {items : List Json}
    (h : sortedClaims claims = .ok items) :
    (∀ c ∈ claims, c.fieldValue.dumpable = true) ∧
      items.map Json.canonical =
        ((claims.map IngestionClaimDTO.content).insertionSort byText).map contentItem := by
  unfold sortedClaims at h
  rw [bind_ok] at h
  obtain ⟨keyed, hkeyed, hpure⟩ := h
  rw [pure_ok] at hpure
  obtain ⟨hall, rfl⟩ := keyedClaims_ok.mp hkeyed
  refine ⟨hall, ?_⟩
  have hkeyed : ∀ a ∈ claims, ∀ b ∈ claims,
      byText a.content b.content ↔ toLex a.keyed.1 ≤ toLex b.keyed.1 := fun _ _ _ _ => Iff.rfl
  rw [← hpure,
    ← List.map_insertionSort (fun a b => byText a.content b.content)
      (fun a b => toLex a.1 ≤ toLex b.1) IngestionClaimDTO.keyed claims hkeyed,
    ← List.map_insertionSort (fun a b => byText a.content b.content) byText _ claims
      (fun _ _ _ _ => Iff.rfl), List.map_map, List.map_map, List.map_map]
  exact List.map_congr_left fun c _ => canonical_fingerprintItem c

end Claims

/-! ## The hash tells contents apart -/

section Hash

variable [FloatRepr] [Pydantic] {sha256 : List Char → String} {settings : IngestionSettings}

/-- The hash material with its keys in order. -/
theorem submissionHashMaterial_ok {req : IngestRequest} {record : Option String} {material : Json}
    (h : submissionHashMaterial req record = .ok material) :
    (∀ c ∈ req.claimsData, c.fieldValue.dumpable = true) ∧
      material.canonical = .obj [
        ("captured_at", .ofText (req.capturedAt.map Pydantic.isoformat)),
        ("claims_data", .arr (((req.claimsData.map IngestionClaimDTO.content).insertionSort
          byText).map contentItem)),
        ("event_id", .ofText (req.eventId.map uuidStr)),
        ("raw_payload", (Json.obj req.rawPayload).canonical),
        ("raw_payload_hash", .null), ("schema_version", .num (.int 1)),
        ("source_record_id", .ofText record)] := by
  have htext : ∀ t : Option String, (Json.ofText t).canonical = Json.ofText t := by
    intro t
    cases t <;> rfl
  unfold submissionHashMaterial submissionFingerprint at h
  simp only [bind_ok, pure_ok] at h
  obtain ⟨_, ⟨items, hitems, rfl⟩, rfl⟩ := h
  obtain ⟨hall, hsorted⟩ := sortedClaims_ok hitems
  refine ⟨hall, ?_⟩
  have harr : (Json.arr items).canonical = .arr (items.map Json.canonical) := by
    rw [Json.canonical, Json.canonicalList_eq]
  have hnone : Json.ofText none = .null := rfl
  rw [← hsorted, ← harr]
  simp [Json.canonical, Json.canonicalFields, sortFields, htext, hnone]

/-- Two materials are the same up to the order of keys exactly when the requests
have the same content. -/
theorem material_canonical_eq_iff {a b : IngestRequest} {ma mb : Json}
    (ha : submissionHashMaterial a (Db.normaliseSourceRecordId a.sourceRecordId) = .ok ma)
    (hb : submissionHashMaterial b (Db.normaliseSourceRecordId b.sourceRecordId) = .ok mb) :
    ma.canonical = mb.canonical ↔ SameContent a b := by
  obtain ⟨hda, hma⟩ := submissionHashMaterial_ok ha
  obtain ⟨hdb, hmb⟩ := submissionHashMaterial_ok hb
  have hdump : ∀ claims : List IngestionClaimDTO, (∀ c ∈ claims, c.fieldValue.dumpable = true) →
      ∀ p ∈ claims.map IngestionClaimDTO.content, p.2.dumpable = true := by
    intro claims hclaims p hp
    obtain ⟨c, hc, rfl⟩ := List.mem_map.mp hp
    exact (Json.dumpable_canonical c.fieldValue).trans (hclaims c hc)
  have hclaims := sorted_eq_iff (hdump _ hda) (hdump _ hdb)
  rw [hma, hmb]
  simp only [Json.obj.injEq, List.cons.injEq, Prod.mk.injEq, true_and, and_true, Json.arr.injEq,
    Json.ofText_injective.eq_iff, (Option.map_injective isoformat_injective).eq_iff,
    (Option.map_injective uuidStr_injective).eq_iff,
    (List.map_injective_iff.mpr contentItem_injective).eq_iff]
  constructor
  · rintro ⟨htime, hsorted, hevent, hraw, hrecord⟩
    exact ⟨hraw, hclaims.mp hsorted, hrecord, hevent, htime⟩
  · intro h
    exact ⟨h.captured, hclaims.mpr h.claims, h.event, h.payload, h.record⟩

/-- A request that passes validation, taken apart. -/
structure Validated (sha256 : List Char → String) (settings : IngestionSettings)
    (req : IngestRequest) (hashes : Hashes) (material : Json) : Prop where
  some : req.claimsData.isEmpty = false
  few : req.claimsData.length ≤ settings.maxClaimsPerRequest
  rawDumpable : (Json.obj req.rawPayload).dumpable = true
  rawSmall : (Json.obj req.rawPayload).canonicalText.length ≤ settings.maxRawPayloadBytes
  made : submissionHashMaterial req (Db.normaliseSourceRecordId req.sourceRecordId) = .ok material
  dumpable : material.dumpable = true
  small : material.canonicalText.length ≤ settings.maxRawPayloadBytes
  fields : duplicateFields (req.claimsData.map fun c => ⟨c.fieldName, c.fieldValue⟩) = []
  hashes : hashes = ⟨sha256 (Json.obj req.rawPayload).canonicalText, sha256 material.canonicalText⟩

theorem validateAndHash_ok {req : IngestRequest} {hashes : Hashes} :
    validateAndHash sha256 settings req = .ok hashes ↔
      ∃ material, Validated sha256 settings req hashes material := by
  unfold validateAndHash assertNoDuplicateFields
  simp only [bind_ok, pure_ok, require_ok, canonicalBytes_ok]
  constructor
  · rintro ⟨-, hsome, -, hfew, _, ⟨hraw, rfl⟩, -, hrawSmall, material, hmade, _, ⟨hdump, rfl⟩, -,
      hsmall, -, hfields, rfl⟩
    exact ⟨material, hsome, hfew, hraw, hrawSmall, hmade, hdump, hsmall, hfields, rfl⟩
  · rintro ⟨material, hsome, hfew, hraw, hrawSmall, hmade, hdump, hsmall, hfields, rfl⟩
    exact ⟨(), hsome, (), hfew, _, ⟨hraw, rfl⟩, (), hrawSmall, material, hmade, _, ⟨hdump, rfl⟩, (),
      hsmall, (), hfields, rfl⟩

/-- **The hash tells contents apart.** -/
theorem submissionHash_eq_iff (hsha : Function.Injective sha256) {a b : IngestRequest}
    {ha hb : Hashes} (hva : validateAndHash sha256 settings a = .ok ha)
    (hvb : validateAndHash sha256 settings b = .ok hb) :
    ha.submissionHash = hb.submissionHash ↔ SameContent a b := by
  obtain ⟨ma, hva⟩ := validateAndHash_ok.mp hva
  obtain ⟨mb, hvb⟩ := validateAndHash_ok.mp hvb
  rw [hva.hashes, hvb.hashes, hsha.eq_iff, Json.canonicalText_inj hva.dumpable hvb.dumpable]
  exact material_canonical_eq_iff hva.made hvb.made

/-- Claims whose values all have a text have a fingerprint. -/
theorem exists_material {req : IngestRequest} (record : Option String)
    (hall : ∀ c ∈ req.claimsData, c.fieldValue.dumpable = true) :
    ∃ material, submissionHashMaterial req record = .ok material := by
  have hkeyed := (keyedClaims_ok (l := req.claimsData.map IngestionClaimDTO.keyed)).mpr ⟨hall, rfl⟩
  unfold submissionHashMaterial submissionFingerprint sortedClaims
  rw [hkeyed]
  exact ⟨_, rfl⟩

/-- A repetition of a valid submission is valid and has its hashes. -/
theorem SameContent.validateAndHash {a b : IngestRequest} (h : SameContent a b) {hashes : Hashes}
    (hva : validateAndHash sha256 settings a = .ok hashes) :
    validateAndHash sha256 settings b = .ok hashes := by
  obtain ⟨ma, hva⟩ := validateAndHash_ok.mp hva
  have hlength : a.claimsData.length = b.claimsData.length := by
    simpa only [List.length_map] using h.claims.length_eq
  have hdumpable : ∀ c ∈ b.claimsData, c.fieldValue.dumpable = true := by
    intro c hc
    have hmem := h.claims.mem_iff.mpr (List.mem_map_of_mem hc)
    obtain ⟨d, hd, hcontent⟩ := List.mem_map.mp hmem
    have hvalue : d.fieldValue.canonical = c.fieldValue.canonical := (Prod.mk.inj hcontent).2
    rw [← Json.dumpable_canonical, ← hvalue, Json.dumpable_canonical]
    exact (submissionHashMaterial_ok hva.made).1 d hd
  obtain ⟨mb, hmade⟩ := exists_material (Db.normaliseSourceRecordId b.sourceRecordId)
    hdumpable
  have hmaterial : mb.canonical = ma.canonical :=
    ((material_canonical_eq_iff hva.made hmade).mpr h).symm
  have hraw : (Json.obj b.rawPayload).canonicalText = (Json.obj a.rawPayload).canonicalText :=
    congrArg Json.render h.payload.symm
  have htext : mb.canonicalText = ma.canonicalText := congrArg Json.render hmaterial
  have hnames : (b.claimsData.map IngestionClaimDTO.fieldName).Nodup := by
    have hperm := h.claims.map Prod.fst
    rw [List.map_map, List.map_map] at hperm
    have hnodup := Db.nodup_of_duplicateFields hva.fields
    rw [List.map_map] at hnodup
    exact hperm.nodup_iff.mp hnodup
  refine validateAndHash_ok.mpr ⟨mb, ?_, ?_, ?_, ?_, hmade, ?_, ?_, ?_, ?_⟩
  · have hsome := hva.some
    rw [List.isEmpty_eq_false_iff, ← List.length_pos_iff] at hsome ⊢
    omega
  · exact hlength ▸ hva.few
  · rw [← Json.dumpable_canonical, ← h.payload, Json.dumpable_canonical]
    exact hva.rawDumpable
  · rw [hraw]
    exact hva.rawSmall
  · rw [← Json.dumpable_canonical, hmaterial, Json.dumpable_canonical]
    exact hva.dumpable
  · rw [htext]
    exact hva.small
  · refine Db.duplicateFields_of_nodup ?_
    rw [List.map_map]
    exact hnames
  · rw [hraw, htext]
    exact hva.hashes

end Hash

/-! ## The stored result read back -/

section Stored

variable [Pydantic]

theorem mapM_uuid (ids : List Uuid) :
    (ids.map fun id => Json.str (uuidStr id)).mapM Pydantic.uuid = some ids := by
  induction ids with
  | nil => rfl
  | cons id ids ih => simp [List.mapM_cons, Pydantic.uuid_str, ih]

theorem modelValidate_resultJson (r : IngestionResponse) (now : Time) :
    StoredIngestionResult.modelValidate (ingestionResultJson r now) =
      some ⟨1, some r.eventId, some r.eventId, r.eventCreated, r.snapshotCreated, r.pendingReviewId,
        r.pendingReviewIds, r.attachedBy, some now⟩ := by
  have huuid : ∀ u, nullable Pydantic.uuid (.str (uuidStr u)) = some (some u) := by
    intro u
    simp [nullable, Pydantic.uuid_str]
  have htime : nullable Pydantic.datetime (.str (Pydantic.isoformat now)) = some (some now) := by
    simp [nullable, Pydantic.datetime_isoformat]
  have hpending : nullable Pydantic.uuid (.ofText (r.pendingReviewId.map uuidStr)) =
      some r.pendingReviewId := by
    cases r.pendingReviewId with
    | none => rfl
    | some id => exact huuid id
  have hids : listOf Pydantic.uuid (.arr (r.pendingReviewIds.map fun id => .str (uuidStr id))) =
      some r.pendingReviewIds := mapM_uuid r.pendingReviewIds
  simp [StoredIngestionResult.modelValidate, ingestionResultJson, modelField, List.lookup_cons,
    huuid, htime, hpending, hids, strictBool, Pydantic.int_num, Pydantic.str_str]

omit [Pydantic] in
/-- Ids without repeats that begin with the primary one stay as they are. -/
theorem reviewIds_self {primary : Option Uuid} {ids : List Uuid} (hhead : primary = ids.head?)
    (hnodup : ids.Nodup) : reviewIds primary ids = ids := by
  subst hhead
  cases ids with
  | nil => rfl
  | cons id ids =>
      have hfilter : ids.filter (fun x => x ≠ id) = ids := by
        rw [List.filter_eq_self]
        intro x hx
        have hne : x ≠ id := by
          rintro rfl
          exact (List.nodup_cons.mp hnodup).1 hx
        simpa using hne
      simp only [reviewIds, List.head?_cons, Rows.distinct_of_nodup hnodup]
      rw [List.filter_cons_of_neg (by simp), hfilter]

/-- **Reading a stored result back** gives the result under the current event. -/
theorem Db.resultFromJson_resultJson {s : Db} {r : IngestionResponse} {e : Uuid}
    (hattached : r.attachedBy ≠ "") (hcanonical : s.replayCanonicalId r.eventId = .ok e)
    (now : Time) : s.resultFromJson (ingestionResultJson r now) = .ok (r.replayed e) := by
  have hids : withPrimary r.pendingReviewId (Rows.distinct r.pendingReviewIds) =
      r.pendingReviewIds := by
    rw [Rows.distinct_of_nodup r.distinct, r.primary]
    cases r.pendingReviewIds with
    | nil => rfl
    | cons id ids => simp [withPrimary]
  have hself := reviewIds_self r.primary r.distinct
  unfold Db.resultFromJson
  simp only [bind_ok, fromOption_ok, require_ok, pure_ok]
  refine ⟨_, modelValidate_resultJson r now, (), rfl, r.eventId, rfl, e, hcanonical, ?_⟩
  simp only [hids, if_neg hattached, IngestionResponse.make, IngestionResponse.replayed, hself,
    ← r.primary]

end Stored

/-! ## What a committed snapshot keeps -/

namespace Db

open Rows

/-- The store answers for this snapshot: it is the one of its source and run, its
result is stored, and the event of the result is there. -/
structure Answered (s : Db) (row : RawSnapshot) (result : IngestionResult) : Prop where
  found : s.findBySourceRun row.sourceId row.ingestionRunId = some row
  stored : row.ingestionResult = some result
  event : ∃ x ∈ s.events, x.id = result.eventId

/-- An answered snapshot depends on the snapshots and the ids of the events. -/
theorem Answered.keep {s s' : Db} {row : RawSnapshot} {result : IngestionResult}
    (h : s.Answered row result) (hsnap : s'.snapshots = s.snapshots)
    (hevents : ∀ x ∈ s.events, ∃ y ∈ s'.events, y.id = x.id) : s'.Answered row result := by
  obtain ⟨hfound, hstored, x, hx, hid⟩ := h
  obtain ⟨y, hy, hyx⟩ := hevents x hx
  refine ⟨?_, hstored, y, hy, hyx.trans hid⟩
  unfold findBySourceRun at hfound ⊢
  rw [hsnap]
  exact hfound

section Steps

variable [PyText] {s s' : Db} {call : IngestCall} {sub : Submission} {s₀ s₁ s₂ s₃ : Db}
  {w : ClaimWriteResult} {row : RawSnapshot} {result : IngestionResult}

/-- The snapshots after an ingestion: the old rows, and the new one with its
result. -/
theorem Ingested.snapshots_eq (hwf : s.WellFormed) (h : Ingested s s' call sub s₀ w s₁ s₂ s₃)
    (hstored : s' = s₃.finishIngestion call sub result) :
    s'.snapshots = s.snapshots ++
      [{ snapshotRow sub.snapshotId call with ingestionResult := some result }] := by
  have hold : ∀ r ∈ s.snapshots, decide (r.id = sub.snapshotId) = false := by
    intro r hr
    have hlt := hwf.snapshot_lt r hr
    rw [h.prepared.snapshotId]
    exact decide_eq_false (Nat.ne_of_lt hlt)
  rw [h.snapshots_of hstored, show updateWhere _ _ (s.snapshots ++ _) = _ from List.map_append]
  refine congrArg₂ _ (updateWhere_of_none hold) ?_
  simp [snapshotRow]

/-- A row that is found is found after an ingestion: the new row comes last. -/
theorem Answered.ingested (hwf : s.WellFormed) (hrow : s.Answered row result)
    (h : Ingested s s' call sub s₀ w s₁ s₂ s₃) : s'.Answered row result := by
  obtain ⟨hfound, hres, x, hx, hid⟩ := hrow
  obtain ⟨answer, hstored⟩ := h.finished
  obtain ⟨extra, hevents, -⟩ := h.events
  refine ⟨?_, hres, x, ?_, hid⟩
  · unfold findBySourceRun at hfound ⊢
    rw [h.snapshots_eq hwf hstored, List.find?_append, hfound]
    rfl
  · rw [hevents]
    exact List.mem_append_left _ hx

/-- An ingestion of a new run answers for its snapshot. -/
theorem Ingested.answered (hwf : s.WellFormed) (h : Ingested s s' call sub s₀ w s₁ s₂ s₃)
    (hnew : s.findBySourceRun call.sourceId call.ingestionRunId = none)
    (hanswer : Answers s' s₃ call sub result) :
    s'.Answered { snapshotRow sub.snapshotId call with ingestionResult := some result } result := by
  refine ⟨?_, rfl, ?_⟩
  · unfold findBySourceRun at hnew ⊢
    rw [h.snapshots_eq hwf hanswer.stored, List.find?_append]
    rw [show (snapshotRow sub.snapshotId call).sourceId = call.sourceId from rfl,
      show (snapshotRow sub.snapshotId call).ingestionRunId = call.ingestionRunId from rfl, hnew]
    simp [snapshotRow]
  · obtain ⟨x, hx, hid, -⟩ := h.prepared.live
    rw [hanswer.eventId, h.events_eq]
    exact ⟨x, hx, hid⟩

theorem Answered.change (hI : s.Inv) (hrow : s.Answered row result) (h : Change s s') :
    s'.Answered row result := by
  cases h with
  | upkeep h =>
      obtain ⟨ps, hs, os, rs, rfl⟩ := h
      exact hrow.keep rfl fun x hx => ⟨x, hx, rfl⟩
  | ingested h => exact hrow.ingested hI.wf h
  | resolved h =>
      refine hrow.keep h.snapshots fun x hx => ⟨x, ?_, rfl⟩
      rw [h.events]
      exact hx
  | merged h =>
      refine hrow.keep (h.snapshots hI.wf) fun x hx => ?_
      rw [h.events hI.wf]
      exact ⟨_, mem_updateWhere.mpr ⟨x, hx, rfl⟩, by split <;> rfl⟩

omit [PyText] in
theorem Answered.reopened {rcall : ReopenCall} {c : ClaimConflict} (hrow : s.Answered row result)
    (h : Reopened s s' rcall c) : s'.Answered row result := by
  refine hrow.keep h.snapshots fun x hx => ⟨x, ?_, rfl⟩
  rw [h.events]
  exact hx

/-- **An answered snapshot stays answered** through every run. -/
theorem Answered.run (hI : s.Inv) (hrow : s.Answered row result) (ops : List Op) :
    (Runs.run step s ops).Inv ∧ (Runs.run step s ops).Answered row result := by
  refine Runs.invariant (I := fun t : Db => t.Inv ∧ t.Answered row result) ?_ ⟨hI, hrow⟩ ops
  rintro t op ⟨hI, hrow⟩
  exact ⟨step_inv hI op, step_rule hI.wf hrow (fun _ => hrow.change hI)
    (fun _ _ _ => hrow.reopened) op⟩

end Steps

/-! ## Submitting again -/

section Requests

variable [PyText] [FloatRepr] [Pydantic] {sha256 : List Char → String}
  {settings : IngestionSettings} {s s' : Db} {req : IngestRequest} {serving : Serving}

/-- A request that commits, taken apart: the run was new and the ingestion stored
its answer. -/
theorem executeWithResult_committed {response : IngestionResponse}
    (h : s.executeWithResult sha256 settings req serving = .ok (response, s'))
    (hnew : s.findBySourceRun req.sourceId req.ingestionRunId = none) :
    ∃ hashes result, validateAndHash sha256 settings req = .ok hashes ∧
      s.ingestSourceData (req.call settings hashes serving) = .ok (result, s') ∧
      response = result.response := by
  unfold executeWithResult check at h
  rw [hnew] at h
  simp only [bind_ok, pure_ok] at h
  obtain ⟨hashes, hvalid, answer, hanswer, h⟩ := h
  subst hanswer
  rw [bind_ok] at h
  obtain ⟨⟨result, t⟩, hingest, hpure⟩ := h
  rw [pure_ok] at hpure
  obtain ⟨rfl, rfl⟩ := Prod.mk.inj hpure
  exact ⟨hashes, result, hvalid, hingest, rfl⟩

omit [PyText] [FloatRepr] [Pydantic] in
theorem attachedBy_text_ne (a : AttachedBy) : a.text ≠ "" := by
  cases a <;> decide

omit [PyText] [FloatRepr] in
/-- Nothing that is replayed creates a snapshot. -/
theorem check_snapshotCreated {sourceId runId : Uuid} {hashes : Hashes} {r : IngestionResponse}
    (h : s.check sourceId runId hashes = .ok (some r)) : r.snapshotCreated = false := by
  unfold check at h
  split at h
  · rw [pure_ok] at h
    cases h
  · simp only [bind_ok, pure_ok, fromOption_ok, Option.some.injEq] at h
    obtain ⟨-, -, replay, hreplay, _, rfl, rfl⟩ := h
    unfold responseFromSnapshot at hreplay
    split at hreplay
    · simp only [bind_ok, pure_ok, Option.some.injEq] at hreplay
      obtain ⟨_, hread, rfl⟩ := hreplay
      unfold resultFromJson at hread
      simp only [bind_ok, pure_ok] at hread
      obtain ⟨_, _, _, _, _, _, _, _, rfl⟩ := hread
      rfl
    · split at hreplay
      · rw [pure_ok] at hreplay
        cases hreplay
      · simp only [bind_ok, pure_ok, Option.some.injEq] at hreplay
        obtain ⟨_, _, rfl⟩ := hreplay
        rfl

/-- A request that creates a snapshot is the first of its run. -/
theorem executeWithResult_first {response : IngestionResponse}
    (h : s.executeWithResult sha256 settings req serving = .ok (response, s'))
    (hnew : response.snapshotCreated = true) :
    s.findBySourceRun req.sourceId req.ingestionRunId = none := by
  unfold Db.executeWithResult at h
  simp only [bind_ok] at h
  obtain ⟨hashes, -, answer, hcheck, h⟩ := h
  cases answer with
  | none =>
      unfold check at hcheck
      split at hcheck
      · assumption
      · simp only [bind_ok, pure_ok] at hcheck
        obtain ⟨_, _, _, _, _, _, hnone⟩ := hcheck
        cases hnone
  | some replay =>
      obtain ⟨rfl, rfl⟩ := Prod.mk.inj (pure_ok.mp h)
      rw [check_snapshotCreated hcheck] at hnew
      cases hnew

/-- A request to a run that is answered for: with the stored hash it is answered
from the stored result, with another it is refused. -/
theorem Answered.executeWithResult {row : RawSnapshot} {result : IngestionResult} {e : Uuid}
    (hrow : s.Answered row result) (hcanonical : s.replayCanonicalId result.eventId = .ok e)
    (hsource : req.sourceId = row.sourceId) (hrun : req.ingestionRunId = row.ingestionRunId)
    {hashes : Hashes} (hvalid : validateAndHash sha256 settings req = .ok hashes) :
    s.executeWithResult sha256 settings req serving =
      if row.submissionHash = hashes.submissionHash then .ok (result.response.replayed e, s)
      else .error .idempotencyKeyPayloadMismatch := by
  have hreplay := resultFromJson_resultJson (r := result.response) (attachedBy_text_ne _)
    hcanonical row.createdAt
  have hfrom : s.responseFromSnapshot row = .ok (some (result.response.replayed e)) := by
    unfold responseFromSnapshot resultJson
    rw [hrow.stored]
    simp only [Option.map_some, bind_ok, pure_ok]
    exact ⟨_, hreplay, rfl⟩
  by_cases hhash : row.submissionHash = hashes.submissionHash
  · have hcheck : s.check req.sourceId req.ingestionRunId hashes =
        .ok (some (result.response.replayed e)) := by
      unfold check
      rw [hsource, hrun, hrow.found]
      simp only [bind_ok, require_ok, fromOption_ok, pure_ok]
      exact ⟨(), hhash, _, hfrom, _, rfl, rfl⟩
    rw [if_pos hhash]
    unfold Db.executeWithResult
    rw [hvalid]
    simp only [bind_ok]
    exact ⟨hashes, rfl, _, hcheck, rfl⟩
  · have hcheck : s.check req.sourceId req.ingestionRunId hashes =
        .error .idempotencyKeyPayloadMismatch := by
      have hrequire : require (row.submissionHash = hashes.submissionHash)
          AtlasError.idempotencyKeyPayloadMismatch = .error .idempotencyKeyPayloadMismatch :=
        if_neg hhash
      unfold check
      rw [hsource, hrun, hrow.found]
      dsimp only
      rw [hrequire]
      rfl
    rw [if_neg hhash]
    unfold Db.executeWithResult
    rw [hvalid]
    change (s.check req.sourceId req.ingestionRunId hashes >>= _) = _
    rw [hcheck]
    rfl

theorem executeWithResult_invalid {err : AtlasError}
    (h : validateAndHash sha256 settings req = .error err) :
    s.executeWithResult sha256 settings req serving = .error err := by
  unfold Db.executeWithResult
  rw [h]
  rfl

theorem afterRequest_error {err : AtlasError}
    (h : s.executeWithResult sha256 settings req serving = .error err) :
    s.afterRequest sha256 settings req serving = s := by
  unfold afterRequest
  rw [h]

theorem afterRequest_ok {response : IngestionResponse}
    (h : s.executeWithResult sha256 settings req serving = .ok (response, s')) :
    s.afterRequest sha256 settings req serving = s' := by
  unfold afterRequest
  rw [h]

/-- What later requests to the source and run of a committed submission get. -/
theorem committed_answers {s₁ : Db} (hreach : Reachable s) {response : IngestionResponse}
    (hcommit : s.executeWithResult sha256 settings req serving = .ok (response, s₁))
    (hnew : response.snapshotCreated = true) (ops : List Op) :
    ∃ (hashes : Hashes) (result : IngestionResult) (e : Uuid),
      validateAndHash sha256 settings req = .ok hashes ∧ result.response = response ∧
      (Runs.run step s₁ ops).Root response.eventId e ∧
      (Runs.run step s₁ ops).replayCanonicalId response.eventId = .ok e ∧
      ∀ {req' : IngestRequest}, req'.sourceId = req.sourceId →
        req'.ingestionRunId = req.ingestionRunId → ∀ (serving' : Serving) {hashes' : Hashes},
        validateAndHash sha256 settings req' = .ok hashes' →
        (Runs.run step s₁ ops).executeWithResult sha256 settings req' serving' =
          if hashes.submissionHash = hashes'.submissionHash then
            .ok (response.replayed e, Runs.run step s₁ ops)
          else .error .idempotencyKeyPayloadMismatch := by
  have hwf := hreach.inv.wf
  have hfirst := executeWithResult_first hcommit hnew
  obtain ⟨hashes, result, hvalid, hingest, rfl⟩ := executeWithResult_committed hcommit hfirst
  have hstages := ingest_stages hwf hingest
  rcases hstages with ⟨hsome, -⟩ | ⟨hnone, sub, s₀, w, s₁', s₂, s₃, hing, hanswer⟩
  · rw [show s.findBySourceRun (req.call settings hashes serving).sourceId
      (req.call settings hashes serving).ingestionRunId = none from hfirst] at hsome
    cases hsome
  · have hI₁ : s₁.Inv := by
      have hstep : step s (.ingest (req.call settings hashes serving)) = s₁ := by
        refine Op.run_step ?_
        simp only [Op.run, hingest]
        rfl
      rw [← hstep]
      exact step_inv hreach.inv _
    obtain ⟨hI, hrow⟩ := (hing.answered hwf hnone hanswer).run hI₁ ops
    obtain ⟨x, hx, hxid⟩ := hrow.event
    obtain ⟨e, -, -, hroot, hwalk⟩ := hI.forest.walkersReturn hx
    rw [hxid] at hroot hwalk
    exact ⟨hashes, result, e.id, hvalid, rfl, hroot, hwalk.replay, fun hsource hrun serving' _ hvalid' =>
      hrow.executeWithResult hwalk.replay hsource hrun hvalid'⟩

end Requests

end Db

/-- **Ingestion is idempotent.**  Take a submission that committed in a reachable
store and any operations after it.  A request to the same source and run with the
same content is answered with the committed result under the event it leads to
now, marked as a replay.  A valid request with other content is refused as a
mismatch, one that fails validation with its own error, and no request changes the
store.  The stored JSON reads back to the same answer. -/
theorem resubmission_replays_or_is_refused [PyText] [FloatRepr] [Pydantic]
    {sha256 : List Char → String} (hsha : Function.Injective sha256)
    {settings : IngestionSettings} {s s₁ : Db} (hreach : Reachable s) {req : IngestRequest}
    {serving : Serving} {response : IngestionResponse}
    (hcommit : s.executeWithResult sha256 settings req serving = .ok (response, s₁))
    (hnew : response.snapshotCreated = true) (ops : List Op) {req' : IngestRequest}
    (hsource : req'.sourceId = req.sourceId) (hrun : req'.ingestionRunId = req.ingestionRunId)
    (serving' : Serving) :
    ∃ t e, t = Runs.run step s₁ ops ∧ t.Root response.eventId e ∧
      (SameContent req req' →
        t.executeWithResult sha256 settings req' serving' = .ok (response.replayed e, t)) ∧
      (¬ SameContent req req' → ∀ hashes, validateAndHash sha256 settings req' = .ok hashes →
        t.executeWithResult sha256 settings req' serving' =
          .error .idempotencyKeyPayloadMismatch) ∧
      (∀ err, validateAndHash sha256 settings req' = .error err →
        t.executeWithResult sha256 settings req' serving' = .error err) ∧
      t.afterRequest sha256 settings req' serving' = t ∧
      ∀ now, t.resultFromJson (ingestionResultJson response now) = .ok (response.replayed e) := by
  obtain ⟨hashes, result, e, hvalid, rfl, hroot, hwalk, hexecute⟩ :=
    Db.committed_answers hreach hcommit hnew ops
  have hinvalid : ∀ err, validateAndHash sha256 settings req' = .error err →
      (Runs.run step s₁ ops).executeWithResult sha256 settings req' serving' = .error err :=
    fun err herr => Db.executeWithResult_invalid herr
  refine ⟨_, e, rfl, hroot, ?_, ?_, hinvalid, ?_, ?_⟩
  · intro hsame
    rw [hexecute hsource hrun serving' (hsame.validateAndHash hvalid), if_pos rfl]
  · intro hother hashes' hvalid'
    have hne : hashes.submissionHash ≠ hashes'.submissionHash := fun heq =>
      hother ((submissionHash_eq_iff hsha hvalid hvalid').mp heq)
    rw [hexecute hsource hrun serving' hvalid', if_neg hne]
  · cases hvalid' : validateAndHash sha256 settings req' with
    | error err => exact Db.afterRequest_error (hinvalid err hvalid')
    | ok hashes' =>
        have hresult := hexecute hsource hrun serving' hvalid'
        split at hresult
        · exact Db.afterRequest_ok hresult
        · exact Db.afterRequest_error hresult
  · intro now
    exact Db.resultFromJson_resultJson (Db.attachedBy_text_ne _) hwalk now

/-! ## A small submission

Texts for the times and doubles of a short run, and a digest that is SHA-256 on
the two texts of the submission. -/

theorem parseUuid_uuidStr (u : Uuid) : parseUuid (uuidStr u) = some u := by
  have hhex : ∀ c ∈ hex 32 u, c ≠ '-' := by
    rintro c hc rfl
    exact absurd (readHex_mem (readHex_hex 32 u) _ hc) (by decide)
  have hkeep : ∀ cs : List Char, (∀ c ∈ cs, c ∈ hex 32 u) →
      cs.filter (fun c => decide (c ≠ '-')) = cs := by
    intro cs hcs
    rw [List.filter_eq_self]
    intro c hc
    simpa using hhex c (hcs c hc)
  have htake : ∀ i j, ∀ c ∈ ((hex 32 u).drop i).take j, c ∈ hex 32 u := fun i j c hc =>
    List.mem_of_mem_drop (List.mem_of_mem_take hc)
  have hdigits : (uuidStr u).toList.filter (fun c => decide (c ≠ '-')) = hex 32 u := by
    unfold uuidStr
    simp only [String.toList_ofList, List.filter_append, List.filter_cons]
    rw [hkeep _ (fun c hc => List.mem_of_mem_take hc), hkeep _ (htake 8 4), hkeep _ (htake 12 4),
      hkeep _ (htake 16 4), hkeep _ (fun c hc => List.mem_of_mem_drop hc)]
    have hpieces : (hex 32 u).take 8 ++ (((hex 32 u).drop 8).take 4 ++ (((hex 32 u).drop 12).take 4 ++
        (((hex 32 u).drop 16).take 4 ++ (hex 32 u).drop 20))) = hex 32 u := by
      have hsplit : ∀ i j, ((hex 32 u).drop i).take j ++ (hex 32 u).drop (i + j) =
          (hex 32 u).drop i := by
        intro i j
        rw [← List.drop_drop, List.take_append_drop]
      rw [hsplit 16 4, hsplit 12 4, hsplit 8 4, List.take_append_drop]
    simpa using hpieces
  unfold parseUuid
  rw [hdigits]
  simp only [if_pos (le_length_hex 32 u), readHex_hex]

/-- A double written as a fraction with an exponent mark for its bar. -/
def fractionText (q : ℚ) : List Char := intText q.num ++ 'e' :: Nat.toDigits 10 q.den

theorem fractionText_chars (q : ℚ) : ∀ c ∈ fractionText q, numberChar c = true := by
  intro c hc
  rcases List.mem_append.mp hc with hc | hc
  · rcases intText_chars q.num c hc with hd | rfl
    · simp [numberChar, hd]
    · rfl
  · rcases List.mem_cons.mp hc with rfl | hc
    · rfl
    · simp [numberChar, Nat.isDigit_of_mem_toDigits (by omega) (by omega) hc]

theorem fractionText_point (q : ℚ) : '.' ∈ fractionText q ∨ 'e' ∈ fractionText q :=
  .inr (List.mem_append_right _ List.mem_cons_self)

theorem fractionText_inj (a b : ℚ) (h : fractionText a = fractionText b) : a = b := by
  have hclass : ∀ n : Int, ∀ c ∈ intText n, (c != 'e') = true := by
    intro n c hc
    rcases intText_chars n c hc with hd | rfl
    · rw [bne_iff_ne]
      rintro rfl
      exact absurd hd (by decide)
    · rfl
  obtain ⟨hnum, hden⟩ := token_inj (hclass a.num) (hclass b.num) (leaves_cons (by simp) _)
    (leaves_cons (by simp) _) h
  exact Rat.ext (intText_injective hnum) (toDigits_ten_injective (List.cons.inj hden).2)

instance (priority := low) fractionRepr : FloatRepr where
  repr := fractionText
  chars := fractionText_chars
  point := fractionText_point
  inj := fractionText_inj

/-- Seconds after the epoch, for the first ten of them. -/
def epochSeconds (t : Time) : List Char :=
  "1970-01-01T00:00:0".toList ++ (Nat.toDigits 10 t ++ "+00:00".toList)

instance (priority := low) plainPydantic : Pydantic where
  isoformat t := String.ofList (epochSeconds t)
  int
    | .num (.int n) => some n
    | _ => none
  str
    | .str s => some s
    | _ => none
  uuid
    | .str s => parseUuid s
    | _ => none
  datetime
    | .str s =>
        let rest := s.toList.drop 18
        some (Nat.ofDigitChars 10 (rest.take (rest.length - 6)) 0)
    | _ => none
  int_num _ := rfl
  str_str _ := rfl
  uuid_str := parseUuid_uuidStr
  datetime_isoformat := by
    intro t
    have hdrop : (epochSeconds t).drop 18 = Nat.toDigits 10 t ++ "+00:00".toList := by
      unfold epochSeconds
      exact List.drop_left' rfl
    have htake : (Nat.toDigits 10 t ++ "+00:00".toList).take
        ((Nat.toDigits 10 t ++ "+00:00".toList).length - 6) = Nat.toDigits 10 t := by
      refine List.take_left' ?_
      rw [List.length_append]
      rfl
    simp only [String.toList_ofList, hdrop, htake, Nat.ofDigitChars_ten_toDigits]

/-- The submission the run begins with. -/
def firstReport : IngestRequest where
  sourceId := 0
  rawPayload := []
  ingestionRunId := 100
  claimsData := [⟨"operator", .num (.int 1), by decide, by decide⟩,
    ⟨"aircraft_type", .str "B738", by decide, by decide⟩]
  capturedAt := none
  eventId := none
  sourceRecordId := none

/-- The same claims the other way round. -/
def swappedReport : IngestRequest := { firstReport with claimsData := firstReport.claimsData.reverse }

def emptyReport : IngestRequest := { firstReport with claimsData := [] }

def firstServing : Serving where
  claims := [⟨"operator", .num (.int 1)⟩, ⟨"aircraft_type", .str "B738"⟩]
  decision := .new
  now := 1

/-- The settings' defaults. -/
def defaultSettings : IngestionSettings := ⟨500, 1048576, 10⟩

/-- SHA-256 on the two texts of the submission. -/
def reportDigest (text : List Char) : String :=
  if text = (Json.obj firstReport.rawPayload).canonicalText then
    "44136fa355b3678a1146ad16f7e8649e94fb4fc21fe77e8310c060f61caaff8a"
  else if text =
      ("\x7b\"captured_at\":null,\"claims_data\":[\x7b\"field_name\":\"aircraft_type\"," ++
        "\"field_value\":\"B738\"\x7d,\x7b\"field_name\":\"operator\",\"field_value\":1\x7d]," ++
        "\"event_id\":null,\"raw_payload\":\x7b\x7d,\"raw_payload_hash\":null," ++
        "\"schema_version\":1,\"source_record_id\":null\x7d").toList then
    "7bbd6a192758d0cb3c8ad3c338900e5a707709631eedaaed0f886bde1a4195f2"
  else String.ofList ('t' :: text)

theorem reportDigest_injective : Function.Injective reportDigest := by
  have hplain : ∀ (x : String) (text : List Char), x.toList.head? ≠ some 't' →
      x ≠ String.ofList ('t' :: text) := by
    rintro x text hhead rfl
    simp at hhead
  intro a b h
  unfold reportDigest at h
  split_ifs at h with ha hb hb ha' hb' hb' hb hb'
  · rw [ha, hb]
  · exact absurd h (by decide)
  · exact absurd h (hplain _ _ (by decide))
  · exact absurd h (by decide)
  · rw [ha', hb']
  · exact absurd h (hplain _ _ (by decide))
  · exact absurd h.symm (hplain _ _ (by decide))
  · exact absurd h.symm (hplain _ _ (by decide))
  · have hlist := congrArg String.toList h
    simpa using hlist

theorem firstReport_commits : ∃ a : IngestionResponse × Db,
    (Db.empty fourSources).executeWithResult reportDigest defaultSettings firstReport firstServing =
      .ok a ∧ a.1.snapshotCreated = true :=
  exists_ok_of_any (by decide +kernel)

theorem firstReport_sameContent_swapped : SameContent firstReport swappedReport where
  payload := rfl
  claims := List.Perm.map _ (List.reverse_perm firstReport.claimsData).symm
  record := rfl
  event := rfl
  captured := rfl

theorem resubmission_of_swapped_report : ∃ response s₁ t e,
    (Db.empty fourSources).executeWithResult reportDigest defaultSettings firstReport firstServing =
      .ok (response, s₁) ∧
    response.snapshotCreated = true ∧
    t = Runs.run step s₁ [operatorReport 1 101 none none 2 2] ∧ t.Root response.eventId e ∧
    t.executeWithResult reportDigest defaultSettings swappedReport firstServing =
      .ok (response.replayed e, t) := by
  obtain ⟨⟨response, s₁⟩, hcommit, hnew⟩ := firstReport_commits
  have hreach : Reachable (Db.empty fourSources) := ⟨fourSources, [], rfl⟩
  obtain ⟨t, e, ht, hroot, hsame, -⟩ := resubmission_replays_or_is_refused reportDigest_injective
    hreach hcommit hnew [operatorReport 1 101 none none 2 2]
    (show swappedReport.sourceId = firstReport.sourceId from rfl) rfl firstServing
  exact ⟨response, s₁, t, e, hcommit, hnew, ht, hroot, hsame firstReport_sameContent_swapped⟩

/-- Not every other content is a mismatch: one without claims fails validation
before the store is read. -/
theorem empty_report_is_no_mismatch : ∃ response s₁,
    (Db.empty fourSources).executeWithResult reportDigest defaultSettings firstReport firstServing =
      .ok (response, s₁) ∧
    ¬ SameContent firstReport emptyReport ∧
    s₁.executeWithResult reportDigest defaultSettings emptyReport firstServing ≠
      .error .idempotencyKeyPayloadMismatch := by
  obtain ⟨⟨response, s₁⟩, hcommit, -⟩ := firstReport_commits
  refine ⟨response, s₁, hcommit, ?_, ?_⟩
  · intro h
    have hlength := h.claims.length_eq
    exact absurd hlength (by decide)
  · have herror : s₁.executeWithResult reportDigest defaultSettings emptyReport firstServing =
        .error (.domainValidation
          "claims_data must not be empty: at least one claim is required per ingestion") :=
      Db.executeWithResult_invalid rfl
    rw [herror]
    intro h
    cases h

end Atlas
