import Atlas.NtsbIngestion

/-!
# Loading NTSB records again

The idempotency key of a record is made of its content, and the run of a submission
is derived from the key, so that loading unchanged data again should replay.  The
submission hash also covers the time of the capture, which the importer sets anew on
each load.  Two records of one key therefore have one submission hash exactly when
they were captured at one time; otherwise the second load is refused.
-/

namespace Atlas

open Outcome Codes

namespace Ntsb

/-- `derive_ingestion_run_id`: the first sixteen bytes of the digest. -/
def deriveIngestionRunId (sha256 : List Char → String) (sourceId : Uuid) (key : String) : Uuid :=
  (readHex 0 ((sha256 (uuidStr sourceId ++ ":" ++ key).toList).toList.take 32)).getD 0

/-- What the load command submits for a record. -/
def loadRequest (sha256 : List Char → String) (sourceId : Uuid) (record : NtsbEventRecord) :
    IngestRequest where
  sourceId := sourceId
  rawPayload := record.rawPayload
  ingestionRunId := deriveIngestionRunId sha256 sourceId record.idempotencyKey
  claimsData := record.claims
  capturedAt := some record.capturedAt
  eventId := none
  sourceRecordId := some record.sourceRecordId

/-- Two texts do not collide in the sixteen characters that a key keeps of the digest. -/
def KeysApart (sha256 : List Char → String) (a b : List Char) : Prop :=
  takeText 16 (sha256 a) = takeText 16 (sha256 b) → a = b

/-! ## What the two fingerprints cover -/

section Fingerprints

variable [FloatRepr]

omit [FloatRepr] in
/-- The content with its keys in order. -/
theorem contentMaterial_canonical (evId : String) (rows : EadmsRecord)
    (claims : List IngestionClaimDTO) :
    (contentMaterial evId rows claims).canonical = .obj [
      ("aircraft", (rowsJson rows.aircraft).canonical),
      ("claims", .arr ((claims.map IngestionClaimDTO.content).map contentItem)),
      ("ev_id", .str evId), ("event", (Json.obj rows.event).canonical),
      ("findings", (rowsJson rows.findings).canonical),
      ("narratives", (rowsJson rows.narratives).canonical), ("source_record_id", .str evId)] := by
  have hclaims : (Json.arr (claims.map IngestionClaimDTO.fingerprintItem)).canonical =
      .arr ((claims.map IngestionClaimDTO.content).map contentItem) := by
    rw [Json.canonical, Json.canonicalList_eq, List.map_map, List.map_map]
    congr 1
    apply List.map_congr_left
    intro c _
    exact canonical_fingerprintItem c
  rw [← hclaims]
  simp [contentMaterial, Json.canonical, Json.canonicalFields, sortFields]

omit [FloatRepr] in
/-- The payload with its keys in order. -/
theorem rawPayload_canonical (evId : String) (rows : EadmsRecord) :
    (Json.obj (rawPayload evId rows)).canonical = .obj [
      ("aircraft", (rowsJson rows.aircraft).canonical), ("ev_id", .str evId),
      ("event", (Json.obj rows.event).canonical), ("findings", (rowsJson rows.findings).canonical),
      ("narratives", (rowsJson rows.narratives).canonical), ("schema", .str "ntsb-eadms"),
      ("schema_version", .num (.int 2))] := by
  simp [rawPayload, Json.canonical, Json.canonicalFields, sortFields]

omit [FloatRepr] in
/-- A content has a text when the payload and the claims have. -/
theorem contentMaterial_dumpable {evId : String} {rows : EadmsRecord}
    {claims : List IngestionClaimDTO} (hraw : (Json.obj (rawPayload evId rows)).dumpable = true)
    (hclaims : ∀ c ∈ claims, c.fieldValue.dumpable = true) :
    (contentMaterial evId rows claims).dumpable = true := by
  have hitems : (Json.arr (claims.map IngestionClaimDTO.fingerprintItem)).dumpable = true := by
    rw [Json.dumpable, Json.dumpableItems_eq, List.all_map, List.all_eq_true]
    intro c hc
    simp [IngestionClaimDTO.fingerprintItem, Json.dumpable, Json.dumpableFields, hclaims c hc]
  simp [rawPayload, Json.dumpable, Json.dumpableFields] at hraw
  simp [contentMaterial, Json.dumpable, Json.dumpableFields] at hitems ⊢
  tauto

end Fingerprints

/-- Equal keys end in equal digests. -/
theorem digest_of_key_eq {a b ha hb : String}
    (hlen : 16 ≤ ha.length ∧ 16 ≤ hb.length)
    (h : "ntsb-eadms:" ++ a ++ ":" ++ takeText 16 ha = "ntsb-eadms:" ++ b ++ ":" ++ takeText 16 hb) :
    takeText 16 ha = takeText 16 hb := by
  have hlength : ∀ x : String, 16 ≤ x.length → (takeText 16 x).toList.length = 16 := by
    intro x hx
    rw [← String.length_toList] at hx
    unfold takeText
    rw [String.toList_ofList, List.length_take]
    omega
  have hlists : ("ntsb-eadms:" ++ a ++ ":").toList ++ (takeText 16 ha).toList =
      ("ntsb-eadms:" ++ b ++ ":").toList ++ (takeText 16 hb).toList := by
    rw [← String.toList_append, ← String.toList_append, h]
  have hsame : (takeText 16 ha).toList.length = (takeText 16 hb).toList.length :=
    (hlength ha hlen.1).trans (hlength hb hlen.2).symm
  have hlast := (List.append_inj' hlists hsame).2
  exact String.toList_injective hlast

/-! ## Two loads -/

/-- The second of two loads replays the first: it has its submission hash, and wherever
the first has committed it is answered with the stored result. -/
structure LoadReplays [PyText] [FloatRepr] [Pydantic] (sha256 : List Char → String)
    (settings : IngestionSettings) (first second : IngestRequest) : Prop where
  hash : ∀ ha hb, validateAndHash sha256 settings first = .ok ha →
    validateAndHash sha256 settings second = .ok hb → ha.submissionHash = hb.submissionHash
  answered : ∀ (s s₁ : Db) (serving : Serving) (response : IngestionResponse), Reachable s →
    s.executeWithResult sha256 settings first serving = .ok (response, s₁) →
    response.snapshotCreated = true → ∀ (ops : List Op) (serving' : Serving),
    ∃ e, (Runs.run step s₁ ops).executeWithResult sha256 settings second serving' =
      .ok (response.replayed e, Runs.run step s₁ ops)

section Loads

variable [PyText] [PyRepr] [PyUpper] [PyIso] [FloatRepr] [Pydantic] {sha256 : List Char → String}
  {settings : IngestionSettings} {sourceId : Uuid}

/-- Records of one key carry the same content. -/
theorem sameContent_iff {rows rows' : EadmsRecord} {decoder decoder' : EadmsCodeDecoder}
    {t t' : Time} {record record' : NtsbEventRecord} {hashes hashes' : Hashes}
    (hlen : ∀ text, 16 ≤ (sha256 text).length)
    (hbuilt : buildEventRecord sha256 rows decoder t = .ok (some record))
    (hbuilt' : buildEventRecord sha256 rows' decoder' t' = .ok (some record'))
    (hapart : KeysApart sha256
      (contentMaterial record.sourceRecordId rows record.claims).canonicalText
      (contentMaterial record'.sourceRecordId rows' record'.claims).canonicalText)
    (hkey : record.idempotencyKey = record'.idempotencyKey)
    (hvalid : validateAndHash sha256 settings (loadRequest sha256 sourceId record) = .ok hashes)
    (hvalid' : validateAndHash sha256 settings (loadRequest sha256 sourceId record') = .ok hashes') :
    SameContent (loadRequest sha256 sourceId record) (loadRequest sha256 sourceId record') ↔
      t = t' := by
  obtain ⟨evId, ps, -, -, rfl⟩ := buildEventRecord_ok hbuilt
  obtain ⟨evId', ps', -, -, rfl⟩ := buildEventRecord_ok hbuilt'
  obtain ⟨m, hvalid⟩ := validateAndHash_ok.mp hvalid
  obtain ⟨m', hvalid'⟩ := validateAndHash_ok.mp hvalid'
  have hdump : (contentMaterial evId rows (ps.map claimOf)).dumpable = true :=
    contentMaterial_dumpable hvalid.rawDumpable (submissionHashMaterial_ok hvalid.made).1
  have hdump' : (contentMaterial evId' rows' (ps'.map claimOf)).dumpable = true :=
    contentMaterial_dumpable hvalid'.rawDumpable (submissionHashMaterial_ok hvalid'.made).1
  have htext : (contentMaterial evId rows (ps.map claimOf)).canonicalText =
      (contentMaterial evId' rows' (ps'.map claimOf)).canonicalText :=
    hapart (digest_of_key_eq ⟨hlen _, hlen _⟩ hkey)
  rw [Json.canonicalText_inj hdump hdump', contentMaterial_canonical, contentMaterial_canonical]
    at htext
  simp only [Json.obj.injEq, List.cons.injEq, Prod.mk.injEq, true_and, and_true, Json.arr.injEq,
    Json.str.injEq, (List.map_injective_iff.mpr contentItem_injective).eq_iff] at htext
  obtain ⟨haircraft, hclaims, rfl, hevent, hfindings, hnarratives, -⟩ := htext
  constructor
  · intro hsame
    exact Option.some.inj hsame.captured
  · rintro rfl
    refine ⟨?_, .of_eq hclaims, rfl, rfl, rfl⟩
    change (Json.obj (rawPayload evId rows)).canonical = (Json.obj (rawPayload evId rows')).canonical
    rw [rawPayload_canonical, rawPayload_canonical, haircraft, hevent, hfindings, hnarratives]

omit [Pydantic] in
/-- Two records of the same rows differ in the time of their capture only. -/
theorem buildEventRecord_times {rows : EadmsRecord} {decoder : EadmsCodeDecoder} {t t' : Time}
    {record record' : NtsbEventRecord}
    (hbuilt : buildEventRecord sha256 rows decoder t = .ok (some record))
    (hbuilt' : buildEventRecord sha256 rows decoder t' = .ok (some record')) :
    record' = { record with capturedAt := t' } := by
  obtain ⟨evId, ps, hid, hps, rfl⟩ := buildEventRecord_ok hbuilt
  obtain ⟨evId', ps', hid', hps', rfl⟩ := buildEventRecord_ok hbuilt'
  obtain rfl : evId = evId' := Option.some.inj (hid.symm.trans hid')
  obtain rfl : ps = ps' := Except.ok.inj (hps.symm.trans hps')
  rfl

/-- **When loading a record again replays**: exactly when it was captured at the same
time. -/
theorem ntsb_load_replays_iff {rows rows' : EadmsRecord} {decoder decoder' : EadmsCodeDecoder}
    {t t' : Time} {record record' : NtsbEventRecord} {hashes hashes' : Hashes}
    (hsha : Function.Injective sha256) (hlen : ∀ text, 16 ≤ (sha256 text).length)
    (hbuilt : buildEventRecord sha256 rows decoder t = .ok (some record))
    (hbuilt' : buildEventRecord sha256 rows' decoder' t' = .ok (some record'))
    (hapart : KeysApart sha256
      (contentMaterial record.sourceRecordId rows record.claims).canonicalText
      (contentMaterial record'.sourceRecordId rows' record'.claims).canonicalText)
    (hkey : record.idempotencyKey = record'.idempotencyKey)
    (hvalid : validateAndHash sha256 settings (loadRequest sha256 sourceId record) = .ok hashes)
    (hvalid' : validateAndHash sha256 settings (loadRequest sha256 sourceId record') = .ok hashes') :
    LoadReplays sha256 settings (loadRequest sha256 sourceId record)
      (loadRequest sha256 sourceId record') ↔ t = t' := by
  have hcontent := sameContent_iff hlen hbuilt hbuilt' hapart hkey hvalid hvalid'
  have hhash := submissionHash_eq_iff hsha hvalid hvalid'
  rw [← hcontent, ← hhash]
  constructor
  · intro h
    exact h.hash hashes hashes' hvalid hvalid'
  · intro heq
    have hrun : (loadRequest sha256 sourceId record').ingestionRunId =
        (loadRequest sha256 sourceId record).ingestionRunId := by
      change deriveIngestionRunId sha256 sourceId _ = deriveIngestionRunId sha256 sourceId _
      rw [hkey]
    refine ⟨?_, ?_⟩
    · intro ha hb hva hvb
      obtain rfl : hashes = ha := Except.ok.inj (hvalid.symm.trans hva)
      obtain rfl : hashes' = hb := Except.ok.inj (hvalid'.symm.trans hvb)
      exact heq
    · intro s s₁ serving response hreach hcommit hnew ops serving'
      obtain ⟨ha, -, e, hva, -, -, -, hexecute⟩ := Db.committed_answers hreach hcommit hnew ops
      obtain rfl : hashes = ha := Except.ok.inj (hvalid.symm.trans hva)
      have hsecond := @hexecute (loadRequest sha256 sourceId record') rfl hrun serving' _ hvalid'
      rw [if_pos heq] at hsecond
      exact ⟨e, hsecond⟩

end Loads

/-! ## One accident, loaded twice -/

theorem mem_of_lookup {table : List (List Char × String)} {text : List Char} {d : String}
    (h : table.lookup text = some d) : (text, d) ∈ table := by
  obtain ⟨l₁, l₂, rfl, -⟩ := List.lookup_eq_some_iff.mp h
  exact List.mem_append_right _ List.mem_cons_self

/-- A table with distinct digests that are not marked is told apart by its digests. -/
theorem tableDigest_injective {table : List (List Char × String)}
    (hdistinct : (table.map Prod.snd).Nodup)
    (hmarked : ∀ d ∈ table.map Prod.snd, d.toList.head? ≠ some 't') :
    Function.Injective (tableDigest table) := by
  have hplain : ∀ {text : List Char} {d : String}, table.lookup text = some d →
      ∀ other : List Char, d ≠ String.ofList ("text: 0123456789 ".toList ++ other) := by
    rintro text d hd other rfl
    refine hmarked _ (List.mem_map_of_mem (mem_of_lookup hd)) ?_
    rw [String.toList_ofList]
    rfl
  intro a b h
  unfold tableDigest at h
  cases ha : table.lookup a with
  | some d =>
      cases hb : table.lookup b with
      | some d' =>
          rw [ha, hb] at h
          obtain rfl : d = d' := h
          exact congrArg Prod.fst
            (List.inj_on_of_nodup_map hdistinct (mem_of_lookup ha) (mem_of_lookup hb) rfl)
      | none =>
          rw [ha, hb] at h
          exact absurd h (hplain ha b)
  | none =>
      cases hb : table.lookup b with
      | some d' =>
          rw [ha, hb] at h
          exact absurd h.symm (hplain hb a)
      | none =>
          rw [ha, hb] at h
          exact List.append_cancel_left (String.ofList_injective h)

theorem tableDigest_length {table : List (List Char × String)}
    (hlong : ∀ d ∈ table.map Prod.snd, 16 ≤ d.length) (text : List Char) :
    16 ≤ (tableDigest table text).length := by
  unfold tableDigest
  cases hd : table.lookup text with
  | some d => exact hlong d (List.mem_map_of_mem (mem_of_lookup hd))
  | none =>
      have hmark : "text: 0123456789 ".toList.length = 17 := rfl
      rw [Option.getD_none, ← String.length_toList, String.toList_ofList, List.length_append]
      omega

/-- The submission of the accident, without its run. -/
def seattleSubmission (t : Time) : IngestRequest where
  sourceId := 0
  rawPayload := rawPayload "20080109X00036" seattleAccident
  ingestionRunId := 0
  claimsData := seattleClaims
  capturedAt := some t
  eventId := none
  sourceRecordId := some "20080109X00036"

/-- The text under the submission hash. -/
def seattleMaterial (t : Time) : List Char :=
  ((submissionHashMaterial (seattleSubmission t) (some "20080109X00036")).toOption.map
    Json.canonicalText).getD []

/-- SHA-256 on the texts of two loads of the accident. -/
def loadDigestTable : List (List Char × String) :=
  [((contentMaterial "20080109X00036" seattleAccident seattleClaims).canonicalText,
      "d4d63710dc2c772004e4fe7bb7d53a080cd5df2a14a6065f485b54b4252bb88f"),
    ((Json.obj (rawPayload "20080109X00036" seattleAccident)).canonicalText,
      "da35549c0643ed5f1eac7e6bf7c36f868e87cf4b386a771c58ac191315542bfc"),
    (seattleMaterial 0, "d1c53418af035a0046d2a8bd1cf96b466a3909ad07ac3d951021df0f51f50f45"),
    (seattleMaterial 1, "c63c6445753b017a8593f4ed3bce5fc5dc44c4ad301f0c054b87d009a1ff7a45"),
    ("00000000-0000-0000-0000-000000000000:ntsb-eadms:20080109X00036:d4d63710dc2c7720".toList,
      "951e758c7c95de3fbfde08bc8db9f32b854ad57fb21a0bc95c34ab7ee60eb724")]

def loadDigest : List Char → String := tableDigest loadDigestTable

theorem loadDigest_injective : Function.Injective loadDigest :=
  tableDigest_injective (by decide +kernel) (by decide +kernel)

theorem loadDigest_length (text : List Char) : 16 ≤ (loadDigest text).length :=
  tableDigest_length (by decide +kernel) text

/-- The accident is built and valid at both times. -/
theorem seattle_loaded : ∀ t ∈ [0, 1], ∃ record hashes,
    buildEventRecord loadDigest seattleAccident noCodes t = .ok (some record) ∧
      validateAndHash loadDigest defaultSettings (loadRequest loadDigest 0 record) = .ok hashes := by
  intro t ht
  have hbuilt : ∃ r, buildEventRecord loadDigest seattleAccident noCodes t = .ok r ∧
      (r.any fun record => (validateAndHash loadDigest defaultSettings
        (loadRequest loadDigest 0 record)).toOption.isSome) = true := by
    have htimes : t = 0 ∨ t = 1 := by simpa using ht
    rcases htimes with rfl | rfl
    · exact exists_ok_of_any (by decide +kernel)
    · exact exists_ok_of_any (by decide +kernel)
  obtain ⟨r, hbuilt, hr⟩ := hbuilt
  cases r with
  | none => exact absurd hr (by simp)
  | some record =>
      cases hvalid : validateAndHash loadDigest defaultSettings (loadRequest loadDigest 0 record) with
      | error e => simp [hvalid, Except.toOption] at hr
      | ok hashes => exact ⟨record, hashes, hbuilt, hvalid⟩

theorem seattle_reload_iff : ∃ record record',
    buildEventRecord loadDigest seattleAccident noCodes 0 = .ok (some record) ∧
      buildEventRecord loadDigest seattleAccident noCodes 1 = .ok (some record') ∧
      record.idempotencyKey = record'.idempotencyKey ∧
      (LoadReplays loadDigest defaultSettings (loadRequest loadDigest 0 record)
        (loadRequest loadDigest 0 record') ↔ (0 : Time) = 1) := by
  obtain ⟨record, hashes, hbuilt, hvalid⟩ := seattle_loaded 0 (by simp)
  obtain ⟨record', hashes', hbuilt', hvalid'⟩ := seattle_loaded 1 (by simp)
  obtain rfl := buildEventRecord_times hbuilt hbuilt'
  exact ⟨record, _, hbuilt, hbuilt', rfl, ntsb_load_replays_iff loadDigest_injective
    loadDigest_length hbuilt hbuilt' (fun _ => rfl) rfl hvalid hvalid'⟩

theorem not_every_reload_replays : ¬ ∀ (rows : EadmsRecord) (decoder : EadmsCodeDecoder)
    (t t' : Time) (record record' : NtsbEventRecord),
    buildEventRecord loadDigest rows decoder t = .ok (some record) →
      buildEventRecord loadDigest rows decoder t' = .ok (some record') →
      record.idempotencyKey = record'.idempotencyKey →
      LoadReplays loadDigest defaultSettings (loadRequest loadDigest 0 record)
        (loadRequest loadDigest 0 record') := by
  intro hall
  obtain ⟨record, hashes, hbuilt, hvalid⟩ := seattle_loaded 0 (by simp)
  obtain ⟨record', hashes', hbuilt', hvalid'⟩ := seattle_loaded 1 (by simp)
  obtain rfl := buildEventRecord_times hbuilt hbuilt'
  have hreplays := hall _ _ _ _ _ _ hbuilt hbuilt' rfl
  have hsame := (submissionHash_eq_iff loadDigest_injective hvalid hvalid').mp
    (hreplays.hash _ _ hvalid hvalid')
  have htimes := (sameContent_iff loadDigest_length hbuilt hbuilt' (fun _ => rfl) rfl hvalid
    hvalid').mp hsame
  exact absurd htimes (by decide)

end Ntsb

end Atlas
