import Atlas.Forest
import Atlas.JsonText
import Mathlib.Data.Prod.Lex

/-!
# Submissions and their replay

`IngestSourceData.execute_with_result` from the request inwards.  The request is
validated and hashed before the store is read: the hash is taken of the canonical
text of the whole submission, its claims sorted.  The idempotency service then
looks for a snapshot of the same source and run.  A snapshot with another hash is
refused, and one with the same hash is answered from the result stored with it,
under the event that result leads to now.

A claim is given as `model_dump(mode="json")` returns it.  The claims the source's
normaliser makes of it, the matcher's decision and the clock come with the request.
The digest is a parameter.  Rows written before submissions had fingerprints are
not in the store.
-/

namespace Atlas

open Codes Outcome

/-! ## Identifiers and times as text -/

/-- `str(uuid)`: at least 32 hexadecimal digits in groups of 8, 4, 4, 4 and the
rest. -/
def uuidStr (u : Uuid) : String :=
  let digits := hex 32 u
  String.ofList (digits.take 8 ++ '-' :: ((digits.drop 8).take 4 ++ '-' :: ((digits.drop 12).take 4 ++
    '-' :: ((digits.drop 16).take 4 ++ '-' :: digits.drop 20))))

/-- `UUID(text)`: the digits without the hyphens. -/
def parseUuid (text : String) : Option Uuid :=
  let digits := text.toList.filter fun c => c ≠ '-'
  if 32 ≤ digits.length then readHex 0 digits else none

/-- `datetime.isoformat`, and the validators that pydantic runs on the fields of a
stored result.  Only what they do with the texts the code itself writes is
assumed. -/
class Pydantic where
  isoformat : Time → String
  int : Json → Option Int
  str : Json → Option String
  uuid : Json → Option Uuid
  datetime : Json → Option Time
  int_num : ∀ n, int (.num (.int n)) = some n
  str_str : ∀ s, str (.str s) = some s
  uuid_str : ∀ u, uuid (.str (uuidStr u)) = some u
  datetime_isoformat : ∀ t, datetime (.str (isoformat t)) = some t

/-! ## The request -/

/-- `IngestionClaimDTO`: its name is stripped and not blank. -/
structure IngestionClaimDTO where
  fieldName : String
  fieldValue : Json
  stripped : strip fieldName = fieldName
  nonEmpty : fieldName ≠ ""

structure IngestionSettings where
  maxClaimsPerRequest : Nat
  maxRawPayloadBytes : Nat
  maxDuplicateReviewsPerIngestion : Nat

/-- The arguments of `execute_with_result`. -/
structure IngestRequest where
  sourceId : Uuid
  rawPayload : List (String × Json)
  ingestionRunId : Uuid
  claimsData : List IngestionClaimDTO
  capturedAt : Option Time
  eventId : Option Uuid
  sourceRecordId : Option String

/-- What the normaliser and the matcher make of a request, and the clock. -/
structure Serving where
  claims : List NormalisedClaim
  decision : Db.MatchDecision
  now : Time

/-! ## The fingerprint -/

/-- An optional text as JSON. -/
def Json.ofText : Option String → Json
  | none => .null
  | some s => .str s

/-- `_claim_fingerprint_item`. -/
def IngestionClaimDTO.fingerprintItem (c : IngestionClaimDTO) : Json :=
  .obj [("field_name", .str c.fieldName), ("field_value", c.fieldValue)]

section Fingerprint

variable [FloatRepr]

/-- The claims with their sort keys. -/
def keyedClaims (claims : List IngestionClaimDTO) :
    Except AtlasError (List ((String × List Char) × Json)) :=
  claims.mapM fun c => do
    let text ← c.fieldValue.canonicalBytes "claim field_value"
    pure ((c.fieldName, text), c.fingerprintItem)

/-- The claims of a fingerprint, sorted by name and canonical value. -/
def sortedClaims (claims : List IngestionClaimDTO) : Except AtlasError (List Json) := do
  let keyed ← keyedClaims claims
  pure ((keyed.insertionSort fun a b => toLex a.1 ≤ toLex b.1).map Prod.snd)

variable [Pydantic]

/-- `_ingestion_submission_fingerprint`. -/
def submissionFingerprint (rawPayloadHash : Option String) (claims : List IngestionClaimDTO)
    (sourceRecordId : Option String) (eventId : Option Uuid) (capturedAt : Option Time)
    (sourceMappingHash normalizerVersion : Option String) :
    Except AtlasError (List (String × Json)) := do
  let claims ← sortedClaims claims
  pure [("schema_version", .num (.int 1)), ("raw_payload_hash", .ofText rawPayloadHash),
    ("claims_data", .arr claims), ("source_record_id", .ofText sourceRecordId),
    ("event_id", .ofText (eventId.map uuidStr)),
    ("captured_at", .ofText (capturedAt.map Pydantic.isoformat)),
    ("source_mapping_hash", .ofText sourceMappingHash),
    ("normalizer_version", .ofText normalizerVersion)]

/-- `_ingestion_submission_hash_material`: the fingerprint without what the server
adds to it, and the payload. -/
def submissionHashMaterial (req : IngestRequest) (sourceRecordId : Option String) :
    Except AtlasError Json := do
  let fingerprint ← submissionFingerprint none req.claimsData sourceRecordId req.eventId
    req.capturedAt none none
  let fingerprint := fingerprint.filter fun kv =>
    kv.1 ≠ "source_mapping_hash" ∧ kv.1 ≠ "normalizer_version"
  pure (.obj (("raw_payload", .obj req.rawPayload) :: fingerprint))

structure Hashes where
  rawPayloadHash : String
  submissionHash : String
deriving DecidableEq, Repr

/-- `_validate_and_hash`. -/
def validateAndHash (sha256 : List Char → String) (settings : IngestionSettings)
    (req : IngestRequest) : Except AtlasError Hashes := do
  require (req.claimsData.isEmpty = false) (.domainValidation
    "claims_data must not be empty: at least one claim is required per ingestion")
  require (req.claimsData.length ≤ settings.maxClaimsPerRequest)
    (.tooManyClaims req.claimsData.length settings.maxClaimsPerRequest)
  let raw ← (Json.obj req.rawPayload).canonicalBytes "raw_payload"
  require (raw.length ≤ settings.maxRawPayloadBytes)
    (.payloadTooLarge "raw_payload" raw.length settings.maxRawPayloadBytes)
  let material ← submissionHashMaterial req (Db.normaliseSourceRecordId req.sourceRecordId)
  let submission ← material.canonicalBytes "ingestion submission"
  require (submission.length ≤ settings.maxRawPayloadBytes)
    (.payloadTooLarge "ingestion submission" submission.length settings.maxRawPayloadBytes)
  assertNoDuplicateFields (req.claimsData.map fun c => ⟨c.fieldName, c.fieldValue⟩)
    "Ingestion payload contains duplicate field_name entries"
  pure ⟨sha256 raw, sha256 submission⟩

end Fingerprint

/-! ## The stored result -/

/-- The value of `attached_by`. -/
def AttachedBy.text : AttachedBy → String
  | explicitEventId => "explicit_event_id"
  | sourceRecordId => "source_record_id"
  | identityMatch => "identity_match"
  | newEvent => "new_event"
  | duplicateReview => "duplicate_review"
  | idempotentReplayLegacyClaimLookup => "idempotent_replay_legacy_claim_lookup"

/-- The review ids after `IngestionResult.__post_init__`: without repeats, the
primary one first. -/
def reviewIds (primary : Option Uuid) (ids : List Uuid) : List Uuid :=
  match primary with
  | some p => p :: (Rows.distinct ids).filter fun id => id ≠ p
  | none => Rows.distinct ids

/-- `IngestionResult` as a caller gets it.  `__post_init__` leaves no repeated
review id and makes the first one the primary. -/
structure IngestionResponse where
  eventId : Uuid
  eventCreated : Bool
  snapshotCreated : Bool
  idempotentReplay : Bool
  pendingReviewId : Option Uuid
  pendingReviewIds : List Uuid
  attachedBy : String
  primary : pendingReviewId = pendingReviewIds.head?
  distinct : pendingReviewIds.Nodup

theorem reviewIds_nodup (primary : Option Uuid) (ids : List Uuid) :
    (reviewIds primary ids).Nodup := by
  cases primary with
  | none => exact Rows.nodup_distinct ids
  | some p =>
      refine List.nodup_cons.mpr ⟨?_, (Rows.nodup_distinct ids).filter _⟩
      simp

namespace IngestionResponse

/-- `IngestionResult(...)` with its `__post_init__`. -/
def make (eventId : Uuid) (eventCreated snapshotCreated idempotentReplay : Bool)
    (primary : Option Uuid) (ids : List Uuid) (attachedBy : String) : IngestionResponse where
  eventId := eventId
  eventCreated := eventCreated
  snapshotCreated := snapshotCreated
  idempotentReplay := idempotentReplay
  pendingReviewId := (reviewIds primary ids).head?
  pendingReviewIds := reviewIds primary ids
  attachedBy := attachedBy
  primary := rfl
  distinct := reviewIds_nodup primary ids

/-- The answer to a repeated submission: the same result under the current event,
marked as a replay. -/
def replayed (r : IngestionResponse) (eventId : Uuid) : IngestionResponse :=
  { r with eventId := eventId, snapshotCreated := false, idempotentReplay := true }

end IngestionResponse

/-- The result of an ingestion as its caller gets it. -/
def IngestionResult.response (r : IngestionResult) : IngestionResponse :=
  .make r.eventId r.eventCreated r.snapshotCreated r.idempotentReplay r.pendingReviewIds.head?
    r.pendingReviewIds r.attachedBy.text

/-- `StoredIngestionResult`. -/
structure StoredIngestionResult where
  schemaVersion : Int
  eventIdAtCompletion : Option Uuid
  eventId : Option Uuid
  eventCreated : Bool
  snapshotCreated : Bool
  pendingReviewId : Option Uuid
  pendingReviewIds : List Uuid
  attachedBy : String
  completedAt : Option Time

/-! ### Validators -/

/-- A field of a model: its default when it is absent. -/
def modelField {α : Type} (data : List (String × Json)) (key : String) (default : α)
    (validate : Json → Option α) : Option α :=
  match data.lookup key with
  | none => some default
  | some j => validate j

/-- `T | None`. -/
def nullable {α : Type} (validate : Json → Option α) : Json → Option (Option α)
  | .null => some none
  | j => (validate j).map some

/-- `StrictBool`. -/
def strictBool : Json → Option Bool
  | .bool b => some b
  | _ => none

/-- `list[T]`. -/
def listOf {α : Type} (validate : Json → Option α) : Json → Option (List α)
  | .arr xs => xs.mapM validate
  | _ => none

section Stored

variable [Pydantic]

/-- `_ingestion_result_json`. -/
def ingestionResultJson (r : IngestionResponse) (now : Time) : Json :=
  .obj [("schema_version", .num (.int 1)),
    ("event_id_at_completion", .str (uuidStr r.eventId)),
    ("event_id", .str (uuidStr r.eventId)),
    ("event_created", .bool r.eventCreated),
    ("snapshot_created", .bool r.snapshotCreated),
    ("pending_review_id", .ofText (r.pendingReviewId.map uuidStr)),
    ("pending_review_ids", .arr (r.pendingReviewIds.map fun id => .str (uuidStr id))),
    ("attached_by", .str r.attachedBy),
    ("completed_at", .str (Pydantic.isoformat now))]

/-- `StoredIngestionResult.model_validate`. -/
def StoredIngestionResult.modelValidate : Json → Option StoredIngestionResult
  | .obj data => do
      let schemaVersion ← modelField data "schema_version" 1 Pydantic.int
      let eventIdAtCompletion ←
        modelField data "event_id_at_completion" none (nullable Pydantic.uuid)
      let eventId ← modelField data "event_id" none (nullable Pydantic.uuid)
      let eventCreated ← modelField data "event_created" false strictBool
      let snapshotCreated ← modelField data "snapshot_created" true strictBool
      let pendingReviewId ← modelField data "pending_review_id" none (nullable Pydantic.uuid)
      let pendingReviewIds ← modelField data "pending_review_ids" [] (listOf Pydantic.uuid)
      let attachedBy ← modelField data "attached_by" "idempotent_replay" Pydantic.str
      let completedAt ← modelField data "completed_at" none (nullable Pydantic.datetime)
      pure ⟨schemaVersion, eventIdAtCompletion, eventId, eventCreated, snapshotCreated,
        pendingReviewId, pendingReviewIds, attachedBy, completedAt⟩
  | _ => none

/-- The plural ids, with the primary one in front when it is not among them. -/
def withPrimary (primary : Option Uuid) (ids : List Uuid) : List Uuid :=
  match primary with
  | some p => if p ∈ ids then ids else p :: ids
  | none => ids

namespace Db

/-- `_result_from_json`. -/
def resultFromJson (s : Db) (data : Json) : Except AtlasError IngestionResponse := do
  let stored ← fromOption (StoredIngestionResult.modelValidate data) (.persistenceCorruption
    ("Malformed stored ingestion_result_json: persisted result could not be deserialized. " ++
      "This is an internal data-integrity problem, not a client error."))
  require (stored.schemaVersion = 1) (.persistenceCorruption
    ("Unsupported ingestion_result_json schema_version " ++ toString stored.schemaVersion ++
      ". The stored record was written by a newer version of Atlas. " ++
      "This is an internal data-integrity problem, not a client error."))
  let seed ← fromOption (stored.eventIdAtCompletion.or stored.eventId) (.persistenceCorruption
    ("Malformed stored ingestion_result_json: missing event id " ++
      "(event_id_at_completion and event_id are both absent). " ++
      "This is an internal data-integrity problem, not a client error."))
  let eventId ← s.replayCanonicalId seed
  let ids := withPrimary stored.pendingReviewId (Rows.distinct stored.pendingReviewIds)
  pure (.make eventId stored.eventCreated false true stored.pendingReviewId ids
    (if stored.attachedBy = "" then "idempotent_replay" else stored.attachedBy))

/-- The column `ingestion_result_json` of a snapshot. -/
def resultJson (snapshot : RawSnapshot) : Option Json :=
  snapshot.ingestionResult.map fun r => ingestionResultJson r.response snapshot.createdAt

/-- `_result_from_snapshot` on the stored JSON. -/
def responseFromSnapshot (s : Db) (snapshot : RawSnapshot) :
    Except AtlasError (Option IngestionResponse) :=
  match resultJson snapshot with
  | some data => do
      let r ← s.resultFromJson data
      pure (some r)
  | none =>
      match s.findEventIdByRawSnapshotId snapshot.id with
      | none => pure none
      | some eventId => do
          let canonical ← s.replayCanonicalId eventId
          pure (some (.make canonical false false true none []
            "idempotent_replay_legacy_claim_lookup"))

/-- `IngestionIdempotencyService.check`. -/
def check (s : Db) (sourceId runId : Uuid) (hashes : Hashes) :
    Except AtlasError (Option IngestionResponse) :=
  match s.findBySourceRun sourceId runId with
  | none => pure none
  | some snapshot => do
      require (snapshot.submissionHash = hashes.submissionHash) .idempotencyKeyPayloadMismatch
      let replay ← s.responseFromSnapshot snapshot
      let replay ← fromOption replay .ingestionInProgress
      pure (some replay)

end Db

end Stored

/-! ## The use case -/

/-- The call that a validated request becomes. -/
def IngestRequest.call (req : IngestRequest) (settings : IngestionSettings) (hashes : Hashes)
    (serving : Serving) : Db.IngestCall where
  sourceId := req.sourceId
  ingestionRunId := req.ingestionRunId
  submissionHash := hashes.submissionHash
  eventId := req.eventId
  sourceRecordId := req.sourceRecordId
  claims := serving.claims
  decision := serving.decision
  maxDuplicateReviews := settings.maxDuplicateReviewsPerIngestion
  now := serving.now

namespace Db

section Execute

variable [PyText] [FloatRepr] [Pydantic] (sha256 : List Char → String)
  (settings : IngestionSettings)

/-- `IngestSourceData.execute_with_result`. -/
def executeWithResult (s : Db) (req : IngestRequest) (serving : Serving) :
    Except AtlasError (IngestionResponse × Db) := do
  let hashes ← validateAndHash sha256 settings req
  match ← s.check req.sourceId req.ingestionRunId hashes with
  | some replay => pure (replay, s)
  | none => do
      let (result, s') ← s.ingestSourceData (req.call settings hashes serving)
      pure (result.response, s')

/-- The store after a request: committed, or rolled back. -/
def afterRequest (s : Db) (req : IngestRequest) (serving : Serving) : Db :=
  match s.executeWithResult sha256 settings req serving with
  | .ok (_, s') => s'
  | .error _ => s

end Execute

end Db

end Atlas
