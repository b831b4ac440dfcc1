import Atlas.ClaimWriter
import Atlas.Reconciler

/-!
# Ingestion

`IngestSourceData.execute_with_result` in its phases: the idempotency check, the
source and explicit event, continuity of the source record, the snapshot, event
resolution, the claims, reconciliation, and the outbox event that asks for a
reprojection.

The call carries the claims as the source's normaliser returns them, the digest
of the submission, and the decision of the identity matcher.  The results hold
for every decision.
-/

namespace Atlas

open Outcome

/-! ## Following the merge pointers -/

/-- The end of a walk along `merged_into_event_id`. -/
inductive Canonical where
  | found (e : AccidentEvent)
  | missing (id : Uuid)
  | cycle (id : Uuid)
deriving DecidableEq, Repr

namespace Db

/-- The loop of `_canonical_event_for`.  Each turn adds an event to `seen`, so
one turn more than there are events is enough for the source's endless loop. -/
def canonicalLoop (s : Db) : Nat → List Uuid → Uuid → Canonical
  | 0, _, id => .cycle id
  | fuel + 1, seen, id =>
      match s.getEvent id with
      | none => .missing id
      | some e =>
          match e.mergedInto with
          | none => .found e
          | some target =>
              if e.id ∈ seen then .cycle e.id else canonicalLoop s fuel (e.id :: seen) target

/-- `_canonical_event_for`, before the caller turns a missing event or a cycle
into its own exception. -/
def canonicalEventFor (s : Db) (id : Uuid) : Canonical :=
  s.canonicalLoop (s.events.length + 1) [] id

/-- The canonical event, or the exception of `SourceRecordContinuityService` and
`IngestionIdempotencyService`. -/
def requireCanonical (s : Db) (id : Uuid) : Except AtlasError AccidentEvent :=
  match s.canonicalEventFor id with
  | .found e => .ok e
  | .missing id => .error (.eventNotFound id)
  | .cycle id => .error (.eventAlreadyMerged id)

/-! ## The phases -/

/-- What the identity matcher says about a submission. -/
inductive MatchDecision where
  | attach (candidate : Uuid)
  | review (candidates : List Uuid)
  | new
deriving DecidableEq, Repr

/-- The arguments of `execute_with_result`, and the clock. -/
structure IngestCall where
  sourceId : Uuid
  ingestionRunId : Uuid
  submissionHash : String
  eventId : Option Uuid
  sourceRecordId : Option String
  claims : List NormalisedClaim
  decision : MatchDecision
  maxDuplicateReviews : Nat
  now : Time
deriving DecidableEq, Repr

/-- `_normalise_source_record_id`: trim, and treat a blank id as missing. -/
def normaliseSourceRecordId : Option String → Option String
  | none => none
  | some raw => if strip raw = "" then none else some (strip raw)

/-- `find_event_id_by_raw_snapshot_id`: active claims first, then the newest. -/
def findEventIdByRawSnapshotId (s : Db) (snapshotId : Uuid) : Option Uuid :=
  let rows := s.claims.filter fun c => c.rawSnapshotId = some snapshotId
  let inactive (c : Claim) : Nat := if c.isActive then 0 else 1
  let sorted := rows.insertionSort fun a b =>
    inactive a < inactive b ∨ (inactive a = inactive b ∧
      (b.createdAt < a.createdAt ∨ (a.createdAt = b.createdAt ∧ a.id ≤ b.id)))
  sorted.head?.map Claim.eventId

/-- `_result_from_snapshot`. -/
def resultFromSnapshot (s : Db) (snapshot : RawSnapshot) :
    Except AtlasError (Option IngestionResult) :=
  match snapshot.ingestionResult with
  | some stored => do
      let e ← s.requireCanonical stored.eventId
      pure (some { stored with
        eventId := e.id
        snapshotCreated := false
        idempotentReplay := true
        pendingReviewIds := Rows.distinct stored.pendingReviewIds })
  | none =>
      match s.findEventIdByRawSnapshotId snapshot.id with
      | none => pure none
      | some eventId => do
          let e ← s.requireCanonical eventId
          pure (some ⟨e.id, false, false, true, [], .idempotentReplayLegacyClaimLookup⟩)

/-- Replay a snapshot that already holds this source and run. -/
def replaySnapshot (s : Db) (snapshot : RawSnapshot) (submissionHash : String) :
    Except AtlasError IngestionResult := do
  require (snapshot.submissionHash = submissionHash) .idempotencyKeyPayloadMismatch
  let replay ← s.resultFromSnapshot snapshot
  fromOption replay .ingestionInProgress

/-- The source, and the explicit event when there is one. -/
def loadExplicitEvent (s : Db) (call : IngestCall) : Except AtlasError (Option AccidentEvent) := do
  require (s.getSource call.sourceId).isSome (.sourceNotFound call.sourceId)
  match call.eventId with
  | none => pure none
  | some id => do
      let e ← fromOption (s.getEvent id) (.eventNotFound id)
      require (e.isMerged = false) (.eventAlreadyMerged id)
      pure (some e)

/-- `SourceRecordContinuityService.resolve`. -/
def resolveContinuity (s : Db) (sourceId : Uuid) (sourceRecordId : Option String)
    (explicitEvent : Option AccidentEvent) : Except AtlasError (Option AccidentEvent) :=
  match sourceRecordId with
  | none => pure none
  | some record =>
      match s.findLatestEventIdBySourceRecordId sourceId record with
      | none => pure none
      | some priorId => do
          let prior ← s.requireCanonical priorId
          match explicitEvent with
          | some e =>
              require (e.id = prior.id) (.sourceRecordEventMismatch record prior.id e.id)
              pure (some prior)
          | none => pure (some prior)

/-- The canonical ids of the review candidates, without repeats, capped. -/
def reviewCandidates (s : Db) (newEventId : Uuid) (maxReviews : Nat) (candidates : List Uuid) :
    Except AtlasError (List Uuid) :=
  candidates.foldlM (fun acc raw =>
    match s.canonicalEventFor raw with
    | .cycle id => .error (.eventAlreadyMerged id)
    | .missing _ => pure (push acc raw)
    | .found e => pure (push acc e.id)) []
where
  push (acc : List Uuid) (id : Uuid) : List Uuid :=
    if id = newEventId ∨ id ∈ acc ∨ maxReviews ≤ acc.length then acc else acc ++ [id]

/-- Queue a duplicate review of a candidate against the new event, unless the
pair has one. -/
def queueReview (newEventId : Uuid) (acc : List Uuid × Db) (candidate : Uuid) : List Uuid × Db :=
  match acc.2.findExistingPair candidate newEventId with
  | some r => (acc.1 ++ [r.id], acc.2)
  | none =>
      let (id, s) := acc.2.uuid4
      let (r, s) := s.addReview ⟨id, candidate, newEventId, .pending, none, none⟩
      (acc.1 ++ [r.id], s)

/-- The event an ingestion attaches to. -/
structure ResolvedEvent where
  db : Db
  eventId : Uuid
  pendingReviewIds : List Uuid
  eventCreated : Bool
  attachedBy : AttachedBy

/-- A new event with the reviews the decision asks for. -/
def createEvent (s : Db) (call : IngestCall) : Except AtlasError ResolvedEvent :=
  let (id, s) := s.uuid4
  let s := s.addEvent ⟨id, none⟩
  match call.decision with
  | .review candidates => do
      let canonical ← s.reviewCandidates id call.maxDuplicateReviews candidates
      let (reviews, s) := canonical.foldl (queueReview id) ([], s)
      pure ⟨s, id, reviews, true, if reviews = [] then .newEvent else .duplicateReview⟩
  | _ => pure ⟨s, id, [], true, .newEvent⟩

/-- `EventResolutionService.resolve_with_reviews`, with the matcher's decision
given. -/
def resolveWithReviews (s : Db) (call : IngestCall) : Except AtlasError ResolvedEvent := do
  require (0 < call.maxDuplicateReviews)
    (.domainValidation "max_duplicate_reviews must be greater than zero")
  match call.decision with
  | .attach candidate =>
      match s.canonicalEventFor candidate with
      | .found e => pure ⟨s, e.id, [], false, .identityMatch⟩
      | .missing _ => s.createEvent call
      | .cycle id => .error (.eventAlreadyMerged id)
  | _ => s.createEvent call

/-- `_resolve_event`. -/
def resolveEvent (s : Db) (call : IngestCall) (explicitEvent fromRecord : Option AccidentEvent) :
    Except AtlasError ResolvedEvent :=
  match explicitEvent, fromRecord with
  | some e, _ => pure ⟨s, e.id, [], false, .explicitEventId⟩
  | none, some e => pure ⟨s, e.id, [], false, .sourceRecordId⟩
  | none, none => s.resolveWithReviews call

/-- The snapshot row of a submission. -/
def snapshotRow (id : Uuid) (call : IngestCall) : RawSnapshot where
  id := id
  sourceId := call.sourceId
  ingestionRunId := call.ingestionRunId
  submissionHash := call.submissionHash
  createdAt := call.now
  sourceRecordId := normaliseSourceRecordId call.sourceRecordId
  ingestionResult := none

/-- `_lock_and_write_claims`: the event must exist and not be merged. -/
def lockAndWriteClaims (s : Db) (sub : Submission) (items : List NormalisedClaim) :
    Except AtlasError ClaimWriteResult := do
  let e ← fromOption (s.getEvent sub.eventId) (.eventNotFound sub.eventId)
  require (e.isMerged = false) (.eventAlreadyMerged e.id)
  s.writeNormalised sub items

section Ingest

variable [PyText]

/-- The reconciliation phase, in a transaction that runs alone. -/
def reconcileAfterWrite (w : ClaimWriteResult) (sub : Submission) : Except AtlasError Db := do
  let actor : Actor := ⟨.ingestion, some sub.ingestionRunId, sub.now⟩
  let σ ← (Session.alone w.db).reconcileSupersededWinners actor w.resolvedConflictsToReconcile
  let σ ← σ.autoResolveStaleOpenConflicts actor sub.eventId w.affectedFields
  let σ ← σ.detectAndApplyNewConflicts actor sub.eventId
  pure σ.db

/-- The phases after the idempotency check. -/
def ingestFresh (s : Db) (call : IngestCall) : Except AtlasError (IngestionResult × Db) := do
  let record := normaliseSourceRecordId call.sourceRecordId
  let explicitEvent ← s.loadExplicitEvent call
  assertNoDuplicateFields call.claims
    ("Ingestion payload contains duplicate canonical field_name entries " ++
      "after source field mapping / normalization")
  let s ← s.ensureStarted call.ingestionRunId call.sourceId
  let fromRecord ← s.resolveContinuity call.sourceId record explicitEvent
  let (snapshotId, s) := s.uuid4
  let (inserted, s) := s.tryAddUnique (snapshotRow snapshotId call)
  if inserted then
    let resolved ← s.resolveEvent call explicitEvent fromRecord
    let sub : Submission :=
      ⟨resolved.eventId, call.sourceId, snapshotId, call.ingestionRunId, record, call.now⟩
    let written ← resolved.db.lockAndWriteClaims sub call.claims
    let s ← reconcileAfterWrite written sub
    let s := s.addOutbox sub.eventId (some call.ingestionRunId)
    let result : IngestionResult :=
      ⟨sub.eventId, resolved.eventCreated, true, false, resolved.pendingReviewIds,
        resolved.attachedBy⟩
    pure (result, (s.updateIngestionResult snapshotId result).finishRun call.ingestionRunId)
  else
    let existing ← fromOption (s.findBySourceRun call.sourceId call.ingestionRunId)
      .ingestionInProgress
    let replay ← s.replaySnapshot existing call.submissionHash
    pure (replay, s)

/-- `IngestSourceData.execute_with_result`. -/
def ingestSourceData (s : Db) (call : IngestCall) : Except AtlasError (IngestionResult × Db) := do
  require (call.claims ≠ []) (.domainValidation
    "claims_data must not be empty: at least one claim is required per ingestion")
  match s.findBySourceRun call.sourceId call.ingestionRunId with
  | some snapshot => do
      let replay ← s.replaySnapshot snapshot call.submissionHash
      pure (replay, s)
  | none => s.ingestFresh call

end Ingest

end Db

end Atlas
