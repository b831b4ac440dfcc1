import Atlas.Entities
import Atlas.Lib.Rows

/-!
# The store and its repositories

One `Db` value is the committed content of the accident tables, or the view a
transaction has of them.  The operations below are the repository methods of
`atlas.infrastructure.db.repositories`, each under its own name; the ones that a
table constraint can refuse return an `Except`.

`bulk_*` methods work in chunks in the source, which bounds a statement's
parameters and changes nothing else.
-/

namespace Atlas

open Rows

/-- The tables. -/
structure Db where
  nextId : Nat
  sources : List Source
  ingestionRuns : List IngestionRun
  snapshots : List RawSnapshot
  events : List AccidentEvent
  claims : List Claim
  claimHistory : List ClaimHistory
  conflicts : List ClaimConflict
  /-- `claim_conflict_claims`: pairs of a conflict id and a claim id. -/
  conflictClaims : List (Uuid × Uuid)
  conflictActivity : List ConflictActivityLogEntry
  projections : List ProjectedAccidentRecord
  projectionHistory : List AccidentProjectionHistory
  outbox : List OutboxEvent
  duplicateReviews : List PendingDuplicateReview
deriving Repr

namespace Db

/-- A store with its sources registered and nothing ingested.  The first free
identifier lies above those of the sources. -/
def empty (sources : List Source) : Db where
  nextId := sources.foldl (fun n src => max n (src.id + 1)) 0
  sources := sources
  ingestionRuns := []
  snapshots := []
  events := []
  claims := []
  claimHistory := []
  conflicts := []
  conflictClaims := []
  conflictActivity := []
  projections := []
  projectionHistory := []
  outbox := []
  duplicateReviews := []

/-- `uuid4()`. -/
def uuid4 (s : Db) : Uuid × Db := (s.nextId, { s with nextId := s.nextId + 1 })

/-! ## Sources, runs and snapshots -/

def getSource (s : Db) (id : Uuid) : Option Source := lookup Source.id id s.sources

/-- `sources.get_by_ids`. -/
def getSourcesByIds (s : Db) (ids : List Uuid) : List Source :=
  s.sources.filter fun src => src.id ∈ ids

def getRun (s : Db) (id : Uuid) : Option IngestionRun := lookup IngestionRun.id id s.ingestionRuns

/-- `ingestion_runs.ensure_started`: insert a running row unless the id is
taken, and refuse a row of another source. -/
def ensureStarted (s : Db) (id sourceId : Uuid) : Except AtlasError Db :=
  match s.getRun id with
  | none => .ok { s with ingestionRuns := s.ingestionRuns ++ [⟨id, sourceId, false⟩] }
  | some run =>
      if run.sourceId = sourceId then .ok s
      else .error (.ingestionRunSourceMismatch id sourceId run.sourceId)

/-- `ingestion_runs.update_status(id, "finished")`. -/
def finishRun (s : Db) (id : Uuid) : Db :=
  { s with
    ingestionRuns := updateWhere (fun r => r.id = id) (fun r => { r with finished := true })
      s.ingestionRuns }

def getSnapshot (s : Db) (id : Uuid) : Option RawSnapshot := lookup RawSnapshot.id id s.snapshots

/-- `snapshots.find_by_source_run`; the pair is unique. -/
def findBySourceRun (s : Db) (sourceId runId : Uuid) : Option RawSnapshot :=
  s.snapshots.find? fun r => r.sourceId = sourceId ∧ r.ingestionRunId = runId

/-- `snapshots.try_add_unique` under `uq_raw_snapshot_ingestion_key`. -/
def tryAddUnique (s : Db) (snapshot : RawSnapshot) : Bool × Db :=
  match s.findBySourceRun snapshot.sourceId snapshot.ingestionRunId with
  | some _ => (false, s)
  | none => (true, { s with snapshots := s.snapshots ++ [snapshot] })

/-- `snapshots.update_ingestion_result`. -/
def updateIngestionResult (s : Db) (id : Uuid) (result : IngestionResult) : Db :=
  { s with
    snapshots := updateWhere (fun r => r.id = id)
      (fun r => { r with ingestionResult := some result }) s.snapshots }

/-- The source record a claim came from: its snapshot's source and record id,
when it has a snapshot that carries one. -/
def recordOf (s : Db) (c : Claim) : Option (Uuid × String) :=
  match c.rawSnapshotId.bind s.getSnapshot with
  | some snap => snap.sourceRecordId.map fun r => (snap.sourceId, r)
  | none => none

/-- The creation time of a claim's snapshot. -/
def snapshotTime (s : Db) (c : Claim) : Time :=
  match c.rawSnapshotId.bind s.getSnapshot with
  | some snap => snap.createdAt
  | none => 0

/-- `snapshots.find_latest_event_id_by_source_record_id`: the event of the claim
with the latest snapshot, then the latest creation time. -/
def findLatestEventIdBySourceRecordId (s : Db) (sourceId : Uuid) (record : String) :
    Option Uuid :=
  let rows := s.claims.filter fun c => s.recordOf c = some (sourceId, record)
  let newestFirst := rows.insertionSort fun a b =>
    s.snapshotTime b < s.snapshotTime a ∨
      (s.snapshotTime a = s.snapshotTime b ∧ b.createdAt ≤ a.createdAt)
  newestFirst.head?.map Claim.eventId

/-! ## Events -/

def getEvent (s : Db) (id : Uuid) : Option AccidentEvent := lookup AccidentEvent.id id s.events

def addEvent (s : Db) (e : AccidentEvent) : Db := { s with events := s.events ++ [e] }

/-- `events.try_atomic_merge`: set the tombstone pointer unless it is set. -/
def tryAtomicMerge (s : Db) (sourceId targetId : Uuid) : Bool × Db :=
  if s.events.any fun e => e.id = sourceId ∧ e.mergedInto = none then
    (true, { s with
      events := updateWhere (fun e => e.id = sourceId ∧ e.mergedInto = none)
        (fun e => { e with mergedInto := some targetId }) s.events })
  else (false, s)

/-! ## Claims -/

def getClaim (s : Db) (id : Uuid) : Option Claim := lookup Claim.id id s.claims

def getManyClaims (s : Db) (ids : List Uuid) : List Claim := s.claims.filter fun c => c.id ∈ ids

def addClaim (s : Db) (c : Claim) : Db := { s with claims := s.claims ++ [c] }

/-- The query has no `ORDER BY`; here and in the next one the rows come as the table has them. -/
def findActiveByEvent (s : Db) (eventId : Uuid) : List Claim :=
  s.claims.filter fun c => c.eventId = eventId ∧ c.isActive

def findActiveByEventField (s : Db) (eventId : Uuid) (fieldName : String) : List Claim :=
  s.claims.filter fun c => c.eventId = eventId ∧ c.fieldName = fieldName ∧ c.isActive

/-- `claims.find_active_by_source_record`: the claim and its snapshot must both
belong to the source. -/
def findActiveBySourceRecord (s : Db) (sourceId : Uuid) (record : String) : List Claim :=
  s.claims.filter fun c =>
    c.sourceId = sourceId ∧ c.isActive ∧ s.recordOf c = some (sourceId, record)

/-- Mark one row superseded. -/
def supersedeRow (byClaimId : Uuid) (c : Claim) : Claim :=
  { c with claimType := .superseded, supersededBy := some byClaimId }

/-- `claims.bulk_supersede`: supersede the active rows among `ids` and return
them as they were. -/
def bulkSupersede (s : Db) (ids : List Uuid) (byClaimId : Uuid) : List Claim × Db :=
  (s.claims.filter fun c => c.id ∈ ids ∧ c.isActive,
    { s with
      claims := updateWhere (fun c => c.id ∈ ids ∧ c.isActive) (supersedeRow byClaimId) s.claims })

def findSupersededBy (s : Db) (byClaimId : Uuid) : List Claim :=
  s.claims.filter fun c => c.supersededBy = some byClaimId

/-- The type `bulk_unsupersede` restores: the `from_claim_type` of the latest
history row that superseded the claim, RAW when there is none or it is itself
SUPERSEDED. -/
def restoredType (s : Db) (claimId : Uuid) : ClaimType :=
  match s.claimHistory.reverse.find? fun h => h.claimId = claimId ∧ h.toClaimType = .superseded with
  | none => .raw
  | some h =>
      match h.fromClaimType with
      | none => .raw
      | some .superseded => .raw
      | some t => t

/-- Reactivate one row. -/
def unsupersedeRow (s : Db) (c : Claim) : Claim :=
  { c with claimType := s.restoredType c.id, supersededBy := none }

/-- `claims.bulk_unsupersede`: reactivate the rows among `ids` and return them
after the change. -/
def bulkUnsupersede (s : Db) (ids : List Uuid) : List Claim × Db :=
  ((s.claims.filter fun c => c.id ∈ ids).map s.unsupersedeRow,
    { s with claims := updateWhere (fun c => c.id ∈ ids) s.unsupersedeRow s.claims })

def addClaimHistory (s : Db) (h : ClaimHistory) : Db :=
  { s with claimHistory := s.claimHistory ++ [h] }

/-! ## Conflicts -/

def getConflict (s : Db) (id : Uuid) : Option ClaimConflict :=
  lookup ClaimConflict.id id s.conflicts

/-- `conflicts.find_by_event`, newest first. -/
def findConflictsByEvent (s : Db) (eventId : Uuid) : List ClaimConflict :=
  (s.conflicts.filter fun c => c.eventId = eventId).insertionSort fun a b =>
    b.createdAt < a.createdAt ∨ (a.createdAt = b.createdAt ∧ b.id ≤ a.id)

def findOpenByEventField (s : Db) (eventId : Uuid) (fieldName : String) : Option ClaimConflict :=
  s.conflicts.find? fun c => c.eventId = eventId ∧ c.fieldName = fieldName ∧ c.status = .open

/-- `conflicts.try_add_open` under the partial unique index
`uq_open_conflict_event_field`. -/
def tryAddOpen (s : Db) (c : ClaimConflict) : Bool × Db :=
  match s.findOpenByEventField c.eventId c.fieldName with
  | some _ => (false, s)
  | none => (true, { s with conflicts := s.conflicts ++ [c] })

def getClaimIdsForConflict (s : Db) (conflictId : Uuid) : List Uuid :=
  (s.conflictClaims.filter fun l => l.1 = conflictId).map Prod.snd

/-- `conflicts.add_claim_to_conflict`: insert the link unless it is there. -/
def addClaimToConflict (s : Db) (conflictId claimId : Uuid) : Db :=
  { s with conflictClaims := insertKey s.conflictClaims (conflictId, claimId) }

/-- The links the reconciler adds: those of `claimIds` that are not there yet. -/
def addClaimsToConflict (s : Db) (conflictId : Uuid) (claimIds : List Uuid) : Db :=
  { s with
    conflictClaims :=
      (claimIds.map fun claimId => (conflictId, claimId)).foldl insertKey s.conflictClaims }

/-- `conflicts.update_with_version_check`: update the row when its version is
the expected one and bump the version; `none` when no row matches.  Opening a
second conflict of one event and field violates the partial unique index. -/
def updateWithVersionCheck (s : Db) (conflictId : Uuid) (expectedVersion : Nat)
    (updates : ClaimConflict → ClaimConflict) :
    Except AtlasError (Option ClaimConflict × Db) :=
  match s.conflicts.find? fun c => c.id = conflictId ∧ c.version = expectedVersion with
  | none => .ok (none, s)
  | some c =>
      let c' := { updates c with version := c.version + 1 }
      if c'.status = .open ∧ s.conflicts.any fun d =>
          d.id ≠ conflictId ∧ d.eventId = c'.eventId ∧ d.fieldName = c'.fieldName ∧
            d.status = .open then
        .error (.integrity "uq_open_conflict_event_field")
      else
        .ok (some c', { s with
          conflicts := updateWhere (fun d => d.id = conflictId ∧ d.version = expectedVersion)
            (fun d => { updates d with version := d.version + 1 }) s.conflicts })

/-- The row change of `close_event_conflicts_as_merged`. -/
def closeAsMergedRow (note : String) (now : Time) (c : ClaimConflict) : ClaimConflict :=
  { c with
    status := .resolved
    winningClaimId := none
    resolvedAt := some now
    lastModifiedReason := .systemAutoClosed
    lastModifiedNote := some (String.ofList (note.toList.take 255))
    updatedAt := now
    version := c.version + 1 }

/-- `conflicts.close_event_conflicts_as_merged`: close every OPEN conflict of
the event without a winner and return the rows after the change. -/
def closeEventConflictsAsMerged (s : Db) (eventId : Uuid) (note : String) (now : Time) :
    List ClaimConflict × Db :=
  ((s.conflicts.filter fun c => c.eventId = eventId ∧ c.status = .open).map
      (closeAsMergedRow note now),
    { s with
      conflicts := updateWhere (fun c => c.eventId = eventId ∧ c.status = .open)
        (closeAsMergedRow note now) s.conflicts })

/-- `conflicts.find_resolved_by_winning_claims`, as the dictionary lookup: the
last RESOLVED row won by the claim. -/
def findResolvedByWinningClaim (s : Db) (claimId : Uuid) : Option ClaimConflict :=
  s.conflicts.reverse.find? fun c => c.winningClaimId = some claimId ∧ c.status = .resolved

/-- `conflict_activity.next_sequence`. -/
def nextSequence (s : Db) (conflictId : Uuid) : Nat :=
  ((s.conflictActivity.filter fun a => a.conflictId = conflictId).map
    ConflictActivityLogEntry.sequence).foldl max 0 + 1

def addActivity (s : Db) (a : ConflictActivityLogEntry) : Db :=
  { s with conflictActivity := s.conflictActivity ++ [a] }

/-! ## Projections -/

def getProjection (s : Db) (eventId : Uuid) : Option ProjectedAccidentRecord :=
  lookup ProjectedAccidentRecord.eventId eventId s.projections

/-- `projections.upsert`: insert or replace the event's row. -/
def upsertProjection (s : Db) (p : ProjectedAccidentRecord) : Db :=
  if s.projections.any fun q => q.eventId = p.eventId then
    { s with projections := updateWhere (fun q => q.eventId = p.eventId) (fun _ => p) s.projections }
  else { s with projections := s.projections ++ [p] }

def deleteProjection (s : Db) (eventId : Uuid) : Db :=
  { s with projections := s.projections.filter fun p => p.eventId ≠ eventId }

def findHistoryByOutboxEvent (s : Db) (outboxEventId : Uuid) : Option AccidentProjectionHistory :=
  s.projectionHistory.find? fun h => h.causedByOutboxEventId = some outboxEventId

/-- `projection_history.add` under `uq_projection_history_version` and
`uq_projection_history_outbox_event`. -/
def addProjectionHistory (s : Db) (h : AccidentProjectionHistory) : Except AtlasError Db :=
  if s.projectionHistory.any fun g =>
      g.accidentEventId = h.accidentEventId ∧ g.projectionVersion = h.projectionVersion then
    .error (.integrity "uq_projection_history_version")
  else if h.causedByOutboxEventId.isSome ∧ s.projectionHistory.any fun g =>
      g.causedByOutboxEventId = h.causedByOutboxEventId then
    .error (.integrity "uq_projection_history_outbox_event")
  else .ok { s with projectionHistory := s.projectionHistory ++ [h] }

/-! ## Outbox and duplicate reviews -/

def getOutbox (s : Db) (id : Uuid) : Option OutboxEvent := lookup OutboxEvent.id id s.outbox

/-- `outbox.add` of a PENDING `CLAIMS_UPDATED` event. -/
def addOutbox (s : Db) (eventId : Uuid) (ingestionRunId : Option Uuid) : Db :=
  let (id, s) := s.uuid4
  { s with outbox := s.outbox ++ [⟨id, eventId, ingestionRunId, .pending, 0, none, none⟩] }

def getReview (s : Db) (id : Uuid) : Option PendingDuplicateReview :=
  lookup PendingDuplicateReview.id id s.duplicateReviews

/-- The review is about this unordered pair of events. -/
def isPair (a b : Uuid) (r : PendingDuplicateReview) : Bool :=
  (r.eventIdA = a ∧ r.eventIdB = b) ∨ (r.eventIdA = b ∧ r.eventIdB = a)

/-- `duplicate_reviews.find_existing_pair`: PENDING first, then the newest. -/
def findExistingPair (s : Db) (a b : Uuid) : Option PendingDuplicateReview :=
  let rows := s.duplicateReviews.reverse.filter (isPair a b)
  (rows.find? fun r => r.status = .pending).or rows.head?

/-- `duplicate_reviews.add`: a PENDING review unless the pair has one, which is
returned instead. -/
def addReview (s : Db) (r : PendingDuplicateReview) : PendingDuplicateReview × Db :=
  match s.duplicateReviews.find? fun q => isPair r.eventIdA r.eventIdB q ∧ q.status = .pending with
  | some q => (q, s)
  | none => (r, { s with duplicateReviews := s.duplicateReviews ++ [r] })

/-- `duplicate_reviews.update_status`. -/
def updateReviewStatus (s : Db) (id : Uuid) (status : DuplicateReviewStatus)
    (resolvedBy : Uuid) (note : String) : Db :=
  { s with
    duplicateReviews := updateWhere (fun r => r.id = id)
      (fun r => { r with
        status := status
        resolvedBy := some resolvedBy
        resolutionNote := some note }) s.duplicateReviews }

end Db

end Atlas
