import Atlas.Values

/-!
# Domain entities

The rows of the accident store: sources and their raw snapshots, accident
events, claims with their history, conflicts with their evidence links and
activity log, projections with their history, outbox events and duplicate
reviews.  Field names follow the entities of `atlas.domain.entities`; columns
that no modelled use case reads are left out.

Identifiers are drawn from one counter of the store, so that `uuid4` never
repeats.  Times are naturals.
-/

namespace Atlas

abbrev Uuid := Nat
abbrev Time := Nat

/-- Two link rows are equal when both their identifiers are. -/
instance lawfulBEq_links : LawfulBEq (Uuid × Uuid) := inferInstance

inductive ClaimType where
  | raw
  | confirmed
  | manualOverride
  | superseded
deriving DecidableEq, Repr

/-- `ClaimType.active_values()`: everything but SUPERSEDED. -/
def ClaimType.isActive : ClaimType → Bool
  | superseded => false
  | _ => true

inductive ConflictStatus where
  | open
  | resolved
deriving DecidableEq, Repr

inductive ModifierType where
  | user
  | ingestion
  | system
deriving DecidableEq, Repr

inductive ConflictModifierReason where
  | initial
  | newEvidence
  | evidenceUpdated
  | userResolved
  | userReopened
  | systemAutoClosed
deriving DecidableEq, Repr

inductive OutboxStatus where
  | pending
  | processing
  | processed
  | failed
  | deadLetter
deriving DecidableEq, Repr

inductive DuplicateReviewStatus where
  | pending
  | rejected
  | merged
  | autoMerged
  | confirmedDuplicate
deriving DecidableEq, Repr

/-- A source; a lower reliability tier is more trusted. -/
structure Source where
  id : Uuid
  name : String
  reliabilityTier : Nat
deriving DecidableEq, Repr

/-- How an ingestion found its event. -/
inductive AttachedBy where
  | explicitEventId
  | sourceRecordId
  | identityMatch
  | newEvent
  | duplicateReview
  | idempotentReplayLegacyClaimLookup
deriving DecidableEq, Repr

/-- `IngestionResult`, also the durable replay record of a snapshot. -/
structure IngestionResult where
  eventId : Uuid
  eventCreated : Bool
  snapshotCreated : Bool
  idempotentReplay : Bool
  pendingReviewIds : List Uuid
  attachedBy : AttachedBy
deriving DecidableEq, Repr

/-- One raw submission.  `submissionHash` stands for the digest of the full
submission. -/
structure RawSnapshot where
  id : Uuid
  sourceId : Uuid
  ingestionRunId : Uuid
  submissionHash : String
  createdAt : Time
  sourceRecordId : Option String
  ingestionResult : Option IngestionResult
deriving DecidableEq, Repr

structure IngestionRun where
  id : Uuid
  sourceId : Uuid
  finished : Bool
deriving DecidableEq, Repr

/-- An accident event; `mergedInto` is the tombstone pointer. -/
structure AccidentEvent where
  id : Uuid
  mergedInto : Option Uuid
deriving DecidableEq, Repr

/-- `AccidentEvent.is_merged`. -/
def AccidentEvent.isMerged (e : AccidentEvent) : Bool := e.mergedInto.isSome

structure Claim where
  id : Uuid
  eventId : Uuid
  sourceId : Uuid
  rawSnapshotId : Option Uuid
  fieldName : String
  fieldValue : Json
  claimType : ClaimType
  createdAt : Time
  createdBy : Option Uuid
  supersededBy : Option Uuid
deriving DecidableEq, Repr

/-- `Claim.is_active`. -/
def Claim.isActive (c : Claim) : Bool := c.claimType.isActive

/-- `Claim.can_win`: MANUAL_OVERRIDE, CONFIRMED or RAW. -/
def Claim.canWin (c : Claim) : Bool :=
  c.claimType == .manualOverride || c.claimType == .confirmed || c.claimType == .raw

theorem Claim.canWin_eq_isActive (c : Claim) : c.canWin = c.isActive := by
  unfold Claim.canWin Claim.isActive
  cases c.claimType <;> rfl

inductive HistoryAction where
  | created
  | superseded
  | merged
  | reactivated
deriving DecidableEq, Repr

/-- A row of `claim_history`.  The table is append only and `created_at` is the
insertion time, so the list order is the `created_at` order. -/
structure ClaimHistory where
  claimId : Uuid
  eventId : Uuid
  fromValue : Option Json
  toValue : Option Json
  fromClaimType : Option ClaimType
  toClaimType : ClaimType
  action : HistoryAction
  reason : String
  modifierType : ModifierType
  modifierId : Option Uuid
deriving DecidableEq, Repr

/-- A row of `claim_conflicts`.  Evidence links live in their own table. -/
structure ClaimConflict where
  id : Uuid
  eventId : Uuid
  fieldName : String
  status : ConflictStatus
  version : Nat
  lastModifiedReason : ConflictModifierReason
  lastModifiedNote : Option String
  winningClaimId : Option Uuid
  resolvedAt : Option Time
  resolvedBy : Option Uuid
  createdAt : Time
  updatedAt : Time
deriving DecidableEq, Repr

/-- The `claims_snapshot` of an activity row. -/
inductive ClaimsSnapshot where
  | none
  | winner (winningClaimId : Uuid)
  | reopened (previousWinningClaimId : Option Uuid) (reactivatedClaimIds : List Uuid)
  | merged (eventMergedInto : Uuid)
deriving DecidableEq, Repr

structure ConflictActivityLogEntry where
  conflictId : Uuid
  eventId : Uuid
  sequence : Nat
  fromStatus : Option ConflictStatus
  toStatus : ConflictStatus
  modifierType : ModifierType
  modifierId : Option Uuid
  reason : String
  versionAtMoment : Nat
  claimsSnapshot : ClaimsSnapshot
deriving DecidableEq, Repr

/-- A projected field in memory: a JSON value or the `DISPUTED` sentinel.  The
sentinel is an object of its own type and equals no JSON value. -/
inductive Projected where
  | disputed
  | value (j : Json)
deriving DecidableEq, Repr

/-- `ProjectedAccidentRecord`.  A record read back from the store holds only
`value` fields. -/
structure ProjectedAccidentRecord where
  eventId : Uuid
  projectionVersion : Nat
  fields : List (String × Projected)
  completenessScore : ℚ
  unresolvedConflictFields : List String
  updatedAt : Time
deriving DecidableEq, Repr

/-- The content of a projection that is hashed and snapshotted. -/
structure ProjectionContent where
  fields : List (String × Json)
  unresolvedConflictFields : List String
  completenessScore : ℚ
deriving DecidableEq, Repr

structure AccidentProjectionHistory where
  accidentEventId : Uuid
  projectionVersion : Nat
  causedByConflictId : Option Uuid
  causedByIngestionRunId : Option Uuid
  causedByOutboxEventId : Option Uuid
  snapshot : ProjectionContent
  changedFields : List String
deriving DecidableEq, Repr

/-- An outbox row of type `CLAIMS_UPDATED`; `eventId` is both its aggregate and
its payload's event. -/
structure OutboxEvent where
  id : Uuid
  eventId : Uuid
  ingestionRunId : Option Uuid
  status : OutboxStatus
  attemptCount : Nat
  lockedBy : Option String
  lockedAt : Option Time
deriving DecidableEq, Repr

structure PendingDuplicateReview where
  id : Uuid
  eventIdA : Uuid
  eventIdB : Uuid
  status : DuplicateReviewStatus
  resolvedBy : Option Uuid
  resolutionNote : Option String
deriving DecidableEq, Repr

/-- The exceptions the modelled use cases raise. -/
inductive AtlasError where
  | domainValidation (message : String)
  | conflictNotFound (conflictId : Uuid)
  | conflictAlreadyResolved (conflictId : Uuid)
  | conflictModified (conflictId : Uuid) (currentVersion : Nat)
  | conflictReconciliation (conflictId : Uuid) (operation : String) (retries : Nat)
  | claimNotInConflict (claimId conflictId : Uuid)
  | claimNotFound (claimId : Uuid)
  | claimNotEligible (claimId : Uuid) (claimType : ClaimType)
  | duplicateClaimField (message : String) (fields : List String)
  | eventNotFound (eventId : Uuid)
  | eventAlreadyMerged (eventId : Uuid)
  | cannotMergeIntoSelf (eventId : Uuid)
  | sourceNotFound (sourceId : Uuid)
  | sourceRecordEventMismatch (sourceRecordId : String) (ownerId explicitId : Uuid)
  | ingestionRunSourceMismatch (runId expectedSourceId actualSourceId : Uuid)
  | idempotencyKeyPayloadMismatch
  | tooManyClaims (count limit : Nat)
  | payloadTooLarge (what : String) (size limit : Nat)
  | persistenceCorruption (message : String)
  | ingestionInProgress
  | reviewNotFound (reviewId : Uuid)
  | reviewAlreadyResolved (reviewId : Uuid) (status : DuplicateReviewStatus)
  | invariantViolation (message : String)
  | runtime (message : String)
  | integrity (constraint : String)
deriving DecidableEq, Repr

end Atlas
