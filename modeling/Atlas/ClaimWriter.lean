import Atlas.Lib.Outcome
import Atlas.Store

/-!
# Writing claims

`ClaimWriter.write_normalised` writes one claim per submitted field and
supersedes the active claims the submission replaces: those of the same source
record, on whatever event they sit, or, when the submission has no record id,
those the same source made about the same field of the event.
-/

namespace Atlas

open Outcome

/-- A claim as the source normaliser returns it. -/
structure NormalisedClaim where
  fieldName : String
  fieldValue : Json
deriving DecidableEq, Repr

/-- The field names that occur more than once, sorted. -/
def duplicateFields (items : List NormalisedClaim) : List String :=
  let names := items.map NormalisedClaim.fieldName
  (Rows.distinct (names.filter fun f => 1 < names.count f)).insertionSort (· ≤ ·)

/-- `_assert_no_duplicate_fields`. -/
def assertNoDuplicateFields (items : List NormalisedClaim) (messagePrefix : String) :
    Except AtlasError Unit :=
  require (duplicateFields items = [])
    (.duplicateClaimField messagePrefix (duplicateFields items))

/-- `ClaimWriteResult`, with the store it goes with. -/
structure ClaimWriteResult where
  db : Db
  newClaims : List Claim
  supersededClaims : List Claim
  affectedFields : List String
  resolvedConflictsToReconcile : List (ClaimConflict × Claim)

/-- The submission a batch of claims belongs to. -/
structure Submission where
  eventId : Uuid
  sourceId : Uuid
  snapshotId : Uuid
  ingestionRunId : Uuid
  sourceRecordId : Option String
  now : Time
deriving DecidableEq, Repr

namespace Db

/-- `prior_claims_by_field.get(field)`: the active claims a new claim of the
field supersedes. -/
def priorClaims (s : Db) (sub : Submission) (fieldName : String) : List Claim :=
  match sub.sourceRecordId with
  | some record =>
      (s.findActiveBySourceRecord sub.sourceId record).filter fun c => c.fieldName = fieldName
  | none =>
      (s.findActiveByEventField sub.eventId fieldName).filter fun c => c.sourceId = sub.sourceId

/-- The claim written for one submitted field. -/
def newClaim (sub : Submission) (id : Uuid) (item : NormalisedClaim) : Claim where
  id := id
  eventId := sub.eventId
  sourceId := sub.sourceId
  rawSnapshotId := some sub.snapshotId
  fieldName := item.fieldName
  fieldValue := item.fieldValue
  claimType := .raw
  createdAt := sub.now
  createdBy := none
  supersededBy := none

/-- The history row of a claim ingestion created. -/
def ingestedHistory (sub : Submission) (c : Claim) : ClaimHistory where
  claimId := c.id
  eventId := c.eventId
  fromValue := none
  toValue := some c.fieldValue
  fromClaimType := none
  toClaimType := c.claimType
  action := .created
  reason := "Initial ingestion"
  modifierType := .ingestion
  modifierId := some sub.ingestionRunId

/-- The history row of a claim that re-ingestion superseded. -/
def reingestedHistory (sub : Submission) (old : Claim) : ClaimHistory where
  claimId := old.id
  eventId := old.eventId
  fromValue := some old.fieldValue
  toValue := some old.fieldValue
  fromClaimType := some old.claimType
  toClaimType := .superseded
  action := .superseded
  reason := "Superseded by same-source re-ingestion (" ++
    sub.sourceRecordId.getD "no source_record_id" ++ ")"
  modifierType := .ingestion
  modifierId := some sub.ingestionRunId

/-- Append history rows in order. -/
def addClaimHistories (s : Db) (hs : List ClaimHistory) : Db :=
  { s with claimHistory := s.claimHistory ++ hs }

/-- The loop body of `write_normalised`. -/
def writeClaim (sub : Submission) (prior : String → List Claim) (acc : ClaimWriteResult)
    (item : NormalisedClaim) : ClaimWriteResult :=
  let (id, s) := acc.db.uuid4
  let claim := newClaim sub id item
  let s := (s.addClaim claim).addClaimHistory (ingestedHistory sub claim)
  let (superseded, s) := s.bulkSupersede ((prior item.fieldName).map Claim.id) claim.id
  { db := s.addClaimHistories (superseded.map (reingestedHistory sub))
    newClaims := acc.newClaims ++ [claim]
    supersededClaims := acc.supersededClaims ++ superseded
    affectedFields :=
      if superseded = [] then acc.affectedFields
      else Rows.insertKey acc.affectedFields item.fieldName
    resolvedConflictsToReconcile := [] }

/-- The RESOLVED conflict a superseded claim had won, with the claim that
replaced it. -/
def toReconcile (s : Db) (newClaims : List Claim) (old : Claim) : Option (ClaimConflict × Claim) :=
  match s.findResolvedByWinningClaim old.id, newClaims.find? fun c => c.fieldName = old.fieldName with
  | some resolved, some replacement => some (resolved, replacement)
  | _, _ => none

/-- `ClaimWriter.write_normalised`. -/
def writeNormalised (s : Db) (sub : Submission) (items : List NormalisedClaim) :
    Except AtlasError ClaimWriteResult := do
  assertNoDuplicateFields items
    "Ingestion payload contains duplicate canonical field_name entries"
  let written := items.foldl (writeClaim sub (s.priorClaims sub)) ⟨s, [], [], [], []⟩
  pure { written with
    resolvedConflictsToReconcile :=
      written.supersededClaims.filterMap (written.db.toReconcile written.newClaims) }

end Db

end Atlas
