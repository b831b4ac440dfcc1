import Atlas.ClaimWriter
import Atlas.Reconciler

/-!
# Merging duplicate events

`MergeDuplicateEvents` absorbs one event into another: the active claims of the
source event are copied to the target and superseded on the source, the source's
OPEN conflicts are closed without a winner, conflicts are detected on the target,
the source's projection is deleted and a reprojection of the target is queued.
`ReviewDuplicate` confirms a pending duplicate review by such a merge, or rejects
it.
-/

namespace Atlas

open Outcome

/-- The arguments of `MergeDuplicateEvents.execute`, and the clock. -/
structure MergeCall where
  sourceEventId : Uuid
  targetEventId : Uuid
  resolvedBy : Uuid
  note : String
  reviewId : Option Uuid
  now : Time
deriving DecidableEq, Repr

/-- `f": {note}" if note else ""`. -/
def noteSuffix (note : String) : String := if note = "" then "" else ": " ++ note

namespace Db

/-- Both events must exist, differ and not be merged. -/
def mergeable (s : Db) (call : MergeCall) : Except AtlasError Unit := do
  require (call.sourceEventId ≠ call.targetEventId) (.cannotMergeIntoSelf call.sourceEventId)
  let source ← fromOption (s.getEvent call.sourceEventId) (.eventNotFound call.sourceEventId)
  let target ← fromOption (s.getEvent call.targetEventId) (.eventNotFound call.targetEventId)
  require (source.isMerged = false) (.eventAlreadyMerged call.sourceEventId)
  require (target.isMerged = false) (.eventAlreadyMerged call.targetEventId)

/-- The copy of a claim on the target event. -/
def mergedClaim (call : MergeCall) (id : Uuid) (old : Claim) : Claim :=
  { old with id := id, eventId := call.targetEventId, supersededBy := none }

/-- The history row of a copied claim. -/
def mergedHistory (call : MergeCall) (c : Claim) : ClaimHistory where
  claimId := c.id
  eventId := c.eventId
  fromValue := none
  toValue := some c.fieldValue
  fromClaimType := none
  toClaimType := c.claimType
  action := .merged
  reason := "Transferred from event " ++ toString call.sourceEventId ++ " during merge by " ++
    toString call.resolvedBy ++ noteSuffix call.note
  modifierType := .user
  modifierId := some call.resolvedBy

/-- The history row of an absorbed claim. -/
def absorbedHistory (call : MergeCall) (old : Claim) : ClaimHistory where
  claimId := old.id
  eventId := old.eventId
  fromValue := some old.fieldValue
  toValue := some old.fieldValue
  fromClaimType := some old.claimType
  toClaimType := .superseded
  action := .superseded
  reason := "Superseded by merge into " ++ toString call.targetEventId ++ noteSuffix call.note
  modifierType := .user
  modifierId := some call.resolvedBy

/-- Copy one active claim of the source event to the target. -/
def transferClaim (call : MergeCall) (acc : List (Claim × Uuid) × Db) (old : Claim) :
    List (Claim × Uuid) × Db :=
  let (id, s) := acc.2.uuid4
  let claim := mergedClaim call id old
  (acc.1 ++ [(old, id)], (s.addClaim claim).addClaimHistory (mergedHistory call claim))

/-- Supersede one source claim by its copy. -/
def absorbClaim (call : MergeCall) (s : Db) (pair : Claim × Uuid) : Db :=
  let (_, s) := s.bulkSupersede [pair.1.id] pair.2
  s.addClaimHistory (absorbedHistory call pair.1)

/-- Steps 1 and 2: transfer the active claims. -/
def transferClaims (s : Db) (call : MergeCall) : Db :=
  let (pairs, s) := (s.findActiveByEvent call.sourceEventId).foldl (transferClaim call) ([], s)
  pairs.foldl (absorbClaim call) s

/-- `merge_conflict_note`. -/
def mergeConflictNote (call : MergeCall) : String :=
  "Event merged into " ++ toString call.targetEventId ++ " by " ++ toString call.resolvedBy ++
    noteSuffix call.note

/-- Log the closing of one conflict of the source event. -/
def logClosed (call : MergeCall) (s : Db) (c : ClaimConflict) : Db :=
  s.logActivity ⟨.system, none, call.now⟩ c.id c.eventId (some .open) .resolved
    (mergeConflictNote call) c.version (.merged call.targetEventId)

/-- Step 4: close the source event's conflicts. -/
def closeSourceConflicts (s : Db) (call : MergeCall) : Db :=
  let (closed, s) :=
    s.closeEventConflictsAsMerged call.sourceEventId (mergeConflictNote call) call.now
  closed.foldl (logClosed call) s

/-- `_close_review`. -/
def closeReview (s : Db) (call : MergeCall) : Option Uuid × Db :=
  let note := String.ofList
    ((if call.note = "" then "Merged via admin action" else call.note).toList.take 500)
  match call.reviewId with
  | some id => (some id, s.updateReviewStatus id .merged call.resolvedBy note)
  | none =>
      match s.findExistingPair call.sourceEventId call.targetEventId with
      | some r =>
          if r.status = .pending then
            (some r.id, s.updateReviewStatus r.id .merged call.resolvedBy note)
          else (none, s)
      | none => (none, s)

/-- `MergeResult`. -/
structure MergeResult where
  targetEventId : Uuid
  sourceEventId : Uuid
  claimsTransferred : Nat
  reviewId : Option Uuid
deriving DecidableEq, Repr

section Merge

variable [PyText]

/-- `MergeDuplicateEvents.execute`. -/
def mergeDuplicateEvents (s : Db) (call : MergeCall) : Except AtlasError (MergeResult × Db) := do
  s.mergeable call
  let transferred := (s.findActiveByEvent call.sourceEventId).length
  let (claimed, s) := s.tryAtomicMerge call.sourceEventId call.targetEventId
  require claimed (.eventAlreadyMerged call.sourceEventId)
  let s := (s.transferClaims call).closeSourceConflicts call
  let σ ← (Session.alone s).detectAndApplyNewConflicts ⟨.user, some call.resolvedBy, call.now⟩
    call.targetEventId
  let s := (σ.db.addOutbox call.targetEventId none).deleteProjection call.sourceEventId
  let (reviewId, s) := s.closeReview call
  pure (⟨call.targetEventId, call.sourceEventId, transferred, reviewId⟩, s)

/-! ## Duplicate reviews -/

/-- `action.upper()` of `ReviewDuplicate.execute`. -/
inductive ReviewAction where
  | confirm
  | reject
  | other (text : String)
deriving DecidableEq, Repr

/-- The arguments of `ReviewDuplicate.execute`, and the clock. -/
structure ReviewCall where
  reviewId : Uuid
  action : ReviewAction
  resolvedBy : Uuid
  note : String
  sourceEventId : Option Uuid
  now : Time
deriving DecidableEq, Repr

/-- The direction of the merge a confirmation asks for: source, then target. -/
def mergeDirection (call : ReviewCall) (r : PendingDuplicateReview) :
    Except AtlasError (Uuid × Uuid) :=
  match call.sourceEventId with
  | none => pure (r.eventIdB, r.eventIdA)
  | some id => do
      require (id = r.eventIdA ∨ id = r.eventIdB) (.domainValidation
        ("source_event_id " ++ toString id ++ " is not part of review " ++ toString call.reviewId))
      pure (id, if id = r.eventIdA then r.eventIdB else r.eventIdA)

/-- `ReviewDuplicate.execute`. -/
def reviewDuplicate (s : Db) (call : ReviewCall) :
    Except AtlasError (Option MergeResult × Db) := do
  let r ← fromOption (s.getReview call.reviewId) (.reviewNotFound call.reviewId)
  require (r.status = .pending) (.reviewAlreadyResolved call.reviewId r.status)
  match call.action with
  | .confirm => do
      let (source, target) ← mergeDirection call r
      let note := if call.note = "" then "Confirmed duplicate via review" else call.note
      let (result, s) ← s.mergeDuplicateEvents
        ⟨source, target, call.resolvedBy, note, some call.reviewId, call.now⟩
      pure (some result, s)
  | .reject =>
      let note := String.ofList
        ((if call.note = "" then "Not a duplicate" else call.note).toList.take 500)
      pure (none, s.updateReviewStatus call.reviewId .rejected call.resolvedBy note)
  | .other text =>
      .error (.domainValidation
        ("Invalid action '" ++ text ++ "'. Must be 'CONFIRM' or 'REJECT'."))

end Merge

end Db

end Atlas
