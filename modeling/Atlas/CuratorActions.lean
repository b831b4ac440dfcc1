import Atlas.ClaimWriter
import Atlas.ReProject
import Atlas.Reconciler

/-!
# Curator actions on a conflict

`ResolveConflict` picks a winner among the claims linked to an OPEN conflict, or
creates a manual override, and supersedes the other linked claims.
`ReopenConflict` reactivates the linked claims that the winner superseded and
opens the conflict again.  Both reproject the event before they commit.

Each action is split where its reads end: what it decides on, the writes, and
the reprojection.  A transaction that runs alone finds the winner's row as it
read it, so the second look under a row lock is the first one again.
-/

namespace Atlas

open Outcome

/-- `reason[:255]`, or nothing for an empty reason. -/
def noteOf (reason : String) : Option String :=
  if reason = "" then none else some (String.ofList (reason.toList.take 255))

/-- `reason or fallback`. -/
def reasonOr (reason fallback : String) : String := if reason = "" then fallback else reason

/-! ## Resolving -/

/-- The arguments of `ResolveConflict.execute`, the override source of the
settings, and the clock.  A JSON null stands for Python's `None`. -/
structure ResolveCall where
  conflictId : Uuid
  expectedVersion : Nat
  winningClaimId : Option Uuid
  manualOverrideValue : Json
  manualOverrideProvided : Bool
  currentUserId : Option Uuid
  reason : String
  curatorOverrideSourceId : Uuid
  now : Time
deriving DecidableEq, Repr

/-- `manual_override_selected`. -/
def ResolveCall.overrideSelected (call : ResolveCall) : Bool :=
  call.manualOverrideProvided || call.manualOverrideValue != .null

namespace Db

/-- The override claim of a resolution. -/
def overrideClaim (call : ResolveCall) (c : ClaimConflict) (id : Uuid) : Claim where
  id := id
  eventId := c.eventId
  sourceId := call.curatorOverrideSourceId
  rawSnapshotId := none
  fieldName := c.fieldName
  fieldValue := call.manualOverrideValue
  claimType := .manualOverride
  createdAt := call.now
  createdBy := call.currentUserId
  supersededBy := none

/-- The history row of an override claim. -/
def overrideHistory (call : ResolveCall) (c : Claim) : ClaimHistory where
  claimId := c.id
  eventId := c.eventId
  fromValue := none
  toValue := some c.fieldValue
  fromClaimType := none
  toClaimType := .manualOverride
  action := .created
  reason := reasonOr call.reason "Manual override created during conflict resolution"
  modifierType := .user
  modifierId := call.currentUserId

/-- The history row of a losing claim. -/
def losingHistory (call : ResolveCall) (old : Claim) : ClaimHistory where
  claimId := old.id
  eventId := old.eventId
  fromValue := some old.fieldValue
  toValue := none
  fromClaimType := some old.claimType
  toClaimType := .superseded
  action := .superseded
  reason := reasonOr call.reason "Superseded by conflict resolution"
  modifierType := .user
  modifierId := call.currentUserId

/-- The conflict a resolution is about: it must exist, be OPEN and have the
expected version. -/
def conflictToResolve (s : Db) (call : ResolveCall) : Except AtlasError ClaimConflict := do
  require (¬ (call.winningClaimId.isSome ∧ call.overrideSelected)) (.domainValidation
    "Provide either winning_claim_id or manual_override_value, not both")
  require (call.winningClaimId.isSome ∨ call.overrideSelected)
    (.domainValidation "Need a winner or an overridden value")
  require call.currentUserId.isSome (.domainValidation "current_user_id is required")
  let c ← fromOption (s.getConflict call.conflictId) (.conflictNotFound call.conflictId)
  require (c.status = .open) (.conflictAlreadyResolved call.conflictId)
  require (c.version = call.expectedVersion) (.conflictModified c.id c.version)
  pure c

/-- The winner of a resolution, with the store after an override was written. -/
def winnerToApply (s : Db) (call : ResolveCall) (c : ClaimConflict) :
    Except AtlasError (Uuid × Db) :=
  match call.winningClaimId with
  | none => do
      require (s.getSource call.curatorOverrideSourceId).isSome (.invariantViolation
        "Curator override source not found")
      let (id, s) := s.uuid4
      let claim := overrideClaim call c id
      let s := (s.addClaim claim).addClaimHistory (overrideHistory call claim)
      pure (id, s.addClaimToConflict c.id id)
  | some winnerId => do
      require (winnerId ∈ s.getClaimIdsForConflict c.id) (.claimNotInConflict winnerId c.id)
      let w ← fromOption (s.getClaim winnerId) (.claimNotFound winnerId)
      require w.canWin (.claimNotEligible winnerId w.claimType)
      pure (winnerId, s)

/-- The row updates of a resolution. -/
def resolvedByUser (call : ResolveCall) (winner : Uuid) (c : ClaimConflict) : ClaimConflict :=
  { c with
    status := .resolved
    winningClaimId := some winner
    resolvedBy := call.currentUserId
    resolvedAt := some call.now
    lastModifiedReason := .userResolved
    lastModifiedNote := noteOf call.reason
    updatedAt := call.now }

/-- Supersede the linked claims that lost. -/
def supersedeLosers (s : Db) (call : ResolveCall) (conflictId winner : Uuid) : Db :=
  let losingIds := (s.getClaimIdsForConflict conflictId).filter fun id => id ≠ winner
  let activeLosingIds := ((s.getManyClaims losingIds).filter Claim.canWin).map Claim.id
  let (losing, s) := s.bulkSupersede activeLosingIds winner
  s.addClaimHistories (losing.map (losingHistory call))

/-- The writes of a resolution, before the reprojection. -/
def applyResolution (s : Db) (call : ResolveCall) (c : ClaimConflict) (winner : Uuid) :
    Except AtlasError (ClaimConflict × Db) := do
  let (updated, s) ← s.updateWithVersionCheck c.id call.expectedVersion (resolvedByUser call winner)
  let u ← fromOption updated (.conflictModified c.id c.version)
  let s := s.supersedeLosers call c.id winner
  pure (u, s.logActivity ⟨.user, call.currentUserId, call.now⟩ c.id u.eventId (some .open) .resolved
    (reasonOr call.reason "Conflict resolved by user") (c.version + 1) (.winner winner))

section Curator

variable [PyText]

/-- The reprojection a curator action ends with. -/
def reprojectFor (s : Db) (c : ClaimConflict) (now : Time) :
    Except AtlasError (ProjectedAccidentRecord × Db) :=
  s.reProjectEvent ⟨c.eventId, some c.id, none, none, false, now⟩

/-- `ResolveConflict.execute`. -/
def resolveConflict (s : Db) (call : ResolveCall) :
    Except AtlasError (ClaimConflict × ProjectedAccidentRecord × Db) := do
  let c ← s.conflictToResolve call
  let (winner, s) ← s.winnerToApply call c
  let (u, s) ← s.applyResolution call c winner
  let (p, s) ← s.reprojectFor u call.now
  pure (u, p, s)

end Curator

end Db

/-! ## Reopening -/

/-- The arguments of `ReopenConflict.execute`, and the clock. -/
structure ReopenCall where
  conflictId : Uuid
  expectedVersion : Nat
  currentUserId : Uuid
  reason : String
  now : Time
deriving DecidableEq, Repr

namespace Db

/-- The conflict to reopen: it must exist, be RESOLVED and have the expected
version. -/
def conflictToReopen (s : Db) (call : ReopenCall) : Except AtlasError ClaimConflict := do
  let c ← fromOption (s.getConflict call.conflictId) (.conflictNotFound call.conflictId)
  require (c.status = .resolved) (.domainValidation
    ("Conflict " ++ toString call.conflictId ++
      " is not resolved; only resolved conflicts can be reopened"))
  require (c.version = call.expectedVersion) (.conflictModified c.id c.version)
  pure c

/-- The claims a reopening reactivates: superseded by the previous winner,
linked to the conflict and about its event and field. -/
def toReactivate (s : Db) (c : ClaimConflict) : List Claim :=
  match c.winningClaimId with
  | none => []
  | some winner =>
      (s.findSupersededBy winner).filter fun k =>
        k.id ∈ s.getClaimIdsForConflict c.id ∧ k.eventId = c.eventId ∧ k.fieldName = c.fieldName

/-- The row updates of a reopening. -/
def reopenedByUser (call : ReopenCall) (c : ClaimConflict) : ClaimConflict :=
  { c with
    status := .open
    winningClaimId := none
    resolvedBy := none
    resolvedAt := none
    lastModifiedReason := .userReopened
    lastModifiedNote := noteOf (reasonOr call.reason "Manual reopen")
    updatedAt := call.now }

/-- The history row of a reactivated claim. -/
def reactivatedHistory (call : ReopenCall) (k : Claim) : ClaimHistory where
  claimId := k.id
  eventId := k.eventId
  fromValue := none
  toValue := some k.fieldValue
  fromClaimType := some .superseded
  toClaimType := k.claimType
  action := .reactivated
  reason := reasonOr call.reason "Reactivated by manual conflict reopen"
  modifierType := .user
  modifierId := some call.currentUserId

/-- The writes of a reopening, before the reprojection. -/
def applyReopening (s : Db) (call : ReopenCall) (c : ClaimConflict) :
    Except AtlasError (ClaimConflict × Db) := do
  let (unsuperseded, s) := s.bulkUnsupersede ((s.toReactivate c).map Claim.id)
  let (updated, s) ← s.updateWithVersionCheck c.id call.expectedVersion (reopenedByUser call)
  let u ← fromOption updated (.conflictModified c.id c.version)
  let s := s.addClaimHistories (unsuperseded.map (reactivatedHistory call))
  pure (u, s.logActivity ⟨.user, some call.currentUserId, call.now⟩ c.id c.eventId
    (some .resolved) .open (reasonOr call.reason "Conflict reopened by user") (c.version + 1)
    (.reopened c.winningClaimId (unsuperseded.map Claim.id)))

/-- `ReopenConflict.execute`. -/
def reopenConflict [PyText] (s : Db) (call : ReopenCall) :
    Except AtlasError (ClaimConflict × ProjectedAccidentRecord × Db) := do
  let c ← s.conflictToReopen call
  let (u, s) ← s.applyReopening call c
  let (p, s) ← s.reprojectFor u call.now
  pure (u, p, s)

end Db

end Atlas
