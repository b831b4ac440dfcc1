import Atlas.Lib.Outcome
import Atlas.ConflictDetector

/-!
# The conflict reconciler

After claims were written, `ConflictReconciler` brings the conflict rows in line
with the active evidence: it repairs RESOLVED conflicts whose winner was
superseded, closes OPEN conflicts that the evidence no longer supports, and
opens, reopens or extends conflicts for every detected disagreement.

Every read of a conflict row and every version-checked write may be preceded by
commits of other transactions.  A `Session` carries the transaction's view of
the store together with a schedule of such commits: each access to the conflict
table first takes the next entry of the schedule.  A row this transaction has
written is locked until it ends, so a foreign change of it waits.  With an empty
schedule the session is a transaction that runs alone.
-/

namespace Atlas

open Outcome

/-- `_MAX_VERSION_RETRY`. -/
def maxVersionRetry : Nat := 5

/-! ## Sessions -/

/-- What another transaction may do to a conflict row. -/
inductive ForeignKind where
  | bump
  | resolve (winner : Uuid)
  | reopen
deriving DecidableEq, Repr

structure ForeignChange where
  conflictId : Uuid
  kind : ForeignKind
deriving DecidableEq, Repr

/-- A transaction's view of the store, the rows it holds locked, the commits of
others still to come before each of its accesses, and those that happened. -/
structure Session where
  db : Db
  locked : List Uuid
  schedule : List (List ForeignChange)
  committed : List ForeignChange

namespace Session

/-- A transaction that runs alone. -/
def alone (s : Db) : Session := ⟨s, [], [], []⟩

/-- Whether another transaction can make the change now, given the row. -/
def allows (σ : Session) (change : ForeignChange) (c : ClaimConflict) : Bool :=
  decide (c.id ∉ σ.locked) &&
    match change.kind with
    | .bump => true
    | .resolve _ => c.status == .open
    | .reopen =>
        c.status == .resolved && !σ.db.conflicts.any fun d =>
          d.id ≠ c.id ∧ d.eventId = c.eventId ∧ d.fieldName = c.fieldName ∧ d.status = .open

/-- The row after a foreign change. -/
def foreignRow (kind : ForeignKind) (c : ClaimConflict) : ClaimConflict :=
  match kind with
  | .bump => { c with version := c.version + 1 }
  | .resolve winner =>
      { c with version := c.version + 1, status := .resolved, winningClaimId := some winner }
  | .reopen => { c with version := c.version + 1, status := .open, winningClaimId := none }

/-- One foreign change, when it is possible. -/
def commitForeign (σ : Session) (change : ForeignChange) : Session :=
  match σ.db.getConflict change.conflictId with
  | none => σ
  | some c =>
      if σ.allows change c then
        { σ with
          db := { σ.db with
            conflicts := Rows.updateWhere (fun d => d.id = c.id) (foreignRow change.kind)
              σ.db.conflicts }
          committed := σ.committed ++ [change] }
      else σ

/-- Let the other transactions run before an access to the conflict table. -/
def tick (σ : Session) : Session :=
  match σ.schedule with
  | [] => σ
  | changes :: rest => changes.foldl commitForeign { σ with schedule := rest }

/-- `conflicts.get`. -/
def getConflict (σ : Session) (id : Uuid) : Option ClaimConflict × Session :=
  let σ := σ.tick
  (σ.db.getConflict id, σ)

/-- `conflicts.find_by_event`. -/
def findConflictsByEvent (σ : Session) (eventId : Uuid) : List ClaimConflict × Session :=
  let σ := σ.tick
  (σ.db.findConflictsByEvent eventId, σ)

/-- `conflicts.find_open_by_event_field`. -/
def findOpenByEventField (σ : Session) (eventId : Uuid) (fieldName : String) :
    Option ClaimConflict × Session :=
  let σ := σ.tick
  (σ.db.findOpenByEventField eventId fieldName, σ)

/-- `conflicts.try_add_open`; the inserted row is locked. -/
def tryAddOpen (σ : Session) (c : ClaimConflict) : Bool × Session :=
  let σ := σ.tick
  let (inserted, db) := σ.db.tryAddOpen c
  (inserted, { σ with db := db, locked := if inserted then c.id :: σ.locked else σ.locked })

/-- `conflicts.update_with_version_check`; the updated row is locked. -/
def updateWithVersionCheck (σ : Session) (conflictId : Uuid) (expectedVersion : Nat)
    (updates : ClaimConflict → ClaimConflict) :
    Except AtlasError (Option ClaimConflict × Session) := do
  let σ := σ.tick
  let (updated, db) ← σ.db.updateWithVersionCheck conflictId expectedVersion updates
  pure (updated, { σ with
    db := db
    locked := if updated.isSome then conflictId :: σ.locked else σ.locked })

end Session

/-! ## Row changes and log entries -/

/-- Who makes a change, and when. -/
structure Actor where
  modifierType : ModifierType
  modifierId : Option Uuid
  now : Time
deriving DecidableEq, Repr

namespace Db

/-- Append an activity row with the next sequence number of the conflict. -/
def logActivity (s : Db) (actor : Actor) (conflictId eventId : Uuid)
    (fromStatus : Option ConflictStatus) (toStatus : ConflictStatus) (reason : String)
    (version : Nat) (claimsSnapshot : ClaimsSnapshot) : Db :=
  s.addActivity
    { conflictId := conflictId
      eventId := eventId
      sequence := s.nextSequence conflictId
      fromStatus := fromStatus
      toStatus := toStatus
      modifierType := actor.modifierType
      modifierId := actor.modifierId
      reason := reason
      versionAtMoment := version
      claimsSnapshot := claimsSnapshot }

end Db

/-- The updates of `_merge_evidence_into_open`. -/
def evidenceMerged (now : Time) (c : ClaimConflict) : ClaimConflict :=
  { c with lastModifiedReason := .newEvidence, updatedAt := now }

/-- The updates of `_reopen_resolved_for_evidence`. -/
def reopenedForEvidence (now : Time) (c : ClaimConflict) : ClaimConflict :=
  { c with
    status := .open
    winningClaimId := none
    resolvedBy := none
    resolvedAt := none
    lastModifiedReason := .newEvidence
    lastModifiedNote := some "New evidence contradicts resolved value"
    updatedAt := now }

/-- The updates of `_auto_resolve_stale_open_conflict`. -/
def autoResolved (winner : Uuid) (now : Time) (c : ClaimConflict) : ClaimConflict :=
  { c with
    status := .resolved
    winningClaimId := some winner
    resolvedBy := none
    resolvedAt := some now
    lastModifiedReason := .systemAutoClosed
    lastModifiedNote := some "Active evidence now agrees after source-record supersession"
    updatedAt := now }

/-- The updates of `_reconcile_resolved_winner`. -/
def winnerMoved (winner : Uuid) (now : Time) (c : ClaimConflict) : ClaimConflict :=
  { c with winningClaimId := some winner, updatedAt := now }

namespace Session

/-- Add the missing evidence links and the activity row, once the fenced update
of the conflict row went through. -/
def linkAndLog (σ : Session) (actor : Actor) (conflictId eventId : Uuid) (claimIds : List Uuid)
    (fromStatus : Option ConflictStatus) (toStatus : ConflictStatus) (reason : String)
    (version : Nat) : Session :=
  { σ with
    db := (σ.db.addClaimsToConflict conflictId claimIds).logActivity actor conflictId eventId
      fromStatus toStatus reason version .none }

/-! ## Evidence into an OPEN conflict -/

/-- The retry loop of `_merge_evidence_into_open`. -/
def mergeEvidenceLoop (actor : Actor) (claimIds : List Uuid) (logReason : String) :
    Nat → ClaimConflict → Session → Except AtlasError Session
  | 0, existingOpen, _ =>
      .error (.conflictReconciliation existingOpen.id "merge_evidence_into_open" maxVersionRetry)
  | fuel + 1, existingOpen, σ => do
      let (updated, σ) ← σ.updateWithVersionCheck existingOpen.id existingOpen.version
        (evidenceMerged actor.now)
      match updated with
      | some u =>
          pure (σ.linkAndLog actor existingOpen.id existingOpen.eventId claimIds
            (some .open) .open logReason u.version)
      | none =>
          let (reloaded, σ) := σ.getConflict existingOpen.id
          match reloaded with
          | none => pure σ
          | some r =>
              -- resolved during the merge: the evidence is deferred
              if r.status ≠ .open then pure σ
              else mergeEvidenceLoop actor claimIds logReason fuel r σ

/-- `_merge_evidence_into_open`. -/
def mergeEvidenceIntoOpen (σ : Session) (actor : Actor) (existingOpen : ClaimConflict)
    (claimIds : List Uuid) (logReason : String) : Except AtlasError Session :=
  mergeEvidenceLoop actor claimIds logReason maxVersionRetry existingOpen σ

/-! ## A RESOLVED conflict the evidence contradicts -/

/-- The retry loop of `_reopen_resolved_for_evidence`. -/
def reopenLoop (actor : Actor) (claimIds : List Uuid) :
    Nat → ClaimConflict → Session → Except AtlasError Session
  | 0, existingResolved, _ =>
      .error (.conflictReconciliation existingResolved.id "reopen_resolved_for_evidence"
        maxVersionRetry)
  | fuel + 1, existingResolved, σ => do
      let (updated, σ) ← σ.updateWithVersionCheck existingResolved.id existingResolved.version
        (reopenedForEvidence actor.now)
      match updated with
      | some u =>
          pure (σ.linkAndLog actor existingResolved.id existingResolved.eventId claimIds
            (some .resolved) .open "Reopened due to contradictory new evidence" u.version)
      | none =>
          let (reloaded, σ) := σ.getConflict existingResolved.id
          match reloaded with
          | none => pure σ
          | some r =>
              if r.status = .open then
                σ.mergeEvidenceIntoOpen actor r claimIds
                  "Contradictory evidence merged into already-reopened conflict"
              else reopenLoop actor claimIds fuel r σ

/-- `_reopen_resolved_for_evidence`. -/
def reopenResolvedForEvidence (σ : Session) (actor : Actor) (existingResolved : ClaimConflict)
    (claimIds : List Uuid) : Except AtlasError Session :=
  reopenLoop actor claimIds maxVersionRetry existingResolved σ

/-! ## A RESOLVED conflict that lost its winner -/

/-- The retry loop of `_reconcile_resolved_winner`.  Unlike the others it gives
up without an exception. -/
def moveWinnerLoop (actor : Actor) (newWinner : Uuid) :
    Nat → ClaimConflict → Session → Except AtlasError Session
  | 0, _, σ => pure σ
  | fuel + 1, resolvedConflict, σ => do
      let (updated, σ) ← σ.updateWithVersionCheck resolvedConflict.id resolvedConflict.version
        (winnerMoved newWinner actor.now)
      match updated with
      | some u =>
          pure (σ.linkAndLog actor resolvedConflict.id resolvedConflict.eventId [newWinner]
            (some .resolved) .resolved
            ("Winning claim superseded by source-record correction; " ++
              "winner updated to equivalent replacement") u.version)
      | none =>
          let (reloaded, σ) := σ.getConflict resolvedConflict.id
          match reloaded with
          | none => pure σ
          | some r =>
              if r.status ≠ .resolved then pure σ
              else moveWinnerLoop actor newWinner fuel r σ

section Reconcile

variable [PyText]

/-- `_reconcile_resolved_winner`. -/
def reconcileResolvedWinner (σ : Session) (actor : Actor) (resolvedConflict : ClaimConflict)
    (replacement : Claim) : Except AtlasError Session :=
  let active := σ.db.findActiveByEventField resolvedConflict.eventId resolvedConflict.fieldName
  match active with
  | [] => pure σ
  | first :: _ =>
      if (uniqueNormalisedValues active).length = 1 then
        let newWinner :=
          if replacement.fieldName = resolvedConflict.fieldName ∧
              replacement.id ∈ active.map Claim.id then replacement.id
          else first.id
        moveWinnerLoop actor newWinner maxVersionRetry resolvedConflict σ
      else σ.reopenResolvedForEvidence actor resolvedConflict (active.map Claim.id)

/-- `reconcile_superseded_winners`. -/
def reconcileSupersededWinners (σ : Session) (actor : Actor)
    (resolvedAndReplacements : List (ClaimConflict × Claim)) : Except AtlasError Session :=
  resolvedAndReplacements.foldlM (fun σ pair => σ.reconcileResolvedWinner actor pair.1 pair.2) σ

/-! ## An OPEN conflict the evidence no longer supports -/

/-- The retry loop of `_auto_resolve_stale_open_conflict`. -/
def autoResolveLoop (actor : Actor) (eventId : Uuid) (fieldName : String) :
    Nat → ClaimConflict → Session → Except AtlasError Session
  | 0, existingOpen, _ =>
      .error (.conflictReconciliation existingOpen.id "auto_resolve_stale_open" maxVersionRetry)
  | fuel + 1, existingOpen, σ =>
      let active := σ.db.findActiveByEventField eventId fieldName
      match active with
      | [] => pure σ
      | winning :: _ =>
          if Disagree active then pure σ
          else do
            let (updated, σ) ← σ.updateWithVersionCheck existingOpen.id existingOpen.version
              (autoResolved winning.id actor.now)
            match updated with
            | some u =>
                pure (σ.linkAndLog actor existingOpen.id existingOpen.eventId [winning.id]
                  (some .open) .resolved
                  ("Auto-closed because source-record supersession removed " ++
                    "the active disagreement") u.version)
            | none =>
                let (reloaded, σ) := σ.getConflict existingOpen.id
                match reloaded with
                | none => pure σ
                | some r =>
                    if r.status ≠ .open then pure σ
                    else autoResolveLoop actor eventId fieldName fuel r σ

/-- `_auto_resolve_stale_open_conflict`. -/
def autoResolveStaleOpenConflict (σ : Session) (actor : Actor) (eventId : Uuid)
    (fieldName : String) : Except AtlasError Session :=
  let (existingOpen, σ) := σ.findOpenByEventField eventId fieldName
  match existingOpen with
  | none => pure σ
  | some c => autoResolveLoop actor eventId fieldName maxVersionRetry c σ

/-- `auto_resolve_stale_open_conflicts`. -/
def autoResolveStaleOpenConflicts (σ : Session) (actor : Actor) (eventId : Uuid)
    (affectedFields : List String) : Except AtlasError Session :=
  affectedFields.foldlM (fun σ f => σ.autoResolveStaleOpenConflict actor eventId f) σ

/-! ## Detected disagreements -/

/-- The row `try_add_open` inserts for a detected conflict. -/
def newConflictRow (id : Uuid) (p : PotentialConflict) (now : Time) : ClaimConflict where
  id := id
  eventId := p.eventId
  fieldName := p.fieldName
  status := .open
  version := 1
  lastModifiedReason := .initial
  lastModifiedNote := none
  winningClaimId := none
  resolvedAt := none
  resolvedBy := none
  createdAt := now
  updatedAt := now

/-- Case 3 of `detect_and_apply_new_conflicts`: insert a conflict, or merge into
the one a concurrent writer inserted. -/
def openNewConflict (σ : Session) (actor : Actor) (p : PotentialConflict) :
    Except AtlasError Session :=
  let (id, db) := σ.db.uuid4
  let (inserted, σ) := ({ σ with db := db } : Session).tryAddOpen (newConflictRow id p actor.now)
  if inserted then
    pure (σ.linkAndLog actor id p.eventId p.claimIds none .open "Initial conflict detected" 1)
  else
    let (reloaded, σ) := σ.findOpenByEventField p.eventId p.fieldName
    match reloaded with
    | some r => σ.mergeEvidenceIntoOpen actor r p.claimIds "Merged into concurrent conflict"
    | none => pure σ

/-- The claim that won a conflict, when both exist. -/
def winnerOf (s : Db) (c : ClaimConflict) : Option Claim := c.winningClaimId.bind s.getClaim

/-- Some claim's normalised value differs from the winner's. -/
def Contradicts (winner : Claim) (fieldClaims : List Claim) : Prop :=
  ∃ c ∈ fieldClaims,
    (normalizeValue c.fieldValue).pyEq (normalizeValue winner.fieldValue) = false

instance (winner : Claim) (fieldClaims : List Claim) :
    Decidable (Contradicts winner fieldClaims) := by
  unfold Contradicts
  infer_instance

/-- The RESOLVED conflict of a field that its active claims contradict. -/
def contradicted (s : Db) (existing : List ClaimConflict) (fieldClaims : List Claim)
    (fieldName : String) : Option ClaimConflict :=
  match latestResolved existing fieldName with
  | none => none
  | some r =>
      match winnerOf s r with
      | none => none
      | some winner => if Contradicts winner fieldClaims then some r else none

/-- The loop body of `detect_and_apply_new_conflicts`. -/
def applyPotential (actor : Actor) (activeClaims : List Claim) (existing : List ClaimConflict)
    (σ : Session) (p : PotentialConflict) : Except AtlasError Session :=
  let openByField :=
    (existing.filter fun c => c.status = .open ∧ c.fieldName = p.fieldName).getLast?
  match openByField with
  | some c =>
      σ.mergeEvidenceIntoOpen actor c p.claimIds "New evidence added to existing conflict"
  | none =>
      let fieldClaims := activeClaims.filter fun c => c.fieldName = p.fieldName
      match contradicted σ.db existing fieldClaims p.fieldName with
      | some r => σ.reopenResolvedForEvidence actor r (fieldClaims.map Claim.id)
      | none => σ.openNewConflict actor p

/-- `detect_and_apply_new_conflicts`. -/
def detectAndApplyNewConflicts (σ : Session) (actor : Actor) (eventId : Uuid) :
    Except AtlasError Session :=
  let activeClaims := σ.db.findActiveByEvent eventId
  let detected := detect true activeClaims
  if detected = [] then pure σ
  else
    let (existing, σ) := σ.findConflictsByEvent eventId
    detected.foldlM (applyPotential actor activeClaims existing) σ

end Reconcile

end Session

end Atlas
