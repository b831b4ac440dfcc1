import Atlas.Continuity
import Atlas.Lib.Slots
import Atlas.Outbox
import Atlas.ReProject

/-!
# Concurrent transactions

The committed store and the transactions that are open on it, under READ
COMMITTED: a statement sees what is committed when it runs, together with the
writes of its own transaction.

A reprojection is followed statement by statement, because what it reads can be
overtaken by commits of others.  The other transactions matter to it only by
what they commit.  Of an ingestion, a merge and a curator action the model keeps
the locks they take, in order, and lets them commit *any* evidence within the
footprint of their statements: whatever they read on the way is covered.

* An ingestion takes the advisory lock of its source record, asks continuity for
  the record's event, locks the event row and checks that it is not merged.  It
  may change the claims and conflicts of its event, and supersede claims of its
  record elsewhere.  It queues an outbox row.
* A merge locks both event rows.  It may change the evidence of both events,
  sets the pointer, deletes the source's projection and queues an outbox row for
  the target.
* A curator action changes the evidence of its conflict's event and reprojects
  the event in the same transaction.
* A worker leases an outbox row, and reprojects and acknowledges in one
  transaction that commits only while the lease is its own.
-/

namespace Atlas

open Outcome Rows

/-- What a projection is built from: the active claims of an event and its
conflict rows. -/
structure Evidence where
  claims : List Claim
  conflicts : List ClaimConflict

namespace Db

def evidence (s : Db) (e : Uuid) : Evidence := ⟨s.findActiveByEvent e, s.findConflictsByEvent e⟩

/-- `ProjectionBuilder().build` on evidence that was read. -/
def buildOn [PyText] (s : Db) (e : Uuid) (ev : Evidence) (version : Nat) (now : Time) :
    ProjectedAccidentRecord :=
  build e ev.claims ev.conflicts (s.getSourcesByIds (ev.claims.map Claim.sourceId)) version now

/-- The event has a claim, active or not. -/
def HasClaims (s : Db) (e : Uuid) : Prop := ∃ k ∈ s.claims, k.eventId = e

/-- The event has a claim of the source record. -/
def HoldsRecord (s : Db) (e : Uuid) (record : Uuid × String) : Prop :=
  ∃ k ∈ s.claims, k.eventId = e ∧ s.recordOf k = some record

end Db

/-! ## Reprojections -/

/-- What `_persist_projection` and `_restore_projection_from_history` write. -/
structure ProjectionWrite where
  row : ProjectedAccidentRecord
  history : Option AccidentProjectionHistory

/-- Who reprojects: a caller of its own, a worker with its lease, or a curator
action with its writes to the evidence of the event. -/
inductive Role where
  | direct
  | worker (outboxId : Uuid) (workerId : String) (attempt : Nat)
  | curator (writes : Evidence → Evidence)

/-- How far `ReProjectEvent.execute` has come, with what it has read. -/
inductive Stage where
  /-- The worker's own look at the history. -/
  | lookup
  /-- The worker found a history row and looks at the event. -/
  | lookupEvent
  /-- The worker has nothing to do but acknowledge. -/
  | acknowledged
  | waiting
  | locked
  | eventRead (event : Option AccidentEvent)
  | projectionRead (event : Option AccidentEvent) (cur : Option ProjectedAccidentRecord)
  | rebuilding (event : Option AccidentEvent) (cur : Option ProjectedAccidentRecord)
  | claimsRead (event : Option AccidentEvent) (cur : Option ProjectedAccidentRecord)
      (claims : List Claim)
  | conflictsRead (event : Option AccidentEvent) (cur : Option ProjectedAccidentRecord)
      (ev : Evidence)
  | done (write : Option ProjectionWrite)

/-- The advisory lock is taken, and held to the end of the transaction. -/
def Stage.holdsLock : Stage → Bool
  | .lookup | .lookupEvent | .acknowledged | .waiting => false
  | _ => true

structure Reprojection where
  call : ReProjectCall
  role : Role
  stage : Stage

namespace Db

/-- The statements of `_persist_projection`: nothing when no content changes, else
the row and its history row, unless a unique constraint refuses the latter. -/
def persist (s : Db) (call : ReProjectCall) (cur : Option ProjectedAccidentRecord)
    (p : ProjectedAccidentRecord) : Except AtlasError (Option ProjectionWrite) := do
  let contentHash ← projectionContentHash p
  let unchanged ← unchangedRow call cur contentHash
  match unchanged with
  | some _ => pure none
  | none => do
      let _ ← s.addProjectionHistory (historyRow call cur p)
      pure (some ⟨storedRow p, some (historyRow call cur p)⟩)

/-- The row `_restore_projection_from_history` writes. -/
def restoredRow (eventId : Uuid) (history : AccidentProjectionHistory) (now : Time) :
    ProjectedAccidentRecord where
  eventId := eventId
  projectionVersion := history.projectionVersion
  fields := storedFields history.snapshot.fields
  completenessScore := history.snapshot.completenessScore
  unresolvedConflictFields := history.snapshot.unresolvedConflictFields
  updatedAt := now

/-- The projection tables after a write. -/
def applyWrite (s : Db) : Option ProjectionWrite → Db
  | none => s
  | some w =>
      { s.upsertProjection w.row with
        projectionHistory := s.projectionHistory ++ w.history.toList }

end Db

namespace Reprojection

/-- The evidence a statement of the reprojection sees. -/
def view (r : Reprojection) (s : Db) : Evidence :=
  match r.role with
  | .curator writes => writes (s.evidence r.call.eventId)
  | _ => s.evidence r.call.eventId

def goTo (r : Reprojection) (stage : Stage) : Reprojection := { r with stage := stage }

/-- The next statement of `OutboxWorker._process_event` or of
`ReProjectEvent.execute`, on what is committed. -/
def next [PyText] (s : Db) (r : Reprojection) : Except AtlasError Reprojection :=
  let existing := r.call.causedByOutboxEventId.bind s.findHistoryByOutboxEvent
  match r.stage with
  | .lookup => pure (r.goTo (if existing.isSome then .lookupEvent else .waiting))
  | .lookupEvent =>
      let merged := (s.getEvent r.call.eventId).any AccidentEvent.isMerged
      pure (r.goTo (if merged then .waiting else .acknowledged))
  | .waiting => pure (r.goTo .locked)
  | .locked => pure (r.goTo (.eventRead (s.getEvent r.call.eventId)))
  | .eventRead event => pure (r.goTo (.projectionRead event (s.getProjection r.call.eventId)))
  | .projectionRead event cur =>
      match existing with
      | none => pure (r.goTo (.rebuilding event cur))
      | some history =>
          if event.any AccidentEvent.isMerged then
            pure (({ r with call := { r.call with causedByOutboxEventId := none } } :
              Reprojection).goTo (.rebuilding event cur))
          else
            match cur with
            | some _ => pure (r.goTo (.done none))
            | none => do
                require (history.accidentEventId = r.call.eventId)
                  (.runtime "Projection history event mismatch")
                pure (r.goTo (.done (some ⟨Db.restoredRow r.call.eventId history r.call.now, none⟩)))
  | .rebuilding event cur =>
      match event.bind AccidentEvent.mergedInto with
      | some target => do
          let write ← s.persist r.call cur
            (Db.tombstone r.call.eventId target (Db.nextVersion cur) r.call.now)
          pure (r.goTo (.done write))
      | none => pure (r.goTo (.claimsRead event cur (r.view s).claims))
  | .claimsRead event cur claims =>
      pure (r.goTo (.conflictsRead event cur ⟨claims, (r.view s).conflicts⟩))
  | .conflictsRead event cur ev => do
      require (event.isSome ∨ ev.claims ≠ []) (.eventNotFound r.call.eventId)
      let write ← s.persist r.call cur
        (s.buildOn r.call.eventId ev (Db.nextVersion cur) r.call.now)
      pure (r.goTo (.done write))
  | .acknowledged | .done _ => .error (.runtime "no statement left")

end Reprojection

/-! ## What the other transactions commit -/

namespace Db

/-- Only the evidence of the touched events, and of events that hold claims of
the record, may differ; sources and projection history stay. -/
structure Footprint (s s' : Db) (touched : List Uuid) (record : Option (Uuid × String)) :
    Prop where
  sources : s'.sources = s.sources
  history : s'.projectionHistory = s.projectionHistory
  others : ∀ x, x ∉ touched →
    s'.evidence x = s.evidence x ∨ ∃ ρ, record = some ρ ∧ s.HoldsRecord x ρ
  claimed : ∀ x, s'.HasClaims x → s.HasClaims x ∨ x ∈ touched

/-- One PENDING outbox row of the event is new. -/
def Queued (s s' : Db) (e : Uuid) : Prop :=
  ∃ o : OutboxEvent, o.eventId = e ∧ o.status = .pending ∧ (∀ p ∈ s.outbox, p.id ≠ o.id) ∧
    s'.outbox = s.outbox ++ [o]

structure IngestCommit (s s' : Db) (e : Uuid) (record : Option (Uuid × String)) : Prop where
  footprint : Footprint s s' [e] record
  records : ∀ x ρ, s'.HoldsRecord x ρ → s.HoldsRecord x ρ ∨ (x = e ∧ record = some ρ)
  events : (∃ x ∈ s.events, x.id = e) ∧ s'.events = s.events ∨
    (∀ x ∈ s.events, x.id ≠ e) ∧ s'.events = s.events ++ [⟨e, none⟩]
  projections : s'.projections = s.projections
  queued : Queued s s' e

structure MergeCommit (s s' : Db) (source target : Uuid) : Prop where
  footprint : Footprint s s' [source, target] none
  records : ∀ x ρ, s'.HoldsRecord x ρ →
    s.HoldsRecord x ρ ∨ (x = target ∧ s.HoldsRecord source ρ)
  events : Pointed s s' source target
  projections : s'.projections = s.projections.filter fun p => p.eventId ≠ source
  queued : Queued s s' target

structure CuratorCommit (s s' : Db) (e : Uuid) (writes : Evidence → Evidence) : Prop where
  footprint : Footprint s s' [e] none
  evidence : s'.evidence e = writes (s.evidence e)
  records : ∀ x ρ, s'.HoldsRecord x ρ → s.HoldsRecord x ρ
  events : s'.events = s.events
  projections : s'.projections = s.projections
  outbox : s'.outbox = s.outbox

/-- What continuity finds for a record: nothing when no claim has it, else the
root of an event with such a claim. -/
def ContinuityFinds (s : Db) (record : Option (Uuid × String)) (prior : Option Uuid) : Prop :=
  ∀ ρ, record = some ρ →
    (prior = none ∧ ∀ x, ¬ s.HoldsRecord x ρ) ∨
      ∃ x q, prior = some q ∧ s.HoldsRecord x ρ ∧ s.Root x q

end Db

/-! ## The system -/

/-- An ingestion: its record, what continuity found, and the event row it has
locked. -/
structure Ingestion where
  record : Option (Uuid × String)
  prior : Option (Option Uuid)
  event : Option Uuid

/-- An open transaction. -/
inductive Tx where
  | ingest (i : Ingestion)
  | merge (source target : Uuid)
  | reproject (r : Reprojection)

def Tx.locksRecord : Tx → Uuid × String → Prop
  | .ingest i, ρ => i.record = some ρ
  | _, _ => False

def Tx.locksRow : Tx → Uuid → Prop
  | .ingest i, e => i.event = some e
  | .merge source target, e => e = source ∨ e = target
  | .reproject _, _ => False

def Tx.locksReprojection : Tx → Uuid → Prop
  | .reproject r, e => r.call.eventId = e ∧ r.stage.holdsLock = true
  | _, _ => False

/-- The committed store and the open transactions. -/
structure World where
  db : Db
  txs : Nat → Option Tx

namespace World

/-- Nothing is open. -/
def idle (s : Db) : World := ⟨s, fun _ => none⟩

def put (w : World) (t : Nat) (tx : Tx) : World := { w with txs := Slots.put w.txs t tx }

/-- The transaction ends and leaves this store. -/
def finish (w : World) (t : Nat) (s : Db) : World := ⟨s, Slots.clear w.txs t⟩

/-- The first state of a reprojection. -/
def Starts (s : Db) (r : Reprojection) : Prop :=
  match r.role with
  | .direct => r.call.causedByOutboxEventId = none ∧ r.stage = .waiting
  | .curator _ => r.call.causedByOutboxEventId = none ∧ r.stage = .waiting
  | .worker outboxId _ _ =>
      r.call.causedByOutboxEventId = some outboxId ∧ r.stage = .lookup ∧
        ∃ o ∈ s.outbox, o.id = outboxId ∧ o.eventId = r.call.eventId

/-- The store a finished reprojection commits: the write, with the evidence of a
curator or the acknowledgement of a worker whose lease still holds. -/
def Commits (s : Db) (r : Reprojection) (write : Option ProjectionWrite) (s' : Db) : Prop :=
  match r.role with
  | .direct => s' = s.applyWrite write
  | .curator writes => ∃ s₁, s.CuratorCommit s₁ r.call.eventId writes ∧ s' = s₁.applyWrite write
  | .worker outboxId workerId attempt =>
      (s.updateStatus outboxId .processed workerId attempt).1 = true ∧
        s' = ((s.applyWrite write).updateStatus outboxId .processed workerId attempt).2

variable [PyText]

/-- One statement, commit or rollback. -/
inductive Step (w : World) : World → Prop where
  | beginIngest {t : Nat} {record : Option (Uuid × String)} (hfree : w.txs t = none)
      (hlock : ∀ ρ, record = some ρ → Slots.Free Tx.locksRecord w.txs ρ) :
      Step w (w.put t (.ingest ⟨record, none, none⟩))
  | continuity {t : Nat} {i : Ingestion} {prior : Option Uuid} (hopen : w.txs t = some (.ingest i))
      (hbefore : i.prior = none ∧ i.event = none) (hread : w.db.ContinuityFinds i.record prior) :
      Step w (w.put t (.ingest { i with prior := some prior }))
  | lockEvent {t : Nat} {i : Ingestion} {prior : Option Uuid} {e : Uuid}
      (hopen : w.txs t = some (.ingest i)) (hbefore : i.prior = some prior ∧ i.event = none)
      (hprior : ∀ q, prior = some q → e = q) (hlock : Slots.Free Tx.locksRow w.txs e)
      (hlive : w.db.IsLive e ∨ ∀ x ∈ w.db.events, x.id ≠ e) :
      Step w (w.put t (.ingest { i with event := some e }))
  | commitIngest {t : Nat} {i : Ingestion} {e : Uuid} {s' : Db}
      (hopen : w.txs t = some (.ingest i)) (hevent : i.event = some e)
      (hcommit : w.db.IngestCommit s' e i.record) : Step w (w.finish t s')
  | beginMerge {t : Nat} {source target : Uuid} (hfree : w.txs t = none) (hne : source ≠ target)
      (hsource : Slots.Free Tx.locksRow w.txs source) (htarget : Slots.Free Tx.locksRow w.txs target)
      (hlive : w.db.IsLive source ∧ w.db.IsLive target) : Step w (w.put t (.merge source target))
  | commitMerge {t : Nat} {source target : Uuid} {s' : Db}
      (hopen : w.txs t = some (.merge source target))
      (hcommit : w.db.MergeCommit s' source target) : Step w (w.finish t s')
  | beginReproject {t : Nat} {r : Reprojection} (hfree : w.txs t = none) (hstart : Starts w.db r) :
      Step w (w.put t (.reproject r))
  | advance {t : Nat} {r r' : Reprojection} (hopen : w.txs t = some (.reproject r))
      (hlock : r.stage = .waiting → Slots.Free Tx.locksReprojection w.txs r.call.eventId)
      (hnext : r.next w.db = .ok r') : Step w (w.put t (.reproject r'))
  | commitReproject {t : Nat} {r : Reprojection} {write : Option ProjectionWrite} {s' : Db}
      (hopen : w.txs t = some (.reproject r)) (hdone : r.stage = .done write)
      (hcommit : Commits w.db r write s') : Step w (w.finish t s')
  | acknowledge {t : Nat} {r : Reprojection} {s' : Db} (hopen : w.txs t = some (.reproject r))
      (hdone : r.stage = .acknowledged) (hcommit : Commits w.db r none s') : Step w (w.finish t s')
  | rollback {t : Nat} : Step w (w.finish t w.db)
  | fetch {id : Uuid} {workerId : String} {now : Time} :
      Step w { w with db := w.db.fetchAndLock id workerId now }
  | fail {id : Uuid} {status : OutboxStatus} {workerId : String} {attempt : Nat}
      (hstatus : status = .failed ∨ status = .deadLetter) :
      Step w { w with db := (w.db.updateStatus id status workerId attempt).2 }
  | recover {id : Uuid} {maxAttempts : Nat} :
      Step w { w with db := w.db.requeueStaleLocked id maxAttempts }

end World

end Atlas
