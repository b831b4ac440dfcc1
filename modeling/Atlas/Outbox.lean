import Atlas.Lib.Outcome
import Atlas.Store

/-!
# The outbox and its leases

`fetch_and_lock_pending` hands an outbox row to a worker: the row is PROCESSING,
names the worker and counts the attempt.  Every later `update_status` of the
worker is fenced by these three: when a stale-lock sweep has taken the lease
away, it matches no row.

The source locks a batch in one statement; here a row is leased at a time.  The
time a FAILED row has to wait is left out: it may be fetched at once.
-/

namespace Atlas

open Outcome Rows

namespace Db

/-- The row is up for a worker: PENDING, or FAILED and to be tried again. -/
def fetchable (o : OutboxEvent) : Bool := o.status == .pending || o.status == .failed

/-- The row in the hands of a worker. -/
def leasedRow (workerId : String) (now : Time) (o : OutboxEvent) : OutboxEvent :=
  { o with
    status := .processing
    attemptCount := o.attemptCount + 1
    lockedBy := some workerId
    lockedAt := some now }

/-- `outbox.fetch_and_lock_pending`, for one row. -/
def fetchAndLock (s : Db) (id : Uuid) (workerId : String) (now : Time) : Db :=
  { s with
    outbox := updateWhere (fun o => o.id = id ∧ fetchable o) (leasedRow workerId now) s.outbox }

/-- The row is leased to this worker at this attempt. -/
def leasedTo (id : Uuid) (workerId : String) (attempt : Nat) (o : OutboxEvent) : Bool :=
  o.id = id ∧ o.status = .processing ∧ o.lockedBy = some workerId ∧ o.attemptCount = attempt

/-- The row once its worker has let go of it. -/
def releasedRow (status : OutboxStatus) (o : OutboxEvent) : OutboxEvent :=
  { o with status := status, lockedBy := none, lockedAt := none }

/-- `outbox.update_status`, fenced by the lease; whether a row matched. -/
def updateStatus (s : Db) (id : Uuid) (status : OutboxStatus) (workerId : String) (attempt : Nat) :
    Bool × Db :=
  (s.outbox.any (leasedTo id workerId attempt),
    { s with outbox := updateWhere (leasedTo id workerId attempt) (releasedRow status) s.outbox })

/-- `outbox.requeue_stale_locked_with_dead_letters`, for one row: back to
PENDING, or DEAD_LETTER when its attempts are used up. -/
def requeueStaleLocked (s : Db) (id : Uuid) (maxAttempts : Nat) : Db :=
  { s with
    outbox := updateWhere (fun o => o.id = id ∧ o.status = .processing)
      (fun o => releasedRow (if o.attemptCount < maxAttempts then .pending else .deadLetter) o)
      s.outbox }

end Db

end Atlas
