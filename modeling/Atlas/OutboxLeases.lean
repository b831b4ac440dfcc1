import Atlas.Lib.LeasedRows
import Atlas.Outbox

/-!
# Outbox leases

The outbox under several workers, down to its transactions.  A worker fetches a
batch of rows and commits; for every row of the batch it then makes one fenced
status update, in the transaction that processed the row or in one of its own
after an error; sweeps take rows back whose lock is stale.  Workers may share an
id, may be slow, and may die at any point: whatever they still hold is an entry
of the log of fetches, and any such lease may be used at any later time, or
never.

`fetch_and_lock_pending` picks its batch among the rows nobody has locked, and
`UPDATE` waits for a row lock and looks at the row again; so a statement is
modelled as one write per row, each on a row that no other transaction has
locked.
-/

namespace Atlas

open Rows RowLocks

/-! ## The rows -/

inductive OutboxEventType where
  | claimsUpdated
  | echoCrossrefRequested
  | other (name : String)
deriving DecidableEq, Repr

/-- A row of `outbox_events` with the columns its leases use.  Of an
`ECHO_CROSSREF_REQUESTED` row `eventId` is the aggregate. -/
structure OutboxRow extends OutboxEvent where
  eventType : OutboxEventType
  lastError : Option String
  nextAttemptAt : Option Time
  createdAt : Time
  processedAt : Option Time
deriving DecidableEq, Repr

/-- The settings of the worker; both numbers are validated to be positive. -/
structure OutboxSettings where
  maxAttempts : Nat
  staleLockMinutes : Nat
  maxAttempts_pos : 0 < maxAttempts
  staleLockMinutes_pos : 0 < staleLockMinutes

/-- A second of the clock, which counts microseconds. -/
def second : Time := 1000000

/-- What a fetch handed to a worker: the row as it was returned. -/
structure OutboxLease where
  workerId : String
  event : OutboxRow
deriving DecidableEq, Repr

/-- What is known of a committed write. -/
inductive OutboxEntry where
  | fetched (lease : OutboxLease)
  | updated (lease : OutboxLease) (status : OutboxStatus)
  | recovered (id : Uuid) (status : OutboxStatus)
deriving DecidableEq, Repr

namespace OutboxRow

/-- A row as it is added: PENDING, with no attempt made. -/
def Fresh (r : OutboxRow) : Prop :=
  r.status = .pending ∧ r.attemptCount = 0 ∧ r.lockedBy = none ∧ r.lockedAt = none

instance (r : OutboxRow) : Decidable r.Fresh := inferInstanceAs (Decidable (_ ∧ _))

/-! ## `fetch_and_lock_pending` -/

def isPending (r : OutboxRow) : Bool := r.status = .pending

/-- FAILED, with attempts left, and due. -/
def isRetryable (settings : OutboxSettings) (now : Time) (r : OutboxRow) : Bool :=
  r.status = .failed ∧ r.attemptCount < settings.maxAttempts ∧
    r.nextAttemptAt.all fun next => next ≤ now

/-- `ORDER BY created_at, id`. -/
def createdBefore (a b : OutboxRow) : Prop :=
  a.createdAt < b.createdAt ∨ (a.createdAt = b.createdAt ∧ a.id ≤ b.id)

instance (a b : OutboxRow) : Decidable (createdBefore a b) := inferInstanceAs (Decidable (_ ∨ _))

/-- `ORDER BY next_attempt_at NULLS FIRST, created_at, id`. -/
def dueBefore (a b : OutboxRow) : Prop :=
  match a.nextAttemptAt, b.nextAttemptAt with
  | none, some _ => True
  | some _, none => False
  | none, none => createdBefore a b
  | some x, some y => x < y ∨ (x = y ∧ createdBefore a b)

instance (a b : OutboxRow) : Decidable (dueBefore a b) := by
  unfold dueBefore
  split <;> infer_instance

/-- The rows `fetch_and_lock_pending` selects among those that are not locked. -/
def selected (settings : OutboxSettings) (limit : Nat) (now : Time) (unlocked : List OutboxRow) :
    List OutboxRow :=
  let pending := ((unlocked.filter isPending).insertionSort createdBefore).take limit
  let failed := ((unlocked.filter (isRetryable settings now)).insertionSort dueBefore).take limit
  ((pending ++ failed).insertionSort createdBefore).take limit

/-- The row as the fetch leaves and returns it. -/
def fetchedRow (workerId : String) (now : Time) (r : OutboxRow) : OutboxRow :=
  { r with toOutboxEvent := Db.leasedRow workerId now r.toOutboxEvent }

/-! ## `update_status` -/

/-- The row is PROCESSING and under this very lease. -/
def ownedBy (lease : OutboxLease) (r : OutboxRow) : Bool :=
  Db.leasedTo lease.event.id lease.workerId lease.event.attemptCount r.toOutboxEvent

/-- The values of a status update. -/
structure StatusUpdate where
  status : OutboxStatus
  lastError : Option String
  nextAttemptAt : Option Time

/-- The row `update_status` writes. -/
def statusRow (lease : OutboxLease) (u : StatusUpdate) (now : Time) (r : OutboxRow) : OutboxRow :=
  { r with
    status := u.status
    attemptCount := lease.event.attemptCount
    lastError := u.lastError
    nextAttemptAt := u.nextAttemptAt
    lockedAt := none
    lockedBy := none
    processedAt := if u.status = .processed then some now else r.processedAt }

/-- The update with which `_process_event` ends when nothing is raised: an event
of an unknown type is dead-lettered, the others are PROCESSED. -/
def processedUpdate (lease : OutboxLease) : StatusUpdate :=
  match lease.event.eventType with
  | .other name => ⟨.deadLetter, some ("Unknown event type: " ++ name), none⟩
  | .claimsUpdated | .echoCrossrefRequested => ⟨.processed, none, none⟩

/-- `_next_attempt_at`: exponential backoff, capped at half an hour. -/
def nextAttempt (attemptCount : Nat) (now : Time) : Time :=
  now + min (2 ^ attemptCount) 1800 * second

/-- The update of `_mark_failed`. -/
def failedUpdate (settings : OutboxSettings) (lease : OutboxLease) (error : String) (now : Time) :
    StatusUpdate :=
  if settings.maxAttempts ≤ lease.event.attemptCount then ⟨.deadLetter, some error, none⟩
  else ⟨.failed, some error, some (nextAttempt lease.event.attemptCount now)⟩

/-! ## `requeue_stale_locked_with_dead_letters` -/

/-- PROCESSING, and locked before the cutoff. -/
def isStale (settings : OutboxSettings) (now : Time) (r : OutboxRow) : Bool :=
  r.status = .processing ∧
    r.lockedAt.any fun at' => at' + settings.staleLockMinutes * 60 * second < now

/-- The row the sweep writes: back to PENDING while attempts are left. -/
def recoveredRow (settings : OutboxSettings) (note : String) (r : OutboxRow) : OutboxRow :=
  if r.attemptCount < settings.maxAttempts then
    { r with status := .pending, lockedAt := none, lockedBy := none, nextAttemptAt := none }
  else
    { r with
      status := .deadLetter
      lockedAt := none
      lockedBy := none
      nextAttemptAt := none
      lastError := some (r.lastError.getD "" ++ note) }

end OutboxRow

/-! ## The workers -/

open OutboxRow in
/-- What a statement may write to a row it finds. -/
inductive OutboxWrite (settings : OutboxSettings) (log : List OutboxEntry) (r : OutboxRow) :
    Write OutboxRow OutboxEntry → Prop where
  | fetch {workerId : String} {now : Time}
      (hup : isPending r = true ∨ isRetryable settings now r = true) :
      OutboxWrite settings log r
        ⟨fetchedRow workerId now r, .fetched ⟨workerId, fetchedRow workerId now r⟩⟩
  | process {lease : OutboxLease} {now : Time} (hlease : .fetched lease ∈ log)
      (howned : ownedBy lease r = true) :
      OutboxWrite settings log r ⟨statusRow lease (processedUpdate lease) now r,
        .updated lease (processedUpdate lease).status⟩
  | fail {lease : OutboxLease} {error : String} {now : Time} (hlease : .fetched lease ∈ log)
      (howned : ownedBy lease r = true) :
      OutboxWrite settings log r ⟨statusRow lease (failedUpdate settings lease error now) now r,
        .updated lease (failedUpdate settings lease error now).status⟩
  | recover {now : Time} {note : String} (hstale : isStale settings now r = true) :
      OutboxWrite settings log r ⟨recoveredRow settings note r,
        .recovered r.id (recoveredRow settings note r).status⟩

/-- The id of a row. -/
def OutboxRow.key (r : OutboxRow) : Uuid := r.id

/-- One statement on one row, a commit, a rollback or a crash. -/
abbrev OutboxStep (settings : OutboxSettings) :=
  World.Step OutboxRow.key OutboxRow.Fresh fun log _ => OutboxWrite settings log

namespace OutboxEntry

/-- What an entry is to the leases of the rows. -/
def leaseEntry : OutboxEntry → Leases.Entry Uuid
  | .fetched lease => .acquire lease.event.id lease.event.attemptCount
  | .updated lease _ => .release lease.event.id lease.event.attemptCount
  | .recovered id _ => .revoke id

/-- The row an entry is about. -/
def rowId (e : OutboxEntry) : Uuid := e.leaseEntry.key

/-- The entry takes the row to PROCESSED. -/
def processes (id : Uuid) : OutboxEntry → Bool
  | .updated lease .processed => lease.event.id = id
  | _ => false

end OutboxEntry

/-- The lease is the most recent one of its row in the log. -/
def MostRecent (log : List OutboxEntry) (lease : OutboxLease) : Prop :=
  ∃ older newer, log = older ++ .fetched lease :: newer ∧ ∀ e ∈ newer, e.rowId ≠ lease.event.id

namespace OutboxRow

variable {settings : OutboxSettings} {log : List OutboxEntry} {r : OutboxRow}
  {w : Write OutboxRow OutboxEntry}

def lease (r : OutboxRow) : Leases.Lease := ⟨r.attemptCount, r.status = .processing⟩

/-- PROCESSED or DEAD_LETTER. -/
def Terminal (r : OutboxRow) : Prop := r.status = .processed ∨ r.status = .deadLetter

/-- Attempts are never more than the settings allow, and there is one left while
the row is up for another. -/
def InBudget (settings : OutboxSettings) (r : OutboxRow) : Prop :=
  r.attemptCount ≤ settings.maxAttempts ∧
    (r.status = .pending ∨ r.status = .failed → r.attemptCount < settings.maxAttempts)

theorem lease_of_processing (h : r.status = .processing) : r.lease = ⟨r.attemptCount, true⟩ := by
  simp [lease, h]

theorem lease_of_ne (h : r.status ≠ .processing) : r.lease = ⟨r.attemptCount, false⟩ := by
  simp [lease, h]

theorem ownedBy_iff {l : OutboxLease} :
    ownedBy l r = true ↔ r.id = l.event.id ∧ r.status = .processing ∧
      r.lockedBy = some l.workerId ∧ r.attemptCount = l.event.attemptCount := by
  simp [ownedBy, Db.leasedTo]

theorem isPending_iff : isPending r = true ↔ r.status = .pending := by
  simp [isPending]

theorem isRetryable_attempts {now : Time} (h : isRetryable settings now r = true) :
    r.status = .failed ∧ r.attemptCount < settings.maxAttempts := by
  simp only [isRetryable, decide_eq_true_eq] at h
  exact ⟨h.1, h.2.1⟩

theorem isStale_status {now : Time} (h : isStale settings now r = true) : r.status = .processing := by
  simp only [isStale, decide_eq_true_eq] at h
  exact h.1

theorem up_ne_processing {now : Time} (h : isPending r = true ∨ isRetryable settings now r = true) :
    r.status ≠ .processing := by
  rcases h with h | h
  · rw [isPending_iff.mp h]
    decide
  · rw [(isRetryable_attempts h).1]
    decide

theorem processedUpdate_status (l : OutboxLease) :
    (processedUpdate l).status = .processed ∨ (processedUpdate l).status = .deadLetter := by
  unfold processedUpdate
  split
  · exact .inr rfl
  · exact .inl rfl
  · exact .inl rfl

theorem failedUpdate_status (settings : OutboxSettings) (l : OutboxLease) (error : String) (now : Time) :
    settings.maxAttempts ≤ l.event.attemptCount ∧
        (failedUpdate settings l error now).status = .deadLetter ∨
      l.event.attemptCount < settings.maxAttempts ∧
        (failedUpdate settings l error now).status = .failed := by
  unfold failedUpdate
  by_cases h : settings.maxAttempts ≤ l.event.attemptCount
  · rw [if_pos h]
    exact .inl ⟨h, rfl⟩
  · rw [if_neg h]
    exact .inr ⟨by omega, rfl⟩

theorem recoveredRow_spec (settings : OutboxSettings) (note : String) (r : OutboxRow) :
    (recoveredRow settings note r).attemptCount = r.attemptCount ∧
      (r.attemptCount < settings.maxAttempts ∧
          (recoveredRow settings note r).status = .pending ∨
        (recoveredRow settings note r).status = .deadLetter) := by
  unfold recoveredRow
  by_cases h : r.attemptCount < settings.maxAttempts
  · rw [if_pos h]
    exact ⟨rfl, .inl ⟨h, rfl⟩⟩
  · rw [if_neg h]
    exact ⟨rfl, .inr rfl⟩

/-- A status update releases the lease it is made under. -/
theorem step_release {l : OutboxLease} {u : StatusUpdate} {now : Time}
    (howned : ownedBy l r = true) (hu : u.status ≠ .processing) :
    Leases.Step r.id r.lease (OutboxEntry.updated l u.status).leaseEntry (statusRow l u now r).lease := by
  obtain ⟨hid, hstatus, -, hattempt⟩ := ownedBy_iff.mp howned
  have hnew : (statusRow l u now r).lease = ⟨r.attemptCount, false⟩ := by
    rw [lease_of_ne hu, hattempt]
    rfl
  have hentry : (OutboxEntry.updated l u.status).leaseEntry = .release r.id r.attemptCount := by
    rw [hid, hattempt]
    rfl
  rw [lease_of_processing hstatus, hnew, hentry]
  exact .release

/-- **Every write of an outbox row is a step of its lease.** -/
theorem leased (settings : OutboxSettings) :
    RowLocks.Leased lease OutboxEntry.leaseEntry key Fresh fun log _ => OutboxWrite settings log := by
  constructor
  · rintro r ⟨hstatus, hattempt, -, -⟩
    rw [lease_of_ne (by rw [hstatus]; decide), hattempt]
  · intro log own r w _ _ _ hw
    cases hw with
    | @fetch workerId now hup =>
        rw [lease_of_ne (up_ne_processing hup)]
        exact .acquire
    | @process l now _ howned =>
        refine step_release howned ?_
        rcases processedUpdate_status l with h | h
        · rw [h]
          decide
        · rw [h]
          decide
    | @fail l error now _ howned =>
        refine step_release howned ?_
        rcases failedUpdate_status settings l error now with ⟨-, h⟩ | ⟨-, h⟩
        · rw [h]
          decide
        · rw [h]
          decide
    | @recover now note hstale =>
        obtain ⟨hattempt, hstatus⟩ := recoveredRow_spec settings note r
        have hne : (recoveredRow settings note r).status ≠ .processing := by
          rcases hstatus with ⟨-, h⟩ | h
          · rw [h]
            decide
          · rw [h]
            decide
        rw [lease_of_processing (isStale_status hstale), lease_of_ne hne, hattempt]
        exact .revoke

theorem write_inBudget (hr : r.InBudget settings) (hw : OutboxWrite settings log r w) :
    w.row.InBudget settings := by
  obtain ⟨hle, hup⟩ := hr
  cases hw with
  | @fetch workerId now h =>
      have hlt : r.attemptCount < settings.maxAttempts := by
        rcases h with h | h
        · exact hup (.inl (isPending_iff.mp h))
        · exact (isRetryable_attempts h).2
      refine ⟨hlt, ?_⟩
      rintro (h' | h')
      · cases h'
      · cases h'
  | @process l now _ howned =>
      obtain ⟨-, -, -, hattempt⟩ := ownedBy_iff.mp howned
      refine ⟨hattempt ▸ hle, ?_⟩
      intro hstatus
      change (processedUpdate l).status = _ ∨ (processedUpdate l).status = _ at hstatus
      rcases processedUpdate_status l with h | h
      · rw [h] at hstatus
        rcases hstatus with h' | h' <;> cases h'
      · rw [h] at hstatus
        rcases hstatus with h' | h' <;> cases h'
  | @fail l error now _ howned =>
      obtain ⟨-, -, -, hattempt⟩ := ownedBy_iff.mp howned
      refine ⟨hattempt ▸ hle, ?_⟩
      intro hstatus
      change (failedUpdate settings l error now).status = _ ∨
        (failedUpdate settings l error now).status = _ at hstatus
      rcases failedUpdate_status settings l error now with ⟨-, h⟩ | ⟨hlt, -⟩
      · rw [h] at hstatus
        rcases hstatus with h' | h' <;> cases h'
      · exact hlt
  | @recover now note hstale =>
      obtain ⟨hattempt, hstatus⟩ := recoveredRow_spec settings note r
      refine ⟨hattempt ▸ hle, ?_⟩
      intro h
      rw [hattempt]
      rcases hstatus with ⟨hlt, -⟩ | hdead
      · exact hlt
      · rw [hdead] at h
        rcases h with h' | h' <;> cases h'

/-- No statement writes a terminal row. -/
theorem write_not_terminal (hw : OutboxWrite settings log r w) : ¬ r.Terminal := by
  have hopen : r.status = .pending ∨ r.status = .failed ∨ r.status = .processing := by
    cases hw with
    | fetch hup =>
        rcases hup with h | h
        · exact .inl (isPending_iff.mp h)
        · exact .inr (.inl (isRetryable_attempts h).1)
    | process _ howned => exact .inr (.inr (ownedBy_iff.mp howned).2.1)
    | fail _ howned => exact .inr (.inr (ownedBy_iff.mp howned).2.1)
    | recover hstale => exact .inr (.inr (isStale_status hstale))
  rintro (h | h)
  · rw [h] at hopen
    rcases hopen with h' | h' | h' <;> cases h'
  · rw [h] at hopen
    rcases hopen with h' | h' | h' <;> cases h'

theorem write_mono (log log' _own : List OutboxEntry) (r : OutboxRow)
    (w : Write OutboxRow OutboxEntry) (hsub : ∀ e ∈ log, e ∈ log') (hw : OutboxWrite settings log r w) :
    OutboxWrite settings log' r w := by
  cases hw with
  | fetch hup => exact .fetch hup
  | process hlease howned => exact .process (hsub _ hlease) howned
  | fail hlease howned => exact .fail (hsub _ hlease) howned
  | recover hstale => exact .recover hstale

end OutboxRow

/-! ## Batches -/

namespace OutboxRow

variable {settings : OutboxSettings}

def fetchWrite (workerId : String) (now : Time) (r : OutboxRow) : Write OutboxRow OutboxEntry :=
  ⟨fetchedRow workerId now r, .fetched ⟨workerId, fetchedRow workerId now r⟩⟩

/-- What is selected was not locked and is up for a worker. -/
theorem mem_selected {limit : Nat} {now : Time} {unlocked : List OutboxRow} {r : OutboxRow}
    (h : r ∈ selected settings limit now unlocked) :
    r ∈ unlocked ∧ (isPending r = true ∨ isRetryable settings now r = true) := by
  have hr := (List.mem_insertionSort _).mp (List.mem_of_mem_take h)
  rcases List.mem_append.mp hr with hr | hr
  · have := List.mem_filter.mp ((List.mem_insertionSort _).mp (List.mem_of_mem_take hr))
    exact ⟨this.1, .inl this.2⟩
  · have := List.mem_filter.mp ((List.mem_insertionSort _).mp (List.mem_of_mem_take hr))
    exact ⟨this.1, .inr this.2⟩

/-- No row is selected twice: the two streams differ in the status. -/
theorem selected_nodup {limit : Nat} {now : Time} {unlocked : List OutboxRow} (h : unlocked.Nodup) :
    (selected settings limit now unlocked).Nodup := by
  have hstream : ∀ (p : OutboxRow → Bool) (before : OutboxRow → OutboxRow → Prop)
      [DecidableRel before], (((unlocked.filter p).insertionSort before).take limit).Nodup := by
    intro p before _
    exact (((List.perm_insertionSort before _).nodup_iff.mpr (h.filter p)).sublist
      (List.take_sublist _ _))
  refine ((List.perm_insertionSort createdBefore _).nodup_iff.mpr ?_).sublist (List.take_sublist _ _)
  refine (List.nodup_append.mpr ⟨hstream _ _, hstream _ _, ?_⟩)
  intro a ha b hb hab
  subst hab
  have ha := (List.mem_filter.mp ((List.mem_insertionSort _).mp (List.mem_of_mem_take ha))).2
  have hb := (List.mem_filter.mp ((List.mem_insertionSort _).mp (List.mem_of_mem_take hb))).2
  have hfailed := (isRetryable_attempts hb).1
  rw [isPending_iff.mp ha] at hfailed
  cases hfailed

/-- Rows that are up, and locked by nobody, are fetched one after another. -/
theorem fetch_rows {workerId : String} {now : Time} {t : Nat} (rows : List OutboxRow)
    (W : World OutboxRow OutboxEntry) (ws : List (Write OutboxRow OutboxEntry))
    (hopen : W.txs t = some ws) (hids : Unique key rows)
    (hup : ∀ r ∈ rows, isPending r = true ∨ isRetryable settings now r = true)
    (hmem : ∀ r ∈ rows, r ∈ W.ledger.rows)
    (hfree : ∀ r ∈ rows, W.FreeFor key t (key r) ∧ ¬ Locks key ws (key r)) :
    Relation.ReflTransGen (OutboxStep settings) W
      { W with txs := Slots.put W.txs t (ws ++ rows.map (fetchWrite workerId now)) } := by
  induction rows generalizing W ws with
  | nil =>
      rw [List.map_nil, List.append_nil, Slots.put_of_some hopen]
  | cons r rows ih =>
      obtain ⟨hnew, hids⟩ := List.nodup_cons.mp hids
      obtain ⟨hfreeR, hlocksR⟩ := hfree r List.mem_cons_self
      let W' : World OutboxRow OutboxEntry :=
        { W with txs := Slots.put W.txs t (ws ++ [fetchWrite workerId now r]) }
      have hstep : OutboxStep settings W W' := by
        refine .write hopen hfreeR ⟨r, ?_, rfl, .fetch (hup r List.mem_cons_self)⟩
        exact Ledger.mem_applyAll (hmem r List.mem_cons_self) hlocksR
      have hrest := ih W' (ws ++ [fetchWrite workerId now r])
        (Slots.put_self W.txs t (ws ++ [fetchWrite workerId now r])) hids
        (fun x hx => hup x (List.mem_cons_of_mem r hx)) (fun x hx => hmem x (List.mem_cons_of_mem r hx)) ?_
      · have hput : Slots.put W'.txs t
              (ws ++ [fetchWrite workerId now r] ++ rows.map (fetchWrite workerId now)) =
            Slots.put W.txs t (ws ++ (r :: rows).map (fetchWrite workerId now)) := by
          show Slots.put (Slots.put W.txs t _) t _ = _
          rw [Slots.put_put, List.map_cons, List.append_assoc, List.singleton_append]
        rw [hput] at hrest
        exact .head hstep hrest
      · intro x hx
        obtain ⟨hfreeX, hlocksX⟩ := hfree x (List.mem_cons_of_mem r hx)
        refine ⟨?_, ?_⟩
        · intro t' ws' hne hws'
          rcases Slots.put_some hws' with ⟨rfl, -⟩ | ⟨-, hws'⟩
          · exact absurd rfl hne
          · exact hfreeX t' ws' hne hws'
        · rintro ⟨v, hv, hvk⟩
          rcases List.mem_append.mp hv with hv | hv
          · exact hlocksX ⟨v, hv, hvk⟩
          · rw [List.mem_singleton.mp hv] at hvk
            exact hnew (hvk ▸ List.mem_map_of_mem hx)

/-- **A batch is a run.**  What `fetch_and_lock_pending` selects among the rows
nobody has locked, its transaction locks row by row. -/
theorem fetch_batch {workerId : String} {limit : Nat} {now : Time} {t : Nat}
    {W : World OutboxRow OutboxEntry} (hopen : W.txs t = some []) {unlocked : List OutboxRow}
    (hids : Unique key unlocked)
    (hunlocked : ∀ r ∈ unlocked, r ∈ W.ledger.rows ∧ W.FreeFor key t (key r)) :
    Relation.ReflTransGen (OutboxStep settings) W
      ⟨W.ledger, Slots.put W.txs t
        ((selected settings limit now unlocked).map (fetchWrite workerId now))⟩ := by
  have hnodup : unlocked.Nodup := List.Nodup.of_map _ hids
  refine fetch_rows (selected settings limit now unlocked) W [] hopen ?_
    (fun r hr => (mem_selected hr).2) (fun r hr => (hunlocked r (mem_selected hr).1).1) ?_
  · refine (selected_nodup hnodup).map_on ?_
    intro a ha b hb hab
    exact hids.eq_of_key (mem_selected ha).1 (mem_selected hb).1 hab
  · intro r hr
    refine ⟨(hunlocked r (mem_selected hr).1).2, ?_⟩
    rintro ⟨v, hv, -⟩
    cases hv

end OutboxRow

/-! ## Whole runs -/

abbrev OutboxLedger := Ledger OutboxRow OutboxEntry

abbrev OutboxLedger.Step (settings : OutboxSettings) :=
  Ledger.Step OutboxRow.key OutboxRow.Fresh fun log _ => OutboxWrite settings log

section Ledger

variable {settings : OutboxSettings} {L : OutboxLedger}

/-- An entry that takes a row to PROCESSED is only made on a row that is
PROCESSING, and leaves it PROCESSED. -/
theorem OutboxWrite.processes {log : List OutboxEntry} {r : OutboxRow}
    {w : Write OutboxRow OutboxEntry} (hw : OutboxWrite settings log r w) {id : Uuid}
    (hp : w.entry.processes id = true) :
    r.id = id ∧ r.status = .processing ∧ w.row.id = id ∧ w.row.status = .processed := by
  have hupdate : ∀ (l : OutboxLease) (u : OutboxRow.StatusUpdate) (now : Time),
      OutboxRow.ownedBy l r = true → (OutboxEntry.updated l u.status).processes id = true →
      r.id = id ∧ r.status = .processing ∧ (OutboxRow.statusRow l u now r).id = id ∧
        (OutboxRow.statusRow l u now r).status = .processed := by
    intro l u now howned hp
    obtain ⟨hid, hstatus, -, -⟩ := OutboxRow.ownedBy_iff.mp howned
    have hu : u.status = .processed ∧ l.event.id = id := by
      unfold OutboxEntry.processes at hp
      split at hp
      · rename_i heq
        simp only [OutboxEntry.updated.injEq] at heq
        obtain ⟨rfl, hu⟩ := heq
        exact ⟨hu, by simpa using hp⟩
      · cases hp
    exact ⟨hid.trans hu.2, hstatus, hid.trans hu.2, hu.1⟩
  cases hw with
  | fetch => cases hp
  | process _ howned => exact hupdate _ _ _ howned hp
  | fail _ howned => exact hupdate _ _ _ howned hp
  | recover => cases hp

/-- At most one entry takes a row to PROCESSED, and then the row is PROCESSED. -/
theorem OutboxLedger.processed_once
    (hrun : Relation.ReflTransGen (OutboxLedger.Step settings) ⟨[], []⟩ L) (id : Uuid) :
    L.log.countP (OutboxEntry.processes id) = 0 ∨
      L.log.countP (OutboxEntry.processes id) = 1 ∧ ∃ r ∈ L.rows, r.id = id ∧ r.status = .processed := by
  induction hrun with
  | refl => exact .inl rfl
  | @tail M _ hpath hstep ih =>
      have hids := ((OutboxRow.leased settings).traces hpath).1
      cases hstep with
      | insert =>
          refine ih.imp_right ?_
          rintro ⟨hone, r, hr, h⟩
          exact ⟨hone, r, List.mem_append_left _ hr, h⟩
      | @write own w _ hfits =>
          obtain ⟨r, hr, hk, hw⟩ := hfits
          show (M.log ++ [w.entry]).countP _ = 0 ∨ (M.log ++ [w.entry]).countP _ = 1 ∧ _
          rw [List.countP_append, List.countP_singleton]
          have hkept : ∀ x ∈ M.rows, x.status = .processed →
              x ∈ (Ledger.apply OutboxRow.key M w).rows := by
            intro x hx hstatus
            refine Ledger.mem_apply.mpr (.inr ⟨hx, ?_⟩)
            intro hkx
            rw [hids.eq_of_key hr hx (hk.trans hkx.symm)] at hw
            exact OutboxRow.write_not_terminal hw (.inl hstatus)
          by_cases hp : w.entry.processes id = true
          · obtain ⟨hid, hprocessing, hid', hstatus⟩ := hw.processes hp
            have hzero : M.log.countP (OutboxEntry.processes id) = 0 := by
              rcases ih with hzero | ⟨-, x, hx, hxid, hxstatus⟩
              · exact hzero
              · rw [hids.eq_of_key hx hr (hxid.trans hid.symm), hprocessing] at hxstatus
                cases hxstatus
            rw [if_pos hp, hzero]
            exact .inr ⟨rfl, w.row, Ledger.mem_apply.mpr (.inl ⟨r, hr, hk, rfl⟩), hid', hstatus⟩
          · rw [if_neg hp, Nat.add_zero]
            refine ih.imp_right ?_
            rintro ⟨hone, x, hx, hxid, hxstatus⟩
            exact ⟨hone, x, hkept x hx hxstatus, hxid, hxstatus⟩

theorem OutboxEntry.eq_fetched {e : OutboxEntry} {id : Uuid} {n : Nat}
    (h : e.leaseEntry = .acquire id n) :
    ∃ lease, e = .fetched lease ∧ lease.event.id = id ∧ lease.event.attemptCount = n := by
  cases e with
  | fetched lease =>
      simp only [leaseEntry, Leases.Entry.acquire.injEq] at h
      exact ⟨lease, rfl, h.1, h.2⟩
  | updated => cases h
  | recovered => cases h

/-- A row and an attempt are fetched once. -/
theorem OutboxLedger.fetched_once
    (hrun : Relation.ReflTransGen (OutboxLedger.Step settings) ⟨[], []⟩ L) {a b : OutboxLease}
    (ha : .fetched a ∈ L.log) (hb : .fetched b ∈ L.log) (hid : a.event.id = b.event.id)
    (hattempt : a.event.attemptCount = b.event.attemptCount) : a = b := by
  have htrace := ((OutboxRow.leased settings).traces hrun).2 a.event.id
  have hsame : (OutboxEntry.fetched a).leaseEntry = (OutboxEntry.fetched b).leaseEntry := by
    simp only [OutboxEntry.leaseEntry, hid, hattempt]
  have heq := eq_of_count_map_le_one ha hb hsame (htrace.acquire_once _)
  simpa using heq

/-- A status update takes effect only under the most recent lease of its row. -/
theorem OutboxLedger.updated_mostRecent
    (hrun : Relation.ReflTransGen (OutboxLedger.Step settings) ⟨[], []⟩ L)
    {before after : List OutboxEntry} {lease : OutboxLease} {status : OutboxStatus}
    (hlog : L.log = before ++ .updated lease status :: after) : MostRecent before lease := by
  have htrace := ((OutboxRow.leased settings).traces hrun).2 lease.event.id
  obtain ⟨older, x, newer, rfl, hx, hnewer⟩ :=
    latest_of_release (e := .updated lease status) htrace.fenced hlog rfl
  obtain ⟨lease', rfl, hid, hattempt⟩ := OutboxEntry.eq_fetched hx
  have hfetched : OutboxEntry.fetched lease ∈ older ++ .fetched lease' :: newer := by
    refine Ledger.log_rule (P := fun log e => ∀ l s, e = .updated l s → .fetched l ∈ log) ?_ hrun
      _ _ _ hlog lease status rfl
    intro log own r w _ hw l s he
    cases hw with
    | fetch => cases he
    | process hlease _ =>
        cases he
        exact hlease
    | fail hlease _ =>
        cases he
        exact hlease
    | recover => cases he
  have heq : lease' = lease := by
    apply OutboxLedger.fetched_once hrun _ _ hid hattempt
    · rw [hlog]
      simp
    · rw [hlog]
      exact List.mem_append_left _ hfetched
  subst heq
  exact ⟨older, newer, rfl, hnewer⟩

end Ledger

/-- **Outbox leases are safe.**  However fetches, status updates, crashes and
sweeps of any number of workers interleave: an update takes effect only under the
most recent lease of its row, a row and an attempt are leased once, a row turns
PROCESSED at most once, terminal rows never change, and attempts stay within the
settings, with one left while the row is PENDING or FAILED. -/
theorem outbox_leases_are_safe (settings : OutboxSettings) {W : World OutboxRow OutboxEntry}
    (hrun : Relation.ReflTransGen (OutboxStep settings) (World.idle ⟨[], []⟩) W) :
    (∀ before lease status after,
      W.ledger.log = before ++ .updated lease status :: after → MostRecent before lease) ∧
    (∀ a b, .fetched a ∈ W.ledger.log → .fetched b ∈ W.ledger.log → a.event.id = b.event.id →
      a.event.attemptCount = b.event.attemptCount → a = b) ∧
    (∀ id, W.ledger.log.countP (OutboxEntry.processes id) ≤ 1) ∧
    (∀ W', Relation.ReflTransGen (OutboxStep settings) W W' →
      ∀ r ∈ W.ledger.rows, r.Terminal → r ∈ W'.ledger.rows) ∧
    ∀ r ∈ W.ledger.rows, r.attemptCount ≤ settings.maxAttempts ∧
      (r.status = .pending ∨ r.status = .failed → r.attemptCount < settings.maxAttempts) := by
  obtain ⟨hinv, hledger⟩ := World.serialises OutboxRow.write_mono hrun (World.inv_idle _)
  refine ⟨?_, ?_, ?_, ?_, ?_⟩
  · intro before lease status after hlog
    exact OutboxLedger.updated_mostRecent hledger hlog
  · intro a b ha hb hid hattempt
    exact OutboxLedger.fetched_once hledger ha hb hid hattempt
  · intro id
    rcases OutboxLedger.processed_once hledger id with h | ⟨h, -⟩
    · omega
    · omega
  · intro W' hrun' r hr hterminal
    obtain ⟨-, hledger'⟩ := World.serialises OutboxRow.write_mono hrun' hinv
    have hids := ((OutboxRow.leased settings).traces hledger).1
    exact (Ledger.keeps (T := OutboxRow.Terminal) hids (fun _ _ _ _ => OutboxRow.write_not_terminal) hledger' hr hterminal).2
  · refine (Ledger.rows_rule (P := OutboxRow.InBudget settings) (Q := fun _ => True) ?_ ?_ hledger).1
    · rintro r ⟨-, hattempt, -, -⟩
      have hpos := settings.maxAttempts_pos
      exact ⟨by omega, fun _ => by omega⟩
    · intro log own r w _ _ hr hw
      exact ⟨OutboxRow.write_inBudget hr hw, trivial⟩

/-! ### A worker that is too slow -/

def fiveAttempts : OutboxSettings := ⟨5, 10, Nat.succ_pos 4, Nat.succ_pos 9⟩

def waitingRow : OutboxRow :=
  ⟨⟨1, 2, none, .pending, 0, none, none⟩, .claimsUpdated, none, none, 7, none⟩

def slowLease : OutboxLease := ⟨"worker-1", waitingRow.fetchedRow "worker-1" 8⟩

/-- The row when a sweep has taken it back. -/
def sweptRow : OutboxRow := slowLease.event.recoveredRow fiveAttempts ""

def secondLease : OutboxLease := ⟨"worker-2", sweptRow.fetchedRow "worker-2" (701 * second)⟩

def slowFetch : Write OutboxRow OutboxEntry := ⟨slowLease.event, .fetched slowLease⟩

def sweep : Write OutboxRow OutboxEntry := ⟨sweptRow, .recovered 1 .pending⟩

def secondFetch : Write OutboxRow OutboxEntry := ⟨secondLease.event, .fetched secondLease⟩

def secondProcess : Write OutboxRow OutboxEntry :=
  ⟨secondLease.event.statusRow secondLease (OutboxRow.processedUpdate secondLease) (702 * second),
    .updated secondLease .processed⟩

/-- The slow worker's own update comes after the second lease and finds no row. -/
def slowWrites : List (Write OutboxRow OutboxEntry) :=
  [slowFetch, sweep, secondFetch, secondProcess]

/-- A lease goes stale, the row is swept and leased again; the late update is refused, and the
second worker's takes effect. -/
theorem outbox_leases_are_safe_swept : ∃ W : World OutboxRow OutboxEntry,
    W.ledger.log = slowWrites.map (·.entry) ∧
      (∀ status, .updated slowLease status ∉ W.ledger.log) ∧
      OutboxRow.ownedBy slowLease secondLease.event = false ∧
      (∀ before lease status after,
        W.ledger.log = before ++ .updated lease status :: after → MostRecent before lease) ∧
      ∀ id, W.ledger.log.countP (OutboxEntry.processes id) ≤ 1 := by
  let L₀ : OutboxLedger := ⟨[waitingRow], []⟩
  let L₁ : OutboxLedger := L₀.applyAll OutboxRow.key [slowFetch]
  let L₂ : OutboxLedger := L₁.applyAll OutboxRow.key [sweep]
  let L₃ : OutboxLedger := L₂.applyAll OutboxRow.key [secondFetch]
  have hinsert : OutboxStep fiveAttempts (World.idle ⟨[], []⟩) (World.idle L₀) :=
    .insert (by decide) fun x hx => by cases hx
  have hfetch : Relation.ReflTransGen (OutboxStep fiveAttempts) (World.idle L₀) (World.idle L₁) :=
    World.run_alone ⟨⟨waitingRow, List.mem_singleton.mpr rfl, rfl, .fetch (.inl rfl)⟩, trivial⟩
  have hstale : OutboxRow.isStale fiveAttempts (701 * second) slowLease.event = true := by decide
  have hsweep : Relation.ReflTransGen (OutboxStep fiveAttempts) (World.idle L₁) (World.idle L₂) :=
    World.run_alone ⟨⟨slowLease.event, List.mem_singleton.mpr rfl, rfl, .recover hstale⟩, trivial⟩
  have hagain : Relation.ReflTransGen (OutboxStep fiveAttempts) (World.idle L₂) (World.idle L₃) :=
    World.run_alone ⟨⟨sweptRow, List.mem_singleton.mpr rfl, rfl, .fetch (.inl (by decide))⟩, trivial⟩
  have hlease : .fetched secondLease ∈ L₃.log := List.mem_of_getLast? rfl
  have hprocess : Relation.ReflTransGen (OutboxStep fiveAttempts) (World.idle L₃)
      (World.idle (L₃.applyAll OutboxRow.key [secondProcess])) :=
    World.run_alone ⟨⟨secondLease.event, List.mem_singleton.mpr rfl, rfl,
      .process hlease (by decide)⟩, trivial⟩
  obtain ⟨hfenced, -, honce, -, -⟩ := outbox_leases_are_safe fiveAttempts
    (.head hinsert (((hfetch.trans hsweep).trans hagain).trans hprocess))
  refine ⟨_, rfl, ?_, by decide, hfenced, honce⟩
  intro status hmem
  have hentry : OutboxEntry.updated slowLease status ∈ slowWrites.map (·.entry) := hmem
  simp [slowWrites, slowFetch, sweep, secondFetch, secondProcess, slowLease, secondLease] at hentry

end Atlas
