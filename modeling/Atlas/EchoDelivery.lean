import Atlas.EchoRuns
import Atlas.OutboxLeases

/-!
# Echo results and their deliveries

An Echo request commits a PENDING result and its `ECHO_CROSSREF_REQUESTED` outbox
row at once.  From then on the two live in different transactions: a worker runs
the result and then acknowledges the row; when its attempts are used up it
dead-letters the row and then marks the result FAILED, and so does the stale-lock
sweep.  The success path updates the result first, the two failure paths update it
last.

Followed here are the Echo rows of the outbox, the tenants' store and the open work
of any number of workers, one transaction at a time.  A crash, or an error that
leaves the worker's loop, drops a piece of open work; a worker that dies drops all
of its own.
-/

namespace Atlas

open Rows OutboxRow

/-! ## The system -/

/-- A piece of open work, by the transaction that comes next. -/
inductive EchoJob where
  /-- The row was fetched. -/
  | process (lease : OutboxLease)
  /-- `RunEchoCrossReference` has read its result and will commit. -/
  | run (lease : OutboxLease) (tx : TenantDb.EchoTx)
  /-- The result is done with: the row is to be PROCESSED. -/
  | acknowledge (lease : OutboxLease)
  /-- An error was raised: `_mark_failed`. -/
  | fail (lease : OutboxLease) (error : String)
  /-- The row is dead-lettered: `_mark_echo_result_failed`. -/
  | mark (eventId : Uuid) (error : String)

structure EchoDelivery where
  db : TenantDb
  /-- The `ECHO_CROSSREF_REQUESTED` rows of the outbox. -/
  rows : List OutboxRow
  jobs : List EchoJob

/-- What happens next.  `skipped` are the rows that another transaction has locked. -/
inductive EchoAct where
  /-- A use case of a tenant, or a change of the accident store. -/
  | tenant (op : TenantOp) (now : Time)
  | fetch (workerId : String) (limit : Nat) (now : Time) (skipped : List Uuid)
  /-- The job at this place goes through its next transaction. -/
  | advance (i : Nat) (input : TenantDb.RunEchoCrossReferenceInput) (now : Time)
  /-- The job at this place raises. -/
  | raise (i : Nat) (error : String)
  | recoverStaleLocks (now : Time) (note : String) (skipped : List Uuid)
  /-- The job at this place is lost. -/
  | crash (i : Nat)

namespace EchoDelivery

/-- Nothing was requested yet. -/
def start (store : Db) (categories : List HfacsCategory) (subcategories : List HfacsSubcategory) :
    EchoDelivery :=
  ⟨TenantDb.empty store categories subcategories, [], []⟩

/-- The payload of an outbox row. -/
def payload (w : EchoDelivery) (eventId : Uuid) : Option EchoRequested :=
  w.db.echoOutbox.find? fun p => p.id = eventId

/-- The outbox row of a request. -/
def requestedRow (now : Time) (p : EchoRequested) : OutboxRow where
  id := p.id
  eventId := p.crossrefResultId
  ingestionRunId := none
  status := .pending
  attemptCount := 0
  lockedBy := none
  lockedAt := none
  eventType := .echoCrossrefRequested
  lastError := none
  nextAttemptAt := none
  createdAt := now
  processedAt := none

/-- `fetch_and_lock_pending` and the start of the batch. -/
def fetch (settings : OutboxSettings) (w : EchoDelivery) (workerId : String) (limit : Nat)
    (now : Time) (skipped : List Uuid) : EchoDelivery :=
  let batch := selected settings limit now (w.rows.filter fun r => r.id ∉ skipped)
  { w with
    rows := updateWhere (fun r => r.id ∈ batch.map OutboxRow.key) (fetchedRow workerId now) w.rows
    jobs := w.jobs ++ batch.map fun r => .process ⟨workerId, fetchedRow workerId now r⟩ }

/-- `update_status`, fenced by the lease. -/
def updateStatus (w : EchoDelivery) (lease : OutboxLease) (u : StatusUpdate) (now : Time) :
    EchoDelivery :=
  { w with rows := updateWhere (ownedBy lease) (statusRow lease u now) w.rows }

/-- The text of an error of an execution, which raises no other ones. -/
def errorText : TenancyError → String
  | .tenantNotFound message => message
  | .valueError message => message
  | _ => ""

/-- The reads of `_process_echo_crossref_event`, and what comes after them. -/
def processEchoCrossrefEvent (w : EchoDelivery) (lease : OutboxLease)
    (input : TenantDb.RunEchoCrossReferenceInput) : EchoJob :=
  match w.payload lease.event.id with
  | none => .fail lease "'tenant_id'"
  | some p =>
      match w.db.getCrossrefResult p.tenantId p.crossrefResultId with
      | none => .fail lease ("Echo crossref result " ++ toString p.crossrefResultId ++
          " not found for tenant " ++ toString p.tenantId)
      | some result =>
          if result.status = .pending then
            match w.db.readEcho { input with
              tenantId := p.tenantId
              crossrefResultId := p.crossrefResultId
              markFailedOnError := false } with
            | .ok tx => .run lease tx
            | .error e => .fail lease (errorText e)
          else .acknowledge lease

/-- The update of a result of a dead-lettered row; a malformed payload is only logged. -/
def markEchoResultFailed (w : EchoDelivery) (eventId : Uuid) (error : String) (now : Time) :
    EchoDelivery :=
  match w.payload eventId with
  | none => w
  | some p =>
      { w with
        db := w.db.markFailed p.tenantId p.crossrefResultId
          ("Echo worker exhausted retry budget: " ++ error) now }

/-- `recover_stale_locks`: the sweep, and the markings it leaves to do. -/
def recoverStaleLocks (settings : OutboxSettings) (w : EchoDelivery) (now : Time) (note : String)
    (skipped : List Uuid) : EchoDelivery :=
  let stale := fun r : OutboxRow => r.id ∉ skipped ∧ isStale settings now r
  let deadlettered := w.rows.filter fun r => stale r ∧ settings.maxAttempts ≤ r.attemptCount
  { w with
    rows := updateWhere stale (recoveredRow settings note) w.rows
    jobs := w.jobs ++ deadlettered.map fun r => .mark r.id
      ("Outbox event was dead-lettered during stale-lock recovery " ++
        "after exhausting retry attempts.") }

/-- What an error makes of a job: one in a worker's `try` block fails its row, the others
are lost. -/
def raised (error : String) : EchoJob → List EchoJob
  | .process lease => [.fail lease error]
  | .run lease _ => [.fail lease error]
  | .acknowledge lease => [.fail lease error]
  | .fail _ _ => []
  | .mark _ _ => []

section Steps

variable [PyText]

/-- The next transaction of a job that is not among the open ones any more. -/
def advance (settings : OutboxSettings) (w : EchoDelivery)
    (input : TenantDb.RunEchoCrossReferenceInput) (now : Time) : EchoJob → EchoDelivery
  | .process lease => { w with jobs := w.jobs ++ [w.processEchoCrossrefEvent lease input] }
  | .run lease tx =>
      match w.payload lease.event.id with
      | none => w
      | some p =>
          { w with
            db := w.db.writeEcho p.tenantId p.crossrefResultId tx
            jobs := w.jobs ++ [.acknowledge lease] }
  | .acknowledge lease => w.updateStatus lease (processedUpdate lease) now
  | .fail lease error =>
      let update := failedUpdate settings lease error now
      let applied := w.rows.any (ownedBy lease)
      let w := w.updateStatus lease update now
      if applied ∧ update.status = .deadLetter then
        { w with jobs := w.jobs ++ [.mark lease.event.id error] }
      else w
  | .mark eventId error => w.markEchoResultFailed eventId error now

variable [TenantDb.Deidentification]

/-- A use case commits; a request commits its outbox row with it. -/
def tenant (w : EchoDelivery) (op : TenantOp) (now : Time) : EchoDelivery :=
  let db := w.db.step op
  { w with
    db := db
    rows := w.rows ++ (db.echoOutbox.drop w.db.echoOutbox.length).map (requestedRow now) }

/-- One transaction, or a crash. -/
def step (settings : OutboxSettings) (w : EchoDelivery) : EchoAct → EchoDelivery
  | .tenant op now => w.tenant op now
  | .fetch workerId limit now skipped => w.fetch settings workerId limit now skipped
  | .advance i input now =>
      match w.jobs[i]? with
      | none => w
      | some job => ({ w with jobs := w.jobs.eraseIdx i } : EchoDelivery).advance settings input now job
  | .raise i error =>
      match w.jobs[i]? with
      | none => w
      | some job => { w with jobs := w.jobs.eraseIdx i ++ raised error job }
  | .recoverStaleLocks now note skipped => w.recoverStaleLocks settings now note skipped
  | .crash i => { w with jobs := w.jobs.eraseIdx i }

end Steps

/-! ## Stranded results -/

/-- The status of the result that an outbox row is about. -/
def resultOf (w : EchoDelivery) (eventId : Uuid) : Option CrossrefResultStatus :=
  (w.payload eventId).bind fun p => w.db.resultStatus p.tenantId p.crossrefResultId

/-- No row is done with while its result is PENDING. -/
def NoneStranded (w : EchoDelivery) : Prop :=
  ∀ r ∈ w.rows, r.status = .processed ∨ r.status = .deadLetter → w.resultOf r.id ≠ some .pending

/-- No worker has a step to make. -/
def Idle (w : EchoDelivery) : Prop := w.jobs = []

/-- What an act must not do: lose the marking of a result that is PENDING. -/
def Attended (w : EchoDelivery) : EchoAct → Prop
  | .crash i | .raise i _ => ∀ eventId error, w.jobs[i]? = some (.mark eventId error) →
      w.resultOf eventId ≠ some .pending
  | _ => True

end EchoDelivery

/-! ## Results only move on -/

namespace TenantDb

/-- What happens to requests and results: requests are added with their result, and a
result stays, in its status once it is not PENDING any more. -/
structure MovesOn (s s' : TenantDb) : Prop where
  outbox : s.echoOutbox <+: s'.echoOutbox
  queued : ∀ p ∈ s'.echoOutbox, p ∈ s.echoOutbox ∨
    (s'.resultStatus p.tenantId p.crossrefResultId).isSome
  status : ∀ tenantId resultId st, s.resultStatus tenantId resultId = some st →
    ∃ st', s'.resultStatus tenantId resultId = some st' ∧ (st ≠ .pending → st' = st)

variable {s s' : TenantDb}

theorem MovesOn.of_status (houtbox : s'.echoOutbox = s.echoOutbox)
    (hstatus : ∀ tenantId resultId st, s.resultStatus tenantId resultId = some st →
      ∃ st', s'.resultStatus tenantId resultId = some st' ∧ (st ≠ .pending → st' = st)) :
    MovesOn s s' := by
  refine ⟨houtbox ▸ List.prefix_refl _, ?_, hstatus⟩
  intro p hp
  exact .inl (houtbox ▸ hp)

theorem MovesOn.of_eq (houtbox : s'.echoOutbox = s.echoOutbox)
    (hresults : s'.crossrefResults = s.crossrefResults) : MovesOn s s' := by
  refine .of_status houtbox ?_
  intro tenantId resultId st hst
  refine ⟨st, ?_, fun _ => rfl⟩
  rw [← hst]
  unfold resultStatus getCrossrefResult
  rw [hresults]

/-- An update that is fenced on PENDING moves on. -/
theorem movesOn_updatePending (s : TenantDb) (tenantId resultId : Uuid)
    {f : TenantCrossrefResult → TenantCrossrefResult}
    (hid : ∀ t i r, isResult t i (f r) = isResult t i r) :
    MovesOn s (s.updatePending tenantId resultId f) := by
  refine .of_status rfl ?_
  intro t i st hst
  unfold resultStatus getCrossrefResult updatePending at *
  dsimp only at *
  rw [find?_updateWhere _ fun r _ => hid t i r]
  cases hfound : s.crossrefResults.find? (isResult t i) with
  | none => simp [hfound] at hst
  | some r =>
      have hst : r.status = st := by simpa [hfound] using hst
      refine ⟨_, rfl, ?_⟩
      intro hne
      dsimp only
      rw [if_neg (by simp [hst, hne]), hst]

theorem movesOn_markFailed (s : TenantDb) (tenantId resultId : Uuid) (detail : String) (now : Time) :
    MovesOn s (s.markFailed tenantId resultId detail now) :=
  movesOn_updatePending s tenantId resultId fun _ _ _ => rfl

variable [PyText]

theorem movesOn_writeEcho (s : TenantDb) (tenantId resultId : Uuid) (tx : EchoTx) :
    MovesOn s (s.writeEcho tenantId resultId tx) := by
  cases tx with
  | fail detail now => exact movesOn_markFailed s tenantId resultId detail now
  | complete matched upsertFails now clock =>
      obtain ⟨n, signals, evidence, -, heq⟩ := upsertArgusSignals_eq tenantId resultId upsertFails now
        (s.markComplete tenantId resultId matched now) (strongMatches matched)
      have hmarked : MovesOn s (s.markComplete tenantId resultId matched now) :=
        movesOn_updatePending s tenantId resultId fun _ _ _ => rfl
      unfold writeEcho
      dsimp only
      rw [heq]
      exact ⟨hmarked.outbox, hmarked.queued, hmarked.status⟩

omit [PyText] in
/-- A result that was requested is there, and the others are as they were. -/
theorem movesOn_requested (s : TenantDb) (result : TenantCrossrefResult) (n id : Uuid) :
    MovesOn s { s with
      nextId := n
      crossrefResults := s.crossrefResults ++ [result]
      echoOutbox := s.echoOutbox ++
        [⟨id, result.id, result.tenantId, result.safetyReportId⟩] } := by
  refine ⟨List.prefix_append _ _, ?_, ?_⟩
  · intro p hp
    rcases List.mem_append.mp hp with hold | hnew
    · exact .inl hold
    · right
      rw [List.mem_singleton.mp hnew]
      unfold resultStatus getCrossrefResult
      rw [Option.isSome_map, List.find?_isSome]
      exact ⟨result, by simp, by simp [isResult]⟩
  · intro t i st hst
    refine ⟨st, ?_, fun _ => rfl⟩
    unfold resultStatus getCrossrefResult at *
    dsimp only
    cases hfound : s.crossrefResults.find? (isResult t i) with
    | none => simp [hfound] at hst
    | some r =>
        rw [List.find?_append, hfound]
        simpa [hfound] using hst

/-- **No operation takes a result back to PENDING or loses a request.** -/
theorem Effect.movesOn (h : Effect s s') : MovesOn s s' := by
  cases h with
  | requested result hid outbox hqueued =>
      obtain ⟨id, rfl⟩ := hqueued
      exact movesOn_requested s result _ id
  | echo tenantId resultId tx result hresult hpending => exact movesOn_writeEcho s tenantId resultId tx
  | failed tenantId resultId detail now => exact movesOn_markFailed s tenantId resultId detail now
  | _ => exact .of_eq rfl rfl

end TenantDb

/-! ## Every terminal row is settled or about to be -/

namespace EchoDelivery

variable {w w' : EchoDelivery} {settings : OutboxSettings} {eventId : Uuid}

/-- The result of the row is there and not PENDING. -/
def Settled (w : EchoDelivery) (eventId : Uuid) : Prop :=
  ∃ st, w.resultOf eventId = some st ∧ st ≠ .pending

/-- A run knows its result, and a row is acknowledged only when its result is settled. -/
def JobOk (w : EchoDelivery) : EchoJob → Prop
  | .run lease _ => (w.payload lease.event.id).isSome
  | .acknowledge lease => w.Settled lease.event.id
  | _ => True

/-- A terminal row is settled, or a job is about to settle it. -/
def Accounted (w : EchoDelivery) (eventId : Uuid) : Prop :=
  w.Settled eventId ∨ ∃ error, .mark eventId error ∈ w.jobs

structure Inv (w : EchoDelivery) : Prop where
  queued : ∀ p ∈ w.db.echoOutbox, (w.db.resultStatus p.tenantId p.crossrefResultId).isSome
  known : ∀ r ∈ w.rows, (w.payload r.id).isSome
  jobs : ∀ job ∈ w.jobs, w.JobOk job
  terminal : ∀ r ∈ w.rows, r.Terminal → w.Accounted r.id

theorem inv_start (store : Db) (categories : List HfacsCategory)
    (subcategories : List HfacsSubcategory) : (start store categories subcategories).Inv := by
  refine ⟨?_, ?_, ?_, ?_⟩ <;> simp [start, TenantDb.empty]

/-- The payload of a row is one of the requests. -/
theorem mem_of_payload {p : EchoRequested} (h : w.payload eventId = some p) :
    p ∈ w.db.echoOutbox := List.mem_of_find?_eq_some h

theorem Inv.resultOf_isSome (hw : w.Inv) (h : (w.payload eventId).isSome) :
    (w.resultOf eventId).isSome := by
  obtain ⟨p, hp⟩ := Option.isSome_iff_exists.mp h
  rw [resultOf, hp]
  exact hw.queued p (mem_of_payload hp)

/-- A row whose result is not PENDING is settled. -/
theorem Inv.settled (hw : w.Inv) (h : (w.payload eventId).isSome)
    (hne : w.resultOf eventId ≠ some .pending) : w.Settled eventId := by
  obtain ⟨st, hst⟩ := Option.isSome_iff_exists.mp (hw.resultOf_isSome h)
  refine ⟨st, hst, ?_⟩
  intro hpending
  exact hne (hst.trans (congrArg some hpending))

/-! ### The store moves on -/

section MovesOn

variable {db : TenantDb} (hdb : w.db.MovesOn db)

include hdb

theorem payload_movesOn {rows : List OutboxRow} {jobs : List EchoJob} {p : EchoRequested}
    (h : w.payload eventId = some p) : (⟨db, rows, jobs⟩ : EchoDelivery).payload eventId = some p := by
  obtain ⟨new, hnew⟩ := hdb.outbox
  unfold payload at *
  dsimp only
  rw [← hnew, List.find?_append, h, Option.some_or]

theorem settled_movesOn {rows : List OutboxRow} {jobs : List EchoJob} (h : w.Settled eventId) :
    (⟨db, rows, jobs⟩ : EchoDelivery).Settled eventId := by
  obtain ⟨st, hst, hne⟩ := h
  obtain ⟨p, hp, hstatus⟩ := Option.bind_eq_some_iff.mp hst
  obtain ⟨st', hst', hkept⟩ := hdb.status _ _ st hstatus
  refine ⟨st', ?_, ?_⟩
  · rw [resultOf, payload_movesOn hdb hp]
    exact hst'
  · rw [hkept hne]
    exact hne

theorem Inv.movesOn (hw : w.Inv) : ({ w with db := db } : EchoDelivery).Inv where
  queued := by
    intro p hp
    rcases hdb.queued p hp with hold | hnew
    · obtain ⟨st, hst⟩ := Option.isSome_iff_exists.mp (hw.queued p hold)
      obtain ⟨st', hst', -⟩ := hdb.status _ _ st hst
      exact Option.isSome_iff_exists.mpr ⟨st', hst'⟩
    · exact hnew
  known := by
    intro r hr
    obtain ⟨p, hp⟩ := Option.isSome_iff_exists.mp (hw.known r hr)
    exact Option.isSome_iff_exists.mpr ⟨p, payload_movesOn hdb hp⟩
  jobs := by
    intro job hjob
    have hok := hw.jobs job hjob
    cases job with
    | run lease tx =>
        obtain ⟨p, hp⟩ := Option.isSome_iff_exists.mp hok
        exact Option.isSome_iff_exists.mpr ⟨p, payload_movesOn hdb hp⟩
    | acknowledge lease => exact settled_movesOn hdb hok
    | process lease => trivial
    | fail lease error => trivial
    | mark id error => trivial
  terminal := by
    intro r hr hterminal
    exact (hw.terminal r hr hterminal).imp (settled_movesOn hdb) id

end MovesOn

/-! ### Rows and jobs -/

/-- A statement on the rows: what it makes terminal must be accounted for. -/
theorem Inv.updateRows (hw : w.Inv) {p : OutboxRow → Bool} {f : OutboxRow → OutboxRow}
    (hid : ∀ r, (f r).id = r.id)
    (hf : ∀ r ∈ w.rows, p r = true → (f r).Terminal → w.Accounted r.id) :
    ({ w with rows := updateWhere p f w.rows } : EchoDelivery).Inv := by
  refine ⟨hw.queued, ?_, hw.jobs, ?_⟩
  · intro r' hr'
    obtain ⟨r, hr, rfl⟩ := mem_updateWhere.mp hr'
    have hsame : (if p r then f r else r).id = r.id := by
      split
      · exact hid r
      · rfl
    rw [hsame]
    exact hw.known r hr
  · intro r' hr' hterminal
    obtain ⟨r, hr, rfl⟩ := mem_updateWhere.mp hr'
    by_cases hp : p r = true
    · rw [if_pos hp] at hterminal ⊢
      rw [hid]
      exact hf r hr hp hterminal
    · rw [if_neg hp] at hterminal ⊢
      exact hw.terminal r hr hterminal

/-- A change of the open jobs: a marking may go only when its row is settled. -/
theorem Inv.updateJobs (hw : w.Inv) {jobs : List EchoJob} (hok : ∀ job ∈ jobs, w.JobOk job)
    (hmark : ∀ r ∈ w.rows, ∀ error, .mark r.id error ∈ w.jobs →
      w.Settled r.id ∨ .mark r.id error ∈ jobs) :
    ({ w with jobs := jobs } : EchoDelivery).Inv := by
  refine ⟨hw.queued, hw.known, hok, ?_⟩
  intro r hr hterminal
  rcases hw.terminal r hr hterminal with hsettled | ⟨error, hopen⟩
  · exact .inl hsettled
  · rcases hmark r hr error hopen with hsettled | hkept
    · exact .inl hsettled
    · exact .inr ⟨error, hkept⟩

/-- New jobs. -/
theorem Inv.addJobs (hw : w.Inv) {jobs : List EchoJob} (hok : ∀ job ∈ jobs, w.JobOk job) :
    ({ w with jobs := w.jobs ++ jobs } : EchoDelivery).Inv := by
  refine hw.updateJobs ?_ ?_
  · intro job hjob
    rcases List.mem_append.mp hjob with hold | hnew
    · exact hw.jobs job hold
    · exact hok job hnew
  · intro r hr error hopen
    exact .inr (List.mem_append_left _ hopen)

/-- An open job is the one taken away or is still open. -/
theorem eq_or_mem_eraseIdx {jobs : List EchoJob} {i : Nat} {job other : EchoJob}
    (hjob : jobs[i]? = some job) (hother : other ∈ jobs) : other = job ∨ other ∈ jobs.eraseIdx i := by
  obtain ⟨j, hj⟩ := List.mem_iff_getElem?.mp hother
  by_cases hij : j = i
  · left
    rw [hij, hjob] at hj
    exact (Option.some.inj hj).symm
  · exact .inr (List.mem_eraseIdx_iff_getElem?.mpr ⟨j, hij, hj⟩)

/-- A job is taken away; a marking only when its row is settled. -/
theorem Inv.eraseJob (hw : w.Inv) {i : Nat} {job : EchoJob} (hjob : w.jobs[i]? = some job)
    (hmark : ∀ r ∈ w.rows, ∀ error, job = .mark r.id error → w.Settled r.id) :
    ({ w with jobs := w.jobs.eraseIdx i } : EchoDelivery).Inv := by
  refine hw.updateJobs ?_ ?_
  · intro job hjob
    exact hw.jobs job (List.mem_of_mem_eraseIdx hjob)
  · intro r hr error hopen
    rcases eq_or_mem_eraseIdx hjob hopen with hit | hkept
    · exact .inl (hmark r hr error hit.symm)
    · exact .inr hkept

/-! ### The transactions -/

theorem Inv.fetch (hw : w.Inv) (workerId : String) (limit : Nat) (now : Time) (skipped : List Uuid) :
    (w.fetch settings workerId limit now skipped).Inv := by
  refine (hw.addJobs ?_).updateRows (fun _ => rfl) ?_
  · intro job hjob
    obtain ⟨r, -, rfl⟩ := List.mem_map.mp hjob
    trivial
  · intro r hr hp hterminal
    rcases hterminal with h | h <;> cases h

/-- What the sweep dead-letters it also marks. -/
theorem Inv.recoverStaleLocks (hw : w.Inv) (now : Time) (note : String) (skipped : List Uuid) :
    (w.recoverStaleLocks settings now note skipped).Inv := by
  refine (hw.addJobs ?_).updateRows ?_ ?_
  · intro job hjob
    obtain ⟨r, -, rfl⟩ := List.mem_map.mp hjob
    trivial
  · intro r
    unfold recoveredRow
    split <;> rfl
  · intro r hr hstale hterminal
    have hspent : settings.maxAttempts ≤ r.attemptCount := by
      by_contra hleft
      rw [recoveredRow, if_pos (not_le.mp hleft)] at hterminal
      rcases hterminal with h | h <;> cases h
    refine .inr ⟨_, List.mem_append_right _ (List.mem_map.mpr ⟨r, ?_, rfl⟩)⟩
    simp only [List.mem_filter, decide_eq_true_eq]
    exact ⟨hr, of_decide_eq_true hstale, hspent⟩

theorem processEchoCrossrefEvent_ok (w : EchoDelivery) (lease : OutboxLease)
    (input : TenantDb.RunEchoCrossReferenceInput) :
    w.JobOk (w.processEchoCrossrefEvent lease input) := by
  unfold processEchoCrossrefEvent
  cases hp : w.payload lease.event.id with
  | none => trivial
  | some p =>
      cases hresult : w.db.getCrossrefResult p.tenantId p.crossrefResultId with
      | none => simp only [hresult]; trivial
      | some result =>
          simp only [hresult]
          split
          · split
            · exact Option.isSome_iff_exists.mpr ⟨p, hp⟩
            · trivial
          · rename_i hne
            refine ⟨result.status, ?_, hne⟩
            rw [resultOf, hp]
            change w.db.resultStatus p.tenantId p.crossrefResultId = _
            rw [TenantDb.resultStatus, hresult]
            rfl

/-- The failure of a row: when it is dead-lettered, its marking is open. -/
theorem Inv.fail [PyText] (hw : w.Inv) (input : TenantDb.RunEchoCrossReferenceInput) (now : Time)
    (lease : OutboxLease) (error : String) :
    (w.advance settings input now (.fail lease error)).Inv := by
  unfold EchoDelivery.advance
  dsimp only
  split
  · refine (hw.addJobs ?_).updateRows (fun _ => rfl) ?_
    · intro job hjob
      rw [List.mem_singleton.mp hjob]
      trivial
    · intro r hr howned hterminal
      refine .inr ⟨error, ?_⟩
      rw [(ownedBy_iff.mp howned).1]
      exact List.mem_append_right _ List.mem_cons_self
  · rename_i hnot
    refine hw.updateRows (fun _ => rfl) ?_
    intro r hr howned hterminal
    have happlied : w.rows.any (ownedBy lease) = true := List.any_eq_true.mpr ⟨r, hr, howned⟩
    rcases failedUpdate_status settings lease error now with ⟨-, hdead⟩ | ⟨-, hfailed⟩
    · exact absurd ⟨happlied, hdead⟩ hnot
    · rcases hterminal with h | h
      · exact absurd (hfailed.symm.trans h) (by decide)
      · exact absurd (hfailed.symm.trans h) (by decide)

section Writes

variable [PyText]

/-- Whatever a run commits settles its result. -/
theorem Inv.settled_writeEcho (hw : w.Inv) {p : EchoRequested} (hp : w.payload eventId = some p)
    (tx : TenantDb.EchoTx) :
    ({ w with db := w.db.writeEcho p.tenantId p.crossrefResultId tx } : EchoDelivery).Settled eventId := by
  obtain ⟨st, hst⟩ := Option.isSome_iff_exists.mp (hw.queued p (mem_of_payload hp))
  refine ⟨TenantDb.fencedStatus tx.status st, ?_, ?_⟩
  · rw [resultOf, payload_movesOn (TenantDb.movesOn_writeEcho w.db _ _ tx) hp]
    change (w.db.writeEcho p.tenantId p.crossrefResultId tx).resultStatus p.tenantId
      p.crossrefResultId = _
    rw [TenantDb.resultStatus_writeEcho, hst]
    rfl
  · cases st <;> cases tx <;> simp [TenantDb.fencedStatus, TenantDb.EchoTx.status]

/-- The marking of a dead-lettered row settles its result. -/
theorem Inv.mark (hw : w.Inv) {i : Nat} {error : String}
    (hjob : w.jobs[i]? = some (.mark eventId error)) (now : Time) :
    (({ w with jobs := w.jobs.eraseIdx i } : EchoDelivery).markEchoResultFailed eventId error now).Inv := by
  unfold markEchoResultFailed
  cases hp : w.payload eventId with
  | none =>
      have hp' : ({ w with jobs := w.jobs.eraseIdx i } : EchoDelivery).payload eventId = none := hp
      rw [hp']
      refine hw.eraseJob hjob ?_
      intro r hr error' heq
      obtain ⟨rfl, -⟩ := EchoJob.mark.inj heq
      have hknown := hw.known r hr
      simp [hp] at hknown
  | some p =>
      have hp' : ({ w with jobs := w.jobs.eraseIdx i } : EchoDelivery).payload eventId = some p := hp
      rw [hp']
      refine (hw.movesOn (TenantDb.movesOn_markFailed w.db _ _ _ now)).eraseJob hjob ?_
      intro r hr error' heq
      obtain ⟨rfl, -⟩ := EchoJob.mark.inj heq
      exact hw.settled_writeEcho hp (.fail _ now)

/-- **What a worker does keeps the invariant.** -/
theorem Inv.advance (hw : w.Inv) {i : Nat} {job : EchoJob} (hjob : w.jobs[i]? = some job)
    (input : TenantDb.RunEchoCrossReferenceInput) (now : Time) :
    (({ w with jobs := w.jobs.eraseIdx i } : EchoDelivery).advance settings input now job).Inv := by
  have hok := hw.jobs job (List.mem_of_getElem? hjob)
  cases job with
  | process lease =>
      refine (hw.eraseJob hjob (by simp)).addJobs ?_
      intro job hnew
      rw [List.mem_singleton.mp hnew]
      exact processEchoCrossrefEvent_ok _ lease input
  | run lease tx =>
      obtain ⟨p, hp⟩ := Option.isSome_iff_exists.mp hok
      have hp' : ({ w with jobs := w.jobs.eraseIdx i } : EchoDelivery).payload lease.event.id =
          some p := hp
      unfold EchoDelivery.advance
      dsimp only
      rw [hp']
      have herased : ({ w with jobs := w.jobs.eraseIdx i } : EchoDelivery).Inv :=
        hw.eraseJob hjob (by simp)
      have hwritten := TenantDb.movesOn_writeEcho w.db p.tenantId p.crossrefResultId tx
      refine (Inv.movesOn (w := { w with jobs := w.jobs.eraseIdx i }) hwritten herased).addJobs ?_
      intro job hnew
      rw [List.mem_singleton.mp hnew]
      exact herased.settled_writeEcho hp' tx
  | acknowledge lease =>
      refine (hw.eraseJob hjob (by simp)).updateRows (fun _ => rfl) ?_
      intro r hr howned hterminal
      left
      rw [(ownedBy_iff.mp howned).1]
      exact hok
  | fail lease error => exact (hw.eraseJob hjob (by simp)).fail input now lease error
  | mark eventId error => exact hw.mark hjob now

omit [PyText] in
theorem raised_ok (w : EchoDelivery) {error : String} {job new : EchoJob}
    (hnew : new ∈ raised error job) : w.JobOk new := by
  cases job with
  | process lease => rw [List.mem_singleton.mp hnew]; trivial
  | run lease tx => rw [List.mem_singleton.mp hnew]; trivial
  | acknowledge lease => rw [List.mem_singleton.mp hnew]; trivial
  | fail lease error => cases hnew
  | mark eventId error => cases hnew

omit [PyText] in
/-- A job that raises, or is lost, is missed only if it was to mark a PENDING result. -/
theorem Inv.lose (hw : w.Inv) {i : Nat} {job : EchoJob} (hjob : w.jobs[i]? = some job)
    (hattended : ∀ eventId error, w.jobs[i]? = some (.mark eventId error) →
      w.resultOf eventId ≠ some .pending) :
    ({ w with jobs := w.jobs.eraseIdx i } : EchoDelivery).Inv := by
  refine hw.eraseJob hjob ?_
  intro r hr error heq
  exact hw.settled (hw.known r hr) (hattended r.id error (heq ▸ hjob))

variable [TenantDb.Deidentification]

theorem Inv.tenant (hw : w.Inv) (op : TenantOp) (now : Time) : (w.tenant op now).Inv := by
  have hmoved := hw.movesOn (TenantDb.step_effect w.db op).movesOn
  refine ⟨hmoved.queued, ?_, hmoved.jobs, ?_⟩
  · intro r hr
    rcases List.mem_append.mp hr with hold | hnew
    · exact hmoved.known r hold
    · obtain ⟨p, hp, rfl⟩ := List.mem_map.mp hnew
      exact List.find?_isSome.mpr ⟨p, List.mem_of_mem_drop hp, by simp [requestedRow]⟩
  · intro r hr hterminal
    rcases List.mem_append.mp hr with hold | hnew
    · exact hmoved.terminal r hold hterminal
    · obtain ⟨p, hp, rfl⟩ := List.mem_map.mp hnew
      rcases hterminal with h | h <;> cases h

/-- **One step keeps the invariant while markings of PENDING results are not lost.** -/
theorem Inv.step (hw : w.Inv) (act : EchoAct) (hattended : w.Attended act) :
    (w.step settings act).Inv := by
  cases act with
  | tenant op now => exact hw.tenant op now
  | fetch workerId limit now skipped => exact hw.fetch workerId limit now skipped
  | advance i input now =>
      unfold EchoDelivery.step
      dsimp only
      split
      · exact hw
      · rename_i job hjob
        exact hw.advance hjob input now
  | raise i error =>
      unfold EchoDelivery.step
      dsimp only
      split
      · exact hw
      · rename_i job hjob
        refine (hw.lose hjob hattended).addJobs ?_
        intro new hnew
        exact raised_ok _ hnew
  | recoverStaleLocks now note skipped => exact hw.recoverStaleLocks now note skipped
  | crash i =>
      cases hjob : w.jobs[i]? with
      | none =>
          rw [EchoDelivery.step, List.eraseIdx_of_length_le (List.getElem?_eq_none_iff.mp hjob)]
          exact hw
      | some job => exact hw.lose hjob hattended

omit [PyText] [TenantDb.Deidentification] in
theorem Inv.noneStranded (hw : w.Inv) (hidle : w.Idle) : w.NoneStranded := by
  intro r hr hterminal hpending
  rcases hw.terminal r hr hterminal with ⟨st, hst, hne⟩ | ⟨error, hopen⟩
  · exact hne (Option.some.inj (hst.symm.trans hpending))
  · rw [hidle] at hopen
    cases hopen

end Writes

end EchoDelivery

/-- **Echo results are not stranded.**  In a run of any requests, workers, sweeps and
crashes in which no marking of a result that is still PENDING is lost between the
dead-lettering of its row and the marking itself, in every state in which no worker has
a step to make the result of a PROCESSED or DEAD_LETTER row is not PENDING. -/
theorem echo_results_not_stranded [PyText] [TenantDb.Deidentification] (settings : OutboxSettings)
    (store : Db) (categories : List HfacsCategory) (subcategories : List HfacsSubcategory)
    (acts : List EchoAct)
    (hattended : Runs.EveryStep (EchoDelivery.step settings) EchoDelivery.Attended
      (.start store categories subcategories) acts) :
    Runs.EveryState (EchoDelivery.step settings) (fun w => w.Idle → w.NoneStranded)
      (.start store categories subcategories) acts := by
  have hinv : Runs.EveryState (EchoDelivery.step settings) EchoDelivery.Inv
      (.start store categories subcategories) acts :=
    Runs.everyState_of_everyStep (fun w act hw hact => hw.step act hact)
      (EchoDelivery.inv_start store categories subcategories) hattended
  exact hinv.imp fun w hw => hw.noneStranded

/-! ## A crash after a dead letter -/

/-- One attempt, and ten minutes for it. -/
def oneAttempt : OutboxSettings := ⟨1, 10, by decide, by decide⟩

/-- An execution that cannot load the corpus. -/
def corpusUnavailable : TenantDb.RunEchoCrossReferenceInput :=
  ⟨70, 1, false, fun _ => .error "Corpus load failed: timeout", fun _ => false, 0, fun _ => 0⟩

/-- A request whose only attempt fails, up to the dead letter. -/
def lastAttemptFails : List EchoAct :=
  [.tenant fatigueReport 0, .tenant (.requestEcho ⟨⟨70, 70, .owner⟩, 0⟩) 0, .fetch "worker-1" 10 0 [],
    .advance 0 corpusUnavailable 0, .advance 0 corpusUnavailable 0]

/-- The worker goes on and marks the result. -/
theorem marked_result_not_stranded :
    Runs.EveryState (EchoDelivery.step oneAttempt) (fun w => w.Idle → w.NoneStranded)
      (.start (Db.empty []) [] []) (lastAttemptFails ++ [.advance 0 corpusUnavailable 0]) := by
  refine echo_results_not_stranded oneAttempt _ _ _ _ ?_
  intro pre act post heq
  have hact : act ∈ lastAttemptFails ++ [.advance 0 corpusUnavailable 0] := by simp [heq]
  simp only [lastAttemptFails, List.cons_append, List.nil_append, List.mem_cons, List.not_mem_nil,
    or_false] at hact
  rcases hact with rfl | rfl | rfl | rfl | rfl | rfl <;> trivial

/-- The worker dies before it marks the result. -/
theorem crash_strands_result :
    ¬ Runs.EveryState (EchoDelivery.step oneAttempt) (fun w => w.Idle → w.NoneStranded)
      (.start (Db.empty []) [] []) (lastAttemptFails ++ [.crash 0]) := by
  intro h
  have hend := h _ (List.prefix_refl _)
  have hidle : (Runs.run (EchoDelivery.step oneAttempt) (.start (Db.empty []) [] [])
      (lastAttemptFails ++ [.crash 0])).jobs.length = 0 := by decide +kernel
  have hstranded : ∃ r ∈ (Runs.run (EchoDelivery.step oneAttempt) (.start (Db.empty []) [] [])
      (lastAttemptFails ++ [.crash 0])).rows, r.status = .deadLetter ∧
      (Runs.run (EchoDelivery.step oneAttempt) (.start (Db.empty []) [] [])
        (lastAttemptFails ++ [.crash 0])).resultOf r.id = some .pending := by decide +kernel
  obtain ⟨r, hr, hdead, hpending⟩ := hstranded
  exact hend (List.eq_nil_of_length_eq_zero hidle) r hr (.inr hdead) hpending

end Atlas
