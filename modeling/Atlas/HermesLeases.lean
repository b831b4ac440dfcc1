import Atlas.Lib.LeasedRows
import Atlas.OutboxLeases

/-!
# Leases of Hermes fetch jobs

A Hermes job is claimed for a time, fetched outside any transaction, and
finalised under the claim; jobs whose lease ran out are recovered.  As for the
outbox, any number of workers take part, may be slow and may die, and a claim
that was made may be used at any later time or never.

`execute_claimed` has one write that looks at nothing: when the crawl target is
gone or not active it saves the job as FAILED.  Its two callers claim and execute
in one unit of work, so this write is made in the transaction of the claim, right
after it.  All other writes of a worker lock the row first and check that the
claim is still its own and still runs.

Whether a target is active and how a fetch ends is left open: every branch may be
taken at any time.
-/

namespace Atlas

open Rows RowLocks

inductive HermesFetchJobStatus where
  | queued
  | running
  | succeeded
  | failed
  | cancelled
deriving DecidableEq, Repr

structure HermesFetchJob where
  id : Uuid
  targetId : Uuid
  status : HermesFetchJobStatus
  priority : Int
  attemptCount : Nat
  maxAttempts : Nat
  scheduledAt : Option Time
  startedAt : Option Time
  finishedAt : Option Time
  errorMessage : Option String
  lockedBy : Option String
  lockedAt : Option Time
  leaseExpiresAt : Option Time
  createdAt : Time
deriving DecidableEq, Repr

/-- What is known of a committed write; a claim is the job as it was returned. -/
inductive HermesEntry where
  | claimed (job : HermesFetchJob)
  | finalized (claim : HermesFetchJob) (status : HermesFetchJobStatus)
  | recovered (id : Uuid) (status : HermesFetchJobStatus)
deriving DecidableEq, Repr

namespace HermesFetchJob

def key (r : HermesFetchJob) : Uuid := r.id

/-- A job as `EnqueueHermesFetchJob` adds it; the table checks that at least one
attempt is allowed. -/
def Fresh (r : HermesFetchJob) : Prop :=
  r.status = .queued ∧ r.attemptCount = 0 ∧ 1 ≤ r.maxAttempts ∧ r.lockedBy = none ∧
    r.lockedAt = none ∧ r.leaseExpiresAt = none

instance (r : HermesFetchJob) : Decidable r.Fresh := inferInstanceAs (Decidable (_ ∧ _))

/-! ## Claims -/

/-- QUEUED, and due. -/
def isDue (now : Time) (r : HermesFetchJob) : Bool :=
  r.status = .queued ∧ r.scheduledAt.all fun due => due ≤ now

/-- The row `claim_running` and `claim_next_running` write and return. -/
def claimedRow (workerId : String) (now leaseExpiresAt : Time) (r : HermesFetchJob) :
    HermesFetchJob :=
  { r with
    status := .running
    attemptCount := r.attemptCount + 1
    startedAt := some now
    finishedAt := none
    errorMessage := none
    lockedBy := some workerId
    lockedAt := some now
    leaseExpiresAt := some leaseExpiresAt }

/-- `ORDER BY priority, created_at, id`. -/
def before (a b : HermesFetchJob) : Prop :=
  a.priority < b.priority ∨ (a.priority = b.priority ∧
    (a.createdAt < b.createdAt ∨ (a.createdAt = b.createdAt ∧ a.id ≤ b.id)))

instance (a b : HermesFetchJob) : Decidable (before a b) := inferInstanceAs (Decidable (_ ∨ _))

/-- The job `claim_next_running` selects among those that are not locked. -/
def nextJob (now : Time) (unlocked : List HermesFetchJob) : Option HermesFetchJob :=
  ((unlocked.filter (isDue now)).insertionSort before).head?

/-! ## Finalisation -/

/-- What every finalisation leaves: no lock and no lease. -/
def unlockedRow (status : HermesFetchJobStatus) (scheduledAt : Option Time)
    (errorMessage : Option String) (now : Time) (r : HermesFetchJob) : HermesFetchJob :=
  { r with
    status := status
    scheduledAt := scheduledAt
    errorMessage := errorMessage
    finishedAt := some now
    lockedBy := none
    lockedAt := none
    leaseExpiresAt := none }

/-- What `execute_claimed` saves when the target is missing or not active. -/
def abandonedRow (now : Time) (job : HermesFetchJob) : HermesFetchJob :=
  unlockedRow .failed none (some "Target missing or not ACTIVE") now job

/-- `lock_claim_for_finalization` finds the row: RUNNING, under this claim, with
a lease that has not run out. -/
def ownedBy (claim : HermesFetchJob) (now : Time) (r : HermesFetchJob) : Bool :=
  r.id = claim.id ∧ r.status = .running ∧ claim.lockedBy.isSome ∧ r.lockedBy = claim.lockedBy ∧
    r.attemptCount = claim.attemptCount ∧ r.leaseExpiresAt.any fun expires => now ≤ expires

/-- What `_finalize_success` saves. -/
def succeededRow (now : Time) (r : HermesFetchJob) : HermesFetchJob :=
  unlockedRow .succeeded none none now r

/-- `_retry_delay`: exponential backoff, capped at an hour. -/
def retryDelay (attemptCount : Nat) : Time := min (60 * 2 ^ (attemptCount - 1)) 3600 * second

/-- What `_finalize_failure` saves. -/
def failedRow (errorMessage : String) (permanent : Bool) (now : Time) (r : HermesFetchJob) :
    HermesFetchJob :=
  if permanent ∨ r.maxAttempts ≤ r.attemptCount then
    unlockedRow .failed none (some errorMessage) now r
  else unlockedRow .queued (some (now + retryDelay r.attemptCount)) (some errorMessage) now r

/-! ## Recovery -/

/-- RUNNING with a lease that has run out. -/
def isExpired (now : Time) (r : HermesFetchJob) : Bool :=
  r.status = .running ∧ r.leaseExpiresAt.any fun expires => expires < now

def recoveryMessage : String := "Recovered stale RUNNING Hermes job after lease expiry"

/-- The row `recover_stale_running` writes. -/
def recoveredRow (now : Time) (r : HermesFetchJob) : HermesFetchJob :=
  if r.maxAttempts ≤ r.attemptCount then unlockedRow .failed none (some recoveryMessage) now r
  else unlockedRow .queued (some now) (some recoveryMessage) now r

end HermesFetchJob

/-! ## The workers -/

open HermesFetchJob in
/-- What a statement may write to a row it finds. -/
inductive HermesWrite (log own : List HermesEntry) (r : HermesFetchJob) :
    Write HermesFetchJob HermesEntry → Prop where
  | claim {workerId : String} {now leaseExpiresAt : Time} (hdue : isDue now r = true) :
      HermesWrite log own r ⟨claimedRow workerId now leaseExpiresAt r,
        .claimed (claimedRow workerId now leaseExpiresAt r)⟩
  /-- No look at the row: its transaction has just claimed it. -/
  | abandon {job : HermesFetchJob} {now : Time} (hown : own = [.claimed job]) :
      HermesWrite log own r ⟨abandonedRow now job, .finalized job .failed⟩
  | succeed {claim : HermesFetchJob} {now later : Time} (hclaim : .claimed claim ∈ log)
      (howned : ownedBy claim now r = true) :
      HermesWrite log own r ⟨succeededRow later r, .finalized claim .succeeded⟩
  | fail {claim : HermesFetchJob} {error : String} {permanent : Bool} {now later : Time}
      (hclaim : .claimed claim ∈ log) (howned : ownedBy claim now r = true) :
      HermesWrite log own r ⟨failedRow error permanent later r,
        .finalized claim (failedRow error permanent later r).status⟩
  | recover {now : Time} (hexpired : isExpired now r = true) :
      HermesWrite log own r ⟨recoveredRow now r, .recovered r.id (recoveredRow now r).status⟩

/-- One statement on one row, a commit, a rollback or a crash. -/
abbrev HermesStep := World.Step HermesFetchJob.key HermesFetchJob.Fresh HermesWrite

namespace HermesEntry

def leaseEntry : HermesEntry → Leases.Entry Uuid
  | .claimed job => .acquire job.id job.attemptCount
  | .finalized claim _ => .release claim.id claim.attemptCount
  | .recovered id _ => .revoke id

/-- The job an entry is about. -/
def jobId (e : HermesEntry) : Uuid := e.leaseEntry.key

/-- The entry finalises this attempt of the job. -/
def finalizes (id : Uuid) (attempt : Nat) : HermesEntry → Bool
  | .finalized claim _ => claim.id = id ∧ claim.attemptCount = attempt
  | _ => false

end HermesEntry

/-- The claim is the most recent thing that happened to its job. -/
def ClaimStands (log : List HermesEntry) (claim : HermesFetchJob) : Prop :=
  ∃ older newer, log = older ++ .claimed claim :: newer ∧ ∀ e ∈ newer, e.jobId ≠ claim.id

namespace HermesFetchJob

variable {log own : List HermesEntry} {r : HermesFetchJob} {w : Write HermesFetchJob HermesEntry}

def lease (r : HermesFetchJob) : Leases.Lease := ⟨r.attemptCount, r.status = .running⟩

/-- Attempts are within their number, with one left while the job is QUEUED, and
the job is RUNNING exactly when it is locked. -/
structure Sound (r : HermesFetchJob) : Prop where
  attempts : r.attemptCount ≤ r.maxAttempts
  left : r.status = .queued → r.attemptCount < r.maxAttempts
  owner : r.status = .running ↔ r.lockedBy.isSome
  since : r.status = .running ↔ r.lockedAt.isSome

theorem lease_of_running (h : r.status = .running) : r.lease = ⟨r.attemptCount, true⟩ := by
  simp [lease, h]

theorem lease_of_ne (h : r.status ≠ .running) : r.lease = ⟨r.attemptCount, false⟩ := by
  simp [lease, h]

theorem isDue_status {now : Time} (h : isDue now r = true) : r.status = .queued := by
  simp only [isDue, decide_eq_true_eq] at h
  exact h.1

theorem isExpired_status {now : Time} (h : isExpired now r = true) : r.status = .running := by
  simp only [isExpired, decide_eq_true_eq] at h
  exact h.1

theorem ownedBy_spec {claim : HermesFetchJob} {now : Time} (h : ownedBy claim now r = true) :
    r.id = claim.id ∧ r.status = .running ∧ r.attemptCount = claim.attemptCount := by
  simp only [ownedBy, decide_eq_true_eq] at h
  exact ⟨h.1, h.2.1, h.2.2.2.2.1⟩

/-- What a retry-or-fail row is: unlocked, FAILED or back to QUEUED with attempts
left. -/
theorem failedRow_spec (error : String) (permanent : Bool) (now : Time) (r : HermesFetchJob) :
    ∃ status at' message, failedRow error permanent now r = unlockedRow status at' message now r ∧
      (status = .failed ∨ status = .queued ∧ r.attemptCount < r.maxAttempts) := by
  unfold failedRow
  split
  · exact ⟨_, _, _, rfl, .inl rfl⟩
  · rename_i h
    rw [not_or] at h
    exact ⟨_, _, _, rfl, .inr ⟨rfl, by omega⟩⟩

theorem recoveredRow_spec (now : Time) (r : HermesFetchJob) :
    ∃ status at' message, recoveredRow now r = unlockedRow status at' message now r ∧
      (status = .failed ∨ status = .queued ∧ r.attemptCount < r.maxAttempts) := by
  unfold recoveredRow
  split
  · exact ⟨_, _, _, rfl, .inl rfl⟩
  · exact ⟨_, _, _, rfl, .inr ⟨rfl, by omega⟩⟩

/-- An unlocked row keeps the attempts. -/
theorem sound_unlocked {status : HermesFetchJobStatus} {at' : Option Time}
    {message : Option String} {now : Time} (h : r.Sound) (hrunning : status ≠ .running)
    (hqueued : status = .queued → r.attemptCount < r.maxAttempts) :
    (unlockedRow status at' message now r).Sound := by
  refine ⟨h.attempts, hqueued, ?_, ?_⟩
  · simp [unlockedRow, hrunning]
  · simp [unlockedRow, hrunning]

theorem sound_fresh (h : r.Fresh) : r.Sound := by
  obtain ⟨hstatus, hattempt, hmax, howner, hsince, -⟩ := h
  refine ⟨by omega, fun _ => by omega, ?_, ?_⟩
  · simp [hstatus, howner]
  · simp [hstatus, hsince]

theorem sound_claimed (h : r.Sound) {workerId : String} {now expires : Time}
    (hdue : isDue now r = true) : (claimedRow workerId now expires r).Sound := by
  have hleft := h.left (isDue_status hdue)
  refine ⟨hleft, ?_, ?_, ?_⟩
  · intro hstatus
    cases hstatus
  · simp [claimedRow]
  · simp [claimedRow]

theorem ne_running_of_outcome {status : HermesFetchJobStatus} {p : Prop}
    (h : status = .failed ∨ status = .queued ∧ p) : status ≠ .running := by
  rcases h with h | ⟨h, -⟩
  · rw [h]
    decide
  · rw [h]
    decide

theorem left_of_outcome {status : HermesFetchJobStatus} {p : Prop}
    (h : status = .failed ∨ status = .queued ∧ p) (hqueued : status = .queued) : p := by
  rcases h with h | ⟨-, hp⟩
  · rw [h] at hqueued
    cases hqueued
  · exact hp

/-- **A write keeps the rows and the claims sound.** -/
theorem write_sound (hown : own <:+ log) (hlog : ∀ e ∈ log, ∀ job, e = .claimed job → job.Sound)
    (hr : r.Sound) (hw : HermesWrite log own r w) :
    w.row.Sound ∧ ∀ job, w.entry = .claimed job → job.Sound := by
  cases hw with
  | @claim workerId now expires hdue =>
      have hsound : (claimedRow workerId now expires r).Sound := sound_claimed hr hdue
      refine ⟨hsound, ?_⟩
      intro job hjob
      cases hjob
      exact hsound
  | @abandon job now hown' =>
      refine ⟨?_, fun _ h => by cases h⟩
      have hjob : job.Sound := by
        refine hlog (.claimed job) (hown.subset ?_) job rfl
        rw [hown']
        exact List.mem_singleton.mpr rfl
      exact sound_unlocked hjob (by decide) fun h => by cases h
  | succeed => exact ⟨sound_unlocked hr (by decide) fun h => (by cases h), fun _ h => by cases h⟩
  | @fail claim error permanent now later =>
      refine ⟨?_, fun _ h => by cases h⟩
      obtain ⟨status, at', message, heq, hstatus⟩ := failedRow_spec error permanent later r
      show (failedRow error permanent later r).Sound
      rw [heq]
      exact sound_unlocked hr (ne_running_of_outcome hstatus) (left_of_outcome hstatus)
  | @recover now =>
      refine ⟨?_, fun _ h => by cases h⟩
      obtain ⟨status, at', message, heq, hstatus⟩ := recoveredRow_spec now r
      show (recoveredRow now r).Sound
      rw [heq]
      exact sound_unlocked hr (ne_running_of_outcome hstatus) (left_of_outcome hstatus)

/-- A finalisation under a claim that is still the row's releases its lease. -/
theorem step_release {claim : HermesFetchJob} {status : HermesFetchJobStatus} {at' : Option Time}
    {message : Option String} {now later : Time} (howned : ownedBy claim now r = true)
    (hstatus : status ≠ .running) :
    Leases.Step r.id r.lease (HermesEntry.finalized claim status).leaseEntry
      (unlockedRow status at' message later r).lease := by
  obtain ⟨hid, hrunning, hattempt⟩ := ownedBy_spec howned
  have hentry : (HermesEntry.finalized claim status).leaseEntry = .release r.id r.attemptCount := by
    rw [hid, hattempt]
    rfl
  have hnew : (unlockedRow status at' message later r).lease = ⟨r.attemptCount, false⟩ :=
    lease_of_ne hstatus
  rw [lease_of_running hrunning, hentry, hnew]
  exact .release

/-- **Every write of a job is a step of its lease**, the unchecked one included. -/
theorem leased : RowLocks.Leased lease HermesEntry.leaseEntry key Fresh HermesWrite := by
  constructor
  · rintro r ⟨hstatus, hattempt, -⟩
    rw [lease_of_ne (by rw [hstatus]; decide), hattempt]
  · intro log own r w hown htrace hkey hw
    cases hw with
    | claim hdue =>
        rw [lease_of_ne (by rw [isDue_status hdue]; decide)]
        exact .acquire
    | @abandon job now hown' =>
        -- the log ends with the claim, so the row is held under it
        obtain ⟨older, rfl⟩ := hown
        have hid : r.key = job.id := hkey
        rw [hown', List.map_append, hid] at htrace
        have hlease : r.lease = ⟨job.attemptCount, true⟩ := Leases.Traces.after_acquire htrace
        rw [hlease, hid]
        exact .release
    | @succeed claim now later _ howned => exact step_release howned (by decide)
    | @fail claim error permanent now later _ howned =>
        obtain ⟨status, at', message, heq, hstatus⟩ := failedRow_spec error permanent later r
        rw [heq]
        exact step_release howned (ne_running_of_outcome hstatus)
    | @recover now hexpired =>
        obtain ⟨status, at', message, heq, hstatus⟩ := recoveredRow_spec now r
        have hnew : (unlockedRow status at' message now r).lease = ⟨r.attemptCount, false⟩ :=
          lease_of_ne (ne_running_of_outcome hstatus)
        rw [heq, lease_of_running (isExpired_status hexpired), hnew]
        exact .revoke

theorem write_mono (log log' own : List HermesEntry) (r : HermesFetchJob)
    (w : Write HermesFetchJob HermesEntry) (hsub : ∀ e ∈ log, e ∈ log')
    (hw : HermesWrite log own r w) : HermesWrite log' own r w := by
  cases hw with
  | claim hdue => exact .claim hdue
  | abandon hown => exact .abandon hown
  | succeed hclaim howned => exact .succeed (hsub _ hclaim) howned
  | fail hclaim howned => exact .fail (hsub _ hclaim) howned
  | recover hexpired => exact .recover hexpired

/-- **`claim_next_running` is a step**: what it selects among the jobs nobody has
locked it may claim. -/
theorem claim_next {workerId : String} {now expires : Time} {t : Nat}
    {W : World HermesFetchJob HermesEntry} (hopen : W.txs t = some [])
    {unlocked : List HermesFetchJob}
    (hunlocked : ∀ r ∈ unlocked, r ∈ W.ledger.rows ∧ W.FreeFor key t (key r))
    (hnext : nextJob now unlocked = some r) :
    HermesStep W ⟨W.ledger, Slots.put W.txs t
      ([] ++ [⟨claimedRow workerId now expires r, .claimed (claimedRow workerId now expires r)⟩])⟩ := by
  have hr := (List.mem_insertionSort _).mp (List.mem_of_head? hnext)
  obtain ⟨hmem, hdue⟩ := List.mem_filter.mp hr
  obtain ⟨hrow, hfree⟩ := hunlocked r hmem
  exact .write hopen hfree ⟨r, hrow, rfl, .claim hdue⟩

end HermesFetchJob

/-! ## Whole runs -/

abbrev HermesLedger := Ledger HermesFetchJob HermesEntry

abbrev HermesLedger.Step := Ledger.Step HermesFetchJob.key HermesFetchJob.Fresh HermesWrite

section Ledger

variable {L : HermesLedger}

theorem HermesEntry.eq_claimed {e : HermesEntry} {id : Uuid} {n : Nat}
    (h : e.leaseEntry = .acquire id n) :
    ∃ job, e = .claimed job ∧ job.id = id ∧ job.attemptCount = n := by
  cases e with
  | claimed job =>
      simp only [leaseEntry, Leases.Entry.acquire.injEq] at h
      exact ⟨job, rfl, h.1, h.2⟩
  | finalized => cases h
  | recovered => cases h

theorem HermesEntry.finalizes_iff {e : HermesEntry} {id : Uuid} {n : Nat} :
    e.finalizes id n = true ↔ e.leaseEntry = .release id n := by
  cases e with
  | claimed => simp [finalizes, leaseEntry]
  | finalized => simp [finalizes, leaseEntry]
  | recovered => simp [finalizes, leaseEntry]

/-- An attempt of a job is finalised at most once. -/
theorem HermesLedger.finalized_once
    (hrun : Relation.ReflTransGen HermesLedger.Step ⟨[], []⟩ L) (id : Uuid) (n : Nat) :
    L.log.countP (HermesEntry.finalizes id n) ≤ 1 := by
  have htrace := (HermesFetchJob.leased.traces hrun).2 id
  have hcount : L.log.countP (HermesEntry.finalizes id n) =
      (L.log.map HermesEntry.leaseEntry).count (.release id n) := by
    unfold List.count
    rw [List.countP_map]
    apply List.countP_congr
    intro e _
    rw [HermesEntry.finalizes_iff]
    simp
  rw [hcount]
  exact htrace.release_once n

/-- An attempt of a job is claimed once. -/
theorem HermesLedger.claimed_once (hrun : Relation.ReflTransGen HermesLedger.Step ⟨[], []⟩ L)
    {a b : HermesFetchJob} (ha : .claimed a ∈ L.log) (hb : .claimed b ∈ L.log) (hid : a.id = b.id)
    (hattempt : a.attemptCount = b.attemptCount) : a = b := by
  have htrace := (HermesFetchJob.leased.traces hrun).2 a.id
  have hsame : (HermesEntry.claimed a).leaseEntry = (HermesEntry.claimed b).leaseEntry := by
    simp only [HermesEntry.leaseEntry, hid, hattempt]
  have heq := eq_of_count_map_le_one ha hb hsame (htrace.acquire_once _)
  simpa using heq

/-- A finalisation takes effect only while its claim stands. -/
theorem HermesLedger.finalized_stands
    (hrun : Relation.ReflTransGen HermesLedger.Step ⟨[], []⟩ L) {before after : List HermesEntry}
    {claim : HermesFetchJob} {status : HermesFetchJobStatus}
    (hlog : L.log = before ++ .finalized claim status :: after) : ClaimStands before claim := by
  have htrace := (HermesFetchJob.leased.traces hrun).2 claim.id
  obtain ⟨older, x, newer, rfl, hx, hnewer⟩ :=
    latest_of_release (e := .finalized claim status) htrace.fenced hlog rfl
  obtain ⟨job, rfl, hid, hattempt⟩ := HermesEntry.eq_claimed hx
  have hclaimed : HermesEntry.claimed claim ∈ older ++ .claimed job :: newer := by
    refine Ledger.log_rule (P := fun log e => ∀ c s, e = .finalized c s → .claimed c ∈ log) ?_ hrun
      _ _ _ hlog claim status rfl
    intro log own r w hown hw c s he
    cases hw with
    | claim => cases he
    | abandon hown' =>
        cases he
        rw [hown'] at hown
        exact hown.subset (List.mem_singleton.mpr rfl)
    | succeed hclaim _ =>
        cases he
        exact hclaim
    | fail hclaim _ =>
        cases he
        exact hclaim
    | recover => cases he
  have heq : job = claim := by
    apply HermesLedger.claimed_once hrun _ _ hid hattempt
    · rw [hlog]
      simp
    · rw [hlog]
      exact List.mem_append_left _ hclaimed
  subst heq
  exact ⟨older, newer, rfl, hnewer⟩

end Ledger

/-- **Hermes leases are safe.**  However claims, executions, finalisations, crashes
and recoveries of any number of workers interleave: an attempt of a job is
finalised at most once, a finalisation takes effect only when neither a recovery
nor another claim has touched the job since its own claim, attempts stay within
their number, and a job is RUNNING exactly when its lock owner and lock time are
set. -/
theorem hermes_leases_are_safe {W : World HermesFetchJob HermesEntry}
    (hrun : Relation.ReflTransGen HermesStep (World.idle ⟨[], []⟩) W) :
    (∀ id attempt, W.ledger.log.countP (HermesEntry.finalizes id attempt) ≤ 1) ∧
    (∀ before claim status after,
      W.ledger.log = before ++ .finalized claim status :: after → ClaimStands before claim) ∧
    ∀ r ∈ W.ledger.rows, r.attemptCount ≤ r.maxAttempts ∧
      (r.status = .running ↔ r.lockedBy.isSome ∧ r.lockedAt.isSome) := by
  obtain ⟨-, hledger⟩ := World.serialises HermesFetchJob.write_mono hrun (World.inv_idle _)
  refine ⟨HermesLedger.finalized_once hledger, ?_, ?_⟩
  · intro before claim status after hlog
    exact HermesLedger.finalized_stands hledger hlog
  · intro r hr
    have hsound : r.Sound := (Ledger.rows_rule (P := HermesFetchJob.Sound)
      (Q := fun e => ∀ job, e = .claimed job → job.Sound) (fun _ => HermesFetchJob.sound_fresh)
      (fun _ _ _ _ => HermesFetchJob.write_sound) hledger).1 r hr
    refine ⟨hsound.attempts, ?_, ?_⟩
    · intro hrunning
      exact ⟨hsound.owner.mp hrunning, hsound.since.mp hrunning⟩
    · intro hlocked
      exact hsound.owner.mpr hlocked.1

/-- A worker claims a job whose target is gone and gives it up at once. -/
theorem hermes_leases_are_safe_abandoned : ∃ W : World HermesFetchJob HermesEntry,
    (∃ r ∈ W.ledger.rows, r.status = .failed) ∧
    ∀ before claim status after,
      W.ledger.log = before ++ .finalized claim status :: after → ClaimStands before claim := by
  let job : HermesFetchJob :=
    ⟨1, 2, .queued, 100, 0, 3, none, none, none, none, none, none, none, 7⟩
  let claim : HermesFetchJob := job.claimedRow "hermes-worker" 8 20
  let L : HermesLedger := ⟨[job], []⟩
  have hinsert : HermesStep (World.idle ⟨[], []⟩) (World.idle L) :=
    .insert (by decide) fun x hx => by cases hx
  have htransaction : Relation.ReflTransGen HermesStep (World.idle L) (World.idle
      (L.applyAll HermesFetchJob.key
        [⟨claim, .claimed claim⟩, ⟨claim.abandonedRow 9, .finalized claim .failed⟩])) :=
    World.run_alone ⟨⟨job, List.mem_singleton.mpr rfl, rfl, .claim (by decide)⟩,
      ⟨claim, List.mem_singleton.mpr rfl, rfl, .abandon rfl⟩, trivial⟩
  obtain ⟨-, hstands, -⟩ := hermes_leases_are_safe (.head hinsert htransaction)
  exact ⟨_, ⟨_, List.mem_singleton.mpr rfl, rfl⟩, hstands⟩

end Atlas
