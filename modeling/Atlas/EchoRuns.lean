import Atlas.Lib.Overtaking
import Atlas.TenantSystem

/-!
# Metering an Echo run twice

`mark_complete` is fenced on PENDING, but the run goes on to meter itself and to
commit whether or not the statement changed a row.  Two executions of one result
that both read PENDING are both metered; and so is an execution whose result was
marked FAILED in the meantime.

The executions of one result are followed from the request on.  The outbox worker
looks at the result before it starts an execution, which then reads the result
again; only that second read matters here.  A dead-lettered delivery marks the
result FAILED without a read.
-/

namespace Atlas

open Outcome Rows

namespace TenantDb

/-! ## What the writes do to a result -/

/-- The status of a result. -/
def resultStatus (s : TenantDb) (tenantId resultId : Uuid) : Option CrossrefResultStatus :=
  (s.getCrossrefResult tenantId resultId).map TenantCrossrefResult.status

/-- The number of times a run of the result was metered. -/
def echoRunsOf (s : TenantDb) (resultId : Uuid) : Nat :=
  s.usageEvents.countP fun u => u.metricKind = .echoCrossrefRun ∧ u.resourceId = some resultId

/-- The status after an update that is fenced on PENDING. -/
def fencedStatus (new : CrossrefResultStatus) : CrossrefResultStatus → CrossrefResultStatus
  | .pending => new
  | old => old

theorem fencedStatus_of_ne {new old : CrossrefResultStatus} (h : old ≠ .pending) :
    fencedStatus new old = old := by
  cases old with
  | pending => exact absurd rfl h
  | complete => rfl
  | failed => rfl

theorem resultStatus_updatePending (s : TenantDb) (tenantId resultId : Uuid)
    {f : TenantCrossrefResult → TenantCrossrefResult} {new : CrossrefResultStatus}
    (hid : ∀ r, isResult tenantId resultId (f r) = isResult tenantId resultId r)
    (hstatus : ∀ r, (f r).status = new) :
    (s.updatePending tenantId resultId f).resultStatus tenantId resultId =
      (s.resultStatus tenantId resultId).map (fencedStatus new) := by
  unfold resultStatus getCrossrefResult updatePending
  dsimp only
  rw [find?_updateWhere _ fun r _ => hid r, Option.map_map, Option.map_map]
  cases hfound : s.crossrefResults.find? (isResult tenantId resultId) with
  | none => rfl
  | some r =>
      have hr := List.find?_some hfound
      cases hst : r.status <;> simp [hr, hst, hstatus, fencedStatus]

variable [PyText]

/-- The status after a run or a failure was committed. -/
def EchoTx.status : EchoTx → CrossrefResultStatus
  | .complete _ _ _ _ => .complete
  | .fail _ _ => .failed

/-- Both commits change the status of a PENDING result only. -/
theorem resultStatus_writeEcho (s : TenantDb) (tenantId resultId : Uuid) (tx : EchoTx) :
    (s.writeEcho tenantId resultId tx).resultStatus tenantId resultId =
      (s.resultStatus tenantId resultId).map (fencedStatus tx.status) := by
  cases tx with
  | fail detail now =>
      exact resultStatus_updatePending s tenantId resultId (fun _ => rfl) fun _ => rfl
  | complete matched upsertFails now clock =>
      obtain ⟨n, signals, evidence, -, heq⟩ := upsertArgusSignals_eq tenantId resultId upsertFails now
        (s.markComplete tenantId resultId matched now) (strongMatches matched)
      unfold writeEcho
      dsimp only
      rw [heq]
      exact resultStatus_updatePending s tenantId resultId (fun _ => rfl) fun _ => rfl

/-- A run is metered whether or not it completed the result. -/
theorem echoRunsOf_complete (s : TenantDb) (tenantId resultId : Uuid) (matched : List PrecedentMatch)
    (upsertFails : Uuid → Bool) (now : Time) (clock : Nat → Time) :
    (s.writeEcho tenantId resultId (.complete matched upsertFails now clock)).echoRunsOf resultId =
      s.echoRunsOf resultId + 1 := by
  obtain ⟨n, signals, evidence, -, heq⟩ := upsertArgusSignals_eq tenantId resultId upsertFails now
    (s.markComplete tenantId resultId matched now) (strongMatches matched)
  unfold writeEcho
  dsimp only
  rw [heq]
  unfold echoRunsOf meter record
  rw [List.countP_append]
  simp [markComplete, updatePending]

theorem echoRunsOf_fail (s : TenantDb) (tenantId resultId : Uuid) (detail : String) (now : Time) :
    (s.writeEcho tenantId resultId (.fail detail now)).echoRunsOf resultId = s.echoRunsOf resultId :=
  rfl

end TenantDb

/-! ## The executions of one result -/

/-- The store and the transitions of the result out of PENDING, oldest first. -/
structure EchoBoard (tenantId resultId : Uuid) where
  db : TenantDb
  transitions : List CrossrefResultStatus
  terminal : ∀ t ∈ transitions, t ≠ .pending
  latest : db.resultStatus tenantId resultId = some (transitions.getLast?.getD .pending)

/-- What an open call is about to commit: a run or a failure, or something that
leaves the result as it is. -/
inductive EchoBoardTx where
  | run (tx : TenantDb.EchoTx)
  | other (db : TenantDb)

/-- An execution of the result, the marking of a dead-lettered delivery, and any
other call. -/
inductive EchoBoardRequest where
  | run (input : TenantDb.RunEchoCrossReferenceInput)
  | deadLetter (detail : String) (now : Time)
  | other (db : TenantDb)

namespace EchoBoard

variable {tenantId resultId : Uuid}

/-- The result leaves PENDING at most once, and a run of it is metered exactly if it
is COMPLETE. -/
structure MeteredOnce (b : EchoBoard tenantId resultId) : Prop where
  once : b.transitions.length ≤ 1
  metered : b.db.echoRunsOf resultId =
    if b.db.resultStatus tenantId resultId = some .complete then 1 else 0

/-- The read of a call on this result, if it goes on. -/
def read (b : EchoBoard tenantId resultId) : EchoBoardRequest → Option (Overtaking.Call EchoBoardTx)
  | .run input =>
      if input.crossrefResultId = resultId ∧ input.tenantId = tenantId then
        (b.db.readEcho input).toOption.map fun tx => ⟨.run tx, false⟩
      else none
  | .deadLetter detail now => some ⟨.run (.fail detail now), false⟩
  | .other db => some ⟨.other db, false⟩

/-- Another commit, which leaves the result as it is. -/
def writeOther (b : EchoBoard tenantId resultId) (db : TenantDb) :
    Option (EchoBoard tenantId resultId) :=
  if h : db.resultStatus tenantId resultId = b.db.resultStatus tenantId resultId ∧
      db.echoRunsOf resultId = b.db.echoRunsOf resultId then
    some { b with db := db, latest := h.1.trans b.latest }
  else none

/-- What makes a run too late: the result is not PENDING any more. -/
def stale (b : EchoBoard tenantId resultId) : EchoBoardTx → Prop
  | .run (.complete _ _ _ _) => b.db.resultStatus tenantId resultId ≠ some .pending
  | _ => False

/-- The status of the result. -/
def status (b : EchoBoard tenantId resultId) : CrossrefResultStatus :=
  b.transitions.getLast?.getD .pending

variable [PyText]

/-- The commit of a run or a failure: a transition if the result is PENDING. -/
def writeRun (b : EchoBoard tenantId resultId) (tx : TenantDb.EchoTx) : EchoBoard tenantId resultId where
  db := b.db.writeEcho tenantId resultId tx
  transitions := if b.status = .pending then b.transitions ++ [tx.status] else b.transitions
  terminal := by
    intro t ht
    split at ht
    · rcases List.mem_append.mp ht with hold | hnew
      · exact b.terminal t hold
      · rw [List.mem_singleton.mp hnew]
        cases tx <;> simp [TenantDb.EchoTx.status]
    · exact b.terminal t ht
  latest := by
    rw [TenantDb.resultStatus_writeEcho, b.latest, Option.map_some]
    change some (TenantDb.fencedStatus tx.status b.status) = _
    split
    · rename_i hpending
      simp [hpending, TenantDb.fencedStatus]
    · rename_i hne
      rw [TenantDb.fencedStatus_of_ne hne]
      rfl

/-- The commit of a call. -/
def write (b : EchoBoard tenantId resultId) : EchoBoardTx → Option (EchoBoard tenantId resultId)
  | .run tx => some (b.writeRun tx)
  | .other db => b.writeOther db

end EchoBoard

/-- A run or a failure makes what the other runs have read out of date. -/
def EchoBoardTx.overtakes : EchoBoardTx → EchoBoardTx → Bool
  | .run _, .run (.complete _ _ _ _) => true
  | _, _ => false

/-- The executions of one result. -/
def echoCalls [PyText] (tenantId resultId : Uuid) :
    Overtaking.Protocol (EchoBoard tenantId resultId) EchoBoardRequest EchoBoardTx where
  read := EchoBoard.read
  write := EchoBoard.write
  overtakes := EchoBoardTx.overtakes

section MeteredOnce

variable {tenantId resultId : Uuid} {b b' : EchoBoard tenantId resultId}

theorem EchoBoard.resultStatus_eq (b : EchoBoard tenantId resultId) :
    b.db.resultStatus tenantId resultId = some b.status := b.latest

/-- A result that is PENDING has made no transition. -/
theorem EchoBoard.transitions_nil (hpending : b.status = .pending) : b.transitions = [] := by
  rcases List.eq_nil_or_concat b.transitions with hnil | ⟨ts, t, hts⟩
  · exact hnil
  · rw [List.concat_eq_append] at hts
    refine absurd ?_ (b.terminal t (by simp [hts]))
    rw [← hpending, status, hts]
    simp

/-- A PENDING result has not been metered. -/
theorem EchoBoard.MeteredOnce.unmetered (hb : b.MeteredOnce) (hpending : b.status = .pending) :
    b.db.echoRunsOf resultId = 0 := by
  have hcount := hb.metered
  rw [b.resultStatus_eq, hpending] at hcount
  simpa using hcount

theorem EchoBoard.writeOther_some {db : TenantDb} (h : b.writeOther db = some b') :
    b'.transitions = b.transitions ∧
      b'.db.resultStatus tenantId resultId = b.db.resultStatus tenantId resultId ∧
      b'.db.echoRunsOf resultId = b.db.echoRunsOf resultId := by
  unfold writeOther at h
  split at h
  · rename_i hsame
    cases h
    exact ⟨rfl, hsame⟩
  · cases h

/-- What an execution reads is that the result is PENDING. -/
theorem EchoBoard.read_stale {req : EchoBoardRequest} {c : Overtaking.Call EchoBoardTx}
    (h : b.read req = some c) : c.overtaken = true ↔ b.stale c.tx := by
  cases req with
  | run input =>
      simp only [read, Option.ite_none_right_eq_some, Option.map_eq_some_iff] at h
      obtain ⟨hinput, tx, hread, rfl⟩ := h
      cases hok : b.db.readEcho input with
      | error e => simp [hok, Except.toOption] at hread
      | ok tx' =>
          obtain ⟨result, hresult, hpending⟩ := TenantDb.readEcho_ok hok
          rw [hinput.1, hinput.2] at hresult
          cases tx <;> simp [stale, TenantDb.resultStatus, hresult, hpending]
  | deadLetter detail now =>
      cases h
      simp [stale]
  | other db =>
      cases h
      simp [stale]

variable [PyText]

theorem EchoBoard.status_writeRun (b : EchoBoard tenantId resultId) (tx : TenantDb.EchoTx) :
    (b.writeRun tx).status = TenantDb.fencedStatus tx.status b.status := by
  have h := (b.writeRun tx).resultStatus_eq
  change (b.db.writeEcho tenantId resultId tx).resultStatus tenantId resultId = _ at h
  rw [TenantDb.resultStatus_writeEcho, b.resultStatus_eq, Option.map_some, Option.some.injEq] at h
  exact h.symm

/-- Whoever commits on a PENDING result makes its first transition. -/
theorem EchoBoard.MeteredOnce.once_writeRun (hb : b.MeteredOnce) (tx : TenantDb.EchoTx) :
    (b.writeRun tx).transitions.length ≤ 1 := by
  change (if b.status = .pending then b.transitions ++ [tx.status] else b.transitions).length ≤ 1
  split
  · rename_i hpending
    rw [EchoBoard.transitions_nil hpending]
    simp
  · exact hb.once

/-- A failure keeps metering right. -/
theorem EchoBoard.MeteredOnce.fail (hb : b.MeteredOnce) (detail : String) (now : Time) :
    (b.writeRun (.fail detail now)).MeteredOnce := by
  refine ⟨hb.once_writeRun _, ?_⟩
  have hcount : (b.writeRun (.fail detail now)).db.echoRunsOf resultId = b.db.echoRunsOf resultId :=
    TenantDb.echoRunsOf_fail b.db tenantId resultId detail now
  rw [EchoBoard.resultStatus_eq, EchoBoard.status_writeRun, hcount]
  have hmetered := hb.metered
  rw [b.resultStatus_eq] at hmetered
  cases hst : b.status with
  | pending => simpa [TenantDb.fencedStatus, TenantDb.EchoTx.status, hst] using hmetered
  | complete => simpa [TenantDb.fencedStatus, hst] using hmetered
  | failed => simpa [TenantDb.fencedStatus, hst] using hmetered

/-- A run keeps metering right exactly when the result is PENDING. -/
theorem EchoBoard.MeteredOnce.complete_iff (hb : b.MeteredOnce) (matched : List PrecedentMatch)
    (upsertFails : Uuid → Bool) (now : Time) (clock : Nat → Time) :
    (b.writeRun (.complete matched upsertFails now clock)).MeteredOnce ↔ b.status = .pending := by
  have hcount : (b.writeRun (.complete matched upsertFails now clock)).db.echoRunsOf resultId =
      b.db.echoRunsOf resultId + 1 :=
    TenantDb.echoRunsOf_complete b.db tenantId resultId matched upsertFails now clock
  constructor
  · intro hb'
    by_contra hdone
    have hbefore := hb.metered
    have hafter := hb'.metered
    rw [EchoBoard.resultStatus_eq, EchoBoard.status_writeRun, hcount] at hafter
    rw [b.resultStatus_eq] at hbefore
    rw [TenantDb.fencedStatus_of_ne hdone, ← hbefore] at hafter
    exact absurd hafter (Nat.succ_ne_self _)
  · intro hpending
    refine ⟨hb.once_writeRun _, ?_⟩
    rw [EchoBoard.resultStatus_eq, EchoBoard.status_writeRun, hcount, hb.unmetered hpending, hpending]
    rfl

/-- What makes a run too late is that another run or a failure was committed. -/
theorem echoCalls_tracks (tenantId resultId : Uuid) :
    (echoCalls tenantId resultId).Tracks EchoBoard.MeteredOnce EchoBoard.stale where
  read _ h := EchoBoard.read_stale h
  write {b tx b'} hb h := by
    cases tx with
    | run tx =>
        cases h
        cases tx with
        | fail detail now => simp [EchoBoard.stale, hb.fail]
        | complete matched upsertFails now clock =>
            rw [hb.complete_iff, EchoBoard.stale, b.resultStatus_eq]
            simp
    | other db =>
        obtain ⟨htransitions, hstatus, hcount⟩ := EchoBoard.writeOther_some h
        have hb' : b'.MeteredOnce := by
          refine ⟨?_, ?_⟩
          · rw [htransitions]
            exact hb.once
          · rw [hcount, hstatus]
            exact hb.metered
        simp [EchoBoard.stale, hb']
  overtakes {b tx b'} hb h _ tx' := by
    show _ ↔ _ ∨ tx.overtakes tx' = true
    cases tx with
    | run tx =>
        cases h
        have hdone : (b.writeRun tx).db.resultStatus tenantId resultId ≠ some .pending := by
          rw [EchoBoard.resultStatus_eq, EchoBoard.status_writeRun, Ne, Option.some.injEq]
          cases tx <;> cases b.status <;> simp [TenantDb.fencedStatus, TenantDb.EchoTx.status]
        rcases tx' with (⟨_, _, _, _⟩ | ⟨_, _⟩) | _ <;>
          simp [EchoBoard.stale, EchoBoardTx.overtakes, hdone]
    | other db =>
        obtain ⟨-, hstatus, -⟩ := EchoBoard.writeOther_some h
        rcases tx' with (⟨_, _, _, _⟩ | ⟨_, _⟩) | _ <;>
          simp [EchoBoard.stale, EchoBoardTx.overtakes, hstatus]

end MeteredOnce

namespace TenantDb

variable {s s' : TenantDb} {input : RequestEchoCrossReferenceInput} {id : Uuid}

/-- A result that was just requested is PENDING. -/
theorem resultStatus_requested (hs : s.Inv) (h : s.requestEchoCrossReference input = .ok (id, s')) :
    s'.resultStatus input.caller.tenantId id = some .pending := by
  obtain ⟨rfl, rfl⟩ := requestEchoCrossReference_ok h
  have hnew : s.crossrefResults.find? (isResult input.caller.tenantId s.nextId) = none := by
    rw [List.find?_eq_none]
    intro r hr
    simp [isResult, (hs.results r hr).ne]
  unfold resultStatus getCrossrefResult
  rw [List.find?_append, hnew]
  simp [isResult]

/-- No run of it has been metered. -/
theorem echoRunsOf_requested (hs : s.Inv) (h : s.requestEchoCrossReference input = .ok (id, s')) :
    s'.echoRunsOf id = 0 := by
  obtain ⟨rfl, rfl⟩ := requestEchoCrossReference_ok h
  unfold echoRunsOf
  rw [List.countP_eq_zero]
  intro u hu
  have hne : u.resourceId ≠ some s.nextId := by
    intro heq
    exact lt_irrefl _ (hs.resources u hu s.nextId heq)
  simp [hne]

end TenantDb

/-- The board of a result that was just requested. -/
def EchoBoard.requested [PyText] [TenantDb.Deidentification] {s s' : TenantDb} (hs : s.Reachable)
    {input : TenantDb.RequestEchoCrossReferenceInput} {id : Uuid}
    (h : s.requestEchoCrossReference input = .ok (id, s')) : EchoBoard input.caller.tenantId id where
  db := s'
  transitions := []
  terminal := by simp
  latest := TenantDb.resultStatus_requested hs.inv h

/-- **Metering.**  In a run of any executions and failure markings of a result that
was just requested, beside any other calls, the result leaves PENDING at most once
and is metered once if it is COMPLETE and not at all otherwise, in every state,
exactly when no execution goes through on which another one or a failure was
committed since it read the result. -/
theorem echo_runs_metered_once_iff [PyText] [TenantDb.Deidentification] {s s' : TenantDb}
    (hs : s.Reachable) {input : TenantDb.RequestEchoCrossReferenceInput} {id : Uuid}
    (h : s.requestEchoCrossReference input = .ok (id, s'))
    (acts : List (Overtaking.Act EchoBoardRequest)) :
    Runs.EveryState (echoCalls input.caller.tenantId id).step (fun w => w.state.MeteredOnce)
        (.start (EchoBoard.requested hs h)) acts ↔
      Runs.EveryStep (echoCalls input.caller.tenantId id).step
        (echoCalls input.caller.tenantId id).InTime (.start (EchoBoard.requested hs h)) acts := by
  apply (echoCalls_tracks input.caller.tenantId id).everyState_iff
  refine ⟨by simp [EchoBoard.requested], ?_⟩
  show s'.echoRunsOf id = if s'.resultStatus input.caller.tenantId id = some .complete then 1 else 0
  rw [TenantDb.resultStatus_requested hs.inv h, TenantDb.echoRunsOf_requested hs.inv h]
  rfl

/-! ## Two executions of one result -/

/-- A tenant with one safety report, report 0. -/
def reportFiled : TenantDb := TenantDb.after (Db.empty []) [] [] [fatigueReport]

theorem reportFiled_reachable : reportFiled.Reachable := ⟨_, _, _, _, rfl⟩

/-- The store with the report. -/
def filedStore : TenantDb :=
  let empty := TenantDb.empty (Db.empty []) [] []
  { empty with
    nextId := 1
    safetyReports := [⟨0, 70, .asap, fatigueNarrative, true, none, 7⟩]
    usageEvents := [⟨.tenantReportFiled, some 70, some 7, some 0, 0⟩] }

/-- The result has id 1. -/
def echoPending : TenantDb :=
  { reportFiled with
    nextId := 3
    crossrefResults := [⟨1, 70, 0, .pending, [], none, none⟩]
    echoOutbox := [⟨2, 1, 70, 0⟩] }

theorem echoPending_requested :
    reportFiled.requestEchoCrossReference ⟨⟨70, 70, .owner⟩, 0⟩ = .ok (1, echoPending) := by
  have hfiled : reportFiled = filedStore := by
    simp only [reportFiled, TenantDb.after, Runs.run, List.foldl_cons, List.foldl_nil, TenantDb.step,
      fatigueReport, TenantDb.submitTenantSafetyReport, fatigueNarrative_accepted]
    rfl
  unfold echoPending
  rw [hfiled]
  rfl

def echoBoard : EchoBoard 70 1 := .requested reportFiled_reachable echoPending_requested

/-- An execution that finds no precedents. -/
def echoExecution : EchoBoardRequest :=
  .run ⟨70, 1, false, fun _ => .ok [], fun _ => false, 0, fun _ => 0⟩

/-- A delivery that runs the result, and one more that finds it COMPLETE. -/
theorem echo_run_then_duplicate :
    Runs.EveryState (echoCalls 70 1).step (fun w => w.state.MeteredOnce) (.start echoBoard)
      [.read 0 echoExecution, .write 0, .read 1 echoExecution, .write 1] := by
  refine (echo_runs_metered_once_iff reportFiled_reachable echoPending_requested _).mpr ?_
  simp only [Runs.EveryStep.cons]
  refine ⟨trivial, ?_, trivial, ?_, by simp [Runs.EveryStep]⟩
  · apply Overtaking.inTime_write
    decide +kernel
  · apply Overtaking.inTime_write
    decide +kernel

/-- Two deliveries read the result before either commits. -/
def echoTwice : List (Overtaking.Act EchoBoardRequest) :=
  [.read 0 echoExecution, .read 1 echoExecution, .write 0, .write 1]

/-- The result is metered twice. -/
theorem echo_run_metered_twice :
    ¬ Runs.EveryState (echoCalls 70 1).step (fun w => w.state.MeteredOnce) (.start echoBoard)
      echoTwice := by
  intro h
  have hlast := (h echoTwice (List.prefix_refl _)).metered
  have htwo : (Runs.run (echoCalls 70 1).step (.start echoBoard) echoTwice).state.db.echoRunsOf 1 = 2 := by
    decide +kernel
  rw [htwo] at hlast
  split at hlast
  · cases hlast
  · cases hlast

end Atlas
