import Atlas.Lib.Overtaking
import Atlas.System
import Atlas.TenantSystem

/-!
# Closing a tenant ingestion run

`SubmitTenantClaimsBatch` and `CompleteTenantIngestionRun` check by a read that the
run is RUNNING and write later without a lock or a status predicate.  A batch that
read before a completion committed still adds its claims to the closed run, and a
second completion overwrites the status and is metered again.

The calls on one run are followed from the moment it was opened.
-/

namespace Atlas

open Outcome Rows

namespace TenantDb

/-! ## What the writes do to a run -/

/-- The status of a run. -/
def runStatus (s : TenantDb) (tenantId runId : Uuid) : Option TenantIngestionRunStatus :=
  (s.getRun tenantId runId).map TenantIngestionRun.status

/-- The claims of a run. -/
def claimsOfRun (s : TenantDb) (runId : Uuid) : List TenantClaim :=
  s.claims.filter fun c => c.tenantIngestionRunId = some runId

/-- The number of times the completion of a run was metered. -/
def completionsOfRun (s : TenantDb) (runId : Uuid) : Nat :=
  s.usageEvents.countP fun u =>
    u.metricKind = .tenantIngestionRunCompleted ∧ u.resourceId = some runId

variable {s : TenantDb}

theorem runStatus_writeBatch (s : TenantDb) (tx : BatchTx) (tenantId runId : Uuid) :
    (s.writeBatch tx).runStatus tenantId runId = s.runStatus tenantId runId := rfl

/-- A batch adds its claims to its run. -/
theorem claimsOfRun_writeBatch (s : TenantDb) (tx : BatchTx) :
    ∃ rows, rows.length = tx.claims.length ∧
      (s.writeBatch tx).claimsOfRun tx.run.id = s.claimsOfRun tx.run.id ++ rows := by
  refine ⟨tx.claims.zipIdx.map fun p => tenantClaim tx.run (s.nextId + p.2) p.1, by simp, ?_⟩
  have hrows : ∀ c ∈ tx.claims.zipIdx.map fun p => tenantClaim tx.run (s.nextId + p.2) p.1,
      c.tenantIngestionRunId = some tx.run.id := by
    intro c hc
    obtain ⟨p, -, rfl⟩ := List.mem_map.mp hc
    rfl
  unfold claimsOfRun writeBatch meter
  rw [List.filter_append]
  congr 1
  apply List.filter_eq_self.mpr
  intro c hc
  simpa using hrows c hc

theorem completionsOfRun_meter_other (s : TenantDb) {metricKind : MetricKind}
    (hne : metricKind ≠ .tenantIngestionRunCompleted) (tenantId userId resourceId : Option Uuid)
    (quantity : Nat) (clock : Nat → Time) (runId : Uuid) :
    (s.meter metricKind tenantId userId resourceId quantity clock).completionsOfRun runId =
      s.completionsOfRun runId := by
  unfold completionsOfRun meter record
  rw [List.countP_append, Nat.add_eq_left, List.countP_eq_zero]
  intro u hu
  obtain ⟨i, -, rfl⟩ := List.mem_map.mp hu
  simp [hne]

theorem completionsOfRun_writeBatch (s : TenantDb) (tx : BatchTx) (runId : Uuid) :
    (s.writeBatch tx).completionsOfRun runId = s.completionsOfRun runId := by
  unfold writeBatch
  dsimp only
  rw [completionsOfRun_meter_other _ (by decide)]
  rfl

/-- A completion writes the status whatever it was. -/
theorem runStatus_writeCompletion (s : TenantDb) (tx : CompletionTx) :
    (s.writeCompletion tx).runStatus tx.run.tenantId tx.run.id =
      (s.runStatus tx.run.tenantId tx.run.id).map fun _ => tx.finalStatus := by
  show ((updateWhere _ _ s.ingestionRuns).find? _).map _ = _
  rw [find?_updateWhere]
  · unfold runStatus getRun
    rw [Option.map_map, Option.map_map]
    cases hrun : s.ingestionRuns.find? fun r => r.id = tx.run.id ∧ r.tenantId = tx.run.tenantId with
    | none => rfl
    | some r =>
        have hfound := List.find?_some hrun
        simp only [Option.map_some, Function.comp_apply, hfound, if_true]
  · intro r _
    rfl

theorem claimsOfRun_writeCompletion (s : TenantDb) (tx : CompletionTx) (runId : Uuid) :
    (s.writeCompletion tx).claimsOfRun runId = s.claimsOfRun runId := rfl

/-- A completion is metered once. -/
theorem completionsOfRun_writeCompletion (s : TenantDb) (tx : CompletionTx) :
    (s.writeCompletion tx).completionsOfRun tx.run.id = s.completionsOfRun tx.run.id + 1 := by
  unfold completionsOfRun writeCompletion meter record
  rw [List.countP_append]
  simp [updateRunStatus]

end TenantDb

/-! ## The calls on one run -/

/-- A committed completion: the status it gave the run and the claims the run had. -/
structure RunClosing where
  status : TenantIngestionRunStatus
  claims : List TenantClaim

/-- The store and the completions committed on the run, oldest first. -/
structure RunBoard (tenantId runId : Uuid) where
  db : TenantDb
  closings : List RunClosing
  closed : ∀ c ∈ closings, c.status ≠ .running
  latest : db.runStatus tenantId runId =
    some ((closings.getLast?.map RunClosing.status).getD .running)

/-- What an open call is about to commit: claims, a completion, or something that
leaves the run as it is. -/
inductive RunTx (tenantId runId : Uuid) where
  | batch (tx : TenantDb.BatchTx) (run : tx.run.id = runId ∧ tx.run.tenantId = tenantId)
      (claims : tx.claims ≠ [])
  | complete (tx : TenantDb.CompletionTx) (run : tx.run.id = runId ∧ tx.run.tenantId = tenantId)
      (final : tx.finalStatus ≠ .running)
  | other (db : TenantDb)

/-- The calls on the run, and any others. -/
inductive RunRequest where
  | submit (input : TenantDb.SubmitTenantClaimsBatchInput)
  | complete (input : TenantDb.CompleteTenantIngestionRunInput)
  | other (db : TenantDb)

namespace RunBoard

variable {tenantId runId : Uuid}

/-- The run is a one-way door: it has the status and the claims that every
completion gave it, and its completion was metered once if it has left RUNNING. -/
structure OneWay (b : RunBoard tenantId runId) : Prop where
  settled : ∀ c ∈ b.closings, b.db.runStatus tenantId runId = some c.status ∧
    b.db.claimsOfRun runId = c.claims
  metered : b.db.completionsOfRun runId =
    if b.db.runStatus tenantId runId = some .running then 0 else 1

/-- The read of a batch for this run, if it goes on. -/
def readSubmit (b : RunBoard tenantId runId) (input : TenantDb.SubmitTenantClaimsBatchInput) :
    Option (Overtaking.Call (RunTx tenantId runId)) :=
  if hinput : input.runId = runId ∧ input.caller.tenantId = tenantId then
    match h : b.db.readBatch input with
    | .ok (some tx) => some ⟨.batch tx
        (by
          obtain ⟨hrun, -, -, -⟩ := TenantDb.readBatch_some h
          obtain ⟨-, hid, htenant⟩ := TenantDb.mem_of_getRun hrun
          exact ⟨hid.trans hinput.1, htenant.trans hinput.2⟩)
        (by
          obtain ⟨-, -, hclaims, hne⟩ := TenantDb.readBatch_some h
          rwa [hclaims]), false⟩
    | _ => none
  else none

/-- The read of a completion of this run, if it goes on. -/
def readComplete (b : RunBoard tenantId runId) (input : TenantDb.CompleteTenantIngestionRunInput) :
    Option (Overtaking.Call (RunTx tenantId runId)) :=
  if hinput : input.runId = runId ∧ input.caller.tenantId = tenantId then
    match h : b.db.readCompletion input with
    | .ok tx => some ⟨.complete tx
        (by
          obtain ⟨hrun, -, -, -⟩ := TenantDb.readCompletion_ok h
          obtain ⟨-, hid, htenant⟩ := TenantDb.mem_of_getRun hrun
          exact ⟨hid.trans hinput.1, htenant.trans hinput.2⟩)
        (by
          obtain ⟨-, -, hfinal, hne⟩ := TenantDb.readCompletion_ok h
          rwa [hfinal]), false⟩
    | .error _ => none
  else none

/-- The read of a call. -/
def read (b : RunBoard tenantId runId) : RunRequest → Option (Overtaking.Call (RunTx tenantId runId))
  | .submit input => b.readSubmit input
  | .complete input => b.readComplete input
  | .other db => some ⟨.other db, false⟩

/-- Another commit, which leaves the run as it is. -/
def writeOther (b : RunBoard tenantId runId) (db : TenantDb) : Option (RunBoard tenantId runId) :=
  if h : db.runStatus tenantId runId = b.db.runStatus tenantId runId ∧
      db.claimsOfRun runId = b.db.claimsOfRun runId ∧
      db.completionsOfRun runId = b.db.completionsOfRun runId then
    some { b with db := db, latest := h.1.trans b.latest }
  else none

/-- The commit of a call. -/
def write (b : RunBoard tenantId runId) : RunTx tenantId runId → Option (RunBoard tenantId runId)
  | .batch tx _ _ =>
      some
        { b with
          db := b.db.writeBatch tx
          latest := by rw [TenantDb.runStatus_writeBatch, b.latest] }
  | .complete tx hrun hfinal =>
      some
        { db := b.db.writeCompletion tx
          closings := b.closings ++ [⟨tx.finalStatus, b.db.claimsOfRun runId⟩]
          closed := by
            intro c hc
            rcases List.mem_append.mp hc with hold | hnew
            · exact b.closed c hold
            · rw [List.mem_singleton.mp hnew]
              exact hfinal
          latest := by
            obtain ⟨rfl, rfl⟩ := hrun
            rw [TenantDb.runStatus_writeCompletion, b.latest]
            simp }
  | .other db => b.writeOther db

/-- What a call read no longer holds: the run is not RUNNING any more. -/
def stale (b : RunBoard tenantId runId) : RunTx tenantId runId → Prop
  | .other _ => False
  | _ => b.db.runStatus tenantId runId ≠ some .running

end RunBoard

/-- A completion makes what the other calls on the run have read out of date. -/
def RunTx.overtakes {tenantId runId : Uuid} : RunTx tenantId runId → RunTx tenantId runId → Bool
  | .complete _ _ _, .other _ => false
  | .complete _ _ _, _ => true
  | _, _ => false

/-- The calls on one run. -/
def runCalls (tenantId runId : Uuid) :
    Overtaking.Protocol (RunBoard tenantId runId) RunRequest (RunTx tenantId runId) where
  read := RunBoard.read
  write := RunBoard.write
  overtakes := RunTx.overtakes

section OneWay

variable {tenantId runId : Uuid} {b b' : RunBoard tenantId runId}

/-- A run that is RUNNING has not been completed. -/
theorem RunBoard.OneWay.closings_nil (hb : b.OneWay)
    (hrunning : b.db.runStatus tenantId runId = some .running) : b.closings = [] := by
  rw [List.eq_nil_iff_forall_not_mem]
  intro c hc
  have hst := (hb.settled c hc).1
  rw [hrunning, Option.some.injEq] at hst
  exact b.closed c hc hst.symm

/-- A run that is not RUNNING has been completed. -/
theorem RunBoard.exists_closing (h : b.db.runStatus tenantId runId ≠ some .running) :
    ∃ c, c ∈ b.closings := by
  apply List.exists_mem_of_ne_nil
  intro hnil
  apply h
  rw [b.latest, hnil]
  rfl

/-- A batch keeps the door shut exactly when the run is RUNNING. -/
theorem RunBoard.OneWay.batch_iff (hb : b.OneWay) {tx : TenantDb.BatchTx} (hid : tx.run.id = runId)
    (hne : tx.claims ≠ []) (hdb : b'.db = b.db.writeBatch tx) (hclosings : b'.closings = b.closings) :
    b'.OneWay ↔ b.db.runStatus tenantId runId = some .running := by
  have hstatus : b'.db.runStatus tenantId runId = b.db.runStatus tenantId runId := by
    rw [hdb, TenantDb.runStatus_writeBatch]
  constructor
  · intro hb'
    by_contra hclosed
    obtain ⟨c, hc⟩ := RunBoard.exists_closing hclosed
    have hbefore := (hb.settled c hc).2
    have hafter := (hb'.settled c (hclosings ▸ hc)).2
    obtain ⟨rows, hlength, hrows⟩ := TenantDb.claimsOfRun_writeBatch b.db tx
    rw [hid] at hrows
    rw [hdb, hrows, hbefore] at hafter
    have hnil : rows = [] := List.append_right_eq_self.mp hafter
    rw [hnil] at hlength
    exact hne (List.length_eq_zero_iff.mp hlength.symm)
  · intro hrunning
    refine ⟨?_, ?_⟩
    · rw [hclosings, hb.closings_nil hrunning]
      simp
    · rw [hstatus, hdb, TenantDb.completionsOfRun_writeBatch]
      exact hb.metered

/-- A completion keeps the door shut exactly when the run is RUNNING. -/
theorem RunBoard.OneWay.complete_iff (hb : b.OneWay) {tx : TenantDb.CompletionTx}
    (hrun : tx.run.id = runId ∧ tx.run.tenantId = tenantId) (hfinal : tx.finalStatus ≠ .running)
    (hdb : b'.db = b.db.writeCompletion tx)
    (hclosings : b'.closings = b.closings ++ [⟨tx.finalStatus, b.db.claimsOfRun runId⟩]) :
    b'.OneWay ↔ b.db.runStatus tenantId runId = some .running := by
  have hstatus : b'.db.runStatus tenantId runId = some tx.finalStatus := by
    rw [b'.latest, hclosings]
    simp
  have hcount : b'.db.completionsOfRun runId = b.db.completionsOfRun runId + 1 := by
    have hadd := TenantDb.completionsOfRun_writeCompletion b.db tx
    rwa [hrun.1, ← hdb] at hadd
  have hdone : ¬ b'.db.runStatus tenantId runId = some .running := by
    rw [hstatus, Option.some.injEq]
    exact hfinal
  constructor
  · intro hb'
    by_contra hclosed
    have hbefore := hb.metered
    have hafter := hb'.metered
    rw [if_neg hclosed] at hbefore
    rw [if_neg hdone, hcount, hbefore] at hafter
    cases hafter
  · intro hrunning
    have hbefore := hb.metered
    rw [if_pos hrunning] at hbefore
    refine ⟨?_, ?_⟩
    · intro c hc
      rw [hclosings, hb.closings_nil hrunning, List.nil_append, List.mem_singleton] at hc
      rw [hc, hdb, TenantDb.claimsOfRun_writeCompletion, ← hdb]
      exact ⟨hstatus, rfl⟩
    · rw [if_neg hdone, hcount, hbefore]

/-- What a call reads on the run is that it is RUNNING. -/
theorem RunBoard.read_stale {req : RunRequest} {c : Overtaking.Call (RunTx tenantId runId)}
    (h : b.read req = some c) : c.overtaken = true ↔ b.stale c.tx := by
  cases req with
  | submit input =>
      change b.readSubmit input = some c at h
      unfold readSubmit at h
      split at h
      · rename_i hinput
        split at h
        · rename_i tx hread
          cases h
          obtain ⟨hrun, hrunning, -, -⟩ := TenantDb.readBatch_some hread
          rw [hinput.1, hinput.2] at hrun
          simp [stale, TenantDb.runStatus, hrun, hrunning]
        · cases h
      · cases h
  | complete input =>
      change b.readComplete input = some c at h
      unfold readComplete at h
      split at h
      · rename_i hinput
        split at h
        · rename_i tx hread
          cases h
          obtain ⟨hrun, hrunning, -, -⟩ := TenantDb.readCompletion_ok hread
          rw [hinput.1, hinput.2] at hrun
          simp [stale, TenantDb.runStatus, hrun, hrunning]
        · cases h
      · cases h
  | other db =>
      cases h
      simp [stale]

theorem RunBoard.writeOther_some {db : TenantDb} (h : b.writeOther db = some b') :
    b'.closings = b.closings ∧ b'.db.runStatus tenantId runId = b.db.runStatus tenantId runId ∧
      b'.db.claimsOfRun runId = b.db.claimsOfRun runId ∧
      b'.db.completionsOfRun runId = b.db.completionsOfRun runId := by
  unfold writeOther at h
  split at h
  · rename_i hsame
    cases h
    exact ⟨rfl, hsame⟩
  · cases h

/-- What makes a call on the run too late is a completion. -/
theorem runCalls_tracks (tenantId runId : Uuid) :
    (runCalls tenantId runId).Tracks RunBoard.OneWay RunBoard.stale where
  read _ h := RunBoard.read_stale h
  write {b tx b'} hb h := by
    cases tx with
    | batch tx hrun hne =>
        have hwritten := Option.some.inj h
        rw [hb.batch_iff hrun.1 hne (by rw [← hwritten]) (by rw [← hwritten])]
        simp [RunBoard.stale]
    | complete tx hrun hfinal =>
        have hwritten := Option.some.inj h
        rw [hb.complete_iff hrun hfinal (by rw [← hwritten]) (by rw [← hwritten])]
        simp [RunBoard.stale]
    | other db =>
        obtain ⟨hclosings, hstatus, hclaims, hcount⟩ := RunBoard.writeOther_some h
        have hb' : b'.OneWay := by
          refine ⟨?_, ?_⟩
          · rw [hclosings, hstatus, hclaims]
            exact hb.settled
          · rw [hcount, hstatus]
            exact hb.metered
        simp [RunBoard.stale, hb']
  overtakes {b tx b'} hb h _ tx' := by
    show _ ↔ _ ∨ tx.overtakes tx' = true
    cases tx with
    | batch tx hrun hne =>
        cases h
        cases tx' <;> simp [RunBoard.stale, RunTx.overtakes, TenantDb.runStatus_writeBatch]
    | complete tx hrun hfinal =>
        have hstatus : b'.db.runStatus tenantId runId = some tx.finalStatus := by
          cases h
          rw [RunBoard.latest]
          simp
        cases tx' <;> simp [RunBoard.stale, RunTx.overtakes, hstatus, hfinal]
    | other db =>
        obtain ⟨-, hstatus, -, -⟩ := RunBoard.writeOther_some h
        cases tx' <;> simp [RunBoard.stale, RunTx.overtakes, hstatus]

end OneWay

namespace TenantDb

variable {s s' : TenantDb} {input : OpenTenantIngestionRunInput} {run : TenantIngestionRun}

/-- A run that was just opened is RUNNING. -/
theorem runStatus_opened (hs : s.Inv) (h : s.openTenantIngestionRun input = .ok (run, s')) :
    s'.runStatus run.tenantId run.id = some .running := by
  obtain ⟨hrun, rfl⟩ := openTenantIngestionRun_ok h
  have hnew : s.ingestionRuns.find? (fun r => r.id = run.id ∧ r.tenantId = run.tenantId) = none := by
    rw [List.find?_eq_none]
    intro r hr
    have hlt := hs.runs r hr
    have hne : r.id ≠ run.id := by
      rw [hrun]
      exact hlt.ne
    simp [hne]
  unfold runStatus getRun
  rw [List.find?_append, hnew]
  simp [hrun]

/-- Its completion has not been metered. -/
theorem completionsOfRun_opened (hs : s.Inv) (h : s.openTenantIngestionRun input = .ok (run, s')) :
    s'.completionsOfRun run.id = 0 := by
  obtain ⟨hrun, rfl⟩ := openTenantIngestionRun_ok h
  unfold completionsOfRun
  rw [List.countP_eq_zero]
  intro u hu
  have hne : u.resourceId ≠ some run.id := by
    intro heq
    have hlt := hs.resources u hu run.id heq
    rw [hrun] at hlt
    exact lt_irrefl _ hlt
  simp [hne]

end TenantDb

/-- The board of a run that was just opened. -/
def RunBoard.opened [PyText] [TenantDb.Deidentification] {s s' : TenantDb} (hs : s.Reachable)
    {input : TenantDb.OpenTenantIngestionRunInput} {run : TenantIngestionRun}
    (h : s.openTenantIngestionRun input = .ok (run, s')) : RunBoard run.tenantId run.id where
  db := s'
  closings := []
  closed := by simp
  latest := TenantDb.runStatus_opened hs.inv h

/-- **One-way door.**  In a run of any calls on an ingestion run that was just
opened, the run is a one-way door in every state exactly when no call goes through
that a completion has overtaken since the call read the run. -/
theorem ingestion_run_one_way_iff [PyText] [TenantDb.Deidentification] {s s' : TenantDb}
    (hs : s.Reachable) {input : TenantDb.OpenTenantIngestionRunInput} {run : TenantIngestionRun}
    (h : s.openTenantIngestionRun input = .ok (run, s')) (acts : List (Overtaking.Act RunRequest)) :
    Runs.EveryState (runCalls run.tenantId run.id).step (fun w => w.state.OneWay)
        (.start (RunBoard.opened hs h)) acts ↔
      Runs.EveryStep (runCalls run.tenantId run.id).step (runCalls run.tenantId run.id).InTime
        (.start (RunBoard.opened hs h)) acts := by
  apply (runCalls_tracks run.tenantId run.id).everyState_iff
  refine ⟨by simp [RunBoard.opened], ?_⟩
  show s'.completionsOfRun run.id = if s'.runStatus run.tenantId run.id = some .running then 0 else 1
  rw [if_pos (TenantDb.runStatus_opened hs.inv h)]
  exact TenantDb.completionsOfRun_opened hs.inv h

/-! ## A batch in a closed run -/

/-- An operator with one source, beside a store with one accident, event 5. -/
def operatorAlone : TenantDb :=
  TenantDb.after (after fourSources [operatorReport 0 100 none none 1 1]) [] []
    [.registerSource ⟨⟨70, 70, .owner⟩, "FDM"⟩]

theorem operatorAlone_reachable : operatorAlone.Reachable := ⟨_, _, _, _, rfl⟩

/-- The operator's run has id 1. -/
def operatorRun : TenantIngestionRun := ⟨1, 70, 0, .running, none⟩

def operatorRunOpen : TenantDb :=
  { operatorAlone with nextId := 2, ingestionRuns := [operatorRun] }

theorem operatorRun_opened :
    operatorAlone.openTenantIngestionRun ⟨⟨70, 70, .owner⟩, 0⟩ = .ok (operatorRun, operatorRunOpen) :=
  rfl

def exceedance : RunRequest :=
  .submit ⟨⟨70, 70, .member⟩, 1, [⟨5, "sink_rate", .num (.int 1200), .foqa, none⟩], fun _ => 0⟩

def runSucceeds : RunRequest := .complete ⟨⟨70, 70, .owner⟩, 1, .succeeded, fun _ => 0⟩

def operatorBoard : RunBoard 70 1 := .opened operatorAlone_reachable operatorRun_opened

/-- A batch and then the completion. -/
theorem exceedance_then_success :
    Runs.EveryState (runCalls 70 1).step (fun w => w.state.OneWay) (.start operatorBoard)
      [.read 0 exceedance, .write 0, .read 1 runSucceeds, .write 1] := by
  refine (ingestion_run_one_way_iff operatorAlone_reachable operatorRun_opened _).mpr ?_
  simp only [Runs.EveryStep.cons]
  refine ⟨trivial, ?_, trivial, ?_, by simp [Runs.EveryStep]⟩
  · apply Overtaking.inTime_write
    decide +kernel
  · apply Overtaking.inTime_write
    decide +kernel

/-- The batch reads the run before the completion commits, and writes after it. -/
def lateBatch : List (Overtaking.Act RunRequest) :=
  [.read 0 exceedance, .read 1 runSucceeds, .write 1, .write 0]

/-- The claim is added to a run that was closed without it. -/
theorem late_batch_in_closed_run :
    ¬ Runs.EveryState (runCalls 70 1).step (fun w => w.state.OneWay) (.start operatorBoard)
      lateBatch := by
  intro h
  have hlast := (h lateBatch (List.prefix_refl _)).settled
  have hclosings : (Runs.run (runCalls 70 1).step (.start operatorBoard)
      lateBatch).state.closings.map (fun c => c.claims.length) = [0] := by
    decide +kernel
  have hclaims : ((Runs.run (runCalls 70 1).step (.start operatorBoard)
      lateBatch).state.db.claimsOfRun 1).length = 1 := by
    decide +kernel
  cases hcs : (Runs.run (runCalls 70 1).step (.start operatorBoard) lateBatch).state.closings with
  | nil => simp [hcs] at hclosings
  | cons c cs =>
      rw [hcs] at hclosings hlast
      have hnone : c.claims.length = 0 := by
        simp only [List.map_cons, List.cons.injEq] at hclosings
        exact hclosings.1
      rw [(hlast c (by simp)).2, hnone] at hclaims
      cases hclaims

end Atlas
