import Atlas.Tenancy

/-!
# Echo cross-references

A tenant asks for a cross-reference of one of its safety reports with the public
corpus.  The request stores a PENDING result and queues its run.  The run matches
the report, stores the matches, raises an Argus signal for each strong one and
meters itself.

What a run reads and what it commits are two halves here.  What the profile, the
corpus and the matcher make of a narrative is an argument of the run.
-/

namespace Atlas

open Outcome Rows

namespace TenantDb

structure RequestEchoCrossReferenceInput where
  caller : Caller
  safetyReportId : Uuid
deriving DecidableEq, Repr

def getReport (s : TenantDb) (tenantId reportId : Uuid) : Option TenantSafetyReport :=
  s.safetyReports.find? fun r => r.id = reportId ∧ r.tenantId = tenantId

/-- The row has this tenant and this id. -/
def isResult (tenantId resultId : Uuid) (r : TenantCrossrefResult) : Bool :=
  r.id = resultId ∧ r.tenantId = tenantId

def getCrossrefResult (s : TenantDb) (tenantId resultId : Uuid) : Option TenantCrossrefResult :=
  s.crossrefResults.find? (isResult tenantId resultId)

/-- `RequestEchoCrossReference.execute`: the id of the PENDING result. -/
def requestEchoCrossReference (s : TenantDb) (input : RequestEchoCrossReferenceInput) :
    Except TenancyError (Uuid × TenantDb) := do
  requireSameTenant input.caller
  requireWriteRole input.caller
  let _ ← fromOption (s.getReport input.caller.tenantId input.safetyReportId) (.tenantNotFound
    ("Safety report " ++ toString input.safetyReportId ++ " not found in tenant " ++
      toString input.caller.tenantId))
  let (id, s) := s.uuid4
  let pending : TenantCrossrefResult :=
    ⟨id, input.caller.tenantId, input.safetyReportId, .pending, [], none, none⟩
  let (outboxId, s) := s.uuid4
  pure (id,
    { s with
      crossrefResults := s.crossrefResults ++ [pending]
      echoOutbox := s.echoOutbox ++ [⟨outboxId, id, input.caller.tenantId, input.safetyReportId⟩] })

/-! ## Running -/

/-- The arguments of `RunEchoCrossReference`, and what it meets on its way.
`crossReference` is what the hazard profile, the corpus and the matcher give for a
narrative, or the detail of the failure; `upsertFails` tells of which events the
signal cannot be stored. -/
structure RunEchoCrossReferenceInput where
  tenantId : Uuid
  crossrefResultId : Uuid
  markFailedOnError : Bool
  crossReference : String → Except String (List PrecedentMatch)
  upsertFails : Uuid → Bool
  now : Time
  clock : Nat → Time

/-- What a run is about to commit. -/
inductive EchoTx where
  | complete (matched : List PrecedentMatch) (upsertFails : Uuid → Bool) (now : Time)
      (clock : Nat → Time)
  | fail (detail : String) (now : Time)

/-- `_record_failure`: a run that does not own the failure policy only raises. -/
def recordFailure (input : RunEchoCrossReferenceInput) (detail : String) :
    Except TenancyError EchoTx :=
  if input.markFailedOnError then .ok (.fail detail input.now) else .error (.valueError detail)

/-- The first half of `RunEchoCrossReference.execute`: everything before the result
is marked. -/
def readEcho (s : TenantDb) (input : RunEchoCrossReferenceInput) : Except TenancyError EchoTx := do
  let result ← fromOption (s.getCrossrefResult input.tenantId input.crossrefResultId)
    (.tenantNotFound ("CrossrefResult " ++ toString input.crossrefResultId ++
      " not found in tenant " ++ toString input.tenantId))
  require (result.status = .pending) (.valueError
    ("CrossrefResult " ++ toString input.crossrefResultId ++ " is '" ++ result.status.value ++
      "'; only PENDING results can be run."))
  match s.getReport input.tenantId result.safetyReportId with
  | none => recordFailure input "Safety report not found at run time"
  | some report =>
      match input.crossReference report.narrativeMarkdown with
      | .error detail => recordFailure input detail
      | .ok matched => pure (.complete matched input.upsertFails input.now input.clock)

/-- An update of the result while it is PENDING. -/
def updatePending (s : TenantDb) (tenantId resultId : Uuid)
    (f : TenantCrossrefResult → TenantCrossrefResult) : TenantDb :=
  { s with
    crossrefResults := updateWhere (fun r => isResult tenantId resultId r ∧ r.status = .pending) f
      s.crossrefResults }

/-- `tenant_crossref_results.mark_complete`. -/
def markComplete (s : TenantDb) (tenantId resultId : Uuid) (matched : List PrecedentMatch)
    (completedAt : Time) : TenantDb :=
  s.updatePending tenantId resultId fun r =>
    { r with status := .complete, matchesJson := matched, completedAt := some completedAt }

/-- `tenant_crossref_results.mark_failed`. -/
def markFailed (s : TenantDb) (tenantId resultId : Uuid) (detail : String) (completedAt : Time) :
    TenantDb :=
  s.updatePending tenantId resultId fun r =>
    { r with status := .failed, errorDetail := some detail, completedAt := some completedAt }

variable [PyText]

/-- The dedupe key of the signal of a strong match. -/
def echoDedupeKey (tenantId resultId eventId : Uuid) : String :=
  makeArgusDedupeKey .echoStrongPrecedentMatch "echo"
    [toString tenantId, toString resultId, toString eventId]

def echoTitle (eventId : Uuid) : String :=
  "Echo: STRONG precedent match — public event " ++ toString eventId

/-- `_upsert_argus_signal`; a failure is rolled back to the savepoint and swallowed. -/
def upsertArgusSignal (tenantId resultId : Uuid) (upsertFails : Uuid → Bool) (now : Time)
    (s : TenantDb) (m : PrecedentMatch) : TenantDb :=
  let (id, s) := s.uuid4
  if upsertFails m.eventId then s
  else
    let signal : ArgusSignal :=
      ⟨id, .echoStrongPrecedentMatch, .open, .medium, m.score, echoTitle m.eventId, "echo",
        echoDedupeKey tenantId resultId m.eventId, 1, now, now⟩
    match persistedSignal s.signals signal with
    | none => s
    | some persisted =>
        { s with
          signals := upsertSignal s.signals signal
          signalEvidence := upsertEvidence s.signalEvidence
            ⟨persisted.id, .echoCrossrefResult, resultId⟩ }

/-- The strong matches. -/
def strongMatches (matched : List PrecedentMatch) : List PrecedentMatch :=
  matched.filter fun m => m.support = .strong

/-- The second half of a run, or the failure path: what it commits. -/
def writeEcho (s : TenantDb) (tenantId resultId : Uuid) : EchoTx → TenantDb
  | .complete matched upsertFails now clock =>
      let s := s.markComplete tenantId resultId matched now
      let s := (strongMatches matched).foldl (upsertArgusSignal tenantId resultId upsertFails now) s
      s.meter .echoCrossrefRun (some tenantId) none (some resultId) 1 clock
  | .fail detail now => s.markFailed tenantId resultId detail now

/-- `RunEchoCrossReference.execute`: the store it leaves.  After it has marked the
result FAILED the call raises. -/
def runEchoCrossReference (s : TenantDb) (input : RunEchoCrossReferenceInput) : TenantDb :=
  match s.readEcho input with
  | .ok tx => s.writeEcho input.tenantId input.crossrefResultId tx
  | .error _ => s

end TenantDb

end Atlas
