import Atlas.Argus
import Atlas.Metering
import Atlas.Store

/-!
# Tenants' own evidence

A tenant opens ingestion runs, appends claims to them in batches and closes them,
and files safety reports.  The tenant's tables are apart from the accident store,
which these use cases only read.

A use case that checks by a read and writes later is given in two halves, the read
with its checks and the write with the commit, so that calls can be interleaved.
-/

namespace Atlas

open Outcome Rows

/-! ## Entities -/

inductive TenantRole where
  | owner
  | member
  | readOnly
deriving DecidableEq, Repr

structure TenantSource where
  id : Uuid
  tenantId : Uuid
  name : String
deriving DecidableEq, Repr

inductive TenantIngestionRunStatus where
  | running
  | succeeded
  | failed
deriving DecidableEq, Repr

def TenantIngestionRunStatus.value : TenantIngestionRunStatus → String
  | running => "running"
  | succeeded => "succeeded"
  | failed => "failed"

structure TenantIngestionRun where
  id : Uuid
  tenantId : Uuid
  tenantSourceId : Uuid
  status : TenantIngestionRunStatus
  finishedAt : Option Time
deriving DecidableEq, Repr

inductive TenantClaimKind where
  | foqa
  | asap
  | other
deriving DecidableEq, Repr

structure TenantClaim where
  id : Uuid
  tenantId : Uuid
  eventId : Uuid
  tenantSourceId : Uuid
  tenantIngestionRunId : Option Uuid
  fieldName : String
  fieldValue : Json
  claimKind : TenantClaimKind
  confidence : Option ℚ
deriving DecidableEq

inductive TenantSafetyReportKind where
  | foqa
  | asap
  | other
deriving DecidableEq, Repr

structure TenantSafetyReport where
  id : Uuid
  tenantId : Uuid
  reportKind : TenantSafetyReportKind
  narrativeMarkdown : String
  deidentifiedAttested : Bool
  externalReportRef : Option String
  submitterUserId : Uuid
deriving DecidableEq, Repr

inductive TenantEventAssociationKind where
  | related
  | contributedTo
  | preceded
deriving DecidableEq, Repr

structure TenantEventAssociation where
  id : Uuid
  tenantId : Uuid
  eventId : Uuid
  safetyReportId : Option Uuid
  associationKind : TenantEventAssociationKind
  note : Option String
  createdByUserId : Uuid
deriving DecidableEq, Repr

inductive CrossrefResultStatus where
  | pending
  | complete
  | failed
deriving DecidableEq, Repr

def CrossrefResultStatus.value : CrossrefResultStatus → String
  | pending => "PENDING"
  | complete => "COMPLETE"
  | failed => "FAILED"

inductive EvidenceSupport where
  | strong
  | moderate
  | weak
  | none
deriving DecidableEq, Repr

/-- A public precedent found for a hazard. -/
structure PrecedentMatch where
  eventId : Uuid
  score : ℚ
  support : EvidenceSupport
deriving DecidableEq, Repr

structure TenantCrossrefResult where
  id : Uuid
  tenantId : Uuid
  safetyReportId : Uuid
  status : CrossrefResultStatus
  matchesJson : List PrecedentMatch
  completedAt : Option Time
  errorDetail : Option String
deriving DecidableEq, Repr

/-- The `ECHO_CROSSREF_REQUESTED` outbox event of a cross-reference request. -/
structure EchoRequested where
  id : Uuid
  crossrefResultId : Uuid
  tenantId : Uuid
  safetyReportId : Uuid
deriving DecidableEq, Repr

structure HfacsCategory where
  id : Uuid
deriving DecidableEq, Repr

structure HfacsSubcategory where
  id : Uuid
  categoryId : Uuid
deriving DecidableEq, Repr

structure EventHfacsAttribution where
  id : Uuid
  eventId : Uuid
  categoryId : Uuid
  subcategoryId : Option Uuid
  confidence : ℚ
  note : Option String
  editorUserId : Uuid
deriving DecidableEq, Repr

/-- The log row of a natural-language query. -/
structure NlQueryLog where
  id : Uuid
  rawQuery : String
  resultCount : Nat
deriving DecidableEq, Repr

/-- The tenants' tables and the metered ones beside them, with the accident store
they refer to. -/
structure TenantDb where
  nextId : Uuid
  store : Db
  sources : List TenantSource
  ingestionRuns : List TenantIngestionRun
  claims : List TenantClaim
  safetyReports : List TenantSafetyReport
  associations : List TenantEventAssociation
  crossrefResults : List TenantCrossrefResult
  echoOutbox : List EchoRequested
  signals : List ArgusSignal
  signalEvidence : List ArgusSignalEvidence
  hfacsCategories : List HfacsCategory
  hfacsSubcategories : List HfacsSubcategory
  hfacsAttributions : List EventHfacsAttribution
  nlQueryLog : List NlQueryLog
  usageEvents : List UsageEvent
  dailyRollups : List UsageDailyRollup

namespace TenantDb

/-- No tenant has stored anything.  The HFACS taxonomy is seeded by the migrations. -/
def empty (store : Db) (categories : List HfacsCategory) (subcategories : List HfacsSubcategory) :
    TenantDb where
  nextId := 0
  store := store
  sources := []
  ingestionRuns := []
  claims := []
  safetyReports := []
  associations := []
  crossrefResults := []
  echoOutbox := []
  signals := []
  signalEvidence := []
  hfacsCategories := categories
  hfacsSubcategories := subcategories
  hfacsAttributions := []
  nlQueryLog := []
  usageEvents := []
  dailyRollups := []

def uuid4 (s : TenantDb) : Uuid × TenantDb := (s.nextId, { s with nextId := s.nextId + 1 })

/-- `MeteringService.record` on the store. -/
def meter (s : TenantDb) (metricKind : MetricKind) (tenantId userId resourceId : Option Uuid)
    (quantity : Nat) (clock : Nat → Time) : TenantDb :=
  { s with
    usageEvents := record s.usageEvents metricKind tenantId userId resourceId quantity clock }

/-! ## Ingestion runs -/

/-- The caller's tenant and role, as every tenant use case checks them. -/
structure Caller where
  tenantId : Uuid
  callerTenantId : Uuid
  callerTenantRole : TenantRole
deriving DecidableEq, Repr

/-- The tenant check. -/
def requireSameTenant (c : Caller) : Except TenancyError Unit :=
  require (c.callerTenantId = c.tenantId) (.crossTenantAccess c.callerTenantId c.tenantId)

/-- `_require_write_role`. -/
def requireWriteRole (c : Caller) : Except TenancyError Unit :=
  require (c.callerTenantRole ≠ .readOnly) .insufficientTenantRole

structure RegisterTenantSourceInput where
  caller : Caller
  name : String
deriving DecidableEq, Repr

/-- `RegisterTenantSource.execute`; names are unique per tenant. -/
def registerTenantSource (s : TenantDb) (input : RegisterTenantSourceInput) :
    Except TenancyError (TenantSource × TenantDb) := do
  requireSameTenant input.caller
  requireWriteRole input.caller
  require (∀ x ∈ s.sources, ¬ (x.tenantId = input.caller.tenantId ∧ x.name = input.name))
    (.tenantSourceAlreadyExists input.caller.tenantId input.name)
  let (id, s) := s.uuid4
  let source : TenantSource := ⟨id, input.caller.tenantId, input.name⟩
  pure (source, { s with sources := s.sources ++ [source] })

structure OpenTenantIngestionRunInput where
  caller : Caller
  tenantSourceId : Uuid
deriving DecidableEq, Repr

def getSource (s : TenantDb) (tenantId sourceId : Uuid) : Option TenantSource :=
  s.sources.find? fun x => x.id = sourceId ∧ x.tenantId = tenantId

/-- `OpenTenantIngestionRun.execute`. -/
def openTenantIngestionRun (s : TenantDb) (input : OpenTenantIngestionRunInput) :
    Except TenancyError (TenantIngestionRun × TenantDb) := do
  requireSameTenant input.caller
  requireWriteRole input.caller
  let _ ← fromOption (s.getSource input.caller.tenantId input.tenantSourceId)
    (.tenantSourceNotFound input.tenantSourceId input.caller.tenantId)
  let (id, s) := s.uuid4
  let run : TenantIngestionRun := ⟨id, input.caller.tenantId, input.tenantSourceId, .running, none⟩
  pure (run, { s with ingestionRuns := s.ingestionRuns ++ [run] })

def getRun (s : TenantDb) (tenantId runId : Uuid) : Option TenantIngestionRun :=
  s.ingestionRuns.find? fun r => r.id = runId ∧ r.tenantId = tenantId

/-- `tenant_ingestion_runs.update_status`. -/
def updateRunStatus (s : TenantDb) (tenantId runId : Uuid) (status : TenantIngestionRunStatus)
    (finishedAt : Option Time) : TenantDb :=
  { s with
    ingestionRuns := updateWhere (fun r => r.id = runId ∧ r.tenantId = tenantId)
      (fun r => { r with status := status, finishedAt := finishedAt }) s.ingestionRuns }

/-- One claim as it arrives. -/
structure IncomingClaim where
  eventId : Uuid
  fieldName : String
  fieldValue : Json
  claimKind : TenantClaimKind
  confidence : Option ℚ
deriving DecidableEq

structure SubmitTenantClaimsBatchInput where
  caller : Caller
  runId : Uuid
  claims : List IncomingClaim
  clock : Nat → Time

/-- `MAX_CLAIMS_PER_BATCH`. -/
def maxClaimsPerBatch : Nat := 1000

/-- `Field(ge=0.0, le=1.0)` on the confidence of a claim. -/
def confidenceOk (c : IncomingClaim) : Bool :=
  match c.confidence with
  | some x => 0 ≤ x ∧ x ≤ 1
  | none => true

/-- The event ids of the batch that the accident store does not have. -/
def unknownEvents (s : TenantDb) (claims : List IncomingClaim) : List Uuid :=
  (distinct (claims.map IncomingClaim.eventId)).filter fun id => (s.store.getEvent id).isNone

/-- What a batch is about to insert.  The run was read by the tenant and the id of
the request. -/
structure BatchTx where
  run : TenantIngestionRun
  claims : List IncomingClaim
  clock : Nat → Time

/-- The first half of `SubmitTenantClaimsBatch.execute`; an empty batch ends here. -/
def readBatch (s : TenantDb) (input : SubmitTenantClaimsBatchInput) :
    Except TenancyError (Option BatchTx) := do
  requireSameTenant input.caller
  requireWriteRole input.caller
  require (input.claims.length ≤ maxClaimsPerBatch)
    (.claimBatchTooLarge input.claims.length maxClaimsPerBatch)
  if input.claims = [] then pure none
  else do
    let run ← fromOption (s.getRun input.caller.tenantId input.runId)
      (.ingestionRunNotFound input.runId input.caller.tenantId)
    require (run.status = .running) (.ingestionRunClosed
      ("Ingestion run " ++ toString input.runId ++ " is '" ++ run.status.value ++
        "'; cannot append claims to a closed run."))
    require (s.unknownEvents input.claims = []) (.claimUnknownEvent (s.unknownEvents input.claims))
    require (∀ c ∈ input.claims, confidenceOk c = true) (.valueError "confidence")
    pure (some ⟨run, input.claims, input.clock⟩)

/-- The row of an incoming claim. -/
def tenantClaim (run : TenantIngestionRun) (id : Uuid) (c : IncomingClaim) : TenantClaim :=
  ⟨id, run.tenantId, c.eventId, run.tenantSourceId, some run.id, c.fieldName, c.fieldValue,
    c.claimKind, c.confidence⟩

/-- The second half: the claims and one usage event for each. -/
def writeBatch (s : TenantDb) (tx : BatchTx) : TenantDb :=
  let rows := tx.claims.zipIdx.map fun p => tenantClaim tx.run (s.nextId + p.2) p.1
  let s := { s with nextId := s.nextId + tx.claims.length, claims := s.claims ++ rows }
  s.meter .tenantClaimIngested (some tx.run.tenantId) none (some tx.run.id) tx.claims.length tx.clock

/-- `SubmitTenantClaimsBatch.execute`: the number of claims inserted. -/
def submitTenantClaimsBatch (s : TenantDb) (input : SubmitTenantClaimsBatchInput) :
    Except TenancyError (Nat × TenantDb) := do
  match ← s.readBatch input with
  | none => pure (0, s)
  | some tx => pure (tx.claims.length, s.writeBatch tx)

structure CompleteTenantIngestionRunInput where
  caller : Caller
  runId : Uuid
  finalStatus : TenantIngestionRunStatus
  clock : Nat → Time

/-- What a completion is about to write. -/
structure CompletionTx where
  run : TenantIngestionRun
  finalStatus : TenantIngestionRunStatus
  clock : Nat → Time

/-- The first half of `CompleteTenantIngestionRun.execute`. -/
def readCompletion (s : TenantDb) (input : CompleteTenantIngestionRunInput) :
    Except TenancyError CompletionTx := do
  requireSameTenant input.caller
  requireWriteRole input.caller
  require (input.finalStatus ≠ .running) (.ingestionRunClosed
    "Cannot 'complete' an ingestion run into RUNNING; use SUCCEEDED or FAILED.")
  let run ← fromOption (s.getRun input.caller.tenantId input.runId)
    (.ingestionRunNotFound input.runId input.caller.tenantId)
  require (run.status = .running) (.ingestionRunClosed
    ("Ingestion run " ++ toString input.runId ++ " is already '" ++ run.status.value ++
      "'; cannot re-finalise."))
  pure ⟨run, input.finalStatus, input.clock⟩

/-- The second half: the status and one usage event.  The first reading of the clock
is the time of the completion. -/
def writeCompletion (s : TenantDb) (tx : CompletionTx) : TenantDb :=
  (s.updateRunStatus tx.run.tenantId tx.run.id tx.finalStatus (some (tx.clock 0))).meter
    .tenantIngestionRunCompleted (some tx.run.tenantId) none (some tx.run.id) 1
    fun i => tx.clock (i + 1)

/-- `CompleteTenantIngestionRun.execute`. -/
def completeTenantIngestionRun (s : TenantDb) (input : CompleteTenantIngestionRunInput) :
    Except TenancyError (TenantIngestionRun × TenantDb) := do
  let tx ← s.readCompletion input
  pure ({ tx.run with status := tx.finalStatus, finishedAt := some (tx.clock 0) },
    s.writeCompletion tx)

/-! ## Safety reports -/

/-- `DeidentificationResult`. -/
structure DeidentificationResult where
  cleanedText : String
  replacements : List String

/-- `run_deidentification`: five regular expressions over words and digits of any script.  The
rest of the program stores what is left of the text, whatever they redact. -/
class Deidentification where
  runDeidentification : String → DeidentificationResult

/-- Narratives without anything to scrub are taken as they are. -/
instance (priority := low) nothingToScrub : Deidentification where
  runDeidentification text := ⟨text, []⟩

def minNarrativeWords : Nat := 20

/-- `assert_acceptable_narrative`: the scrub, and then the words that are left are counted. -/
def assertAcceptableNarrative [Deidentification] (narrative : String) : Except TenancyError String :=
  let result := Deidentification.runDeidentification narrative
  let wordCount := (splitWords [] result.cleanedText.toList).length
  if wordCount < minNarrativeWords then
    .error (.deidentificationRequired ("Narrative is too short after deidentification (" ++
      toString wordCount ++ " words; minimum " ++ toString minNarrativeWords ++
      "). The operator's deidentification step may have stripped too much content, or the " ++
      "original submission was too thin to file as a safety report."))
  else .ok result.cleanedText

structure SubmitTenantSafetyReportInput where
  caller : Caller
  submitterUserId : Uuid
  reportKind : TenantSafetyReportKind
  narrativeMarkdown : String
  deidentifiedAttested : Bool
  externalReportRef : Option String
  associateWithEventId : Option Uuid
  associationKind : TenantEventAssociationKind
  associationNote : Option String
  clock : Nat → Time

/-- `SubmitTenantSafetyReportResult`. -/
structure SubmitTenantSafetyReportResult where
  report : TenantSafetyReport
  association : Option TenantEventAssociation
  scrubReplacements : List String

/-- The association filed with a report. -/
def addAssociation (s : TenantDb) (input : SubmitTenantSafetyReportInput) (reportId : Uuid) :
    Option TenantEventAssociation × TenantDb :=
  match input.associateWithEventId with
  | none => (none, s)
  | some eventId =>
      let (id, s) := s.uuid4
      let association : TenantEventAssociation :=
        ⟨id, input.caller.tenantId, eventId, some reportId, input.associationKind,
          input.associationNote, input.submitterUserId⟩
      (some association, { s with associations := s.associations ++ [association] })

/-- The event to associate with must have a projection. -/
def checkAssociation (s : TenantDb) (input : SubmitTenantSafetyReportInput) :
    Except TenancyError Unit :=
  match input.associateWithEventId with
  | none => pure ()
  | some eventId => require (s.store.getProjection eventId).isSome
      (.tenantNotFound ("No public event " ++ toString eventId ++ " to associate with."))

/-- `SubmitTenantSafetyReport.execute`. -/
def submitTenantSafetyReport [Deidentification] (s : TenantDb)
    (input : SubmitTenantSafetyReportInput) :
    Except TenancyError (SubmitTenantSafetyReportResult × TenantDb) := do
  requireSameTenant input.caller
  requireWriteRole input.caller
  require (input.deidentifiedAttested = true) (.deidentificationRequired
    ("Safety report submission requires deidentified_attested=True.  The operator's safety " ++
      "office must attest that the narrative has been deidentified before submission."))
  let preview := Deidentification.runDeidentification input.narrativeMarkdown
  let cleaned ← assertAcceptableNarrative input.narrativeMarkdown
  s.checkAssociation input
  let (id, s) := s.uuid4
  let report : TenantSafetyReport :=
    ⟨id, input.caller.tenantId, input.reportKind, cleaned, true, input.externalReportRef,
      input.submitterUserId⟩
  let s := { s with safetyReports := s.safetyReports ++ [report] }
  let (association, s) := s.addAssociation input id
  pure (⟨report, association, preview.replacements⟩,
    s.meter .tenantReportFiled (some input.caller.tenantId) (some input.submitterUserId) (some id) 1
      input.clock)

/-! ## Metered actions of no tenant -/

structure AttachHfacsAttributionInput where
  eventId : Uuid
  categoryId : Uuid
  subcategoryId : Option Uuid
  confidence : ℚ
  note : Option String
  editorUserId : Uuid
  clock : Nat → Time

/-- The subcategory must exist and belong to the category. -/
def checkSubcategory (s : TenantDb) (input : AttachHfacsAttributionInput) :
    Except TenancyError Unit :=
  match input.subcategoryId with
  | none => pure ()
  | some id => do
      let sub ← fromOption (s.hfacsSubcategories.find? fun x => x.id = id) (.hfacsSubcategoryNotFound
        ("HFACS subcategory " ++ toString id ++ " not found"))
      require (sub.categoryId = input.categoryId) (.hfacsSubcategoryNotFound
        ("HFACS subcategory " ++ toString id ++ " does not belong to category " ++
          toString input.categoryId))

/-- `AttachEventHfacsAttribution.execute`. -/
def attachEventHfacsAttribution (s : TenantDb) (input : AttachHfacsAttributionInput) :
    Except TenancyError (EventHfacsAttribution × TenantDb) := do
  let _ ← fromOption (s.hfacsCategories.find? fun x => x.id = input.categoryId)
    (.hfacsCategoryNotFound ("HFACS category " ++ toString input.categoryId ++ " not found"))
  s.checkSubcategory input
  require (0 ≤ input.confidence ∧ input.confidence ≤ 1) (.valueError "confidence")
  require (∀ a ∈ s.hfacsAttributions, ¬ (a.eventId = input.eventId ∧
    a.categoryId = input.categoryId ∧ a.subcategoryId = input.subcategoryId))
    .hfacsAttributionConflict
  let (id, s) := s.uuid4
  let attribution : EventHfacsAttribution :=
    ⟨id, input.eventId, input.categoryId, input.subcategoryId, input.confidence, input.note,
      input.editorUserId⟩
  let s := { s with hfacsAttributions := s.hfacsAttributions ++ [attribution] }
  pure (attribution,
    s.meter .hfacsAttributionCreated none (some input.editorUserId) (some id) 1 input.clock)

/-- The end of `ExecuteNlSearch.execute`, after the query was parsed and searched
for: the log row, the usage event and the commit. -/
def logNlSearch (s : TenantDb) (rawQuery : String) (resultCount : Nat) (clock : Nat → Time) :
    NlQueryLog × TenantDb :=
  let (id, s) := s.uuid4
  let entry : NlQueryLog := ⟨id, rawQuery, resultCount⟩
  let s := { s with nlQueryLog := s.nlQueryLog ++ [entry] }
  (entry, s.meter .nlQueryExecuted none none (some id) 1 clock)

end TenantDb

end Atlas
