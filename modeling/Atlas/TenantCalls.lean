import Atlas.TenantViews

/-!
# The tenants' calls

All tenants share the tables.  A call is an operation or a read, made by a tenant or by the
platform; it changes the tables and answers its caller.  The ids that a call draws come with it,
as the random values they are.
-/

namespace Atlas

open Outcome Rows

/-- The calls, with the reads. -/
inductive TenantCall where
  | op (op : TenantOp)
  | upsertOverlay (input : TenantSpace.UpsertTenantEventOverlayInput) (now : Time)
  | getOverlay (tenantId callerTenantId eventId : Uuid)
  | listEvents (tenantId callerTenantId : Uuid) (limit : Int) (afterId : Option Uuid)
  | listEvidence (tenantId callerTenantId eventId : Uuid)
  | getUsage (tenantId callerTenantId : Uuid) (dayFrom dayTo : Day)

/-- The tenant that calls, or that the worker runs a job for. -/
def TenantOp.performer : TenantOp → Option Uuid
  | .registerSource input => some input.caller.callerTenantId
  | .openRun input => some input.caller.callerTenantId
  | .submitBatch input => some input.caller.callerTenantId
  | .completeRun input => some input.caller.callerTenantId
  | .fileReport input => some input.caller.callerTenantId
  | .requestEcho input => some input.caller.callerTenantId
  | .runEcho input => some input.tenantId
  | .failEcho tenantId _ _ _ => some tenantId
  | .attachHfacs _ | .nlSearch .. | .computeRollups _ | .accidents _ => none

def TenantCall.performer : TenantCall → Option Uuid
  | .op tenantOp => tenantOp.performer
  | .upsertOverlay input _ => some input.caller.callerTenantId
  | .getOverlay _ callerTenantId _ => some callerTenantId
  | .listEvents _ callerTenantId _ _ => some callerTenantId
  | .listEvidence _ callerTenantId _ => some callerTenantId
  | .getUsage _ callerTenantId _ _ => some callerTenantId

/-- The platform rolls up the usage, or the accident store changes: everyone may see it. -/
def TenantOp.shared : TenantOp → Bool
  | .computeRollups _ | .accidents _ => true
  | _ => false

def TenantCall.shared : TenantCall → Bool
  | .op tenantOp => tenantOp.shared
  | _ => false

/-- A call with the ids it draws, from this one on. -/
structure DrawnCall where
  id : Uuid
  call : TenantCall

/-- The call is heard by the tenant: it made it. -/
def DrawnCall.heard (tenantId : Uuid) (c : DrawnCall) : Bool := c.call.performer = some tenantId

/-- The call may show to the tenant. -/
def DrawnCall.visible (tenantId : Uuid) (c : DrawnCall) : Bool :=
  c.call.performer = some tenantId ∨ c.call.shared = true

/-- What a call returns to its caller; jobs and the platform's calls return nothing. -/
inductive TenantAnswer where
  | source (result : Except TenancyError TenantSource)
  | run (result : Except TenancyError TenantIngestionRun)
  | inserted (result : Except TenancyError Nat)
  | report (result : Except TenancyError TenantDb.SubmitTenantSafetyReportResult)
  | requested (result : Except TenancyError Uuid)
  | overlay (result : Except TenancyError TenantEventOverlay)
  | overlayView (result : Except TenancyError TenantSpace.TenantEventOverlayView)
  | events (result : Except TenancyError TenantSpace.TenantEventListResult)
  | evidence (result : Except TenancyError TenantSpace.TenantEvidenceView)
  | usage (result : Except TenancyError (List UsageDailyRollup))
  | silent

namespace TenantDb

/-- The rows of one tenant. -/
def ownRows (tenantId : Uuid) (s : TenantDb) : TenantDb where
  nextId := s.nextId
  store := s.store
  sources := s.sources.filter fun x => decide (x.tenantId = tenantId)
  ingestionRuns := s.ingestionRuns.filter fun x => decide (x.tenantId = tenantId)
  claims := s.claims.filter fun x => decide (x.tenantId = tenantId)
  safetyReports := s.safetyReports.filter fun x => decide (x.tenantId = tenantId)
  associations := s.associations.filter fun x => decide (x.tenantId = tenantId)
  crossrefResults := s.crossrefResults.filter fun x => decide (x.tenantId = tenantId)
  echoOutbox := []
  signals := []
  signalEvidence := []
  hfacsCategories := []
  hfacsSubcategories := []
  hfacsAttributions := []
  nlQueryLog := []
  usageEvents := s.usageEvents.filter fun x => decide (x.tenantId = some tenantId)
  dailyRollups := s.dailyRollups.filter fun x => decide (x.tenantId = some tenantId)

/-- What the tenant's calls can depend on: its rows and the accident store. -/
def view (tenantId : Uuid) (s : TenantDb) : TenantDb := { s.ownRows tenantId with nextId := 0 }

end TenantDb

namespace TenantSpace

variable [PyText] [TenantDb.Deidentification]

/-- What an operation returns to its caller. -/
def answerOp (s : TenantDb) : TenantOp → TenantAnswer
  | .registerSource input => .source ((s.registerTenantSource input).map Prod.fst)
  | .openRun input => .run ((s.openTenantIngestionRun input).map Prod.fst)
  | .submitBatch input => .inserted ((s.submitTenantClaimsBatch input).map Prod.fst)
  | .completeRun input => .run ((s.completeTenantIngestionRun input).map Prod.fst)
  | .fileReport input => .report ((s.submitTenantSafetyReport input).map Prod.fst)
  | .requestEcho input => .requested ((s.requestEchoCrossReference input).map Prod.fst)
  | .runEcho _ | .failEcho .. | .attachHfacs _ | .nlSearch .. | .computeRollups _ | .accidents _ =>
      .silent

omit [PyText] [TenantDb.Deidentification] in
def draw (s : TenantSpace) (id : Uuid) : TenantSpace := { s with db := { s.db with nextId := id } }

def answer (s : TenantSpace) (c : DrawnCall) : TenantAnswer :=
  let s := s.draw c.id
  match c.call with
  | .op op => answerOp s.db op
  | .upsertOverlay input now => .overlay ((s.upsertTenantEventOverlay input now).map Prod.fst)
  | .getOverlay tenantId callerTenantId eventId =>
      .overlayView (s.getTenantEventOverlay tenantId callerTenantId eventId)
  | .listEvents tenantId callerTenantId limit afterId =>
      .events (s.listTenantEvents tenantId callerTenantId limit afterId)
  | .listEvidence tenantId callerTenantId eventId =>
      .evidence (s.listTenantEvidenceForEvent tenantId callerTenantId eventId)
  | .getUsage tenantId callerTenantId dayFrom dayTo =>
      .usage (s.getTenantUsage tenantId callerTenantId dayFrom dayTo)

def step (s : TenantSpace) (c : DrawnCall) : TenantSpace :=
  let s := s.draw c.id
  match c.call with
  | .op op => { s with db := s.db.step op }
  | .upsertOverlay input now =>
      match s.upsertTenantEventOverlay input now with
      | .ok (_, s') => s'
      | .error _ => s
  | .getOverlay .. | .listEvents .. | .listEvidence .. | .getUsage .. => s

def view (tenantId : Uuid) (s : TenantSpace) : TenantSpace where
  db := s.db.view tenantId
  overlays := s.overlays.filter fun o => decide (o.tenantId = tenantId)

end TenantSpace

end Atlas
