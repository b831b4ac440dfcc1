import Atlas.KeysetPages
import Atlas.TenantSystem

/-!
# What a tenant reads and writes of its own

Besides its evidence a tenant keeps an overlay of notes for public events, lists the events
it has overlays for, and reads its evidence and its usage.  Every one of these takes the
tenant of the path and that of the caller, which must be one.
-/

namespace Atlas

open Outcome Rows Keyset

structure TenantEventOverlay where
  id : Uuid
  tenantId : Uuid
  eventId : Uuid
  notesMarkdown : Option String
  overlayFields : List (String × Json)
  createdAt : Time
  updatedAt : Time
deriving DecidableEq

/-- `uq_tenant_event_overlays_tenant_event`. -/
def TenantEventOverlay.key (o : TenantEventOverlay) : Uuid × Uuid := (o.tenantId, o.eventId)

/-- The tenants' tables with their overlays. -/
structure TenantSpace where
  db : TenantDb
  overlays : List TenantEventOverlay

namespace TenantSpace

open TenantDb

variable (s : TenantSpace)

/-! ## Overlays -/

/-- `tenant_event_overlays.get`. -/
def getOverlay (tenantId eventId : Uuid) : Option TenantEventOverlay :=
  s.overlays.find? fun o => o.tenantId = tenantId ∧ o.eventId = eventId

structure TenantEventOverlayView where
  eventId : Uuid
  overlay : Option TenantEventOverlay
  publicFields : List (String × Projected)
  publicCompletenessScore : ℚ
  publicProjectionVersion : Nat
deriving DecidableEq

/-- The projection that an overlay is on. -/
def publicProjection (eventId : Uuid) : Except TenancyError ProjectedAccidentRecord :=
  fromOption (s.db.store.getProjection eventId)
    (.tenantNotFound ("No public projection exists for event " ++ toString eventId))

/-- `GetTenantEventOverlay.execute`. -/
def getTenantEventOverlay (tenantId callerTenantId eventId : Uuid) :
    Except TenancyError TenantEventOverlayView := do
  require (callerTenantId = tenantId) (.crossTenantAccess callerTenantId tenantId)
  let projection ← s.publicProjection eventId
  pure ⟨eventId, s.getOverlay tenantId eventId, projection.fields, projection.completenessScore,
    projection.projectionVersion⟩

structure TenantEventListItem where
  eventId : Uuid
  hasOverlay : Bool
  overlayUpdatedAt : Time
  notesPreview : Option String
deriving DecidableEq

structure TenantEventListResult where
  items : List TenantEventListItem
  nextCursor : Option Uuid
  limit : Nat
deriving DecidableEq

def tenantEventListMaxLimit : Nat := 100

/-- `_preview`: the notes in one line without the marks of a heading. -/
def preview (text : String) (maxChars : Nat) : String :=
  let stripped := ((text.toList.dropWhile isSpace).dropWhile (· = '#')).dropWhile isSpace
  let oneLine := " ".intercalate ((splitWords [] stripped).map String.ofList)
  if oneLine.length ≤ maxChars then oneLine
  else String.ofList (oneLine.toList.take (maxChars - 1)) ++ "…"

/-- `tenant_event_overlays.list_for_tenant`.  The cursor is looked up by its id, the primary key,
and ignored if it is of another tenant. -/
def listForTenant (tenantId : Uuid) (limit : Nat) (afterId : Option Uuid) :
    List TenantEventOverlay × Option TenantEventOverlay :=
  let key := newestFirst TenantEventOverlay.id TenantEventOverlay.updatedAt
  let rows := listing key (s.overlays.filter fun o => decide (o.tenantId = tenantId))
  let cursor := afterId.bind fun afterId =>
    s.overlays.find? fun o => o.id = afterId ∧ o.tenantId = tenantId
  match cursor with
  | some cursor => batch limit (below key (key cursor) rows)
  | none => batch limit rows

/-- `ListTenantEvents.execute`. -/
def listTenantEvents (tenantId callerTenantId : Uuid) (limit : Int) (afterId : Option Uuid) :
    Except TenancyError TenantEventListResult := do
  require (callerTenantId = tenantId) (.crossTenantAccess callerTenantId tenantId)
  let boundedLimit := (max 1 (min limit tenantEventListMaxLimit)).toNat
  let page := s.listForTenant tenantId boundedLimit afterId
  pure
    { items := page.1.map fun o =>
        ⟨o.eventId, true, o.updatedAt, (o.notesMarkdown.filter (· ≠ "")).map fun n => preview n 160⟩
      nextCursor := page.2.map TenantEventOverlay.id
      limit := boundedLimit }

structure UpsertTenantEventOverlayInput where
  caller : Caller
  eventId : Uuid
  notesMarkdown : Option String
  overlayFields : Option (List (String × Json))

/-- `UpsertTenantEventOverlay.execute`: the row inserted, or the one that stands with new notes
and fields. -/
def upsertTenantEventOverlay (input : UpsertTenantEventOverlayInput) (now : Time) :
    Except TenancyError (TenantEventOverlay × TenantSpace) := do
  requireSameTenant input.caller
  requireWriteRole input.caller
  let _ ← s.publicProjection input.eventId
  let fields := input.overlayFields.getD []
  let (id, db) := s.db.uuid4
  let overlay : TenantEventOverlay :=
    ⟨id, input.caller.tenantId, input.eventId, input.notesMarkdown, fields, now, now⟩
  let written (old : TenantEventOverlay) : TenantEventOverlay :=
    { old with notesMarkdown := input.notesMarkdown, overlayFields := fields, updatedAt := now }
  pure (((s.getOverlay input.caller.tenantId input.eventId).map written).getD overlay,
    ⟨db, upsertWith TenantEventOverlay.key overlay written s.overlays⟩)

/-! ## Evidence and usage -/

structure TenantEvidenceView where
  eventId : Uuid
  foqaClaims : List TenantClaim
  asapClaims : List TenantClaim
  otherClaims : List TenantClaim
  associatedReports : List TenantSafetyReport
  associations : List TenantEventAssociation
deriving DecidableEq

/-- `tenant_claims.list_for_event_by_kind`. -/
def claimsOfKind (tenantId eventId : Uuid) (claimKind : TenantClaimKind) : List TenantClaim :=
  s.db.claims.filter fun c =>
    decide (c.tenantId = tenantId ∧ c.eventId = eventId ∧ c.claimKind = claimKind)

/-- `tenant_event_associations.list_for_event`. -/
def associationsOf (tenantId eventId : Uuid) : List TenantEventAssociation :=
  s.db.associations.filter fun a => decide (a.tenantId = tenantId ∧ a.eventId = eventId)

/-- `ListTenantEvidenceForEvent.execute`. -/
def listTenantEvidenceForEvent (tenantId callerTenantId eventId : Uuid) :
    Except TenancyError TenantEvidenceView := do
  require (callerTenantId = tenantId) (.crossTenantAccess callerTenantId tenantId)
  let associations := s.associationsOf tenantId eventId
  let reportIds := distinct (associations.filterMap TenantEventAssociation.safetyReportId)
  pure
    { eventId := eventId
      foqaClaims := s.claimsOfKind tenantId eventId .foqa
      asapClaims := s.claimsOfKind tenantId eventId .asap
      otherClaims := s.claimsOfKind tenantId eventId .other
      associatedReports := reportIds.filterMap fun id => s.db.getReport tenantId id
      associations := associations }

/-- The text of a metric. -/
def metricValue : MetricKind → String
  | .tenantClaimIngested => "TENANT_CLAIM_INGESTED"
  | .tenantReportFiled => "TENANT_REPORT_FILED"
  | .tenantIngestionRunCompleted => "TENANT_INGESTION_RUN_COMPLETED"
  | .nlQueryExecuted => "NL_QUERY_EXECUTED"
  | .hfacsAttributionCreated => "HFACS_ATTRIBUTION_CREATED"
  | .echoCrossrefRun => "ECHO_CROSSREF_RUN"

/-- `GetTenantUsage.execute`. -/
def getTenantUsage (tenantId callerTenantId : Uuid) (dayFrom dayTo : Day) :
    Except TenancyError (List UsageDailyRollup) := do
  require (callerTenantId = tenantId) (.crossTenantAccess callerTenantId tenantId)
  pure ((s.db.dailyRollups.filter fun r => decide (r.tenantId = some tenantId ∧
    dayFrom.ordinal ≤ r.day ∧ r.day ≤ dayTo.ordinal)).insertionSort fun a b =>
      toLex (a.day, metricValue a.metricKind) ≤ toLex (b.day, metricValue b.metricKind))

end TenantSpace

end Atlas
