import Atlas.Entities
import Atlas.EventMatching
import Atlas.Lib.Outcome
import Atlas.Lib.Rows

/-!
# Metering

Use cases record usage events in the transaction of the action they meter.
`ComputeDailyRollups` compacts the events of a range of days into one row for each
tenant, metric and day, replacing the rows it finds; system-wide metrics go under a
sentinel tenant.

A date is its ordinal, and a time a number of microseconds from the first moment
of the calendar, so that dates and times share one scale.
-/

namespace Atlas

open Outcome Rows

/-- Where the tenancy and metering use cases fail. -/
inductive TenancyError where
  | crossTenantAccess (callerTenantId targetTenantId : Uuid)
  | insufficientTenantRole
  | tenantSourceAlreadyExists (tenantId : Uuid) (name : String)
  | tenantSourceNotFound (sourceId tenantId : Uuid)
  | claimBatchTooLarge (claims maximum : Nat)
  | ingestionRunNotFound (runId tenantId : Uuid)
  | ingestionRunClosed (message : String)
  | claimUnknownEvent (unknownIds : List Uuid)
  | deidentificationRequired (message : String)
  | tenantNotFound (message : String)
  | hfacsCategoryNotFound (message : String)
  | hfacsSubcategoryNotFound (message : String)
  | hfacsAttributionConflict
  | valueError (message : String)
  | overflow
deriving DecidableEq, Repr

inductive MetricKind where
  | tenantClaimIngested
  | tenantReportFiled
  | tenantIngestionRunCompleted
  | nlQueryExecuted
  | hfacsAttributionCreated
  | echoCrossrefRun
deriving DecidableEq, Repr

/-- One metered action. -/
structure UsageEvent where
  metricKind : MetricKind
  tenantId : Option Uuid
  userId : Option Uuid
  resourceId : Option Uuid
  recordedAt : Time
deriving DecidableEq, Repr

/-- `MeteringService.record`: one event for each unit, each with the time it was
made at. -/
def record (events : List UsageEvent) (metricKind : MetricKind) (tenantId userId resourceId : Option Uuid)
    (quantity : Nat) (clock : Nat → Time) : List UsageEvent :=
  events ++ (List.range quantity).map fun i => ⟨metricKind, tenantId, userId, resourceId, clock i⟩

/-! ## Days -/

/-- A `datetime.date`, by its ordinal. -/
structure Day where
  ordinal : Nat
  pos : 1 ≤ ordinal
  le_max : ordinal ≤ PyDate.maxOrdinal
deriving DecidableEq, Repr

def microsPerDay : Nat := 24 * 60 * 60 * 1000000

/-- `day + timedelta(days=1)`. -/
def Day.next (d : Day) : Except TenancyError Day :=
  if h : d.ordinal < PyDate.maxOrdinal then .ok ⟨d.ordinal + 1, by omega, h⟩ else .error .overflow

/-- `_day_bounds`: midnight, and midnight of the next day, which must exist. -/
def dayBounds (d : Day) : Except TenancyError (Time × Time) := do
  let next ← d.next
  pure ((d.ordinal - 1) * microsPerDay, (next.ordinal - 1) * microsPerDay)

/-! ## Rollups -/

/-- One aggregate row; `none` is the sentinel tenant `NO_TENANT_SENTINEL`, which no
`uuid4` gives. -/
structure UsageDailyRollup where
  tenantId : Option Uuid
  metricKind : MetricKind
  day : Nat
  count : Nat
  computedAt : Time
deriving DecidableEq, Repr

/-- The natural key `uq_usage_daily_rollups_natural`. -/
def UsageDailyRollup.key (r : UsageDailyRollup) : Option Uuid × MetricKind × Nat :=
  (r.tenantId, r.metricKind, r.day)

/-- `usage_events.count_in_range`. -/
def countInRange (events : List UsageEvent) (tenantId : Option Uuid) (metricKind : MetricKind)
    (start stop : Time) : Nat :=
  events.countP fun e =>
    e.metricKind = metricKind ∧ start ≤ e.recordedAt ∧ e.recordedAt < stop ∧ e.tenantId = tenantId

/-- `usage_events.distinct_tenants_in_range`. -/
def distinctTenantsInRange (events : List UsageEvent) (start stop : Time) : List Uuid :=
  distinct ((events.filter fun e => start ≤ e.recordedAt ∧ e.recordedAt < stop).filterMap
    UsageEvent.tenantId)

/-- `usage_daily_rollups.upsert`. -/
def upsertRollup (rollups : List UsageDailyRollup) (r : UsageDailyRollup) : List UsageDailyRollup :=
  upsertWith UsageDailyRollup.key r
    (fun old => { old with count := r.count, computedAt := r.computedAt }) rollups

/-- `_TENANT_SCOPED_METRICS`. -/
def tenantScopedMetrics : List MetricKind :=
  [.tenantClaimIngested, .tenantReportFiled, .tenantIngestionRunCompleted]

/-- `_SYSTEM_METRICS`. -/
def systemMetrics : List MetricKind := [.nlQueryExecuted, .hfacsAttributionCreated]

/-- The arguments of `ComputeDailyRollups.execute`, and the clock. -/
structure ComputeDailyRollupsInput where
  dayFrom : Day
  dayTo : Day
  tenantIds : Option (List Uuid)
  moment : Time

section Compute

variable (events : List UsageEvent)

/-- The rollups of the metrics of one tenant, or of the sentinel, on one day. -/
def rollupMetrics (moment : Time) (day : Day) (start stop : Time) (tenantId : Option Uuid)
    (metrics : List MetricKind) (rollups : List UsageDailyRollup) : List UsageDailyRollup :=
  metrics.foldl (fun rollups metric =>
    upsertRollup rollups ⟨tenantId, metric, day.ordinal,
      countInRange events tenantId metric start stop, moment⟩) rollups

/-- The body of the loop over the days. -/
def rollupDay (input : ComputeDailyRollupsInput) (day : Day)
    (acc : Nat × List UsageDailyRollup) : Except TenancyError (Nat × List UsageDailyRollup) := do
  let (start, stop) ← dayBounds day
  let tenants := input.tenantIds.getD (distinctTenantsInRange events start stop)
  let rollups := tenants.foldl (fun rollups t =>
    rollupMetrics events input.moment day start stop (some t) tenantScopedMetrics rollups) acc.2
  let rollups := rollupMetrics events input.moment day start stop none systemMetrics rollups
  pure (acc.1 + tenants.length * tenantScopedMetrics.length + systemMetrics.length, rollups)

/-- The loop over `_iter_days`, with the number of days that remain.  The generator
steps to the next day before it compares with the last. -/
def rollupDays (input : ComputeDailyRollupsInput) :
    Nat → Day → Nat × List UsageDailyRollup → Except TenancyError (Nat × List UsageDailyRollup)
  | 0, _, acc => pure acc
  | n + 1, day, acc => do
      let acc ← rollupDay events input day acc
      let next ← day.next
      rollupDays input n next acc

/-- `ComputeDailyRollups.execute`: the number of rows written and the rollups. -/
def computeDailyRollups (rollups : List UsageDailyRollup) (input : ComputeDailyRollupsInput) :
    Except TenancyError (Nat × List UsageDailyRollup) :=
  rollupDays events input (input.dayTo.ordinal + 1 - input.dayFrom.ordinal) input.dayFrom (0, rollups)

end Compute

end Atlas
