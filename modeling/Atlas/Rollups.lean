import Atlas.Lib.Tallies
import Atlas.TenantSystem

/-!
# What the daily rollups count

`ComputeDailyRollups` writes a row for each tenant with events on the day and each
metric of one list, and for the sentinel and each metric of another.  Echo runs are
metered with their tenant, under a metric of neither list, so that no row counts
them.  All other usage events are counted exactly once.
-/

namespace Atlas

open Outcome Rows Tallies

/-! ## Cells -/

/-- The ordinal of the UTC day of a time. -/
def utcDay (t : Time) : Nat := t / microsPerDay + 1

/-- The cell of the rollup table that a usage event belongs to. -/
def UsageEvent.cell (u : UsageEvent) : Option Uuid × MetricKind × Nat :=
  (u.tenantId, u.metricKind, utcDay u.recordedAt)

/-- The events recorded on a UTC day. -/
def eventsOn (events : List UsageEvent) (day : Nat) : Nat :=
  events.countP fun u => utcDay u.recordedAt = day

/-- The sum of the rollup counts of a day. -/
def rollupTotal (rollups : List UsageDailyRollup) (day : Nat) : Nat :=
  ((rollups.filter fun r => r.day = day).map UsageDailyRollup.count).sum

theorem Day.next_ok {d next : Day} (h : d.next = .ok next) :
    d.ordinal < PyDate.maxOrdinal ∧ next.ordinal = d.ordinal + 1 := by
  unfold Day.next at h
  split at h
  · rename_i hlt
    cases h
    exact ⟨hlt, rfl⟩
  · cases h

theorem Day.next_of_lt {d : Day} (h : d.ordinal < PyDate.maxOrdinal) : ∃ next, d.next = .ok next := by
  unfold Day.next
  rw [dif_pos h]
  exact ⟨_, rfl⟩

/-- The bounds of a day are those of its UTC day. -/
theorem dayBounds_ok {d : Day} {start stop : Time} (h : dayBounds d = .ok (start, stop)) (t : Time) :
    start ≤ t ∧ t < stop ↔ utcDay t = d.ordinal := by
  unfold dayBounds at h
  simp only [bind_ok, pure_ok, Prod.mk.injEq] at h
  obtain ⟨next, hnext, rfl, rfl⟩ := h
  obtain ⟨-, hnext⟩ := Day.next_ok hnext
  have hpos := d.pos
  have hmicros : 0 < microsPerDay := by decide
  rw [hnext, Nat.add_sub_cancel, ← Nat.le_div_iff_mul_le hmicros, ← Nat.div_lt_iff_lt_mul hmicros,
    utcDay]
  omega

variable {events : List UsageEvent}

theorem countInRange_eq {d : Day} {start stop : Time} (h : dayBounds d = .ok (start, stop))
    (tenantId : Option Uuid) (metric : MetricKind) :
    countInRange events tenantId metric start stop =
      tally UsageEvent.cell events (tenantId, metric, d.ordinal) := by
  unfold countInRange tally
  apply List.countP_congr
  intro u _
  have hday := dayBounds_ok h u.recordedAt
  simp only [UsageEvent.cell, Prod.mk.injEq, decide_eq_true_eq, ← hday]
  tauto

theorem mem_distinctTenantsInRange {d : Day} {start stop : Time}
    (h : dayBounds d = .ok (start, stop)) {t : Uuid} :
    t ∈ distinctTenantsInRange events start stop ↔
      ∃ u ∈ events, u.tenantId = some t ∧ utcDay u.recordedAt = d.ordinal := by
  unfold distinctTenantsInRange
  rw [mem_distinct, List.mem_filterMap]
  constructor
  · rintro ⟨u, hu, ht⟩
    rw [List.mem_filter, decide_eq_true_eq] at hu
    exact ⟨u, hu.1, ht, (dayBounds_ok h _).mp hu.2⟩
  · rintro ⟨u, hu, ht, hday⟩
    refine ⟨u, ?_, ht⟩
    rw [List.mem_filter, decide_eq_true_eq]
    exact ⟨hu, (dayBounds_ok h _).mpr hday⟩

/-! ## One run -/

/-- The cells that one day of a run posts. -/
def dayCells (tenants : List Uuid) (day : Nat) : List (Option Uuid × MetricKind × Nat) :=
  (tenants.flatMap fun t => tenantScopedMetrics.map fun m => (some t, m, day)) ++
    systemMetrics.map fun m => (none, m, day)

/-- The tables before and after a run that posts the cells. -/
abbrev Rolled (events : List UsageEvent) (ks : List (Option Uuid × MetricKind × Nat))
    (rows rows' : List UsageDailyRollup) : Prop :=
  Posted UsageEvent.cell events UsageDailyRollup.key UsageDailyRollup.count ks rows rows'

theorem upsertRollup_rolled {r : UsageDailyRollup} (h : r.count = tally UsageEvent.cell events r.key)
    (rows : List UsageDailyRollup) : Rolled events [r.key] rows (upsertRollup rows r) := by
  apply Posted.upsert
  · intro old
    rfl
  · exact h
  · intro old
    rfl

theorem rollupMetrics_rolled {moment : Time} {d : Day} {start stop : Time}
    (h : dayBounds d = .ok (start, stop)) (tenantId : Option Uuid) (metrics : List MetricKind)
    (rows : List UsageDailyRollup) :
    Rolled events (metrics.map fun m => (tenantId, m, d.ordinal)) rows
      (rollupMetrics events moment d start stop tenantId metrics rows) := by
  rw [List.map_eq_flatMap]
  refine Posted.foldl ?_ metrics rows
  intro rows m
  exact upsertRollup_rolled (r := ⟨tenantId, m, d.ordinal, _, moment⟩)
    (countInRange_eq h tenantId m) rows

/-- The tenants of one day of a run. -/
def dayTenants (events : List UsageEvent) (input : ComputeDailyRollupsInput) (d : Day) : List Uuid :=
  match dayBounds d with
  | .ok (start, stop) => input.tenantIds.getD (distinctTenantsInRange events start stop)
  | .error _ => []

/-- **One day.** -/
theorem rollupDay_rolled {input : ComputeDailyRollupsInput} {d : Day}
    {acc acc' : Nat × List UsageDailyRollup} (h : rollupDay events input d acc = .ok acc') :
    Rolled events (dayCells (dayTenants events input d) d.ordinal) acc.2 acc'.2 := by
  unfold rollupDay at h
  simp only [bind_ok, pure_ok] at h
  obtain ⟨⟨start, stop⟩, hbounds, rfl⟩ := h
  have htenants : dayTenants events input d =
      input.tenantIds.getD (distinctTenantsInRange events start stop) := by
    rw [dayTenants, hbounds]
  rw [dayCells, htenants]
  refine Posted.append ?_ (rollupMetrics_rolled hbounds none systemMetrics _)
  refine Posted.foldl ?_ _ acc.2
  intro rows t
  exact rollupMetrics_rolled hbounds (some t) tenantScopedMetrics rows

/-- The cells of `n` days from a day on. -/
def rangeCells (events : List UsageEvent) (input : ComputeDailyRollupsInput) :
    Nat → Day → List (Option Uuid × MetricKind × Nat)
  | 0, _ => []
  | n + 1, d => dayCells (dayTenants events input d) d.ordinal ++
      match d.next with
      | .ok next => rangeCells events input n next
      | .error _ => []

/-- **A run.** -/
theorem rollupDays_rolled {input : ComputeDailyRollupsInput} {n : Nat} {d : Day}
    {acc acc' : Nat × List UsageDailyRollup} (h : rollupDays events input n d acc = .ok acc') :
    Rolled events (rangeCells events input n d) acc.2 acc'.2 := by
  induction n generalizing d acc with
  | zero =>
      rw [rollupDays, pure_ok] at h
      subst h
      exact .nil acc.2
  | succ n ih =>
      simp only [rollupDays, bind_ok] at h
      obtain ⟨acc₁, hday, next, hnext, hrest⟩ := h
      rw [rangeCells, hnext]
      exact (rollupDay_rolled hday).append (ih hrest)

/-- A run does not raise exactly when it ends before the last day of the calendar. -/
theorem rollupDays_isOk {input : ComputeDailyRollupsInput} {n : Nat} {d : Day}
    {acc : Nat × List UsageDailyRollup} :
    (∃ acc', rollupDays events input n d acc = .ok acc') ↔
      n = 0 ∨ d.ordinal + n ≤ PyDate.maxOrdinal := by
  induction n generalizing d acc with
  | zero => simp [rollupDays, pure, Except.pure]
  | succ n ih =>
      simp only [rollupDays, bind_ok]
      constructor
      · rintro ⟨acc', acc₁, -, next, hnext, hrest⟩
        obtain ⟨hlt, hord⟩ := Day.next_ok hnext
        have hn := ih.mp ⟨acc', hrest⟩
        omega
      · intro hle
        have hlt : d.ordinal < PyDate.maxOrdinal := by omega
        obtain ⟨next, hnext⟩ := Day.next_of_lt hlt
        obtain ⟨-, hord⟩ := Day.next_ok hnext
        have hday : ∃ acc₁, rollupDay events input d acc = .ok acc₁ := by
          unfold rollupDay dayBounds
          rw [hnext]
          exact ⟨_, rfl⟩
        obtain ⟨acc₁, hday⟩ := hday
        have hrest : ∃ acc', rollupDays events input n next acc₁ = .ok acc' := ih.mpr (by omega)
        obtain ⟨acc', hrest⟩ := hrest
        exact ⟨acc', acc₁, hday, next, hnext, hrest⟩

/-- The cells of a range of days are the cells of its days. -/
theorem mem_rangeCells {input : ComputeDailyRollupsInput} {n : Nat} {d : Day}
    (hn : d.ordinal + n ≤ PyDate.maxOrdinal) {k : Option Uuid × MetricKind × Nat} :
    k ∈ rangeCells events input n d ↔ ∃ e : Day, d.ordinal ≤ e.ordinal ∧
      e.ordinal < d.ordinal + n ∧ k ∈ dayCells (dayTenants events input e) e.ordinal := by
  induction n generalizing d with
  | zero =>
      simp only [rangeCells, List.not_mem_nil, false_iff]
      rintro ⟨e, hle, hlt, -⟩
      omega
  | succ n ih =>
      have hlt : d.ordinal < PyDate.maxOrdinal := by omega
      obtain ⟨next, hnext⟩ := Day.next_of_lt hlt
      obtain ⟨-, hord⟩ := Day.next_ok hnext
      rw [rangeCells, hnext, List.mem_append]
      dsimp only
      rw [ih (by omega)]
      constructor
      · rintro (hk | ⟨e, hle, hlt, hk⟩)
        · exact ⟨d, le_rfl, by omega, hk⟩
        · exact ⟨e, by omega, by omega, hk⟩
      · rintro ⟨e, hle, hlt, hk⟩
        by_cases he : e.ordinal = d.ordinal
        · have hed : e = d := by
            cases e
            cases d
            simpa using he
          rw [hed] at hk
          exact .inl hk
        · exact .inr ⟨e, by omega, by omega, hk⟩

/-- A row of the grid: a tenant with one of the tenants' metrics, or the sentinel
with a system metric. -/
def GridCell (k : Option Uuid × MetricKind × Nat) : Prop :=
  match k.1 with
  | some _ => k.2.1 ∈ tenantScopedMetrics
  | none => k.2.1 ∈ systemMetrics

theorem mem_dayCells {tenants : List Uuid} {day : Nat} {k : Option Uuid × MetricKind × Nat} :
    k ∈ dayCells tenants day ↔ k.2.2 = day ∧ GridCell k ∧ ∀ t, k.1 = some t → t ∈ tenants := by
  obtain ⟨tenant, metric, d⟩ := k
  cases tenant with
  | none =>
      simp only [dayCells, GridCell, List.mem_append, List.mem_flatMap, List.mem_map, Prod.mk.injEq,
        reduceCtorEq, false_and, and_false, exists_false, false_or, true_and, false_implies,
        implies_true, and_true]
      constructor
      · rintro ⟨m, hm, rfl, rfl⟩
        exact ⟨rfl, hm⟩
      · rintro ⟨rfl, hm⟩
        exact ⟨metric, hm, rfl, rfl⟩
  | some t =>
      simp only [dayCells, GridCell, List.mem_append, List.mem_flatMap, List.mem_map, Prod.mk.injEq,
        Option.some.injEq, reduceCtorEq, false_and, and_false, exists_false, or_false, forall_eq']
      constructor
      · rintro ⟨t', ht', m, hm, rfl, rfl, rfl⟩
        exact ⟨rfl, hm, ht'⟩
      · rintro ⟨rfl, hm, ht⟩
        exact ⟨t, ht, metric, hm, rfl, rfl, rfl⟩

/-- **What a run writes.**  For each cell of each of its days, the tally. -/
theorem computeDailyRollups_rolled {rollups rollups' : List UsageDailyRollup}
    {input : ComputeDailyRollupsInput} {n : Nat}
    (h : computeDailyRollups events rollups input = .ok (n, rollups')) :
    ∃ ks, Rolled events ks rollups rollups' ∧ ∀ k, k ∈ ks ↔
      ∃ e : Day, input.dayFrom.ordinal ≤ e.ordinal ∧ e.ordinal ≤ input.dayTo.ordinal ∧
        k ∈ dayCells (dayTenants events input e) e.ordinal := by
  unfold computeDailyRollups at h
  refine ⟨_, rollupDays_rolled h, ?_⟩
  intro k
  rcases rollupDays_isOk.mp ⟨_, h⟩ with hzero | hle
  · rw [hzero, rangeCells]
    simp only [List.not_mem_nil, false_iff]
    rintro ⟨e, hfrom, hto, -⟩
    omega
  · rw [mem_rangeCells hle]
    constructor
    · rintro ⟨e, hfrom, hto, hk⟩
      exact ⟨e, hfrom, by omega, hk⟩
    · rintro ⟨e, hfrom, hto, hk⟩
      exact ⟨e, hfrom, by omega, hk⟩

/-- A run over a range does not raise exactly when the range is empty or ends before
the last day of the calendar. -/
theorem computeDailyRollups_isOk {rollups : List UsageDailyRollup} {input : ComputeDailyRollupsInput} :
    (∃ n rollups', computeDailyRollups events rollups input = .ok (n, rollups')) ↔
      input.dayTo.ordinal ≠ PyDate.maxOrdinal := by
  have hfrom := input.dayFrom.le_max
  have hto := input.dayTo.le_max
  have hiff : (∃ acc, computeDailyRollups events rollups input = .ok acc) ↔
      input.dayTo.ordinal + 1 - input.dayFrom.ordinal = 0 ∨
        input.dayFrom.ordinal + (input.dayTo.ordinal + 1 - input.dayFrom.ordinal) ≤
          PyDate.maxOrdinal := rollupDays_isOk
  rw [Prod.exists] at hiff
  rw [hiff]
  omega

/-! ## The invariant of all runs -/

/-- Whether a metric is of a tenant. -/
def MetricKind.ofTenant : MetricKind → Bool
  | .tenantClaimIngested => true
  | .tenantReportFiled => true
  | .tenantIngestionRunCompleted => true
  | .nlQueryExecuted => false
  | .hfacsAttributionCreated => false
  | .echoCrossrefRun => true

namespace TenantDb

/-- Usage events were added, each with a tenant exactly when its metric is of one. -/
def Meters (s s' : TenantDb) : Prop :=
  ∃ new, s'.usageEvents = s.usageEvents ++ new ∧
    ∀ u ∈ new, u.tenantId.isSome = u.metricKind.ofTenant

theorem Meters.of_eq {s s' : TenantDb} (h : s'.usageEvents = s.usageEvents) : Meters s s' :=
  ⟨[], by simp [h], by simp⟩

/-- `MeteringService.record` with a tenant for a metric of one. -/
theorem meters_meter {s₀ s : TenantDb} (hs : s.usageEvents = s₀.usageEvents) {metricKind : MetricKind}
    {tenantId : Option Uuid} (h : tenantId.isSome = metricKind.ofTenant) (userId resourceId : Option Uuid)
    (quantity : Nat) (clock : Nat → Time) :
    Meters s₀ (s.meter metricKind tenantId userId resourceId quantity clock) := by
  refine ⟨_, by rw [meter, record, hs], ?_⟩
  intro u hu
  obtain ⟨i, -, rfl⟩ := List.mem_map.mp hu
  exact h

section Effects

variable [PyText] {s s' : TenantDb}

theorem meters_writeEcho (s : TenantDb) (tenantId resultId : Uuid) (tx : EchoTx) :
    Meters s (s.writeEcho tenantId resultId tx) := by
  cases tx with
  | fail detail now => exact .of_eq rfl
  | complete matched upsertFails now clock =>
      obtain ⟨n, signals, evidence, -, heq⟩ := upsertArgusSignals_eq tenantId resultId upsertFails now
        (s.markComplete tenantId resultId matched now) (strongMatches matched)
      unfold writeEcho
      dsimp only
      rw [heq]
      exact meters_meter rfl rfl _ _ _ _

/-- Every operation only adds usage events. -/
theorem Effect.meters (h : Effect s s') : Meters s s' := by
  cases h with
  | same => exact .of_eq rfl
  | source sources => exact .of_eq rfl
  | opened run hid => exact .of_eq rfl
  | batch tx hrun => exact meters_meter rfl rfl _ _ _ _
  | completion tx hrun => exact meters_meter rfl rfl _ _ _ _
  | report n tenantId userId hn reports associations clock => exact meters_meter rfl rfl _ _ _ _
  | attribution attributions userId clock => exact meters_meter rfl rfl _ _ _ _
  | search log clock => exact meters_meter rfl rfl _ _ _ _
  | requested result hid outbox => exact .of_eq rfl
  | echo tenantId resultId tx result hresult hpending => exact meters_writeEcho s _ _ tx
  | failed tenantId resultId detail now => exact .of_eq rfl
  | rollups input n rollups hroll => exact .of_eq rfl
  | accidents store => exact .of_eq rfl

/-- Only a run of the rollups changes them. -/
theorem Effect.rolls (h : Effect s s') : s'.dailyRollups = s.dailyRollups ∨
    s'.usageEvents = s.usageEvents ∧ ∃ input n,
      computeDailyRollups s.usageEvents s.dailyRollups input = .ok (n, s'.dailyRollups) := by
  cases h with
  | rollups input n rollups hroll => exact .inr ⟨rfl, input, n, hroll⟩
  | echo tenantId resultId tx result hresult hpending =>
      cases tx with
      | fail detail now => exact .inl rfl
      | complete matched upsertFails now clock =>
          obtain ⟨n, signals, evidence, -, heq⟩ := upsertArgusSignals_eq tenantId resultId upsertFails
            now (s.markComplete tenantId resultId matched now) (strongMatches matched)
          left
          unfold writeEcho
          dsimp only
          rw [heq]
          rfl
  | _ => exact .inl rfl

end Effects

/-- What is true of the metering tables at all times: rollups are rows of the grid,
one for each cell, which count no more than there is. -/
structure RollupInv (s : TenantDb) : Prop where
  unique : Unique UsageDailyRollup.key s.dailyRollups
  grid : ∀ r ∈ s.dailyRollups, GridCell r.key
  bounded : ∀ r ∈ s.dailyRollups, r.count ≤ tally UsageEvent.cell s.usageEvents r.key
  metered : ∀ u ∈ s.usageEvents, u.tenantId.isSome = u.metricKind.ofTenant

variable [PyText] {s s' : TenantDb}

theorem RollupInv.effect (h : s.RollupInv) (he : Effect s s') : s'.RollupInv := by
  obtain ⟨new, hnew, hwell⟩ := he.meters
  have hmetered : ∀ u ∈ s'.usageEvents, u.tenantId.isSome = u.metricKind.ofTenant := by
    intro u hu
    rw [hnew] at hu
    rcases List.mem_append.mp hu with hu | hu
    · exact h.metered u hu
    · exact hwell u hu
  rcases he.rolls with hsame | ⟨husage, input, n, hroll⟩
  · refine ⟨hsame ▸ h.unique, hsame ▸ h.grid, ?_, hmetered⟩
    intro r hr
    rw [hsame] at hr
    refine (h.bounded r hr).trans ?_
    rw [hnew, tally, tally, List.countP_append]
    exact Nat.le_add_right _ _
  · obtain ⟨ks, hrolled, hcells⟩ := computeDailyRollups_rolled hroll
    refine ⟨hrolled.unique h.unique, ?_, ?_, hmetered⟩
    · intro r hr
      by_cases hk : r.key ∈ ks
      · obtain ⟨e, -, -, hk⟩ := (hcells r.key).mp hk
        exact (mem_dayCells.mp hk).2.1
      · exact h.grid r ((hrolled.others r hk).mp hr)
    · intro r hr
      rw [husage]
      by_cases hk : r.key ∈ ks
      · exact (hrolled.counted r hr hk).le
      · exact h.bounded r ((hrolled.others r hk).mp hr)

theorem Reachable.rollupInv [Deidentification] (h : s.Reachable) : s.RollupInv := by
  obtain ⟨store, categories, subcategories, ops, rfl⟩ := h
  refine Runs.invariant (fun s op hs => hs.effect (step_effect s op)) ?_ ops
  exact ⟨unique_nil _, by simp [empty], by simp [empty], by simp [empty]⟩

end TenantDb

/-! ## Conservation -/

/-- The arguments of a run without a tenant filter. -/
def fullRun (dayFrom dayTo : Day) (moment : Time) : ComputeDailyRollupsInput :=
  ⟨dayFrom, dayTo, none, moment⟩

/-- The rollups of a range account for its usage events: the counts of each day add
up to the events of the day, every row counts the events of its cell, and running
again changes no count. -/
structure Accounts (events : List UsageEvent) (dayFrom dayTo : Day)
    (rollups : List UsageDailyRollup) : Prop where
  totals : ∀ day, dayFrom.ordinal ≤ day → day ≤ dayTo.ordinal →
    rollupTotal rollups day = eventsOn events day
  rows : ∀ r ∈ rollups, dayFrom.ordinal ≤ r.day → r.day ≤ dayTo.ordinal →
    r.count = tally UsageEvent.cell events r.key
  again : ∀ moment, ∃ n rollups',
    computeDailyRollups events rollups (fullRun dayFrom dayTo moment) = .ok (n, rollups') ∧
      ∀ k, (lookup UsageDailyRollup.key k rollups').map UsageDailyRollup.count =
        (lookup UsageDailyRollup.key k rollups).map UsageDailyRollup.count

section Conservation

variable {s : TenantDb} {dayFrom dayTo : Day} {moment : Time} {n : Nat}
  {rollups : List UsageDailyRollup}

/-- The cells that a run without a tenant filter posts for a day. -/
theorem mem_fullRun_cells {e : Day} (he : e.ordinal < PyDate.maxOrdinal)
    {k : Option Uuid × MetricKind × Nat} :
    k ∈ dayCells (dayTenants events (fullRun dayFrom dayTo moment) e) e.ordinal ↔
      k.2.2 = e.ordinal ∧ GridCell k ∧ ∀ t, k.1 = some t →
        ∃ u ∈ events, u.tenantId = some t ∧ utcDay u.recordedAt = e.ordinal := by
  have hbounds : ∃ start stop, dayBounds e = .ok (start, stop) := by
    obtain ⟨next, hnext⟩ := Day.next_of_lt he
    unfold dayBounds
    rw [hnext]
    exact ⟨_, _, rfl⟩
  obtain ⟨start, stop, hbounds⟩ := hbounds
  have htenants : dayTenants events (fullRun dayFrom dayTo moment) e =
      distinctTenantsInRange events start stop := by
    rw [dayTenants, hbounds]
    rfl
  rw [mem_dayCells, htenants]
  simp only [mem_distinctTenantsInRange hbounds]

/-- A day of a range that ends before the last day of the calendar. -/
theorem exists_day {day : Nat} (hfrom : dayFrom.ordinal ≤ day) (hto : day ≤ dayTo.ordinal)
    (hend : dayTo.ordinal ≠ PyDate.maxOrdinal) :
    ∃ e : Day, e.ordinal = day ∧ e.ordinal < PyDate.maxOrdinal := by
  have hpos := dayFrom.pos
  have hmax := dayTo.le_max
  exact ⟨⟨day, by omega, by omega⟩, rfl, by show day < PyDate.maxOrdinal; omega⟩

variable (hs : s.RollupInv)
  (h : computeDailyRollups s.usageEvents s.dailyRollups (fullRun dayFrom dayTo moment) =
    .ok (n, rollups))

include hs h

/-- Every row of the range counts the events of its cell. -/
theorem count_of_fullRun {r : UsageDailyRollup} (hr : r ∈ rollups)
    (hfrom : dayFrom.ordinal ≤ r.day) (hto : r.day ≤ dayTo.ordinal) :
    r.count = tally UsageEvent.cell s.usageEvents r.key := by
  obtain ⟨ks, hrolled, hcells⟩ := computeDailyRollups_rolled h
  by_cases hk : r.key ∈ ks
  · exact hrolled.counted r hr hk
  · -- an older row of a tenant without events on the day
    have hold := (hrolled.others r hk).mp hr
    have hend := computeDailyRollups_isOk.mp ⟨n, rollups, h⟩
    obtain ⟨e, he, hlt⟩ := exists_day hfrom hto hend
    have hnot : ¬ ∀ t, r.tenantId = some t →
        ∃ u ∈ s.usageEvents, u.tenantId = some t ∧ utcDay u.recordedAt = e.ordinal := by
      intro hall
      refine hk ((hcells r.key).mpr ⟨e, he.symm ▸ hfrom, he.symm ▸ hto, ?_⟩)
      exact (mem_fullRun_cells hlt).mpr ⟨he.symm, hs.grid r hold, hall⟩
    simp only [not_forall] at hnot
    obtain ⟨t, ht, hnone⟩ := hnot
    have hzero : tally UsageEvent.cell s.usageEvents r.key = 0 := by
      rw [tally, List.countP_eq_zero]
      intro u hu hcell
      have hcell : u.cell = r.key := by simpa using hcell
      simp only [UsageEvent.cell, UsageDailyRollup.key, Prod.mk.injEq] at hcell
      exact hnone ⟨u, hu, hcell.1.trans ht, hcell.2.2.trans he.symm⟩
    have hle := hs.bounded r hold
    omega

/-- The counts of a day add up to the events whose cell has a row. -/
theorem rollupTotal_of_fullRun {day : Nat} (hfrom : dayFrom.ordinal ≤ day)
    (hto : day ≤ dayTo.ordinal) :
    rollupTotal rollups day = s.usageEvents.countP fun u =>
      u.cell ∈ (rollups.filter fun r => r.day = day).map UsageDailyRollup.key := by
  obtain ⟨ks, hrolled, -⟩ := computeDailyRollups_rolled h
  have hunique : Unique UsageDailyRollup.key (rollups.filter fun r => r.day = day) :=
    (hrolled.unique hs.unique).sublist (List.filter_sublist.map _)
  have hcount : ∀ r ∈ rollups.filter fun r => r.day = day,
      r.count = tally UsageEvent.cell s.usageEvents r.key := by
    intro r hr
    rw [List.mem_filter, decide_eq_true_eq] at hr
    rw [← hr.2] at hfrom hto
    exact count_of_fullRun hs h hr.1 hfrom hto
  rw [rollupTotal, sum_count hunique hcount]
  apply List.countP_congr
  intro u _
  simp only [decide_eq_true_eq]

/-- An event that is no Echo run has a row. -/
theorem cell_mem_of_fullRun {u : UsageEvent} (hu : u ∈ s.usageEvents)
    (hne : u.metricKind ≠ .echoCrossrefRun) (hfrom : dayFrom.ordinal ≤ utcDay u.recordedAt)
    (hto : utcDay u.recordedAt ≤ dayTo.ordinal) :
    ∃ r ∈ rollups, r.key = u.cell := by
  obtain ⟨ks, hrolled, hcells⟩ := computeDailyRollups_rolled h
  obtain ⟨e, he, hlt⟩ := exists_day hfrom hto (computeDailyRollups_isOk.mp ⟨n, rollups, h⟩)
  have hgrid : GridCell u.cell := by
    have hwell := hs.metered u hu
    unfold GridCell UsageEvent.cell
    cases htenant : u.tenantId with
    | none =>
        rw [htenant] at hwell
        cases hmetric : u.metricKind <;> simp_all [MetricKind.ofTenant, systemMetrics]
    | some t =>
        rw [htenant] at hwell
        cases hmetric : u.metricKind <;> simp_all [MetricKind.ofTenant, tenantScopedMetrics]
  apply hrolled.present
  refine (hcells u.cell).mpr ⟨e, he.symm ▸ hfrom, he.symm ▸ hto, ?_⟩
  exact (mem_fullRun_cells hlt).mpr ⟨he.symm, hgrid, fun t ht => ⟨u, hu, ht, he.symm⟩⟩

/-- No row counts an Echo run. -/
theorem echo_not_mem_of_fullRun {r : UsageDailyRollup} (hr : r ∈ rollups) :
    r.metricKind ≠ .echoCrossrefRun := by
  obtain ⟨ks, hrolled, hcells⟩ := computeDailyRollups_rolled h
  have hgrid : GridCell r.key := by
    by_cases hk : r.key ∈ ks
    · obtain ⟨e, -, -, hk⟩ := (hcells r.key).mp hk
      exact (mem_dayCells.mp hk).2.1
    · exact hs.grid r ((hrolled.others r hk).mp hr)
  intro hecho
  unfold GridCell UsageDailyRollup.key at hgrid
  rw [hecho] at hgrid
  cases htenant : r.tenantId <;> simp [htenant, tenantScopedMetrics, systemMetrics] at hgrid

/-- Running again changes no count. -/
theorem again_of_fullRun (moment' : Time) : ∃ n' rollups',
    computeDailyRollups s.usageEvents rollups (fullRun dayFrom dayTo moment') = .ok (n', rollups') ∧
      ∀ k, (lookup UsageDailyRollup.key k rollups').map UsageDailyRollup.count =
        (lookup UsageDailyRollup.key k rollups).map UsageDailyRollup.count := by
  have hend := computeDailyRollups_isOk.mp ⟨n, rollups, h⟩
  have hok : ∃ n' rollups', computeDailyRollups s.usageEvents rollups
      (fullRun dayFrom dayTo moment') = .ok (n', rollups') := computeDailyRollups_isOk.mpr hend
  obtain ⟨n', rollups', h'⟩ := hok
  refine ⟨n', rollups', h', ?_⟩
  obtain ⟨ks, hrolled, hcells⟩ := computeDailyRollups_rolled h
  obtain ⟨ks', hrolled', hcells'⟩ := computeDailyRollups_rolled h'
  have hsame : ∀ k, k ∈ ks' ↔ k ∈ ks := by
    intro k
    rw [hcells, hcells']
    rfl
  intro k
  by_cases hk : k ∈ ks
  · rw [hrolled'.lookup_of_mem ((hsame k).mpr hk), hrolled.lookup_of_mem hk]
  · rw [hrolled'.lookup_of_not_mem (hrolled.unique hs.unique) (mt (hsame k).mp hk)]

end Conservation

/-- **Metering conserves counts.**  After any operations, the rollups that a run
without a tenant filter computes for a range account for its usage events exactly
when the range does not end on the last day of the calendar and no Echo run was
metered on one of its days. -/
theorem rollups_account_iff [PyText] [TenantDb.Deidentification] {s : TenantDb} (hs : s.Reachable)
    (dayFrom dayTo : Day) (moment : Time) :
    (∃ n rollups, computeDailyRollups s.usageEvents s.dailyRollups
        (fullRun dayFrom dayTo moment) = .ok (n, rollups) ∧
        Accounts s.usageEvents dayFrom dayTo rollups) ↔
      dayTo.ordinal ≠ PyDate.maxOrdinal ∧
        ∀ u ∈ s.usageEvents, dayFrom.ordinal ≤ utcDay u.recordedAt →
          utcDay u.recordedAt ≤ dayTo.ordinal → u.metricKind ≠ .echoCrossrefRun := by
  have hinv := hs.rollupInv
  constructor
  · rintro ⟨n, rollups, hok, haccounts⟩
    refine ⟨computeDailyRollups_isOk.mp ⟨n, rollups, hok⟩, ?_⟩
    intro u hu hfrom hto hecho
    have htotal := haccounts.totals _ hfrom hto
    rw [rollupTotal_of_fullRun hinv hok hfrom hto, eventsOn] at htotal
    have hcovered := of_countP_eq (fun v hv => ?_) htotal u hu (by simp)
    · rw [decide_eq_true_eq, List.mem_map] at hcovered
      obtain ⟨r, hr, hkey⟩ := hcovered
      have hmetric : r.metricKind = u.metricKind := congrArg (fun k => k.2.1) hkey
      exact echo_not_mem_of_fullRun hinv hok (List.mem_of_mem_filter hr) (hmetric.trans hecho)
    · rw [decide_eq_true_eq, List.mem_map] at hv
      obtain ⟨r, hr, hkey⟩ := hv
      rw [List.mem_filter, decide_eq_true_eq] at hr
      have hday : r.day = utcDay v.recordedAt := congrArg (fun k => k.2.2) hkey
      simp [← hday, hr.2]
  · rintro ⟨hend, hnone⟩
    obtain ⟨n, rollups, hok⟩ : ∃ n rollups, computeDailyRollups s.usageEvents s.dailyRollups
        (fullRun dayFrom dayTo moment) = .ok (n, rollups) := computeDailyRollups_isOk.mpr hend
    refine ⟨n, rollups, hok, ?_, ?_, again_of_fullRun hinv hok⟩
    · intro day hfrom hto
      rw [rollupTotal_of_fullRun hinv hok hfrom hto, eventsOn]
      apply List.countP_congr
      intro u hu
      simp only [decide_eq_true_eq, List.mem_map]
      constructor
      · rintro ⟨r, hr, hkey⟩
        rw [List.mem_filter, decide_eq_true_eq] at hr
        have hday : r.day = utcDay u.recordedAt := congrArg (fun k => k.2.2) hkey
        rw [← hday, hr.2]
      · intro hday
        rw [← hday] at hfrom hto
        obtain ⟨r, hr, hkey⟩ := cell_mem_of_fullRun hinv hok hu (hnone u hu hfrom hto) hfrom hto
        have hrday : r.day = utcDay u.recordedAt := congrArg (fun k => k.2.2) hkey
        exact ⟨r, by simp [hr, hrday, hday], hkey⟩
    · intro r hr hfrom hto
      exact count_of_fullRun hinv hok hr hfrom hto

/-- The first day of the calendar, on which the small runs below take place. -/
def firstDay : Day := ⟨1, by decide, by decide⟩

/-- A report and a query. -/
def reportAndQuery : TenantDb :=
  TenantDb.after (Db.empty []) [] [] [fatigueReport, .nlSearch "fatigue" 0 fun _ => 0]

/-- Both are accounted for. -/
theorem reportAndQuery_accounted :
    ∃ n rollups, computeDailyRollups reportAndQuery.usageEvents reportAndQuery.dailyRollups
      (fullRun firstDay firstDay 0) = .ok (n, rollups) ∧
      Accounts reportAndQuery.usageEvents firstDay firstDay rollups := by
  refine (rollups_account_iff ⟨_, _, _, _, rfl⟩ firstDay firstDay 0).mpr ⟨by decide, ?_⟩
  intro u hu _ _
  have hall : ∀ u ∈ reportAndQuery.usageEvents, u.metricKind ≠ .echoCrossrefRun := by decide +kernel
  exact hall u hu

/-- The report is cross-referenced: its result has id 1. -/
def reportEchoed : TenantDb :=
  TenantDb.after (Db.empty []) [] []
    [fatigueReport, .requestEcho ⟨⟨70, 70, .owner⟩, 0⟩,
      .runEcho ⟨70, 1, true, fun _ => .ok [], fun _ => false, 0, fun _ => 0⟩]

/-- The Echo run is metered, and no rollup counts it. -/
theorem echo_run_not_rolled_up :
    ¬ ∃ n rollups, computeDailyRollups reportEchoed.usageEvents reportEchoed.dailyRollups
      (fullRun firstDay firstDay 0) = .ok (n, rollups) ∧
      Accounts reportEchoed.usageEvents firstDay firstDay rollups := by
  rintro ⟨n, rollups, hok, haccounts⟩
  have htotal := haccounts.totals 1 le_rfl le_rfl
  have hevents : eventsOn reportEchoed.usageEvents 1 = 2 := by decide +kernel
  have hcounts : ((computeDailyRollups reportEchoed.usageEvents reportEchoed.dailyRollups
      (fullRun firstDay firstDay 0)).toOption.map fun p => rollupTotal p.2 1) = some 1 := by
    decide +kernel
  rw [hok] at hcounts
  simp only [Except.toOption, Option.map_some, Option.some.injEq] at hcounts
  omega

end Atlas
