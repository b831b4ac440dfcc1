import Atlas.Lib.Selections
import Atlas.TenantCalls

/-!
# The rows of one tenant

Every use case filters what it reads by the tenant of its caller and writes rows of that tenant.
So a tenant's operation makes of its rows in the shared tables what it makes of them alone, and
an operation of another tenant leaves them as they are.  The rollups of all tenants are computed
together; those of one tenant come from its own usage.
-/

namespace Atlas

open Outcome Rows Selections

/-! ## One operation on the rows of one tenant -/

namespace TenantDb

variable {a : Uuid} {s s' : TenantDb}

theorem view_view (a : Uuid) (s : TenantDb) : (s.view a).view a = s.view a := by
  unfold view ownRows
  simp only [filter_within fun x h => h]

theorem view_ownRows (a : Uuid) (s : TenantDb) : (s.ownRows a).view a = s.view a := by
  unfold view ownRows
  simp only [filter_within fun x h => h]

/-! ### What the tenant reads -/

theorem getSource_own (id : Uuid) : (s.ownRows a).getSource a id = s.getSource a id :=
  find?_within (by simp)

theorem getRun_own (id : Uuid) : (s.ownRows a).getRun a id = s.getRun a id :=
  find?_within (by simp)

theorem getReport_own (id : Uuid) : (s.ownRows a).getReport a id = s.getReport a id :=
  find?_within (by simp)

theorem getCrossrefResult_own (id : Uuid) :
    (s.ownRows a).getCrossrefResult a id = s.getCrossrefResult a id :=
  find?_within (by simp [isResult])

theorem tenantId_of_same {c : Caller} {u : Unit} (hc : c.callerTenantId = a)
    (h : requireSameTenant c = .ok u) : c.tenantId = a := by
  unfold requireSameTenant at h
  rw [require_ok] at h
  exact h.symm.trans hc

theorem readBatch_own {input : SubmitTenantClaimsBatchInput}
    (hc : input.caller.callerTenantId = a) : (s.ownRows a).readBatch input = s.readBatch input := by
  unfold readBatch
  apply bind_congr_ok
  intro u hu
  rw [tenantId_of_same hc hu, getRun_own]
  rfl

theorem readCompletion_own {input : CompleteTenantIngestionRunInput}
    (hc : input.caller.callerTenantId = a) :
    (s.ownRows a).readCompletion input = s.readCompletion input := by
  unfold readCompletion
  apply bind_congr_ok
  intro u hu
  rw [tenantId_of_same hc hu, getRun_own]

theorem readEcho_own {input : RunEchoCrossReferenceInput} (ht : input.tenantId = a) :
    (s.ownRows a).readEcho input = s.readEcho input := by
  unfold readEcho
  simp only [ht, getCrossrefResult_own, getReport_own]

/-! ### What the tenant writes -/

/-- A usage event of any tenant. -/
theorem meter_own (metricKind : MetricKind) (tenantId userId resourceId : Option Uuid) (quantity : Nat)
    (clock : Nat → Time) (h : s.view a = s'.view a) :
    (s.meter metricKind tenantId userId resourceId quantity clock).view a =
      (s'.meter metricKind tenantId userId resourceId quantity clock).view a := by
  unfold view ownRows at h ⊢
  unfold meter record
  simp only [TenantDb.mk.injEq] at h ⊢
  simp only [List.filter_append]
  simp only [h, and_self]

/-- A usage event of another tenant, or of none. -/
theorem meter_other {tenantId : Option Uuid} (ht : tenantId ≠ some a) (metricKind : MetricKind)
    (userId resourceId : Option Uuid) (quantity : Nat) (clock : Nat → Time) :
    (s.meter metricKind tenantId userId resourceId quantity clock).view a = s.view a := by
  unfold view ownRows
  unfold meter record
  simp only [TenantDb.mk.injEq, true_and, and_true]
  apply append_outside
  intro u hu
  obtain ⟨i, -, rfl⟩ := List.mem_map.mp hu
  exact decide_eq_false ht

theorem writeBatch_own (tx : BatchTx) : ((s.ownRows a).writeBatch tx).view a = (s.writeBatch tx).view a := by
  unfold writeBatch
  apply meter_own
  simp [view, ownRows]

theorem writeBatch_other {tx : BatchTx} (ht : tx.run.tenantId ≠ a) :
    (s.writeBatch tx).view a = s.view a := by
  unfold writeBatch
  rw [meter_other fun h => ht (Option.some.inj h)]
  unfold view ownRows
  simp only [TenantDb.mk.injEq, true_and, and_true]
  apply append_outside
  intro c hc
  obtain ⟨p, -, rfl⟩ := List.mem_map.mp hc
  exact decide_eq_false ht

theorem writeCompletion_own (tx : CompletionTx) :
    ((s.ownRows a).writeCompletion tx).view a = (s.writeCompletion tx).view a := by
  unfold writeCompletion
  apply meter_own
  unfold updateRunStatus view ownRows
  simp only [filter_within fun x h => h]
  rw [updateWhere_within]
  intro r
  rfl

theorem writeCompletion_other {tx : CompletionTx} (ht : tx.run.tenantId ≠ a) :
    (s.writeCompletion tx).view a = s.view a := by
  unfold writeCompletion
  rw [meter_other fun h => ht (Option.some.inj h)]
  unfold updateRunStatus view ownRows
  dsimp only
  rw [updateWhere_outside]
  · intro r
    rfl
  · intro r hr
    rw [decide_eq_true_eq] at hr
    exact decide_eq_false fun h => ht (hr.2.symm.trans h)

theorem updatePending_own (tenantId resultId : Uuid) {f : TenantCrossrefResult → TenantCrossrefResult}
    (hf : ∀ r, (f r).tenantId = r.tenantId) :
    ((s.ownRows a).updatePending tenantId resultId f).view a =
      (s.updatePending tenantId resultId f).view a := by
  unfold updatePending view ownRows
  simp only [filter_within fun x h => h]
  rw [updateWhere_within]
  intro r
  rw [hf]

theorem updatePending_other {tenantId : Uuid} (ht : tenantId ≠ a) (resultId : Uuid)
    {f : TenantCrossrefResult → TenantCrossrefResult} (hf : ∀ r, (f r).tenantId = r.tenantId) :
    (s.updatePending tenantId resultId f).view a = s.view a := by
  unfold updatePending view ownRows
  dsimp only
  rw [updateWhere_outside]
  · intro r
    rw [hf]
  · intro r hr
    simp only [isResult, decide_eq_true_eq] at hr
    exact decide_eq_false fun h => ht (hr.1.2.symm.trans h)

section Echo

variable [PyText]

/-- The signals of a run are no tenant's. -/
theorem signals_view (tenantId resultId : Uuid) (upsertFails : Uuid → Bool) (now : Time)
    (s : TenantDb) (ms : List PrecedentMatch) :
    (ms.foldl (upsertArgusSignal tenantId resultId upsertFails now) s).view a = s.view a := by
  obtain ⟨n, signals, evidence, -, heq⟩ :=
    upsertArgusSignals_eq tenantId resultId upsertFails now s ms
  rw [heq]
  rfl

theorem writeEcho_own (tenantId resultId : Uuid) (tx : EchoTx) :
    ((s.ownRows a).writeEcho tenantId resultId tx).view a = (s.writeEcho tenantId resultId tx).view a := by
  cases tx with
  | fail detail now => exact updatePending_own tenantId resultId fun r => rfl
  | complete matched upsertFails now clock =>
      unfold writeEcho
      apply meter_own
      rw [signals_view, signals_view]
      exact updatePending_own tenantId resultId fun r => rfl

theorem writeEcho_other {tenantId : Uuid} (ht : tenantId ≠ a) (resultId : Uuid) (tx : EchoTx) :
    (s.writeEcho tenantId resultId tx).view a = s.view a := by
  cases tx with
  | fail detail now => exact updatePending_other ht resultId fun r => rfl
  | complete matched upsertFails now clock =>
      unfold writeEcho
      dsimp only
      rw [meter_other fun h => ht (Option.some.inj h), signals_view]
      exact updatePending_other ht resultId fun r => rfl

end Echo

/-! ### The use cases -/

/-- What a call returns, with what it leaves of the tenant. -/
def owned {α : Type} (a : Uuid) (r : Except TenancyError (α × TenantDb)) :
    Except TenancyError (α × TenantDb) :=
  r.map fun p => (p.1, p.2.view a)

section Owned

variable {α β : Type} {r r' : Except TenancyError (α × TenantDb)}

theorem owned_bind {x : Except TenancyError β} {f g : β → Except TenancyError (α × TenantDb)}
    (h : ∀ y, x = .ok y → owned a (f y) = owned a (g y)) : owned a (x >>= f) = owned a (x >>= g) :=
  map_bind_congr h

theorem owned_pure {x : α} (h : s.view a = s'.view a) :
    owned a (pure (x, s)) = owned a (pure (x, s')) := by
  show Except.ok (x, s.view a) = Except.ok (x, s'.view a)
  rw [h]

theorem orElse_own (h : owned a r = owned a r') (hs : s.view a = s'.view a) :
    (s.orElse r).view a = (s'.orElse r').view a := by
  obtain ⟨e, rfl, rfl⟩ | ⟨p, p', rfl, rfl, hp⟩ := cases_of_map_eq h
  · exact hs
  · exact congrArg Prod.snd hp

theorem orElse_other (h : ∀ x s', r = .ok (x, s') → s'.view a = s.view a) :
    (s.orElse r).view a = s.view a := by
  cases r with
  | error e => rfl
  | ok p => exact h p.1 p.2 rfl

end Owned

theorem registerTenantSource_own {input : RegisterTenantSourceInput}
    (hc : input.caller.callerTenantId = a) :
    owned a ((s.ownRows a).registerTenantSource input) = owned a (s.registerTenantSource input) := by
  unfold registerTenantSource
  refine owned_bind fun u hu => owned_bind fun u' _ => ?_
  have ha := tenantId_of_same hc hu
  have hnames : (∀ x ∈ (s.ownRows a).sources, ¬ (x.tenantId = input.caller.tenantId ∧
      x.name = input.name)) ↔ ∀ x ∈ s.sources, ¬ (x.tenantId = input.caller.tenantId ∧
      x.name = input.name) := by
    constructor
    · intro h x hx hboth
      exact h x (List.mem_filter.mpr ⟨hx, decide_eq_true (hboth.1.trans ha)⟩) hboth
    · exact fun h x hx => h x (List.mem_filter.mp hx).1
  rw [require_congr hnames]
  refine owned_bind fun _ _ => owned_pure ?_
  simp [view, ownRows]

theorem openTenantIngestionRun_own {input : OpenTenantIngestionRunInput}
    (hc : input.caller.callerTenantId = a) :
    owned a ((s.ownRows a).openTenantIngestionRun input) =
      owned a (s.openTenantIngestionRun input) := by
  unfold openTenantIngestionRun
  refine owned_bind fun u hu => owned_bind fun u' _ => ?_
  rw [tenantId_of_same hc hu, getSource_own]
  refine owned_bind fun _ _ => owned_pure ?_
  simp [view, ownRows]

theorem submitTenantClaimsBatch_own {input : SubmitTenantClaimsBatchInput}
    (hc : input.caller.callerTenantId = a) :
    owned a ((s.ownRows a).submitTenantClaimsBatch input) =
      owned a (s.submitTenantClaimsBatch input) := by
  unfold submitTenantClaimsBatch
  rw [readBatch_own hc]
  apply owned_bind
  intro read _
  cases read with
  | none => exact owned_pure (view_ownRows a s)
  | some tx => exact owned_pure (writeBatch_own tx)

theorem completeTenantIngestionRun_own {input : CompleteTenantIngestionRunInput}
    (hc : input.caller.callerTenantId = a) :
    owned a ((s.ownRows a).completeTenantIngestionRun input) =
      owned a (s.completeTenantIngestionRun input) := by
  unfold completeTenantIngestionRun
  rw [readCompletion_own hc]
  exact owned_bind fun tx _ => owned_pure (writeCompletion_own tx)

theorem addAssociation_own (input : SubmitTenantSafetyReportInput) (reportId : Uuid)
    (hid : s.nextId = s'.nextId) (h : s.view a = s'.view a) :
    (s.addAssociation input reportId).1 = (s'.addAssociation input reportId).1 ∧
      (s.addAssociation input reportId).2.view a = (s'.addAssociation input reportId).2.view a := by
  unfold addAssociation
  cases input.associateWithEventId with
  | none => exact ⟨rfl, h⟩
  | some eventId =>
      unfold view ownRows at h ⊢
      simp only [TenantDb.mk.injEq, uuid4] at h ⊢
      simp only [List.filter_append, hid, h, and_self]

theorem submitTenantSafetyReport_own [Deidentification] {input : SubmitTenantSafetyReportInput} :
    owned a ((s.ownRows a).submitTenantSafetyReport input) =
      owned a (s.submitTenantSafetyReport input) := by
  unfold submitTenantSafetyReport
  refine owned_bind fun _ _ => owned_bind fun _ _ => owned_bind fun _ _ => owned_bind fun cleaned _ => ?_
  refine owned_bind fun _ _ => ?_
  let report : TenantSafetyReport :=
    ⟨s.nextId, input.caller.tenantId, input.reportKind, cleaned, true, input.externalReportRef,
      input.submitterUserId⟩
  let filed (s : TenantDb) : TenantDb :=
    { s with nextId := s.nextId + 1, safetyReports := s.safetyReports ++ [report] }
  have hfiled : (filed (s.ownRows a)).view a = (filed s).view a := by
    simp [filed, view, ownRows]
  obtain ⟨hassociation, hleft⟩ :=
    @addAssociation_own a (filed (s.ownRows a)) (filed s) input s.nextId rfl hfiled
  have hmetered := meter_own .tenantReportFiled (some input.caller.tenantId)
    (some input.submitterUserId) (some s.nextId) 1 input.clock hleft
  show Except.ok (_, _) = Except.ok (_, _)
  exact congrArg Except.ok (Prod.ext (congrArg (SubmitTenantSafetyReportResult.mk report · _)
    hassociation) hmetered)

theorem requestEchoCrossReference_own {input : RequestEchoCrossReferenceInput}
    (hc : input.caller.callerTenantId = a) :
    owned a ((s.ownRows a).requestEchoCrossReference input) =
      owned a (s.requestEchoCrossReference input) := by
  unfold requestEchoCrossReference
  refine owned_bind fun u hu => owned_bind fun u' _ => ?_
  rw [tenantId_of_same hc hu, getReport_own]
  refine owned_bind fun _ _ => owned_pure ?_
  simp [view, ownRows]

theorem runEchoCrossReference_own [PyText] {input : RunEchoCrossReferenceInput}
    (ht : input.tenantId = a) :
    ((s.ownRows a).runEchoCrossReference input).view a = (s.runEchoCrossReference input).view a := by
  unfold runEchoCrossReference
  rw [readEcho_own ht]
  cases s.readEcho input with
  | error e => exact view_ownRows a s
  | ok tx => exact writeEcho_own _ _ tx

/-! ### The use cases of another tenant -/

section Other

theorem tenantId_ne_of_same {c : Caller} {u : Unit} (hc : c.callerTenantId ≠ a)
    (h : requireSameTenant c = .ok u) : c.tenantId ≠ a := by
  unfold requireSameTenant at h
  rw [require_ok] at h
  rwa [← h]

theorem registerTenantSource_other {input : RegisterTenantSourceInput}
    (hc : input.caller.callerTenantId ≠ a) :
    (s.orElse (s.registerTenantSource input)).view a = s.view a := by
  refine orElse_other fun source s' h => ?_
  unfold registerTenantSource at h
  simp only [bind_ok, pure_ok, Prod.mk.injEq] at h
  obtain ⟨_, hsame, _, _, _, _, _, rfl⟩ := h
  have hne := tenantId_ne_of_same hc hsame
  unfold view ownRows uuid4
  simp only [TenantDb.mk.injEq, true_and, and_true]
  exact filter_append_single (decide_eq_false hne)

theorem openTenantIngestionRun_other {input : OpenTenantIngestionRunInput}
    (hc : input.caller.callerTenantId ≠ a) :
    (s.orElse (s.openTenantIngestionRun input)).view a = s.view a := by
  refine orElse_other fun run s' h => ?_
  obtain ⟨hrun, rfl⟩ := openTenantIngestionRun_ok h
  unfold openTenantIngestionRun at h
  simp only [bind_ok] at h
  obtain ⟨_, hsame, _⟩ := h
  have hne := tenantId_ne_of_same hc hsame
  unfold view ownRows
  simp only [TenantDb.mk.injEq, true_and, and_true]
  apply filter_append_single
  rw [hrun]
  exact decide_eq_false hne

theorem submitTenantClaimsBatch_other {input : SubmitTenantClaimsBatchInput}
    (hc : input.caller.callerTenantId ≠ a) :
    (s.orElse (s.submitTenantClaimsBatch input)).view a = s.view a := by
  refine orElse_other fun n s' h => ?_
  unfold submitTenantClaimsBatch at h
  rw [bind_ok] at h
  obtain ⟨read, hread, h⟩ := h
  cases read with
  | none =>
      rw [pure_ok, Prod.mk.injEq] at h
      rw [← h.2]
  | some tx =>
      rw [pure_ok, Prod.mk.injEq] at h
      have hrun := (mem_of_getRun (readBatch_some hread).1).2.2
      unfold readBatch at hread
      rw [bind_ok] at hread
      obtain ⟨_, hsame, _⟩ := hread
      rw [← h.2]
      apply writeBatch_other
      rw [hrun]
      exact tenantId_ne_of_same hc hsame

theorem completeTenantIngestionRun_other {input : CompleteTenantIngestionRunInput}
    (hc : input.caller.callerTenantId ≠ a) :
    (s.orElse (s.completeTenantIngestionRun input)).view a = s.view a := by
  refine orElse_other fun run s' h => ?_
  unfold completeTenantIngestionRun at h
  simp only [bind_ok, pure_ok, Prod.mk.injEq] at h
  obtain ⟨tx, hread, _, rfl⟩ := h
  have hrun := (mem_of_getRun (readCompletion_ok hread).1).2.2
  unfold readCompletion at hread
  rw [bind_ok] at hread
  obtain ⟨_, hsame, _⟩ := hread
  apply writeCompletion_other
  rw [hrun]
  exact tenantId_ne_of_same hc hsame

theorem addAssociation_other {input : SubmitTenantSafetyReportInput} (ht : input.caller.tenantId ≠ a)
    (reportId : Uuid) : (s.addAssociation input reportId).2.view a = s.view a := by
  unfold addAssociation
  cases input.associateWithEventId with
  | none => rfl
  | some eventId =>
      unfold view ownRows uuid4
      simp only [TenantDb.mk.injEq, true_and, and_true]
      exact filter_append_single (decide_eq_false ht)

theorem submitTenantSafetyReport_other [Deidentification] {input : SubmitTenantSafetyReportInput}
    (hc : input.caller.callerTenantId ≠ a) :
    (s.orElse (s.submitTenantSafetyReport input)).view a = s.view a := by
  refine orElse_other fun result s' h => ?_
  unfold submitTenantSafetyReport at h
  simp only [bind_ok, pure_ok, Prod.mk.injEq] at h
  obtain ⟨_, hsame, _, _, _, _, cleaned, _, _, _, _, rfl⟩ := h
  have hne := tenantId_ne_of_same hc hsame
  rw [meter_other fun h => hne (Option.some.inj h), addAssociation_other hne]
  unfold view ownRows uuid4
  simp only [TenantDb.mk.injEq, true_and, and_true]
  exact filter_append_single (decide_eq_false hne)

theorem attachEventHfacsAttribution_other (input : AttachHfacsAttributionInput) :
    (s.orElse (s.attachEventHfacsAttribution input)).view a = s.view a := by
  refine orElse_other fun attribution s' h => ?_
  unfold attachEventHfacsAttribution at h
  simp only [bind_ok, pure_ok, Prod.mk.injEq] at h
  obtain ⟨_, _, _, _, _, _, _, _, _, rfl⟩ := h
  rw [meter_other (Option.some_ne_none a).symm]
  rfl

theorem requestEchoCrossReference_other {input : RequestEchoCrossReferenceInput}
    (hc : input.caller.callerTenantId ≠ a) :
    (s.orElse (s.requestEchoCrossReference input)).view a = s.view a := by
  refine orElse_other fun id s' h => ?_
  obtain ⟨-, rfl⟩ := requestEchoCrossReference_ok h
  unfold requestEchoCrossReference at h
  rw [bind_ok] at h
  obtain ⟨_, hsame, _⟩ := h
  have hne := tenantId_ne_of_same hc hsame
  unfold view ownRows
  simp only [TenantDb.mk.injEq, true_and, and_true]
  exact filter_append_single (decide_eq_false hne)

theorem runEchoCrossReference_other [PyText] {input : RunEchoCrossReferenceInput}
    (ht : input.tenantId ≠ a) : (s.runEchoCrossReference input).view a = s.view a := by
  unfold runEchoCrossReference
  cases s.readEcho input with
  | error e => rfl
  | ok tx => exact writeEcho_other ht _ tx

end Other

end TenantDb

/-! ## Rollups on the rows of one tenant -/

section Rollups

variable {a : Uuid} {events : List UsageEvent} {rollups rollups' : List UsageDailyRollup}

/-- The rollups of one tenant. -/
def ownRollups (a : Uuid) (rollups : List UsageDailyRollup) : List UsageDailyRollup :=
  rollups.filter fun r => decide (r.tenantId = some a)

/-- Its usage. -/
def ownUsage (a : Uuid) (events : List UsageEvent) : List UsageEvent :=
  events.filter fun u => decide (u.tenantId = some a)

theorem upsertRollup_own (r : UsageDailyRollup) (h : ownRollups a rollups = ownRollups a rollups') :
    ownRollups a (upsertRollup rollups r) = ownRollups a (upsertRollup rollups' r) := by
  have hown : ∀ rollups, ownRollups a (upsertRollup (ownRollups a rollups) r) =
      ownRollups a (upsertRollup rollups r) := by
    intro rollups
    apply upsertWith_within
    · intro x hx
      have ht : x.tenantId = r.tenantId := congrArg Prod.fst hx
      simp only [ht]
    · intro x
      rfl
  rw [← hown rollups, ← hown rollups', h]

theorem upsertRollup_other {r : UsageDailyRollup} (ht : r.tenantId ≠ some a) :
    ownRollups a (upsertRollup rollups r) = ownRollups a rollups := by
  apply upsertWith_outside
  · intro x hx
    have hx : x.tenantId = r.tenantId := congrArg Prod.fst hx
    exact decide_eq_false (hx ▸ ht)
  · intro x
    rfl

variable {moment : Time} {day : Day} {start stop : Time} {metrics : List MetricKind}

theorem rollupMetrics_own (h : ownRollups a rollups = ownRollups a rollups') :
    ownRollups a (rollupMetrics (ownUsage a events) moment day start stop (some a) metrics rollups) =
      ownRollups a (rollupMetrics events moment day start stop (some a) metrics rollups') := by
  unfold rollupMetrics
  induction metrics generalizing rollups rollups' with
  | nil => exact h
  | cons metric metrics ih =>
      rw [List.foldl_cons, List.foldl_cons]
      have hcount : countInRange (ownUsage a events) (some a) metric start stop =
          countInRange events (some a) metric start stop := by
        unfold countInRange ownUsage
        rw [List.countP_filter]
        apply List.countP_congr
        intro u _
        simp only [Bool.and_eq_true, decide_eq_true_eq]
        tauto
      rw [hcount]
      exact ih (upsertRollup_own _ h)

theorem rollupMetrics_other {tenantId : Option Uuid} (ht : tenantId ≠ some a) :
    ownRollups a (rollupMetrics events moment day start stop tenantId metrics rollups) =
      ownRollups a rollups := by
  unfold rollupMetrics
  induction metrics generalizing rollups with
  | nil => rfl
  | cons metric metrics ih =>
      rw [List.foldl_cons, ih]
      exact upsertRollup_other ht

/-- Of the tenants of a day, only the tenant itself matters. -/
theorem rollupTenants_own {tenants : List Uuid} (h : ownRollups a rollups = ownRollups a rollups') :
    ownRollups a (tenants.foldl (fun rollups t =>
        rollupMetrics events moment day start stop (some t) metrics rollups) rollups) =
      ownRollups a ((tenants.filter fun t => decide (t = a)).foldl (fun rollups t =>
        rollupMetrics (ownUsage a events) moment day start stop (some t) metrics rollups) rollups') := by
  induction tenants generalizing rollups rollups' with
  | nil => exact h
  | cons t tenants ih =>
      rw [List.foldl_cons]
      by_cases ht : t = a
      · rw [List.filter_cons_of_pos (by simpa using ht), List.foldl_cons, ht]
        exact ih (rollupMetrics_own h.symm).symm
      · rw [List.filter_cons_of_neg (by simpa using ht)]
        apply ih
        rw [rollupMetrics_other (by simpa using ht), h]

theorem filter_eq_of_nodup {ts ts' : List Uuid} (h : ts.Nodup) (h' : ts'.Nodup)
    (hmem : a ∈ ts ↔ a ∈ ts') :
    (ts.filter fun t => decide (t = a)) = ts'.filter fun t => decide (t = a) := by
  rw [List.filter_eq, List.filter_eq, h.count, h'.count]
  simp only [hmem]

theorem mem_distinctTenants_own {start stop : Time} :
    a ∈ distinctTenantsInRange (ownUsage a events) start stop ↔
      a ∈ distinctTenantsInRange events start stop := by
  unfold distinctTenantsInRange ownUsage
  simp only [mem_distinct, List.mem_filterMap, List.mem_filter, decide_eq_true_eq]
  constructor
  · rintro ⟨u, ⟨⟨hu, _⟩, hrange⟩, ht⟩
    exact ⟨u, ⟨hu, hrange⟩, ht⟩
  · rintro ⟨u, ⟨hu, hrange⟩, ht⟩
    exact ⟨u, ⟨⟨hu, ht⟩, hrange⟩, ht⟩

/-- The tenants of a day, as far as the tenant is among them. -/
theorem tenantsOfDay_own (tenantIds : Option (List Uuid)) (start stop : Time) :
    ((tenantIds.getD (distinctTenantsInRange (ownUsage a events) start stop)).filter
        fun t => decide (t = a)) =
      (tenantIds.getD (distinctTenantsInRange events start stop)).filter fun t => decide (t = a) := by
  cases tenantIds with
  | some tenantIds => rfl
  | none =>
      exact filter_eq_of_nodup (nodup_distinct _) (nodup_distinct _) mem_distinctTenants_own

theorem ownUsage_ownUsage : ownUsage a (ownUsage a events) = ownUsage a events :=
  filter_within fun _ h => h

theorem rollupDay_own (input : ComputeDailyRollupsInput) (day : Day)
    {acc acc' : Nat × List UsageDailyRollup} (h : ownRollups a acc.2 = ownRollups a acc'.2) :
    ((rollupDay (ownUsage a events) input day acc).map fun p => ownRollups a p.2) =
      (rollupDay events input day acc').map fun p => ownRollups a p.2 := by
  unfold rollupDay
  cases dayBounds day with
  | error e => rfl
  | ok bounds =>
      refine congrArg Except.ok ?_
      dsimp only
      rw [rollupMetrics_other (Option.some_ne_none a).symm,
        rollupMetrics_other (Option.some_ne_none a).symm]
      refine (rollupTenants_own h).trans ?_
      rw [ownUsage_ownUsage, tenantsOfDay_own]
      exact (rollupTenants_own rfl).symm

/-- **Rollups of the tenant.**  They come from its usage and its rollups. -/
theorem rollupDays_own (input : ComputeDailyRollupsInput) (n : Nat) (day : Day)
    {acc acc' : Nat × List UsageDailyRollup} (h : ownRollups a acc.2 = ownRollups a acc'.2) :
    ((rollupDays (ownUsage a events) input n day acc).map fun p => ownRollups a p.2) =
      (rollupDays events input n day acc').map fun p => ownRollups a p.2 := by
  induction n generalizing day acc acc' with
  | zero => exact congrArg Except.ok h
  | succ n ih =>
      rw [rollupDays, rollupDays]
      have hday : ((rollupDay (ownUsage a events) input day acc).map fun p => ownRollups a p.2) =
          (rollupDay events input day acc').map fun p => ownRollups a p.2 :=
        rollupDay_own input day h
      obtain ⟨e, hone, htwo⟩ | ⟨p, p', hone, htwo, hp⟩ := cases_of_map_eq hday
      · rw [hone, htwo]
        rfl
      · rw [hone, htwo, ok_bind, ok_bind]
        cases day.next with
        | error e => rfl
        | ok next => exact ih next hp

end Rollups

/-! ## One call -/

variable [PyText] [TenantDb.Deidentification] {a : Uuid}

namespace TenantDb

variable {s : TenantDb}

omit [PyText] [Deidentification] in
theorem view_rolled {rollups rollups' : List UsageDailyRollup}
    (h : ownRollups a rollups = ownRollups a rollups') :
    view a { s.ownRows a with dailyRollups := rollups } =
      view a { s with dailyRollups := rollups' } := by
  have hown : view a { s.ownRows a with dailyRollups := rollups } =
      { s.view a with dailyRollups := ownRollups a rollups } := by
    unfold view ownRows
    simp only [filter_within fun x h => h]
    rfl
  rw [hown, h]
  rfl

theorem computeRollups_own (input : ComputeDailyRollupsInput) :
    ((s.ownRows a).step (.computeRollups input)).view a = (s.step (.computeRollups input)).view a := by
  have hrows : ownRollups a (ownRollups a s.dailyRollups) = ownRollups a s.dailyRollups :=
    filter_within fun _ h => h
  have hroll : ((computeDailyRollups (s.ownRows a).usageEvents (s.ownRows a).dailyRollups input).map
        fun p => ownRollups a p.2) =
      (computeDailyRollups s.usageEvents s.dailyRollups input).map fun p => ownRollups a p.2 :=
    rollupDays_own input _ _ hrows
  rw [step, step]
  obtain ⟨e, hone, htwo⟩ | ⟨p, p', hone, htwo, hp⟩ := cases_of_map_eq hroll
  · rw [hone, htwo]
    exact view_ownRows a s
  · rw [hone, htwo]
    exact view_rolled hp

/-- **An operation that the tenant sees** makes of its rows what it makes of them alone. -/
theorem step_own {op : TenantOp} (h : op.performer = some a ∨ op.shared = true) :
    ((s.ownRows a).step op).view a = (s.step op).view a := by
  have hview := view_ownRows a s
  have hown : op.shared = false → op.performer = some a := by
    intro hshared
    exact h.resolve_right fun htrue => Bool.noConfusion (hshared.symm.trans htrue)
  cases op with
  | registerSource input =>
      exact orElse_own (registerTenantSource_own (Option.some.inj (hown rfl))) hview
  | openRun input =>
      exact orElse_own (openTenantIngestionRun_own (Option.some.inj (hown rfl))) hview
  | submitBatch input =>
      exact orElse_own (submitTenantClaimsBatch_own (Option.some.inj (hown rfl))) hview
  | completeRun input =>
      exact orElse_own (completeTenantIngestionRun_own (Option.some.inj (hown rfl))) hview
  | fileReport input => exact orElse_own submitTenantSafetyReport_own hview
  | requestEcho input =>
      exact orElse_own (requestEchoCrossReference_own (Option.some.inj (hown rfl))) hview
  | runEcho input => exact runEchoCrossReference_own (Option.some.inj (hown rfl))
  | failEcho tenantId resultId detail now => exact updatePending_own _ _ fun r => rfl
  | attachHfacs input => cases hown rfl
  | nlSearch rawQuery resultCount clock => cases hown rfl
  | computeRollups input => exact computeRollups_own input
  | accidents store => exact congrArg (fun v : TenantDb => { v with store := store }) hview

/-- **An operation of others** leaves the tenant's rows alone. -/
theorem step_other {op : TenantOp} (h : op.performer ≠ some a) (hshared : op.shared = false) :
    (s.step op).view a = s.view a := by
  cases op with
  | registerSource input => exact registerTenantSource_other fun hc => h (congrArg some hc)
  | openRun input => exact openTenantIngestionRun_other fun hc => h (congrArg some hc)
  | submitBatch input => exact submitTenantClaimsBatch_other fun hc => h (congrArg some hc)
  | completeRun input => exact completeTenantIngestionRun_other fun hc => h (congrArg some hc)
  | fileReport input => exact submitTenantSafetyReport_other fun hc => h (congrArg some hc)
  | requestEcho input => exact requestEchoCrossReference_other fun hc => h (congrArg some hc)
  | runEcho input => exact runEchoCrossReference_other fun ht => h (congrArg some ht)
  | failEcho tenantId resultId detail now =>
      exact updatePending_other (fun ht => h (congrArg some ht)) resultId fun r => rfl
  | attachHfacs input => exact attachEventHfacsAttribution_other input
  | nlSearch rawQuery resultCount clock =>
      rw [step, logNlSearch]
      exact meter_other (Option.some_ne_none a).symm _ _ _ _ _
  | computeRollups input => cases hshared
  | accidents store => cases hshared

end TenantDb

end Atlas
