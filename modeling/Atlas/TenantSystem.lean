import Atlas.Echo
import Atlas.Lib.Runs

/-!
# Runs of the tenant use cases

One operation of the tenants' system is one call of a use case, committed or
refused, or a change of the accident store.  Along every run identifiers are fresh,
and usage events are only added, each with or without a tenant as its metric asks.
-/

namespace Atlas

open Outcome Rows

/-- The calls. -/
inductive TenantOp where
  | registerSource (input : TenantDb.RegisterTenantSourceInput)
  | openRun (input : TenantDb.OpenTenantIngestionRunInput)
  | submitBatch (input : TenantDb.SubmitTenantClaimsBatchInput)
  | completeRun (input : TenantDb.CompleteTenantIngestionRunInput)
  | fileReport (input : TenantDb.SubmitTenantSafetyReportInput)
  | attachHfacs (input : TenantDb.AttachHfacsAttributionInput)
  | nlSearch (rawQuery : String) (resultCount : Nat) (clock : Nat → Time)
  | requestEcho (input : TenantDb.RequestEchoCrossReferenceInput)
  | runEcho (input : TenantDb.RunEchoCrossReferenceInput)
  /-- The worker marks the result of a dead-lettered run. -/
  | failEcho (tenantId resultId : Uuid) (detail : String) (now : Time)
  | computeRollups (input : ComputeDailyRollupsInput)
  /-- The accident store moves on. -/
  | accidents (store : Db)

namespace TenantDb

/-- The store a use case leaves: its own, or the old one if it raised. -/
def orElse {α : Type} (s : TenantDb) (r : Except TenancyError (α × TenantDb)) : TenantDb :=
  match r with
  | .ok (_, s') => s'
  | .error _ => s

/-! ## What the reads find -/

section Reads

variable {s s' : TenantDb}

/-- A run that was found is a run of the store. -/
theorem mem_of_getRun {tenantId runId : Uuid} {run : TenantIngestionRun}
    (h : s.getRun tenantId runId = some run) :
    run ∈ s.ingestionRuns ∧ run.id = runId ∧ run.tenantId = tenantId := by
  have hfound := List.find?_some h
  simp only [decide_eq_true_eq] at hfound
  exact ⟨List.mem_of_find?_eq_some h, hfound.1, hfound.2⟩

/-- A batch that goes on has claims, and its run is RUNNING. -/
theorem readBatch_some {input : SubmitTenantClaimsBatchInput} {tx : BatchTx}
    (h : s.readBatch input = .ok (some tx)) :
    s.getRun input.caller.tenantId input.runId = some tx.run ∧ tx.run.status = .running ∧
      tx.claims = input.claims ∧ input.claims ≠ [] := by
  unfold readBatch at h
  simp only [bind_ok, require_ok] at h
  obtain ⟨_, _, _, _, _, _, h⟩ := h
  by_cases hempty : input.claims = []
  · rw [if_pos hempty, pure_ok] at h
    cases h
  · rw [if_neg hempty] at h
    simp only [bind_ok, require_ok, fromOption_ok, pure_ok, Option.some.injEq] at h
    obtain ⟨run, hrun, _, hstatus, _, _, _, _, rfl⟩ := h
    exact ⟨hrun, hstatus, rfl, hempty⟩

/-- A completion that goes on is of a RUNNING run, into another status. -/
theorem readCompletion_ok {input : CompleteTenantIngestionRunInput} {tx : CompletionTx}
    (h : s.readCompletion input = .ok tx) :
    s.getRun input.caller.tenantId input.runId = some tx.run ∧ tx.run.status = .running ∧
      tx.finalStatus = input.finalStatus ∧ input.finalStatus ≠ .running := by
  unfold readCompletion at h
  simp only [bind_ok, require_ok, fromOption_ok, pure_ok] at h
  obtain ⟨_, _, _, _, _, hfinal, run, hrun, _, hstatus, rfl⟩ := h
  exact ⟨hrun, hstatus, rfl, hfinal⟩

/-- A run of Echo that goes on has found its result PENDING. -/
theorem readEcho_ok {input : RunEchoCrossReferenceInput} {tx : EchoTx} (h : s.readEcho input = .ok tx) :
    ∃ result, s.getCrossrefResult input.tenantId input.crossrefResultId = some result ∧
      result.status = .pending := by
  unfold readEcho at h
  simp only [bind_ok, require_ok, fromOption_ok] at h
  obtain ⟨result, hresult, _, hstatus, _⟩ := h
  exact ⟨result, hresult, hstatus⟩

theorem openTenantIngestionRun_ok {input : OpenTenantIngestionRunInput} {run : TenantIngestionRun}
    (h : s.openTenantIngestionRun input = .ok (run, s')) :
    run = ⟨s.nextId, input.caller.tenantId, input.tenantSourceId, .running, none⟩ ∧
      s' = { s with nextId := s.nextId + 1, ingestionRuns := s.ingestionRuns ++ [run] } := by
  unfold openTenantIngestionRun at h
  simp only [bind_ok, pure_ok, Prod.mk.injEq] at h
  obtain ⟨_, _, _, _, _, _, rfl, rfl⟩ := h
  exact ⟨rfl, rfl⟩

theorem requestEchoCrossReference_ok {input : RequestEchoCrossReferenceInput} {id : Uuid}
    (h : s.requestEchoCrossReference input = .ok (id, s')) :
    id = s.nextId ∧ s' = { s with
      nextId := s.nextId + 1 + 1
      crossrefResults := s.crossrefResults ++
        [⟨s.nextId, input.caller.tenantId, input.safetyReportId, .pending, [], none, none⟩]
      echoOutbox := s.echoOutbox ++
        [⟨s.nextId + 1, s.nextId, input.caller.tenantId, input.safetyReportId⟩] } := by
  unfold requestEchoCrossReference at h
  simp only [bind_ok, pure_ok, Prod.mk.injEq] at h
  obtain ⟨_, _, _, _, _, _, rfl, rfl⟩ := h
  exact ⟨rfl, rfl⟩

end Reads

section Effects

variable [PyText] {s s' : TenantDb}

/-! ## What an operation can do -/

/-- What one operation can do to the store. -/
inductive Effect (s : TenantDb) : TenantDb → Prop where
  | same : Effect s s
  | source (sources : List TenantSource) :
      Effect s { s with nextId := s.nextId + 1, sources := sources }
  | opened (run : TenantIngestionRun) (hid : run.id = s.nextId) :
      Effect s { s with nextId := s.nextId + 1, ingestionRuns := s.ingestionRuns ++ [run] }
  | batch (tx : BatchTx) (hrun : tx.run ∈ s.ingestionRuns) : Effect s (s.writeBatch tx)
  | completion (tx : CompletionTx) (hrun : tx.run ∈ s.ingestionRuns) : Effect s (s.writeCompletion tx)
  | report (n tenantId userId : Uuid) (hn : s.nextId < n) (reports : List TenantSafetyReport)
      (associations : List TenantEventAssociation) (clock : Nat → Time) :
      Effect s (meter
        { s with nextId := n, safetyReports := reports, associations := associations }
        .tenantReportFiled (some tenantId) (some userId) (some s.nextId) 1 clock)
  | attribution (attributions : List EventHfacsAttribution) (userId : Uuid) (clock : Nat → Time) :
      Effect s (meter { s with nextId := s.nextId + 1, hfacsAttributions := attributions }
        .hfacsAttributionCreated none (some userId) (some s.nextId) 1 clock)
  | search (log : List NlQueryLog) (clock : Nat → Time) :
      Effect s (meter { s with nextId := s.nextId + 1, nlQueryLog := log }
        .nlQueryExecuted none none (some s.nextId) 1 clock)
  | requested (result : TenantCrossrefResult) (hid : result.id = s.nextId)
      (outbox : List EchoRequested)
      (hqueued : ∃ id, outbox =
        s.echoOutbox ++ [⟨id, result.id, result.tenantId, result.safetyReportId⟩]) :
      Effect s { s with
        nextId := s.nextId + 1 + 1
        crossrefResults := s.crossrefResults ++ [result]
        echoOutbox := outbox }
  | echo (tenantId resultId : Uuid) (tx : EchoTx) (result : TenantCrossrefResult)
      (hresult : s.getCrossrefResult tenantId resultId = some result) (hpending : result.status = .pending) :
      Effect s (s.writeEcho tenantId resultId tx)
  | failed (tenantId resultId : Uuid) (detail : String) (now : Time) :
      Effect s (s.markFailed tenantId resultId detail now)
  | rollups (input : ComputeDailyRollupsInput) (n : Nat) (rollups : List UsageDailyRollup)
      (h : computeDailyRollups s.usageEvents s.dailyRollups input = .ok (n, rollups)) :
      Effect s { s with dailyRollups := rollups }
  | accidents (store : Db) : Effect s { s with store := store }

theorem effect_orElse {α : Type} {r : Except TenancyError (α × TenantDb)}
    (h : ∀ a s', r = .ok (a, s') → Effect s s') : Effect s (s.orElse r) := by
  match r with
  | .ok (a, s') => exact h a s' rfl
  | .error _ => exact .same

theorem registerTenantSource_effect {input : RegisterTenantSourceInput} {a : TenantSource}
    (h : s.registerTenantSource input = .ok (a, s')) : Effect s s' := by
  unfold registerTenantSource at h
  simp only [bind_ok, pure_ok, Prod.mk.injEq] at h
  obtain ⟨_, _, _, _, _, _, _, rfl⟩ := h
  exact .source _

theorem submitTenantClaimsBatch_effect {input : SubmitTenantClaimsBatchInput} {n : Nat}
    (h : s.submitTenantClaimsBatch input = .ok (n, s')) : Effect s s' := by
  unfold submitTenantClaimsBatch at h
  rw [bind_ok] at h
  obtain ⟨read, hread, h⟩ := h
  cases read with
  | none =>
      rw [pure_ok, Prod.mk.injEq] at h
      rw [← h.2]
      exact .same
  | some tx =>
      rw [pure_ok, Prod.mk.injEq] at h
      rw [← h.2]
      exact .batch tx (mem_of_getRun (readBatch_some hread).1).1

theorem completeTenantIngestionRun_effect {input : CompleteTenantIngestionRunInput}
    {run : TenantIngestionRun} (h : s.completeTenantIngestionRun input = .ok (run, s')) :
    Effect s s' := by
  unfold completeTenantIngestionRun at h
  simp only [bind_ok, pure_ok, Prod.mk.injEq] at h
  obtain ⟨tx, hread, _, rfl⟩ := h
  exact .completion tx (mem_of_getRun (readCompletion_ok hread).1).1

theorem submitTenantSafetyReport_effect [Deidentification]
    {input : SubmitTenantSafetyReportInput}
    {a : SubmitTenantSafetyReportResult} (h : s.submitTenantSafetyReport input = .ok (a, s')) :
    Effect s s' := by
  unfold submitTenantSafetyReport at h
  simp only [bind_ok, pure_ok, Prod.mk.injEq] at h
  obtain ⟨_, _, _, _, _, _, cleaned, _, _, _, _, rfl⟩ := h
  unfold addAssociation
  cases input.associateWithEventId with
  | none => exact .report (s.nextId + 1) _ _ (Nat.lt_succ_self _) _ _ _
  | some eventId =>
      exact .report (s.nextId + 1 + 1) _ _ (Nat.lt_succ_of_lt (Nat.lt_succ_self _)) _ _ _

theorem attachEventHfacsAttribution_effect {input : AttachHfacsAttributionInput}
    {a : EventHfacsAttribution} (h : s.attachEventHfacsAttribution input = .ok (a, s')) :
    Effect s s' := by
  unfold attachEventHfacsAttribution at h
  simp only [bind_ok, pure_ok, Prod.mk.injEq] at h
  obtain ⟨_, _, _, _, _, _, _, _, _, rfl⟩ := h
  exact .attribution _ _ _

end Effects

/-! ## Runs -/

variable [PyText] [Deidentification]

/-- One operation. -/
def step (s : TenantDb) : TenantOp → TenantDb
  | .registerSource input => s.orElse (s.registerTenantSource input)
  | .openRun input => s.orElse (s.openTenantIngestionRun input)
  | .submitBatch input => s.orElse (s.submitTenantClaimsBatch input)
  | .completeRun input => s.orElse (s.completeTenantIngestionRun input)
  | .fileReport input => s.orElse (s.submitTenantSafetyReport input)
  | .attachHfacs input => s.orElse (s.attachEventHfacsAttribution input)
  | .nlSearch rawQuery resultCount clock => (s.logNlSearch rawQuery resultCount clock).2
  | .requestEcho input => s.orElse (s.requestEchoCrossReference input)
  | .runEcho input => s.runEchoCrossReference input
  | .failEcho tenantId resultId detail now => s.markFailed tenantId resultId detail now
  | .computeRollups input =>
      match computeDailyRollups s.usageEvents s.dailyRollups input with
      | .ok (_, rollups) => { s with dailyRollups := rollups }
      | .error _ => s
  | .accidents store => { s with store := store }

/-- The store after a list of operations on an empty one. -/
def after (store : Db) (categories : List HfacsCategory) (subcategories : List HfacsSubcategory)
    (ops : List TenantOp) : TenantDb :=
  Runs.run step (empty store categories subcategories) ops

/-- A store that operations can lead to. -/
def Reachable (s : TenantDb) : Prop :=
  ∃ store categories subcategories ops, after store categories subcategories ops = s

/-- **What an operation can do.** -/
theorem step_effect (s : TenantDb) (op : TenantOp) : Effect s (s.step op) := by
  cases op with
  | registerSource input => exact effect_orElse fun _ _ h => registerTenantSource_effect h
  | openRun input =>
      refine effect_orElse fun run s' h => ?_
      obtain ⟨hrun, rfl⟩ := openTenantIngestionRun_ok h
      exact .opened run (by rw [hrun])
  | submitBatch input => exact effect_orElse fun _ _ h => submitTenantClaimsBatch_effect h
  | completeRun input => exact effect_orElse fun _ _ h => completeTenantIngestionRun_effect h
  | fileReport input => exact effect_orElse fun _ _ h => submitTenantSafetyReport_effect h
  | attachHfacs input => exact effect_orElse fun _ _ h => attachEventHfacsAttribution_effect h
  | nlSearch rawQuery resultCount clock => exact .search _ _
  | requestEcho input =>
      refine effect_orElse fun id s' h => ?_
      obtain ⟨-, rfl⟩ := requestEchoCrossReference_ok h
      exact .requested _ rfl _ ⟨_, rfl⟩
  | runEcho input =>
      rw [step, runEchoCrossReference]
      cases hread : s.readEcho input with
      | error e => exact .same
      | ok tx =>
          obtain ⟨result, hresult, hpending⟩ := readEcho_ok hread
          exact .echo _ _ tx result hresult hpending
  | failEcho tenantId resultId detail now => exact .failed _ _ _ _
  | computeRollups input =>
      rw [step]
      cases hroll : computeDailyRollups s.usageEvents s.dailyRollups input with
      | error e => exact .same
      | ok p => exact .rollups input p.1 p.2 hroll
  | accidents store => exact .accidents store

/-! ## Fresh identifiers -/

/-- Identifiers in use are below the next one. -/
structure Inv (s : TenantDb) : Prop where
  runs : ∀ r ∈ s.ingestionRuns, r.id < s.nextId
  results : ∀ r ∈ s.crossrefResults, r.id < s.nextId
  resources : ∀ u ∈ s.usageEvents, ∀ id, u.resourceId = some id → id < s.nextId
  claims : ∀ c ∈ s.claims, ∀ id, c.tenantIngestionRunId = some id → id < s.nextId

section Fresh

omit [Deidentification]

variable {s s' : TenantDb}

omit [PyText] in
theorem Inv.mono (h : s.Inv) (hn : s.nextId ≤ s'.nextId) (hruns : s'.ingestionRuns = s.ingestionRuns)
    (hresults : s'.crossrefResults.map TenantCrossrefResult.id =
      s.crossrefResults.map TenantCrossrefResult.id)
    (husage : s'.usageEvents = s.usageEvents) (hclaims : s'.claims = s.claims) : s'.Inv := by
  refine ⟨?_, ?_, ?_, ?_⟩
  · intro r hr
    exact (h.runs r (hruns ▸ hr)).trans_le hn
  · intro r hr
    have hid : r.id ∈ s.crossrefResults.map TenantCrossrefResult.id :=
      hresults ▸ List.mem_map_of_mem hr
    obtain ⟨r₀, hr₀, heq⟩ := List.mem_map.mp hid
    rw [← heq]
    exact (h.results r₀ hr₀).trans_le hn
  · intro u hu id hid
    exact (h.resources u (husage ▸ hu) id hid).trans_le hn
  · intro c hc id hid
    exact (h.claims c (hclaims ▸ hc) id hid).trans_le hn

omit [PyText] in
theorem Inv.meter (h : s.Inv) {id : Uuid} (hid : id < s.nextId) (metricKind : MetricKind)
    (tenantId userId : Option Uuid) (quantity : Nat) (clock : Nat → Time) :
    (s.meter metricKind tenantId userId (some id) quantity clock).Inv := by
  refine ⟨h.runs, h.results, ?_, h.claims⟩
  intro u hu id' hid'
  rcases List.mem_append.mp hu with hold | hnew
  · exact h.resources u hold id' hid'
  · obtain ⟨i, -, rfl⟩ := List.mem_map.mp hnew
    cases hid'
    exact hid

omit [PyText] in
theorem ids_updatePending (s : TenantDb) (tenantId resultId : Uuid)
    {f : TenantCrossrefResult → TenantCrossrefResult} (hf : ∀ r, (f r).id = r.id) :
    (s.updatePending tenantId resultId f).crossrefResults.map TenantCrossrefResult.id =
      s.crossrefResults.map TenantCrossrefResult.id :=
  map_updateWhere _ hf

/-- The signals of a run take identifiers and change the Argus tables. -/
theorem upsertArgusSignals_eq (tenantId resultId : Uuid) (upsertFails : Uuid → Bool) (now : Time)
    (s : TenantDb) (ms : List PrecedentMatch) :
    ∃ n signals evidence, s.nextId ≤ n ∧
      ms.foldl (upsertArgusSignal tenantId resultId upsertFails now) s =
        { s with nextId := n, signals := signals, signalEvidence := evidence } := by
  induction ms generalizing s with
  | nil => exact ⟨s.nextId, s.signals, s.signalEvidence, le_rfl, rfl⟩
  | cons m ms ih =>
      have hone : ∃ signals evidence, upsertArgusSignal tenantId resultId upsertFails now s m =
          { s with nextId := s.nextId + 1, signals := signals, signalEvidence := evidence } := by
        unfold upsertArgusSignal
        dsimp only
        split
        · exact ⟨_, _, rfl⟩
        · split <;> exact ⟨_, _, rfl⟩
      obtain ⟨signals, evidence, hone⟩ := hone
      obtain ⟨n, signals', evidence', hn, hrest⟩ :=
        ih { s with nextId := s.nextId + 1, signals := signals, signalEvidence := evidence }
      refine ⟨n, signals', evidence', ?_, ?_⟩
      · exact (Nat.le_succ _).trans hn
      · rw [List.foldl_cons, hone, hrest]

theorem Inv.writeEcho (h : s.Inv) {tenantId resultId : Uuid} (hid : resultId < s.nextId) (tx : EchoTx) :
    (s.writeEcho tenantId resultId tx).Inv := by
  cases tx with
  | fail detail now => exact h.mono le_rfl rfl (ids_updatePending s _ _ fun _ => rfl) rfl rfl
  | complete matched upsertFails now clock =>
      obtain ⟨n, signals, evidence, hn, heq⟩ := upsertArgusSignals_eq tenantId resultId upsertFails now
        (s.markComplete tenantId resultId matched now) (strongMatches matched)
      unfold TenantDb.writeEcho
      dsimp only
      rw [heq]
      have hn : s.nextId ≤ n := hn
      refine Inv.meter ?_ (hid.trans_le hn) _ _ _ _ _
      exact h.mono hn rfl (ids_updatePending s _ _ fun _ => rfl) rfl rfl

omit [PyText] in
/-- The identifier of a result that was found. -/
theorem mem_of_getCrossrefResult {tenantId resultId : Uuid} {result : TenantCrossrefResult}
    (h : s.getCrossrefResult tenantId resultId = some result) :
    result ∈ s.crossrefResults ∧ result.id = resultId ∧ result.tenantId = tenantId := by
  have hfound := List.find?_some h
  simp only [isResult, decide_eq_true_eq] at hfound
  exact ⟨List.mem_of_find?_eq_some h, hfound.1, hfound.2⟩

omit [PyText] in
theorem Inv.writeBatch (h : s.Inv) {tx : BatchTx} (hrun : tx.run ∈ s.ingestionRuns) :
    (s.writeBatch tx).Inv := by
  have hid := h.runs tx.run hrun
  have hle : s.nextId ≤ s.nextId + tx.claims.length := Nat.le_add_right _ _
  refine Inv.meter ⟨?_, ?_, ?_, ?_⟩ (hid.trans_le hle) _ _ _ _ _
  · intro r hr
    exact (h.runs r hr).trans_le hle
  · intro r hr
    exact (h.results r hr).trans_le hle
  · intro u hu id hres
    exact (h.resources u hu id hres).trans_le hle
  · intro c hc id hres
    rcases List.mem_append.mp hc with hold | hnew
    · exact (h.claims c hold id hres).trans_le hle
    · obtain ⟨p, -, rfl⟩ := List.mem_map.mp hnew
      cases hres
      exact hid.trans_le hle

omit [PyText] in
theorem Inv.writeCompletion (h : s.Inv) {tx : CompletionTx} (hrun : tx.run ∈ s.ingestionRuns) :
    (s.writeCompletion tx).Inv := by
  have hupdated : (s.updateRunStatus tx.run.tenantId tx.run.id tx.finalStatus
      (some (tx.clock 0))).Inv := by
    refine ⟨?_, h.results, h.resources, h.claims⟩
    intro r hr
    obtain ⟨r₀, hr₀, rfl⟩ := mem_updateWhere.mp hr
    have hlt := h.runs r₀ hr₀
    split <;> exact hlt
  exact hupdated.meter (h.runs tx.run hrun) _ _ _ _ _

/-- Every operation keeps identifiers fresh. -/
theorem Inv.effect (h : s.Inv) (he : Effect s s') : s'.Inv := by
  cases he with
  | same => exact h
  | source sources => exact h.mono (Nat.le_succ _) rfl rfl rfl rfl
  | opened run hid =>
      have h' : Inv { s with nextId := s.nextId + 1 } := h.mono (Nat.le_succ _) rfl rfl rfl rfl
      refine ⟨?_, h'.results, h'.resources, h'.claims⟩
      intro r hr
      rcases List.mem_append.mp hr with hold | hnew
      · exact h'.runs r hold
      · rw [List.mem_singleton.mp hnew, hid]
        exact Nat.lt_succ_self _
  | batch tx hrun => exact h.writeBatch hrun
  | completion tx hrun => exact h.writeCompletion hrun
  | report n tenantId userId hn reports associations clock =>
      have h' : Inv { s with nextId := n, safetyReports := reports, associations := associations } :=
        h.mono hn.le rfl rfl rfl rfl
      exact h'.meter hn _ _ _ _ _
  | attribution attributions userId clock =>
      have h' : Inv { s with nextId := s.nextId + 1, hfacsAttributions := attributions } :=
        h.mono (Nat.le_succ _) rfl rfl rfl rfl
      exact h'.meter (Nat.lt_succ_self _) _ _ _ _ _
  | search log clock =>
      have h' : Inv { s with nextId := s.nextId + 1, nlQueryLog := log } :=
        h.mono (Nat.le_succ _) rfl rfl rfl rfl
      exact h'.meter (Nat.lt_succ_self _) _ _ _ _ _
  | requested result hid outbox =>
      have h' : Inv { s with nextId := s.nextId + 1 + 1 } :=
        h.mono ((Nat.le_succ _).trans (Nat.le_succ _)) rfl rfl rfl rfl
      refine ⟨h'.runs, ?_, h'.resources, h'.claims⟩
      intro r hr
      rcases List.mem_append.mp hr with hold | hnew
      · exact h'.results r hold
      · rw [List.mem_singleton.mp hnew, hid]
        exact Nat.lt_succ_of_lt (Nat.lt_succ_self _)
  | echo tenantId resultId tx result hresult hpending =>
      obtain ⟨hmem, hid, -⟩ := mem_of_getCrossrefResult hresult
      exact h.writeEcho (hid ▸ h.results result hmem) tx
  | failed tenantId resultId detail now =>
      exact h.mono le_rfl rfl (ids_updatePending s _ _ fun _ => rfl) rfl rfl
  | rollups input n rollups hroll => exact h.mono le_rfl rfl rfl rfl rfl
  | accidents store => exact h.mono le_rfl rfl rfl rfl rfl

end Fresh

theorem Reachable.inv {s : TenantDb} (h : Reachable s) : s.Inv := by
  obtain ⟨store, categories, subcategories, ops, rfl⟩ := h
  refine Runs.invariant (fun s op hs => hs.effect (step_effect s op)) ?_ ops
  exact ⟨by simp [empty], by simp [empty], by simp [empty], by simp [empty]⟩

end TenantDb

/-- A narrative of twenty words. -/
def fatigueNarrative : String :=
  "We were so tired on the way in at six that we had to ask for a new duty plan"

/-- A tenant's safety report. -/
def fatigueReport : TenantOp :=
  .fileReport ⟨⟨70, 70, .owner⟩, 7, .asap, fatigueNarrative, true, none, none, .related, none,
    fun _ => 0⟩

theorem fatigueNarrative_accepted :
    TenantDb.assertAcceptableNarrative fatigueNarrative = .ok fatigueNarrative := by
  decide +kernel

end Atlas
