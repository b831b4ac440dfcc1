import Atlas.Continuity
import Atlas.ReconcilerAlone
import Atlas.WriterLaws

/-!
# What an ingestion does

A successful ingestion is a replay, which changes nothing, or it goes through
four stages, each with its own description: the store is *prepared* (a snapshot
and possibly an event are added), the claims are *written*, the conflicts are
*reconciled*, and the bookkeeping is *finished*.  `ingest_cases` takes an
ingestion apart into these stages.
-/

namespace Atlas

open Outcome Rows

namespace Db

/-! ## Preparing -/

/-- The store before the claims are written, and the submission. -/
structure Prepared (s s₀ : Db) (call : IngestCall) (sub : Submission) : Prop where
  rest : s₀ = { s with
    nextId := s₀.nextId
    ingestionRuns := s₀.ingestionRuns
    snapshots := s.snapshots ++ [snapshotRow sub.snapshotId call]
    events := s₀.events
    duplicateReviews := s₀.duplicateReviews }
  snapshotId : sub.snapshotId = s.nextId
  nextId : s.nextId < s₀.nextId
  events : s₀.events = s.events ∨
    ∃ id, s.nextId < id ∧ id < s₀.nextId ∧ s₀.events = s.events ++ [⟨id, none⟩] ∧
      sub.eventId = id
  source : sub.sourceId = call.sourceId
  record : sub.sourceRecordId = normaliseSourceRecordId call.sourceRecordId
  live : s₀.IsLive sub.eventId
  /-- A submission of a known record goes to the root of one of its claims. -/
  owner : ∀ rec, sub.sourceRecordId = some rec → ∀ k ∈ s.claims,
    s.recordOf k = some (sub.sourceId, rec) →
    ∃ k' ∈ s.claims, s.recordOf k' = some (sub.sourceId, rec) ∧ s.Root k'.eventId sub.eventId

section Prepare

variable {s : Db} {call : IngestCall}

/-- Queued reviews change the counter and the review table. -/
theorem queueReviews_rest (newId : Uuid) (candidates : List Uuid) (acc : List Uuid × Db) :
    (candidates.foldl (queueReview newId) acc).2 =
        { acc.2 with
          nextId := (candidates.foldl (queueReview newId) acc).2.nextId
          duplicateReviews := (candidates.foldl (queueReview newId) acc).2.duplicateReviews } ∧
      acc.2.nextId ≤ (candidates.foldl (queueReview newId) acc).2.nextId := by
  induction candidates generalizing acc with
  | nil => exact ⟨rfl, le_refl _⟩
  | cons c cs ih =>
      have hone : (queueReview newId acc c).2 = { acc.2 with
            nextId := (queueReview newId acc c).2.nextId
            duplicateReviews := (queueReview newId acc c).2.duplicateReviews } ∧
          acc.2.nextId ≤ (queueReview newId acc c).2.nextId := by
        unfold queueReview
        split
        · exact ⟨rfl, le_refl _⟩
        · simp only [uuid4, addReview]
          split
          · exact ⟨rfl, Nat.le_succ _⟩
          · exact ⟨rfl, Nat.le_succ _⟩
      rw [List.foldl_cons]
      obtain ⟨hrest, hle⟩ := ih (queueReview newId acc c)
      refine ⟨?_, le_trans hone.2 hle⟩
      rw [hrest, hone.1]

/-- A new event, with reviews queued. -/
theorem createEvent_ok {r : ResolvedEvent} (h : s.createEvent call = .ok r) :
    r.eventId = s.nextId ∧ s.nextId < r.db.nextId ∧
      r.db = { s with
        nextId := r.db.nextId
        events := s.events ++ [⟨s.nextId, none⟩]
        duplicateReviews := r.db.duplicateReviews } := by
  unfold createEvent at h
  simp only [uuid4, addEvent] at h
  split at h
  · rw [bind_ok] at h
    obtain ⟨canonical, -, hrest⟩ := h
    rw [pure_ok] at hrest
    subst hrest
    obtain ⟨hdb, hle⟩ := queueReviews_rest s.nextId canonical ([], { s with
      nextId := s.nextId + 1, events := s.events ++ [⟨s.nextId, none⟩] })
    exact ⟨rfl, hle, hdb⟩
  · rw [pure_ok] at h
    subst h
    exact ⟨rfl, Nat.lt_succ_self _, rfl⟩

/-- The event an ingestion attaches to: one that exists, or a new one. -/
theorem resolveEvent_ok {explicit fromRecord : Option AccidentEvent} {r : ResolvedEvent}
    (h : s.resolveEvent call explicit fromRecord = .ok r) :
    (r.db = s ∧ (∀ e, explicit = some e → r.eventId = e.id) ∧
        (∀ e, explicit = none → fromRecord = some e → r.eventId = e.id)) ∨
      (explicit = none ∧ fromRecord = none ∧ r.eventId = s.nextId ∧ s.nextId < r.db.nextId ∧
        r.db = { s with
          nextId := r.db.nextId
          events := s.events ++ [⟨s.nextId, none⟩]
          duplicateReviews := r.db.duplicateReviews }) := by
  unfold resolveEvent at h
  split at h
  · rw [pure_ok] at h
    subst h
    left
    refine ⟨rfl, ?_, ?_⟩
    · intro e he
      cases he
      rfl
    · intro e he
      cases he
  · rw [pure_ok] at h
    subst h
    left
    refine ⟨rfl, ?_, ?_⟩
    · intro e he
      cases he
    · intro e _ he
      cases he
      rfl
  · unfold resolveWithReviews at h
    rw [bind_ok] at h
    obtain ⟨-, -, hrest⟩ := h
    split at hrest
    · split at hrest
      · rw [pure_ok] at hrest
        subst hrest
        left
        exact ⟨rfl, fun e he => (by cases he), fun e _ he => (by cases he)⟩
      · exact Or.inr ⟨rfl, rfl, createEvent_ok hrest⟩
      · cases hrest
    · exact Or.inr ⟨rfl, rfl, createEvent_ok hrest⟩

theorem ensureStarted_ok {runId sourceId : Uuid} {s' : Db}
    (h : s.ensureStarted runId sourceId = .ok s') :
    ∃ runs, s' = { s with ingestionRuns := runs } := by
  unfold ensureStarted at h
  split at h
  · cases h
    exact ⟨_, rfl⟩
  · split at h
    · cases h
      exact ⟨s.ingestionRuns, rfl⟩
    · cases h

/-- When continuity finds no event, no claim has the record; otherwise it finds
the root of a claim of the record, and an explicit event is that root. -/
theorem resolveContinuity_ok {sourceId : Uuid} {record : Option String}
    {explicit fromRecord : Option AccidentEvent}
    (h : s.resolveContinuity sourceId record explicit = .ok fromRecord) {rec : String}
    (hrec : record = some rec) {k : Claim} (hk : k ∈ s.claims)
    (hkrec : s.recordOf k = some (sourceId, rec)) :
    ∃ prior, fromRecord = some prior ∧ (∀ e, explicit = some e → e.id = prior.id) ∧
      ∃ k' ∈ s.claims, s.recordOf k' = some (sourceId, rec) ∧ s.Root k'.eventId prior.id := by
  subst hrec
  unfold resolveContinuity at h
  dsimp only at h
  split at h
  · rename_i hnone
    exfalso
    unfold findLatestEventIdBySourceRecordId at hnone
    dsimp only at hnone
    rw [Option.map_eq_none_iff, List.head?_eq_none_iff] at hnone
    have hmem : k ∈ (s.claims.filter fun c => s.recordOf c = some (sourceId, rec)) := by
      simp [hk, hkrec]
    have hsorted := List.mem_insertionSort (fun a b => s.snapshotTime b < s.snapshotTime a ∨
      (s.snapshotTime a = s.snapshotTime b ∧ b.createdAt ≤ a.createdAt)) |>.mpr hmem
    rw [hnone] at hsorted
    cases hsorted
  · rename_i priorId hprior
    have hclaim : ∃ k' ∈ s.claims, s.recordOf k' = some (sourceId, rec) ∧ k'.eventId = priorId := by
      unfold findLatestEventIdBySourceRecordId at hprior
      dsimp only at hprior
      rw [Option.map_eq_some_iff] at hprior
      obtain ⟨k', hk', hid⟩ := hprior
      have hmem := (List.mem_insertionSort _).mp (List.mem_of_head? hk')
      simp only [List.mem_filter, decide_eq_true_eq] at hmem
      exact ⟨k', hmem.1, hmem.2, hid⟩
    obtain ⟨k', hk', hkrec', hid⟩ := hclaim
    rw [bind_ok] at h
    obtain ⟨prior, hcanon, hrest⟩ := h
    have hroot := requireCanonical_ok hcanon
    rw [← hid] at hroot
    split at hrest
    · rename_i e
      rw [bind_ok] at hrest
      obtain ⟨u, hreq, hpure⟩ := hrest
      rw [require_ok] at hreq
      rw [pure_ok] at hpure
      refine ⟨prior, hpure.symm, ?_, k', hk', hkrec', hroot⟩
      intro x hx
      cases hx
      exact hreq
    · rw [pure_ok] at hrest
      exact ⟨prior, hrest.symm, fun x hx => (by cases hx), k', hk', hkrec', hroot⟩

end Prepare

/-! ## Finishing -/

/-- The store after the bookkeeping of an ingestion. -/
def finishIngestion (s : Db) (call : IngestCall) (sub : Submission) (result : IngestionResult) :
    Db :=
  ((s.addOutbox sub.eventId (some call.ingestionRunId)).updateIngestionResult sub.snapshotId
    result).finishRun call.ingestionRunId

theorem finishIngestion_wellFormed {s : Db} (hwf : s.WellFormed) (call : IngestCall)
    (sub : Submission) (result : IngestionResult) :
    (s.finishIngestion call sub result).WellFormed := by
  refine { hwf.uuid4 with snapshotIds := ?_, snapshot_lt := ?_, claimSnapshot := ?_ }
  · exact hwf.snapshotIds.updateWhere (fun _ => rfl)
  · intro r hr
    obtain ⟨x, hx, rfl⟩ := mem_updateWhere.mp hr
    have := hwf.uuid4.snapshot_lt x hx
    split <;> exact this
  · intro k hk i hi
    obtain ⟨x, hx, hid, hsrc⟩ := hwf.claimSnapshot k hk i hi
    refine ⟨_, mem_updateWhere.mpr ⟨x, hx, rfl⟩, ?_⟩
    split <;> exact ⟨hid, hsrc⟩

/-! ## The stages together -/

section Stages

variable [PyText]

/-- The reconciliation of an ingestion, phase by phase. -/
structure Reconciled (w : ClaimWriteResult) (e : Uuid) (s₁ s₂ s₃ : Db) : Prop where
  winners : Session.Reconciles w.db s₁ w.resolvedConflictsToReconcile
  stale : Session.AutoResolves s₁ s₂ e
  detected : Opens s₂ s₃ e (Session.contestedFields s₂ e)
    (fun f => (s₂.findActiveByEventField e f).map Claim.id)

/-- **The stages of an ingestion.** -/
structure Ingested (s s' : Db) (call : IngestCall) (sub : Submission) (s₀ : Db)
    (w : ClaimWriteResult) (s₁ s₂ s₃ : Db) : Prop where
  prepared : Prepared s s₀ call sub
  wf₀ : s₀.WellFormed
  written : Written s₀ sub call.claims w
  fieldsNodup : (call.claims.map NormalisedClaim.fieldName).Nodup
  toReconcile : w.resolvedConflictsToReconcile =
    w.supersededClaims.filterMap (w.db.toReconcile w.newClaims)
  reconciled : Reconciled w sub.eventId s₁ s₂ s₃
  finished : ∃ result, s' = s₃.finishIngestion call sub result

omit [PyText] in
/-- The conflicts to reconcile are RESOLVED rows, each won by one of the
superseded claims. -/
theorem mem_toReconcile {w : ClaimWriteResult}
    (h : w.resolvedConflictsToReconcile =
      w.supersededClaims.filterMap (w.db.toReconcile w.newClaims))
    {pr : ClaimConflict × Claim} (hpr : pr ∈ w.resolvedConflictsToReconcile) :
    pr.1 ∈ w.db.conflicts ∧ pr.1.status = .resolved ∧
      ∃ old ∈ w.supersededClaims, pr.1.winningClaimId = some old.id ∧
        newClaimOf w.newClaims old.fieldName = some pr.2 := by
  rw [h, List.mem_filterMap] at hpr
  obtain ⟨old, hold, heq⟩ := hpr
  unfold toReconcile at heq
  split at heq
  · rename_i c n hc hn
    simp only [Option.some.injEq] at heq
    subst heq
    have hmem := List.mem_of_find?_eq_some hc
    have hprop := List.find?_some hc
    simp only [decide_eq_true_eq] at hprop
    exact ⟨by simpa using hmem, hprop.2, old, hold, hprop.1, hn⟩
  · cases heq

omit [PyText] in
/-- No conflict is to be reconciled twice: the superseded claims differ, and a
conflict has one winner. -/
theorem toReconcile_nodup {w : ClaimWriteResult} (hwf : w.db.WellFormed)
    (h : w.resolvedConflictsToReconcile =
      w.supersededClaims.filterMap (w.db.toReconcile w.newClaims))
    (hnodup : (w.supersededClaims.map Claim.id).Nodup) :
    (w.resolvedConflictsToReconcile.map fun pr => pr.1.id).Nodup := by
  unfold List.Nodup at hnodup ⊢
  rw [List.pairwise_map] at hnodup ⊢
  rw [h, List.pairwise_filterMap]
  refine hnodup.imp ?_
  intro a b hab pa hpa pb hpb hid
  apply hab
  have hsome : ∀ old pr, w.db.toReconcile w.newClaims old = some pr →
      pr.1 ∈ w.db.conflicts ∧ pr.1.winningClaimId = some old.id := by
    intro old pr hpr
    unfold toReconcile at hpr
    split at hpr
    · rename_i c n hc _
      simp only [Option.some.injEq] at hpr
      subst hpr
      have hmem := List.mem_of_find?_eq_some hc
      have hprop := List.find?_some hc
      simp only [decide_eq_true_eq] at hprop
      exact ⟨by simpa using hmem, hprop.1⟩
    · cases hpr
  obtain ⟨hma, hwa⟩ := hsome a pa hpa
  obtain ⟨hmb, hwb⟩ := hsome b pb hpb
  rw [hwf.conflictIds.eq_of_key hma hmb hid, hwb, Option.some.injEq] at hwa
  exact hwa.symm

/-- The reconciliation of a written batch, taken apart. -/
theorem reconcileAfterWrite_ok {w : ClaimWriteResult} {sub : Submission} {s₃ : Db}
    (hwf : w.db.WellFormed) (hlive : ¬ w.db.IsMerged sub.eventId)
    (hrec : w.resolvedConflictsToReconcile =
      w.supersededClaims.filterMap (w.db.toReconcile w.newClaims))
    (hnodup : (w.supersededClaims.map Claim.id).Nodup)
    (h : reconcileAfterWrite w sub = .ok s₃) :
    ∃ s₁ s₂, Reconciled w sub.eventId s₁ s₂ s₃ := by
  unfold reconcileAfterWrite at h
  simp only [bind_ok] at h
  obtain ⟨σ₁, h₁, σ₂, h₂, σ₃, h₃, hpure⟩ := h
  rw [pure_ok] at hpure
  subst hpure
  obtain ⟨hwin, hq₁⟩ := Session.reconcileWinners_alone w.resolvedConflictsToReconcile
    (toReconcile_nodup hwf hrec hnodup) (Session.quiet_alone w.db) hwf
    (fun pr hpr => (mem_toReconcile hrec hpr).1) (fun pr hpr => (mem_toReconcile hrec hpr).2.1) h₁
  obtain ⟨hstale, hq₂⟩ := Session.autoResolve_alone _ hq₁ hwin.wf h₂
  have hlive₂ : ¬ σ₂.db.IsMerged sub.eventId := by
    rw [hstale.only.isMerged, hwin.only.isMerged]
    exact hlive
  obtain ⟨hdet, -⟩ := Session.detect_alone hq₂ hstale.wf hlive₂ h₃
  exact ⟨σ₁.db, σ₂.db, hwin, hstale, hdet⟩

omit [PyText] in
/-- The prepared store keeps the laws. -/
theorem Prepared.wellFormed {s s₀ : Db} {call : IngestCall} {sub : Submission}
    (hwf : s.WellFormed) (h : Prepared s s₀ call sub) : s₀.WellFormed := by
  have hsnap := hwf.uuid4.addSnapshot (r := snapshotRow s.nextId call) (Nat.lt_succ_self _)
    (fun x hx => Nat.ne_of_lt (hwf.snapshot_lt x hx))
  have hle : s.nextId + 1 ≤ s₀.nextId := h.nextId
  rw [h.rest, h.snapshotId]
  rcases h.events with hev | ⟨id, hlow, hhigh, hev, -⟩
  · rw [hev]
    exact { hsnap with
      claim_lt := fun k hk => lt_of_lt_of_le (hsnap.claim_lt k hk) hle
      conflict_lt := fun c hc => lt_of_lt_of_le (hsnap.conflict_lt c hc) hle
      event_lt := fun e he => lt_of_lt_of_le (hsnap.event_lt e he) hle
      snapshot_lt := fun r hr => lt_of_lt_of_le (hsnap.snapshot_lt r hr) hle }
  · have hwf' : ({ s with
        nextId := s₀.nextId
        snapshots := s.snapshots ++ [snapshotRow s.nextId call] } : Db).WellFormed :=
      { hsnap with
        claim_lt := fun k hk => lt_of_lt_of_le (hsnap.claim_lt k hk) hle
        conflict_lt := fun c hc => lt_of_lt_of_le (hsnap.conflict_lt c hc) hle
        event_lt := fun e he => lt_of_lt_of_le (hsnap.event_lt e he) hle
        snapshot_lt := fun r hr => lt_of_lt_of_le (hsnap.snapshot_lt r hr) hle }
    rw [hev]
    have hadd := hwf'.addEvent (e := ⟨id, none⟩) hhigh
      (fun x hx => Nat.ne_of_lt (lt_trans (hwf.event_lt x hx) hlow))
    exact hadd.of_sameTables ⟨rfl, rfl, rfl, rfl, rfl, rfl⟩

/-- What a committed ingestion answers. -/
structure Answers (s' s₃ : Db) (call : IngestCall) (sub : Submission) (result : IngestionResult) :
    Prop where
  stored : s' = s₃.finishIngestion call sub result
  eventId : result.eventId = sub.eventId
  snapshotCreated : result.snapshotCreated = true
  idempotentReplay : result.idempotentReplay = false

/-- **Taking an ingestion apart.**  It is a replay of the run, or the run is new
and it goes through the stages and stores its answer. -/
theorem ingest_stages {s s' : Db} {call : IngestCall} {result : IngestionResult}
    (hwf : s.WellFormed) (h : s.ingestSourceData call = .ok (result, s')) :
    ((s.findBySourceRun call.sourceId call.ingestionRunId).isSome ∧ s' = s) ∨
      (s.findBySourceRun call.sourceId call.ingestionRunId = none ∧
        ∃ sub s₀ w s₁ s₂ s₃, Ingested s s' call sub s₀ w s₁ s₂ s₃ ∧
          Answers s' s₃ call sub result) := by
  unfold ingestSourceData at h
  rw [bind_ok] at h
  obtain ⟨-, -, h⟩ := h
  split at h
  · rename_i snapshot hrun
    rw [bind_ok] at h
    obtain ⟨replay, -, hpure⟩ := h
    rw [pure_ok, Prod.mk.injEq] at hpure
    exact Or.inl ⟨by rw [hrun]; rfl, hpure.2.symm⟩
  · rename_i hnoRun
    refine .inr ⟨hnoRun, ?_⟩
    unfold ingestFresh at h
    simp only [bind_ok] at h
    obtain ⟨explicit, hexplicit, _, _, sᵣ, hstart, fromRecord, hcont, h⟩ := h
    obtain ⟨runs, rfl⟩ := ensureStarted_ok hstart
    have hadd : ({ s with ingestionRuns := runs } : Db).uuid4.2.tryAddUnique
        (snapshotRow s.nextId call) = (true, { s with
          ingestionRuns := runs
          nextId := s.nextId + 1
          snapshots := s.snapshots ++ [snapshotRow s.nextId call] }) := by
      unfold tryAddUnique
      rw [show ({ s with ingestionRuns := runs } : Db).uuid4.2.findBySourceRun
        (snapshotRow s.nextId call).sourceId (snapshotRow s.nextId call).ingestionRunId = none
        from hnoRun]
      rfl
    rw [show ({ s with ingestionRuns := runs } : Db).uuid4.1 = s.nextId from rfl, hadd] at h
    simp only [if_true, bind_ok] at h
    obtain ⟨r, hresolve, w, hwrite, s₃, hrec, hpure⟩ := h
    rw [pure_ok, Prod.mk.injEq] at hpure
    obtain ⟨hresult, hs'⟩ := hpure
    let sub : Submission := ⟨r.eventId, call.sourceId, s.nextId, call.ingestionRunId,
      normaliseSourceRecordId call.sourceRecordId, call.now⟩
    have hlock : r.db.IsLive sub.eventId ∧ r.db.writeNormalised sub call.claims = .ok w := by
      unfold lockAndWriteClaims at hwrite
      simp only [bind_ok] at hwrite
      obtain ⟨e, he, _, hmerged, hw⟩ := hwrite
      rw [fromOption_ok] at he
      rw [require_ok] at hmerged
      obtain ⟨hemem, heid⟩ := getEvent_some he
      refine ⟨⟨e, hemem, heid, ?_⟩, hw⟩
      simpa [AccidentEvent.isMerged] using hmerged
    obtain ⟨hlive, hwrite'⟩ := hlock
    have hprep : Prepared s r.db call sub := by
      rcases resolveEvent_ok hresolve with ⟨hdb, hexp, hfrom⟩ | ⟨hexp, hfrom, hid, hlt, hdb⟩
      · refine ⟨?_, rfl, ?_, ?_, rfl, rfl, hlive, ?_⟩
        · rw [hdb]
        · rw [hdb]
          exact Nat.lt_succ_self _
        · left
          rw [hdb]
        · intro rec hrec' k hk hkrec
          obtain ⟨prior, hprior, hsame, k', hk'mem, hk'rec, hroot⟩ :=
            resolveContinuity_ok hcont hrec' hk hkrec
          refine ⟨k', hk'mem, hk'rec, ?_⟩
          have hev : sub.eventId = prior.id := by
            cases hx : explicit with
            | some e => exact (hexp e hx).trans (hsame e hx)
            | none => exact hfrom prior hx hprior
          rw [hev]
          exact hroot.of_append [] (by simp)
      · refine ⟨?_, rfl, ?_, ?_, rfl, rfl, hlive, ?_⟩
        · rw [hdb]
        · exact lt_trans (Nat.lt_succ_self _) hlt
        · right
          refine ⟨r.eventId, ?_, ?_, ?_, rfl⟩
          · rw [hid]
            exact Nat.lt_succ_self _
          · rw [hid]
            exact hlt
          · rw [hdb, hid]
        · intro rec hrec' k hk hkrec
          exfalso
          obtain ⟨prior, hprior, -⟩ := resolveContinuity_ok hcont hrec' hk hkrec
          rw [hfrom] at hprior
          cases hprior
    have hwf₀ := hprep.wellFormed hwf
    have hevent : ∃ e ∈ r.db.events, e.id = sub.eventId := by
      obtain ⟨e, he, hid, -⟩ := hlive
      exact ⟨e, he, hid⟩
    have hsnap : ∃ x ∈ r.db.snapshots, x.id = sub.snapshotId ∧ x.sourceId = sub.sourceId := by
      rw [hprep.rest]
      exact ⟨snapshotRow sub.snapshotId call, by simp, rfl, rfl⟩
    obtain ⟨hwritten, hfields, hto⟩ := writeNormalised_spec hwf₀ hevent hsnap hwrite'
    have hliveW : ¬ w.db.IsMerged sub.eventId := by
      have hdb := hwritten.rest
      intro hm
      rw [hdb] at hm
      exact hlive.not_isMerged hwf₀ hm
    obtain ⟨s₁, s₂, hreconciled⟩ := reconcileAfterWrite_ok hwritten.wf hliveW hto
      hwritten.supersededNodup hrec
    have hstored : s' = s₃.finishIngestion call sub result := by
      rw [← hs', ← hresult]
      rfl
    have hanswers : Answers s' s₃ call sub result := by
      rw [← hresult] at hstored ⊢
      exact ⟨hstored, rfl, rfl, rfl⟩
    exact ⟨sub, r.db, w, s₁, s₂, s₃, ⟨hprep, hwf₀, hwritten, hfields, hto, hreconciled, result,
      hstored⟩, hanswers⟩

theorem ingest_cases {s s' : Db} {call : IngestCall} {result : IngestionResult}
    (hwf : s.WellFormed) (h : s.ingestSourceData call = .ok (result, s')) :
    s' = s ∨ ∃ sub s₀ w s₁ s₂ s₃, Ingested s s' call sub s₀ w s₁ s₂ s₃ := by
  rcases ingest_stages hwf h with ⟨-, hreplay⟩ | ⟨-, sub, s₀, w, s₁, s₂, s₃, hing, -⟩
  · exact .inl hreplay
  · exact .inr ⟨sub, s₀, w, s₁, s₂, s₃, hing⟩

/-- An ingestion keeps the laws of the store. -/
theorem Ingested.wellFormed {s s' : Db} {call : IngestCall} {sub : Submission} {s₀ s₁ s₂ s₃ : Db}
    {w : ClaimWriteResult} (h : Ingested s s' call sub s₀ w s₁ s₂ s₃) : s'.WellFormed := by
  obtain ⟨result, rfl⟩ := h.finished
  exact finishIngestion_wellFormed h.reconciled.detected.wf call sub result

/-! ## The evidence after an ingestion -/

section Evidence

variable {s s' : Db} {call : IngestCall} {sub : Submission} {s₀ s₁ s₂ s₃ : Db}
  {w : ClaimWriteResult}

theorem Ingested.conflictsOnly (h : Ingested s s' call sub s₀ w s₁ s₂ s₃) :
    ConflictsOnly w.db s₃ :=
  (h.reconciled.winners.only.trans h.reconciled.stale.only).trans h.reconciled.detected.only

/-- The claims it replaces are superseded and the new ones are appended. -/
theorem Ingested.claims (h : Ingested s s' call sub s₀ w s₁ s₂ s₃) :
    s'.claims = s.claims.map (s₀.rewritten sub w.newClaims) ++ w.newClaims := by
  obtain ⟨result, rfl⟩ := h.finished
  have hold : s₀.claims = s.claims := by rw [h.prepared.rest]
  rw [← hold, ← h.written.claims]
  exact h.conflictsOnly.claims

theorem Ingested.events_eq (h : Ingested s s' call sub s₀ w s₁ s₂ s₃) : s'.events = s₀.events := by
  obtain ⟨result, rfl⟩ := h.finished
  have hw : w.db.events = s₀.events := by rw [h.written.rest]
  rw [← hw]
  exact h.conflictsOnly.events

/-- At most one event is added, the one the submission is about. -/
theorem Ingested.events (h : Ingested s s' call sub s₀ w s₁ s₂ s₃) :
    ∃ extra, s'.events = s.events ++ extra ∧
      ∀ e ∈ extra, e = ⟨sub.eventId, none⟩ ∧ s.nextId ≤ sub.eventId := by
  rw [h.events_eq]
  rcases h.prepared.events with heq | ⟨id, hlt, -, heq, hid⟩
  · exact ⟨[], by simp [heq], by simp⟩
  · refine ⟨[⟨id, none⟩], heq, ?_⟩
    intro e he
    rw [List.mem_singleton.mp he, hid]
    exact ⟨rfl, Nat.le_of_lt hlt⟩

theorem Ingested.snapshots_of (h : Ingested s s' call sub s₀ w s₁ s₂ s₃)
    {result : IngestionResult} (hstored : s' = s₃.finishIngestion call sub result) :
    s'.snapshots = updateWhere (fun r => r.id = sub.snapshotId)
      (fun r => { r with ingestionResult := some result })
      (s.snapshots ++ [snapshotRow sub.snapshotId call]) := by
  subst hstored
  have hprep : s₀.snapshots = s.snapshots ++ [snapshotRow sub.snapshotId call] := by
    rw [h.prepared.rest]
  have hw : w.db.snapshots = s₀.snapshots := by rw [h.written.rest]
  rw [← hprep, ← hw, ← h.conflictsOnly.snapshots]
  rfl

theorem Ingested.snapshots (h : Ingested s s' call sub s₀ w s₁ s₂ s₃) :
    ∃ result, s'.snapshots = updateWhere (fun r => r.id = sub.snapshotId)
      (fun r => { r with ingestionResult := some result })
      (s.snapshots ++ [snapshotRow sub.snapshotId call]) := by
  obtain ⟨result, hstored⟩ := h.finished
  exact ⟨result, h.snapshots_of hstored⟩

theorem Ingested.recordOf_eq (h : Ingested s s' call sub s₀ w s₁ s₂ s₃) (k : Claim) :
    s'.recordOf k = s₀.recordOf k := by
  obtain ⟨result, hsnap⟩ := h.snapshots
  have hprep : s₀.snapshots = s.snapshots ++ [snapshotRow sub.snapshotId call] := by
    rw [h.prepared.rest]
  rw [← hprep] at hsnap
  exact recordOf_updateWhere hsnap (fun _ => rfl) (fun _ => rfl) (fun _ => rfl) k

/-- A claim whose snapshot was there keeps its record. -/
theorem Ingested.recordOf_old (h : Ingested s s' call sub s₀ w s₁ s₂ s₃) {k : Claim}
    (hk : ∀ i, k.rawSnapshotId = some i → ∃ x ∈ s.snapshots, x.id = i) :
    s'.recordOf k = s.recordOf k ∧ s₀.recordOf k = s.recordOf k := by
  have hprep : s₀.snapshots = s.snapshots ++ [snapshotRow sub.snapshotId call] := by
    rw [h.prepared.rest]
  have hold := recordOf_append hprep hk
  exact ⟨(h.recordOf_eq k).trans hold, hold⟩

/-- A new claim carries the record of the submission. -/
theorem Ingested.recordOf_new (h : Ingested s s' call sub s₀ w s₁ s₂ s₃) {n : Claim}
    (hn : n ∈ w.newClaims) :
    s'.recordOf n = sub.sourceRecordId.map fun r => (sub.sourceId, r) := by
  rw [h.recordOf_eq]
  obtain ⟨-, item, -, heq⟩ := h.written.news n hn
  have hraw : n.rawSnapshotId = some sub.snapshotId := by rw [heq]; rfl
  have hget : s₀.getSnapshot sub.snapshotId = some (snapshotRow sub.snapshotId call) :=
    h.wf₀.snapshotIds.lookup_eq (r := snapshotRow sub.snapshotId call)
      (by rw [h.prepared.rest]; simp)
  unfold recordOf
  rw [hraw, Option.bind_some, hget, h.prepared.record, h.prepared.source]
  rfl

/-- What a submission replaces was there to be read before it. -/
theorem Ingested.replaces (hwf : s.WellFormed) (h : Ingested s s' call sub s₀ w s₁ s₂ s₃)
    {k : Claim} (hk : k ∈ s.claims) : s₀.Replaces sub k ↔ s.Replaces sub k := by
  unfold Replaces
  split
  · rw [(h.recordOf_old (claimSnapshot_exists hwf hk)).2]
  · exact Iff.rfl

theorem Ingested.newClaimOf_isSome (h : Ingested s s' call sub s₀ w s₁ s₂ s₃) {f : String} :
    (newClaimOf w.newClaims f).isSome ↔ f ∈ call.claims.map NormalisedClaim.fieldName := by
  rw [Db.newClaimOf_isSome, h.written.fields]

/-- An old claim after an ingestion: superseded when the submission replaces it,
otherwise as it was. -/
theorem Ingested.rewritten_eq (hwf : s.WellFormed) (h : Ingested s s' call sub s₀ w s₁ s₂ s₃)
    {k : Claim} (hk : k ∈ s.claims) :
    (s₀.rewritten sub w.newClaims k = k ∧ ¬ (k.isActive = true ∧ s.Replaces sub k ∧
        k.fieldName ∈ call.claims.map NormalisedClaim.fieldName)) ∨
      ((k.isActive = true ∧ s.Replaces sub k ∧
          k.fieldName ∈ call.claims.map NormalisedClaim.fieldName) ∧
        ∃ n ∈ w.newClaims, n.fieldName = k.fieldName ∧
          s₀.rewritten sub w.newClaims k = supersedeRow n.id k) := by
  unfold rewritten
  by_cases hrep : k.isActive = true ∧ s₀.Replaces sub k
  · rw [if_pos hrep]
    have hrep' := (h.replaces hwf hk).mp hrep.2
    cases hnew : newClaimOf w.newClaims k.fieldName with
    | none =>
        left
        refine ⟨rfl, ?_⟩
        intro hall
        have := h.newClaimOf_isSome.mpr hall.2.2
        rw [hnew] at this
        cases this
    | some n =>
        right
        obtain ⟨hn, hfield⟩ := newClaimOf_some hnew
        refine ⟨⟨hrep.1, hrep', ?_⟩, n, hn, hfield, rfl⟩
        rw [← h.newClaimOf_isSome, hnew]
        rfl
  · rw [if_neg hrep]
    left
    refine ⟨rfl, ?_⟩
    intro hall
    exact hrep ⟨hall.1, (h.replaces hwf hk).mpr hall.2.1⟩

/-- An active claim after an ingestion is new, or was active before and is not
replaced. -/
theorem Ingested.active_origin (hwf : s.WellFormed) (h : Ingested s s' call sub s₀ w s₁ s₂ s₃)
    {k' : Claim} (hk' : k' ∈ s'.claims) (hactive : k'.isActive = true) :
    (k' ∈ s.claims ∧ ¬ (s.Replaces sub k' ∧
        k'.fieldName ∈ call.claims.map NormalisedClaim.fieldName)) ∨ k' ∈ w.newClaims := by
  rw [h.claims] at hk'
  rcases List.mem_append.mp hk' with hk' | hk'
  · obtain ⟨k, hk, rfl⟩ := List.mem_map.mp hk'
    rcases h.rewritten_eq hwf hk with ⟨heq, hnot⟩ | ⟨-, n, -, -, heq⟩
    · rw [heq] at hactive ⊢
      exact Or.inl ⟨hk, fun hall => hnot ⟨hactive, hall⟩⟩
    · rw [heq] at hactive
      cases hactive
  · exact Or.inr hk'

end Evidence

end Stages

end Db

end Atlas
