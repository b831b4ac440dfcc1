import Atlas.SystemLaws

/-!
# The rows of the projection tables

A projection is stored under its event, one row an event, and both it and the rows
of the projection history belong to an event of the store.  The tables declare this
(a primary key and foreign keys); here it follows from what the operations write.
-/

namespace Atlas

open Outcome Rows

namespace Db

/-- There is an event row with this id. -/
def HasEvent (s : Db) (id : Uuid) : Prop := ∃ e ∈ s.events, e.id = id

/-- The keys of the projection tables. -/
structure ProjectionKeys (s : Db) : Prop where
  unique : Rows.Unique ProjectedAccidentRecord.eventId s.projections
  projection : ∀ p ∈ s.projections, s.HasEvent p.eventId
  history : ∀ h ∈ s.projectionHistory, s.HasEvent h.accidentEventId

theorem projectionKeys_empty (sources : List Source) : (Db.empty sources).ProjectionKeys where
  unique := unique_nil _
  projection := by simp [Db.empty]
  history := by simp [Db.empty]

variable {s s' : Db}

/-- A change of other tables, which keeps the event rows, keeps the keys. -/
theorem ProjectionKeys.of_eq (h : s.ProjectionKeys) (hprojections : s'.projections = s.projections)
    (hhistory : s'.projectionHistory = s.projectionHistory)
    (hevents : ∀ id, s.HasEvent id → s'.HasEvent id) : s'.ProjectionKeys where
  unique := hprojections ▸ h.unique
  projection := by
    intro p hp
    rw [hprojections] at hp
    exact hevents _ (h.projection p hp)
  history := by
    intro r hr
    rw [hhistory] at hr
    exact hevents _ (h.history r hr)

/-! ## Reprojections -/

theorem mem_upsertProjection {p q : ProjectedAccidentRecord}
    (h : q ∈ (s.upsertProjection p).projections) : q = p ∨ q ∈ s.projections := by
  unfold upsertProjection at h
  split at h
  · obtain ⟨r, hr, rfl⟩ := mem_updateWhere.mp h
    split
    · exact .inl rfl
    · exact .inr hr
  · rcases List.mem_append.mp h with hold | hnew
    · exact .inr hold
    · exact .inl (List.mem_singleton.mp hnew)

theorem unique_upsertProjection (h : Rows.Unique ProjectedAccidentRecord.eventId s.projections)
    (p : ProjectedAccidentRecord) :
    Rows.Unique ProjectedAccidentRecord.eventId (s.upsertProjection p).projections := by
  unfold upsertProjection
  split
  · exact h.replace p
  · rename_i hnone
    refine h.append_single ?_
    intro x hx heq
    exact hnone (List.any_eq_true.mpr ⟨x, hx, decide_eq_true heq⟩)

theorem ProjectionKeys.upsertProjection (h : s.ProjectionKeys) {p : ProjectedAccidentRecord}
    (hp : s.HasEvent p.eventId) : (s.upsertProjection p).ProjectionKeys := by
  obtain ⟨ps, heq⟩ := upsertProjection_eq s p
  have hevents : (s.upsertProjection p).events = s.events := by rw [heq]
  have hhistory : (s.upsertProjection p).projectionHistory = s.projectionHistory := by rw [heq]
  refine ⟨unique_upsertProjection h.unique p, ?_, ?_⟩
  · intro q hq
    rw [HasEvent, hevents]
    rcases mem_upsertProjection hq with rfl | hold
    · exact hp
    · exact h.projection q hold
  · intro r hr
    rw [hhistory] at hr
    rw [HasEvent, hevents]
    exact h.history r hr

theorem ProjectionKeys.persistProjection (h : s.ProjectionKeys) {call : ReProjectCall}
    {cur : Option ProjectedAccidentRecord} {p r : ProjectedAccidentRecord} (hp : s.HasEvent p.eventId)
    (hok : s.persistProjection call cur p = .ok (r, s')) : s'.ProjectionKeys := by
  unfold Db.persistProjection at hok
  simp only [bind_ok] at hok
  obtain ⟨_, _, unchanged, _, hok⟩ := hok
  split at hok
  · rw [pure_ok, Prod.mk.injEq] at hok
    exact hok.2 ▸ h
  · simp only [bind_ok, pure_ok, Prod.mk.injEq] at hok
    obtain ⟨s₁, hadd, -, rfl⟩ := hok
    have hstored := ProjectionKeys.upsertProjection h (p := storedRow p) hp
    rw [addProjectionHistory_ok hadd]
    refine ⟨hstored.unique, hstored.projection, ?_⟩
    intro row hrow
    rcases List.mem_append.mp hrow with hold | hnew
    · exact hstored.history row hold
    · obtain ⟨ps, heq⟩ := upsertProjection_eq s (storedRow p)
      rw [List.mem_singleton.mp hnew]
      change (s.upsertProjection (storedRow p)).HasEvent p.eventId
      rw [HasEvent, heq]
      exact hp

theorem hasEvent_of_getEvent {id : Uuid} (h : (s.getEvent id).isSome) : s.HasEvent id := by
  obtain ⟨e, he⟩ := Option.isSome_iff_exists.mp h
  exact ⟨e, lookup_some he⟩

section ReProject

variable [PyText]

theorem ProjectionKeys.rebuildProjection (h : s.ProjectionKeys) (hwf : s.WellFormed)
    {call : ReProjectCall} {p : ProjectedAccidentRecord}
    (hok : s.rebuildProjection call = .ok (p, s')) : s'.ProjectionKeys := by
  unfold Db.rebuildProjection at hok
  dsimp only at hok
  split at hok
  · rename_i target htarget
    refine h.persistProjection ?_ hok
    obtain ⟨e, he, -⟩ := Option.bind_eq_some_iff.mp htarget
    exact ⟨e, lookup_some he⟩
  · simp only [bind_ok, require_ok] at hok
    obtain ⟨_, hthere, hok⟩ := hok
    refine h.persistProjection ?_ hok
    change s.HasEvent call.eventId
    rcases hthere with hevent | hclaims
    · exact hasEvent_of_getEvent hevent
    · obtain ⟨k, hk⟩ := List.exists_mem_of_ne_nil _ hclaims
      obtain ⟨hk, hprop⟩ := List.mem_filter.mp hk
      rw [← (of_decide_eq_true hprop).1]
      exact hwf.claimEvent k hk

/-- **A reprojection keeps the keys.** -/
theorem ProjectionKeys.reProjectEvent (h : s.ProjectionKeys) (hwf : s.WellFormed)
    {call : ReProjectCall} {p : ProjectedAccidentRecord}
    (hok : s.reProjectEvent call = .ok (p, s')) : s'.ProjectionKeys := by
  unfold Db.reProjectEvent at hok
  dsimp only at hok
  split at hok
  · exact h.rebuildProjection hwf hok
  · rename_i existing hexisting
    split at hok
    · exact h.rebuildProjection hwf hok
    · split at hok
      · simp only [Except.ok.injEq, Prod.mk.injEq] at hok
        exact hok.2 ▸ h
      · unfold restoreProjectionFromHistory at hok
        simp only [bind_ok, require_ok, pure_ok, Prod.mk.injEq] at hok
        obtain ⟨_, hsame, -, rfl⟩ := hok
        refine ProjectionKeys.upsertProjection h ?_
        change s.HasEvent call.eventId
        obtain ⟨o, -, hfound⟩ := Option.bind_eq_some_iff.mp hexisting
        rw [← hsame]
        exact h.history existing (List.mem_of_find?_eq_some hfound)

theorem ProjectionKeys.rebuildAllProjections (h : s.ProjectionKeys) (hwf : s.WellFormed)
    (maxEvents : Option Nat) (now : Time) : (s.rebuildAllProjections maxEvents now).ProjectionKeys := by
  have hboth : (s.rebuildAllProjections maxEvents now).WellFormed ∧
      (s.rebuildAllProjections maxEvents now).ProjectionKeys := by
    refine rebuildAllProjections_induct (P := fun s => s.WellFormed ∧ s.ProjectionKeys) ?_
      ⟨hwf, h⟩ maxEvents
    rintro s₁ s₂ id p hok ⟨hwf₁, hkeys⟩
    exact ⟨(reProjectEvent_only hok).wellFormed hwf₁, hkeys.reProjectEvent hwf₁ hok⟩
  exact hboth.2

/-! ## The other operations -/

/-- An ingestion writes no projection. -/
theorem Ingested.projectionKeys {call : IngestCall} {sub : Submission} {s₀ s₁ s₂ s₃ : Db}
    {w : ClaimWriteResult} (hing : Ingested s s' call sub s₀ w s₁ s₂ s₃) (h : s.ProjectionKeys) :
    s'.ProjectionKeys := by
  obtain ⟨result, rfl⟩ := hing.finished
  have hrest : s₃.projections = s.projections ∧ s₃.projectionHistory = s.projectionHistory ∧
      s₃.events = s₀.events := by
    rw [hing.reconciled.detected.only.rest, hing.reconciled.stale.only.rest,
      hing.reconciled.winners.only.rest, hing.written.rest, hing.prepared.rest]
    exact ⟨rfl, rfl, rfl⟩
  refine h.of_eq hrest.1 hrest.2.1 ?_
  intro id hid
  change ∃ e ∈ s₃.events, e.id = id
  rw [hrest.2.2]
  rcases hing.prepared.events with hsame | ⟨new, -, -, hnew, -⟩
  · rw [hsame]
    exact hid
  · rw [hnew]
    obtain ⟨e, he, heq⟩ := hid
    exact ⟨e, List.mem_append_left _ he, heq⟩

/-- A merge deletes the projection of the source. -/
theorem Merged.projectionKeys {call : MergeCall} {s₃ s₄ : Db} (hwf : s.WellFormed)
    (hm : Merged s s' call s₃ s₄) (h : s.ProjectionKeys) : s'.ProjectionKeys := by
  have hevents := hm.events hwf
  obtain ⟨reviews, rfl⟩ := hm.finished
  obtain ⟨n, history, activity, heq⟩ := hm.closed_eq hwf
  have hrest : s₄.projections = s.projections ∧ s₄.projectionHistory = s.projectionHistory := by
    rw [hm.detected.only.rest, heq]
    exact ⟨rfl, rfl⟩
  have hkept : ∀ id, s.HasEvent id → ∃ e ∈ s₄.events, e.id = id := by
    rintro id ⟨e, he, rfl⟩
    have hevents : s₄.events = (s.withPointer call).events := hevents
    rw [hevents]
    refine ⟨_, mem_updateWhere.mpr ⟨e, he, rfl⟩, ?_⟩
    split <;> rfl
  refine ⟨?_, ?_, ?_⟩
  · change Rows.Unique ProjectedAccidentRecord.eventId
      (s₄.projections.filter fun p => p.eventId ≠ call.sourceEventId)
    rw [hrest.1]
    exact h.unique.sublist (List.filter_sublist.map _)
  · intro p hp
    refine hkept _ (h.projection p ?_)
    rw [← hrest.1]
    exact (List.mem_filter.mp hp).1
  · intro r hr
    refine hkept _ (h.history r ?_)
    rw [← hrest.2]
    exact hr

theorem Resolved.projectionKeys {call : ResolveCall} {c u : ClaimConflict} {winner : Uuid} {sw : Db}
    {p : ProjectedAccidentRecord} (hwf : s.WellFormed) (hres : Resolved s s' call c winner sw u)
    (hproj : (sw.resolveWrites call c winner).reprojectFor u call.now = .ok (p, s'))
    (h : s.ProjectionKeys) : s'.ProjectionKeys := by
  obtain ⟨hwf', hmem', hlink, -⟩ := hres.chosen.spec hwf hres.mem
  have hchosen : sw.ProjectionKeys := by
    rcases hres.chosen with ⟨rfl, -⟩ | ⟨-, rfl⟩
    · exact h
    · exact h.of_eq rfl rfl fun _ hid => hid
  refine ProjectionKeys.reProjectEvent ?_ (resolveWrites_wellFormed hwf' hmem' hlink) hproj
  exact hchosen.of_eq rfl rfl fun _ hid => hid

theorem Reopened.projectionKeys {call : ReopenCall} {c u : ClaimConflict}
    {p : ProjectedAccidentRecord} (hwf : s.WellFormed)
    (hproj : (s.reopenWrites call c).reprojectFor u call.now = .ok (p, s'))
    (h : s.ProjectionKeys) : s'.ProjectionKeys := by
  refine ProjectionKeys.reProjectEvent ?_ (reopenWrites_wellFormed hwf) hproj
  exact h.of_eq rfl rfl fun _ hid => hid

theorem ProjectionKeys.processEvent (h : s.ProjectionKeys) (hwf : s.WellFormed) {outboxId : Uuid}
    {now : Time} (hok : s.processEvent outboxId now = .ok s') : s'.ProjectionKeys := by
  unfold Db.processEvent at hok
  simp only [bind_ok, pure_ok] at hok
  obtain ⟨o, -, _, -, s₁, hproj, rfl⟩ := hok
  have hlocked : (s.fetchAndLock o.id soleWorker now).ProjectionKeys := h.of_eq rfl rfl fun _ hid => hid
  have hlockedWf : (s.fetchAndLock o.id soleWorker now).WellFormed :=
    hwf.of_sameTables ⟨rfl, rfl, rfl, rfl, rfl, rfl⟩
  suffices hprojected : s₁.ProjectionKeys from hprojected.of_eq rfl rfl fun _ hid => hid
  unfold projectOutboxEvent at hproj
  dsimp only at hproj
  split at hproj
  · rw [pure_ok] at hproj
    exact hproj ▸ hlocked
  · simp only [bind_ok, pure_ok] at hproj
    obtain ⟨⟨p, s₂⟩, hrun, rfl⟩ := hproj
    exact hlocked.reProjectEvent hlockedWf hrun

/-- **Every operation keeps the keys.** -/
theorem ProjectionKeys.run (h : s.ProjectionKeys) (hwf : s.WellFormed) {op : Op}
    (hok : op.run s = .ok s') : s'.ProjectionKeys := by
  cases op with
  | ingest call =>
      simp only [Op.run, bind_ok, pure_ok] at hok
      obtain ⟨⟨result, s₁⟩, hrun, rfl⟩ := hok
      rcases ingest_cases hwf hrun with rfl | ⟨sub, s₀, w, s₁, s₂, s₃, hing⟩
      · exact h
      · exact hing.projectionKeys h
  | resolve call =>
      simp only [Op.run, bind_ok, pure_ok] at hok
      obtain ⟨⟨u, p, s₁⟩, hrun, rfl⟩ := hok
      obtain ⟨c, winner, sw, hres, hproj⟩ := resolve_stages hwf hrun
      exact hres.projectionKeys hwf hproj h
  | reopen call =>
      simp only [Op.run, bind_ok, pure_ok] at hok
      obtain ⟨⟨u, p, s₁⟩, hrun, rfl⟩ := hok
      obtain ⟨c, -, hproj⟩ := reopen_stages hwf hrun
      exact Reopened.projectionKeys hwf hproj h
  | merge call =>
      simp only [Op.run, bind_ok, pure_ok] at hok
      obtain ⟨⟨result, s₁⟩, hrun, rfl⟩ := hok
      obtain ⟨s₃, s₄, hm⟩ := merge_cases hwf hrun
      exact hm.projectionKeys hwf h
  | review call =>
      simp only [Op.run, bind_ok, pure_ok] at hok
      obtain ⟨⟨result, s₁⟩, hrun, rfl⟩ := hok
      rcases review_cases hwf hrun with ⟨reviews, rfl⟩ | ⟨merge, s₃, s₄, hm⟩
      · exact h.of_eq rfl rfl fun _ hid => hid
      · exact hm.projectionKeys hwf h
  | reproject eventId now =>
      simp only [Op.run, bind_ok, pure_ok] at hok
      obtain ⟨⟨p, s₁⟩, hrun, rfl⟩ := hok
      exact h.reProjectEvent hwf hrun
  | rebuild maxEvents now =>
      simp only [Op.run, pure_ok] at hok
      exact hok ▸ h.rebuildAllProjections hwf maxEvents now
  | process outboxId now => exact h.processEvent hwf hok

theorem ProjectionKeys.step (h : s.ProjectionKeys) (hwf : s.WellFormed) (op : Op) :
    (Atlas.step s op).ProjectionKeys := by
  rcases step_cases s op with hok | ⟨-, hsame⟩
  · exact h.run hwf hok
  · rw [hsame]
    exact h

end ReProject

end Db

end Atlas
