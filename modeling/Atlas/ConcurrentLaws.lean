import Atlas.Concurrent
import Atlas.CuratorLaws

/-!
# Laws of concurrent transactions

Three locks keep the open transactions apart: no two ingestions of one source
record, no two transactions on one event row, no two reprojections of one event.
With them the committed tables keep four laws.  Event and outbox identifiers are
unique; an outbox row that the projection history names is PROCESSED; and all
events with claims of one source record have one root.

The last law is what confines an ingestion: when it commits, no live event but
its own holds claims of its record, so the evidence of no other live event
changes.
-/

namespace Atlas

open Outcome Rows

namespace Db

/-- The laws of the committed tables. -/
structure Tables (s : Db) : Prop where
  eventIds : Unique AccidentEvent.id s.events
  outboxIds : Unique OutboxEvent.id s.outbox
  acknowledged : ∀ h ∈ s.projectionHistory, ∀ i, h.causedByOutboxEventId = some i →
    ∃ o ∈ s.outbox, o.id = i ∧ o.status = .processed
  records : ∀ x y ρ, s.HoldsRecord x ρ → s.HoldsRecord y ρ → ∃ r, s.Root x r ∧ s.Root y r

theorem tables_empty (sources : List Source) : (Db.empty sources).Tables :=
  ⟨unique_nil _, unique_nil _, by simp [Db.empty], by simp [HoldsRecord, Db.empty]⟩

section Live

variable {s s' : Db} {e : Uuid}

theorem Tables.not_isMerged (h : s.Tables) (hlive : s.IsLive e) : ¬ s.IsMerged e := by
  rintro ⟨y, hy, hyid, hsome⟩
  obtain ⟨x, hx, hxid, hnone⟩ := hlive
  rw [h.eventIds.eq_of_key hy hx (hyid.trans hxid.symm)] at hsome
  exact hsome hnone

theorem Tables.root_unique (h : s.Tables) {x r r' : Uuid} (hr : s.Root x r) (hr' : s.Root x r') :
    r = r' := by
  obtain ⟨n, hn⟩ := hr
  obtain ⟨m, hm⟩ := hr'
  exact (hn.unique h.eventIds hm).2

/-- Liveness depends on the event table only. -/
theorem isLive_congr (h : s'.events = s.events) : s'.IsLive e ↔ s.IsLive e := by
  unfold IsLive
  rw [h]

/-- What is live after an ingestion was live, or is its own event. -/
theorem IngestCommit.isLive_cases {x : Uuid} {record : Option (Uuid × String)}
    (h : IngestCommit s s' e record) (hlive : s'.IsLive x) : s.IsLive x ∨ x = e := by
  rcases h.events with ⟨-, hev⟩ | ⟨-, hev⟩
  · exact .inl ((isLive_congr hev).mp hlive)
  · obtain ⟨y, hy, hyid, hnone⟩ := hlive
    rw [hev, List.mem_append, List.mem_singleton] at hy
    rcases hy with hy | rfl
    · exact .inl ⟨y, hy, hyid, hnone⟩
    · exact .inr hyid.symm

theorem IngestCommit.events_append {record : Option (Uuid × String)}
    (h : IngestCommit s s' e record) : ∃ extra, s'.events = s.events ++ extra ∧
      ∀ x ∈ extra, x.id = e := by
  rcases h.events with ⟨-, hev⟩ | ⟨-, hev⟩
  · exact ⟨[], by simpa using hev, by simp⟩
  · exact ⟨[⟨e, none⟩], hev, by simp⟩

/-- What is live after a merge was live, and is not its source. -/
theorem MergeCommit.isLive_cases {source target x : Uuid} (h : MergeCommit s s' source target)
    (hlive : s'.IsLive x) : s.IsLive x ∧ x ≠ source := by
  obtain ⟨y', hy', hyid, hnone⟩ := hlive
  rw [h.events] at hy'
  obtain ⟨y, hy, rfl⟩ := mem_updateWhere.mp hy'
  by_cases hp : y.id = source ∧ y.mergedInto = none
  · rw [if_pos (decide_eq_true hp)] at hnone
    cases hnone
  · rw [if_neg (by simpa using hp)] at hyid hnone
    exact ⟨⟨y, hy, hyid, hnone⟩, fun hx => hp ⟨hyid.trans hx, hnone⟩⟩

end Live

/-! ## What a reprojection commits -/

theorem applyWrite_eq (s : Db) (write : Option ProjectionWrite) :
    ∃ ps, s.applyWrite write = { s with
      projections := ps
      projectionHistory := s.projectionHistory ++ (write.bind ProjectionWrite.history).toList } := by
  cases write with
  | none => exact ⟨s.projections, by simp [applyWrite]⟩
  | some w =>
      obtain ⟨ps, hps⟩ := upsertProjection_eq s w.row
      exact ⟨ps, by simp [applyWrite, hps]⟩

theorem getProjection_upsert (s : Db) (p : ProjectedAccidentRecord) (x : Uuid) :
    (s.upsertProjection p).getProjection x =
      if x = p.eventId then some p else s.getProjection x := by
  unfold upsertProjection getProjection
  split
  · rename_i hany
    have hthere : ∃ q ∈ s.projections, q.eventId = p.eventId := by simpa using hany
    by_cases hx : x = p.eventId
    · rw [if_pos hx, hx]
      exact lookup_replace_self hthere
    · rw [if_neg hx]
      exact lookup_replace_ne hx s.projections
  · rename_i hany
    exact lookup_append_single (by simpa using hany)

/-- The projection of an event after a write. -/
theorem getProjection_applyWrite (s : Db) (write : Option ProjectionWrite) (x : Uuid) :
    (s.applyWrite write).getProjection x =
      match write with
      | none => s.getProjection x
      | some w => if x = w.row.eventId then some w.row else s.getProjection x := by
  cases write with
  | none => rfl
  | some w => exact getProjection_upsert s w.row x

end Db

/-- What the commit of a finished reprojection does. -/
structure Committed (s s' : Db) (r : Reprojection) (write : Option ProjectionWrite) : Prop where
  events : s'.events = s.events
  sources : s'.sources = s.sources
  history : s'.projectionHistory =
    s.projectionHistory ++ (write.bind ProjectionWrite.history).toList
  projection : ∀ x, s'.getProjection x = (s.applyWrite write).getProjection x
  view : s'.evidence r.call.eventId = r.view s
  others : ∀ x, x ≠ r.call.eventId → s'.evidence x = s.evidence x
  claimed : ∀ x, s'.HasClaims x → s.HasClaims x ∨ x = r.call.eventId
  records : ∀ x ρ, s'.HoldsRecord x ρ → s.HoldsRecord x ρ
  outbox : (∀ i workerId attempt, r.role ≠ .worker i workerId attempt) ∧ s'.outbox = s.outbox ∨
    ∃ i workerId attempt, r.role = .worker i workerId attempt ∧
      (∃ o ∈ s.outbox, Db.leasedTo i workerId attempt o = true) ∧
      s'.outbox = updateWhere (Db.leasedTo i workerId attempt) (Db.releasedRow .processed) s.outbox

/-- Writing projections commutes with any change of the other tables. -/
theorem getProjection_applyWrite_congr {s s₁ : Db} (h : s₁.projections = s.projections)
    (write : Option ProjectionWrite) (x : Uuid) :
    (s₁.applyWrite write).getProjection x = (s.applyWrite write).getProjection x := by
  have hsame : s₁.getProjection x = s.getProjection x := by
    unfold Db.getProjection
    rw [h]
  rw [Db.getProjection_applyWrite, Db.getProjection_applyWrite, hsame]

theorem World.Commits.spec {s s' : Db} {r : Reprojection} {write : Option ProjectionWrite}
    (h : World.Commits s r write s') : Committed s s' r write := by
  unfold World.Commits at h
  split at h
  · rename_i hrole
    obtain ⟨ps, hps⟩ := Db.applyWrite_eq s write
    have hproj : ∀ x, s'.getProjection x = (s.applyWrite write).getProjection x := fun x => by rw [h]
    rw [hps] at h
    subst h
    exact ⟨rfl, rfl, rfl, hproj, by rw [Reprojection.view, hrole]; rfl, fun _ _ => rfl,
      fun _ hx => .inl hx, fun _ _ hx => hx, .inl ⟨by simp [hrole], rfl⟩⟩
  · rename_i writes hrole
    obtain ⟨s₁, hc, h⟩ := h
    obtain ⟨ps, hps⟩ := Db.applyWrite_eq s₁ write
    have hproj : ∀ x, s'.getProjection x = (s.applyWrite write).getProjection x := by
      intro x
      rw [h, getProjection_applyWrite_congr hc.projections]
    rw [hps] at h
    subst h
    refine ⟨hc.events, hc.footprint.sources, ?_, hproj, ?_, ?_, ?_, hc.records,
      .inl ⟨by simp [hrole], hc.outbox⟩⟩
    · rw [← hc.footprint.history]
    · rw [Reprojection.view, hrole]
      exact hc.evidence
    · intro x hx
      rcases hc.footprint.others x (by simpa using hx) with heq | ⟨ρ, hρ, -⟩
      · exact heq
      · cases hρ
    · intro x hx
      rcases hc.footprint.claimed x hx with hx | hx
      · exact .inl hx
      · exact .inr (by simpa using hx)
  · rename_i i workerId attempt hrole
    obtain ⟨hlease, h⟩ := h
    obtain ⟨ps, hps⟩ := Db.applyWrite_eq s write
    have hproj : ∀ x, s'.getProjection x = (s.applyWrite write).getProjection x := fun x => by
      rw [h]
      rfl
    rw [hps] at h
    subst h
    refine ⟨rfl, rfl, rfl, hproj, by rw [Reprojection.view, hrole]; rfl, fun _ _ => rfl,
      fun _ hx => .inl hx, fun _ _ hx => hx, .inr ⟨i, workerId, attempt, hrole, ?_, rfl⟩⟩
    simpa [Db.updateStatus] using hlease

/-! ## One statement of a reprojection -/

/-- What the content hash digests. -/
def ProjectedAccidentRecord.content (p : ProjectedAccidentRecord) : ProjectionContent :=
  ⟨sortFields (Json.canonicalFields (serialiseFields p.fields)), p.unresolvedConflictFields,
    p.completenessScore⟩

theorem projectionContentHash_ok {p : ProjectedAccidentRecord} {c : ProjectionContent}
    (h : projectionContentHash p = .ok c) : c = p.content := by
  unfold projectionContentHash at h
  dsimp only at h
  split at h
  · simp only [Except.ok.injEq] at h
    exact h.symm
  · cases h

namespace Db

theorem addProjectionHistory_fresh {s s' : Db} {h : AccidentProjectionHistory}
    (hok : s.addProjectionHistory h = .ok s') : ∀ g ∈ s.projectionHistory,
      ¬ (g.accidentEventId = h.accidentEventId ∧ g.projectionVersion = h.projectionVersion) := by
  unfold addProjectionHistory at hok
  split at hok
  · cases hok
  · rename_i hany
    simpa using hany

/-- **Persisting.**  Nothing is written when the content is that of the row which
was read; else the row and its history row are. -/
theorem persist_ok {s : Db} {call : ReProjectCall} {cur : Option ProjectedAccidentRecord}
    {p : ProjectedAccidentRecord} {write : Option ProjectionWrite}
    (h : s.persist call cur p = .ok write) :
    (write = none ∧ ∃ c, cur = some c ∧ c.content = p.content) ∨
      write = some ⟨storedRow p, some (historyRow call cur p)⟩ := by
  unfold persist at h
  simp only [bind_ok] at h
  obtain ⟨hash, hhash, unchanged, hunchanged, h⟩ := h
  split at h
  · rename_i c
    rw [pure_ok] at h
    left
    refine ⟨h.symm, ?_⟩
    unfold unchangedRow at hunchanged
    split at hunchanged
    · rename_i cur'
      split at hunchanged
      · simp [pure_ok] at hunchanged
      · simp only [bind_ok, pure_ok] at hunchanged
        obtain ⟨hash', hhash', hif⟩ := hunchanged
        split at hif
        · rename_i heq
          refine ⟨cur', rfl, ?_⟩
          rw [← projectionContentHash_ok hhash', ← heq, projectionContentHash_ok hhash]
        · cases hif
    · simp [pure_ok] at hunchanged
  · simp only [bind_ok, pure_ok] at h
    obtain ⟨-, -, h⟩ := h
    exact .inr h.symm

end Db

namespace Reprojection

/-- The projection history names the outbox row that caused the reprojection. -/
def Found (s : Db) (r : Reprojection) : Prop :=
  ∃ i, r.call.causedByOutboxEventId = some i ∧
    ∃ h ∈ s.projectionHistory, h.causedByOutboxEventId = some i

/-- What one statement can do, by the stage it starts from. -/
inductive Moves [PyText] (s : Db) (r : Reprojection) : Reprojection → Prop where
  | wait (hstage : r.stage = .lookup ∨ r.stage = .lookupEvent) : Moves s r (r.goTo .waiting)
  | found (hstage : r.stage = .lookup) (hfound : Found s r) : Moves s r (r.goTo .lookupEvent)
  | acknowledge (hstage : r.stage = .lookupEvent) : Moves s r (r.goTo .acknowledged)
  | lock (hstage : r.stage = .waiting) : Moves s r (r.goTo .locked)
  | readEvent (hstage : r.stage = .locked) :
      Moves s r (r.goTo (.eventRead (s.getEvent r.call.eventId)))
  | readProjection {event : Option AccidentEvent} (hstage : r.stage = .eventRead event) :
      Moves s r (r.goTo (.projectionRead event (s.getProjection r.call.eventId)))
  | rebuild {event : Option AccidentEvent} {cur : Option ProjectedAccidentRecord}
      (hstage : r.stage = .projectionRead event cur) : Moves s r (r.goTo (.rebuilding event cur))
  | rebuildMerged {event : AccidentEvent} {cur : Option ProjectedAccidentRecord}
      (hstage : r.stage = .projectionRead (some event) cur) (hmerged : event.isMerged = true) :
      Moves s r ⟨{ r.call with causedByOutboxEventId := none }, r.role, .rebuilding (some event) cur⟩
  | skip {event : Option AccidentEvent} {cur : ProjectedAccidentRecord}
      (hstage : r.stage = .projectionRead event (some cur)) (hfound : Found s r) :
      Moves s r (r.goTo (.done none))
  | restore {event : Option AccidentEvent} {h : AccidentProjectionHistory}
      (hstage : r.stage = .projectionRead event none) (hfound : Found s r)
      (hmem : h ∈ s.projectionHistory) (hevent : h.accidentEventId = r.call.eventId) :
      Moves s r (r.goTo (.done (some ⟨Db.restoredRow r.call.eventId h r.call.now, none⟩)))
  | bury {event : AccidentEvent} {cur : Option ProjectedAccidentRecord} {target : Uuid}
      {write : Option ProjectionWrite} (hstage : r.stage = .rebuilding (some event) cur)
      (hmerged : event.mergedInto = some target)
      (hwrite : s.persist r.call cur
        (Db.tombstone r.call.eventId target (Db.nextVersion cur) r.call.now) = .ok write) :
      Moves s r (r.goTo (.done write))
  | readClaims {event : Option AccidentEvent} {cur : Option ProjectedAccidentRecord}
      (hstage : r.stage = .rebuilding event cur) :
      Moves s r (r.goTo (.claimsRead event cur (r.view s).claims))
  | readConflicts {event : Option AccidentEvent} {cur : Option ProjectedAccidentRecord}
      {claims : List Claim} (hstage : r.stage = .claimsRead event cur claims) :
      Moves s r (r.goTo (.conflictsRead event cur ⟨claims, (r.view s).conflicts⟩))
  | build {event : Option AccidentEvent} {cur : Option ProjectedAccidentRecord} {ev : Evidence}
      {write : Option ProjectionWrite} (hstage : r.stage = .conflictsRead event cur ev)
      (hwrite : s.persist r.call cur
        (s.buildOn r.call.eventId ev (Db.nextVersion cur) r.call.now) = .ok write) :
      Moves s r (r.goTo (.done write))

theorem found_of_existing {s : Db} {r : Reprojection} {h : AccidentProjectionHistory}
    (hex : r.call.causedByOutboxEventId.bind s.findHistoryByOutboxEvent = some h) :
    Found s r ∧ h ∈ s.projectionHistory := by
  obtain ⟨i, hi, hfind⟩ := Option.bind_eq_some_iff.mp hex
  have hmem := List.mem_of_find?_eq_some hfind
  have hcause := List.find?_some hfind
  exact ⟨⟨i, hi, h, hmem, by simpa using hcause⟩, hmem⟩

/-- **Taking a statement apart.** -/
theorem next_moves [PyText] {s : Db} {r r' : Reprojection} (h : r.next s = .ok r') :
    Moves s r r' := by
  unfold next at h
  dsimp only at h
  cases hstage : r.stage with
  | lookup =>
      simp only [hstage, pure_ok] at h
      subst h
      split
      · rename_i hsome
        obtain ⟨g, hg⟩ := Option.isSome_iff_exists.mp hsome
        exact .found hstage (found_of_existing hg).1
      · exact .wait (.inl hstage)
  | lookupEvent =>
      simp only [hstage, pure_ok] at h
      subst h
      split
      · exact .wait (.inr hstage)
      · exact .acknowledge hstage
  | acknowledged => simp [hstage] at h
  | waiting =>
      simp only [hstage, pure_ok] at h
      exact h ▸ .lock hstage
  | locked =>
      simp only [hstage, pure_ok] at h
      exact h ▸ .readEvent hstage
  | eventRead event =>
      simp only [hstage, pure_ok] at h
      exact h ▸ .readProjection hstage
  | projectionRead event cur =>
      simp only [hstage] at h
      split at h
      · rw [pure_ok] at h
        exact h ▸ .rebuild hstage
      · rename_i g hex
        obtain ⟨hfound, hmem⟩ := found_of_existing hex
        split at h
        · rename_i hany
          rw [pure_ok] at h
          obtain ⟨x, rfl, hx⟩ : ∃ x, event = some x ∧ x.isMerged = true := by
            simpa [Option.any_eq_true] using hany
          exact h ▸ .rebuildMerged hstage hx
        · split at h
          · rw [pure_ok] at h
            exact h ▸ .skip hstage hfound
          · simp only [bind_ok, require_ok, pure_ok] at h
            obtain ⟨-, hevent, h⟩ := h
            exact h ▸ .restore hstage hfound hmem hevent
  | rebuilding event cur =>
      simp only [hstage] at h
      split at h
      · rename_i target htarget
        obtain ⟨x, rfl, hx⟩ := Option.bind_eq_some_iff.mp htarget
        simp only [bind_ok, pure_ok] at h
        obtain ⟨write, hwrite, h⟩ := h
        exact h ▸ .bury hstage hx hwrite
      · rw [pure_ok] at h
        exact h ▸ .readClaims hstage
  | claimsRead event cur claims =>
      simp only [hstage, pure_ok] at h
      exact h ▸ .readConflicts hstage
  | conflictsRead event cur ev =>
      simp only [hstage, bind_ok, pure_ok] at h
      obtain ⟨-, -, write, hwrite, h⟩ := h
      exact h ▸ .build hstage hwrite
  | done write => simp [hstage] at h

end Reprojection

/-! ## What happens to the outbox -/

namespace Db

/-- Rows keep their identity, and those that are PROCESSED stay so. -/
def OutboxKept (s s' : Db) : Prop :=
  ∀ o ∈ s.outbox, ∃ o' ∈ s'.outbox, o'.id = o.id ∧ o'.eventId = o.eventId ∧
    (o.status = .processed → o'.status = .processed)

theorem OutboxKept.refl (s : Db) : OutboxKept s s := fun o ho => ⟨o, ho, rfl, rfl, fun h => h⟩

/-- A lease comes or goes: rows that are not PROCESSED change to other states
than PROCESSED. -/
structure LeaseOnly (s s' : Db) : Prop where
  update : ∃ p f, s' = { s with outbox := updateWhere p f s.outbox } ∧
    ∀ o, (f o).id = o.id ∧ (f o).eventId = o.eventId ∧
      (p o = true → o.status ≠ .processed ∧ (f o).status ≠ .processed)

theorem leaseOnly_fetch (s : Db) (id : Uuid) (workerId : String) (now : Time) :
    LeaseOnly s (s.fetchAndLock id workerId now) := by
  refine ⟨_, _, rfl, fun o => ⟨rfl, rfl, fun hp => ⟨?_, by simp [leasedRow]⟩⟩⟩
  intro hst
  simp [fetchable, hst] at hp

theorem leaseOnly_fail (s : Db) (id : Uuid) {status : OutboxStatus} (workerId : String)
    (attempt : Nat) (hstatus : status = .failed ∨ status = .deadLetter) :
    LeaseOnly s (s.updateStatus id status workerId attempt).2 := by
  refine ⟨_, _, rfl, fun o => ⟨rfl, rfl, fun hp => ⟨?_, ?_⟩⟩⟩
  · intro hst
    simp [leasedTo, hst] at hp
  · rcases hstatus with rfl | rfl <;> simp [releasedRow]

theorem leaseOnly_recover (s : Db) (id : Uuid) (maxAttempts : Nat) :
    LeaseOnly s (s.requeueStaleLocked id maxAttempts) := by
  refine ⟨_, _, rfl, fun o => ⟨rfl, rfl, fun hp => ⟨?_, ?_⟩⟩⟩
  · intro hst
    simp [hst] at hp
  · unfold releasedRow
    dsimp only
    split <;> simp

theorem LeaseOnly.kept {s s' : Db} (h : LeaseOnly s s') : OutboxKept s s' := by
  obtain ⟨p, f, rfl, hf⟩ := h.update
  intro o ho
  by_cases hp : p o = true
  · exact ⟨f o, mem_updateWhere.mpr ⟨o, ho, if_pos hp⟩, (hf o).1, (hf o).2.1,
      fun hst => absurd hst ((hf o).2.2 hp).1⟩
  · exact ⟨o, mem_updateWhere.mpr ⟨o, ho, if_neg hp⟩, rfl, rfl, fun hst => hst⟩

theorem Queued.kept {s s' : Db} {e : Uuid} (h : Queued s s' e) : OutboxKept s s' := by
  obtain ⟨o, -, -, -, hout⟩ := h
  intro p hp
  exact ⟨p, by rw [hout]; exact List.mem_append_left _ hp, rfl, rfl, fun hst => hst⟩

theorem Queued.unique {s s' : Db} {e : Uuid} (h : Queued s s' e)
    (hids : Unique OutboxEvent.id s.outbox) : Unique OutboxEvent.id s'.outbox := by
  obtain ⟨o, -, -, hnew, hout⟩ := h
  rw [hout]
  exact hids.append_single hnew

/-- What the history names stays PROCESSED. -/
theorem OutboxKept.acknowledged {s s' : Db} (h : OutboxKept s s') {i : Uuid}
    (hi : ∃ o ∈ s.outbox, o.id = i ∧ o.status = .processed) :
    ∃ o ∈ s'.outbox, o.id = i ∧ o.status = .processed := by
  obtain ⟨o, ho, hid, hst⟩ := hi
  obtain ⟨o', ho', hid', -, hst'⟩ := h o ho
  exact ⟨o', ho', hid'.trans hid, hst' hst⟩

end Db

theorem Committed.kept {s s' : Db} {r : Reprojection} {write : Option ProjectionWrite}
    (h : Committed s s' r write) : Db.OutboxKept s s' := by
  intro o ho
  rcases h.outbox with ⟨-, hout⟩ | ⟨i, workerId, attempt, -, -, hout⟩
  · exact ⟨o, by rw [hout]; exact ho, rfl, rfl, fun hst => hst⟩
  · rw [hout]
    by_cases hp : Db.leasedTo i workerId attempt o = true
    · exact ⟨_, mem_updateWhere.mpr ⟨o, ho, if_pos hp⟩, rfl, rfl, fun _ => rfl⟩
    · exact ⟨o, mem_updateWhere.mpr ⟨o, ho, if_neg hp⟩, rfl, rfl, fun hst => hst⟩

/-! ## What an open transaction relies on -/

/-- The event row as the reprojection has read it. -/
def Stage.event : Stage → Option AccidentEvent
  | .eventRead event | .projectionRead event _ | .rebuilding event _ | .claimsRead event _ _
  | .conflictsRead event _ _ => event
  | _ => none

/-- The worker's outbox row is PROCESSED already: its commit will not match a
lease. -/
def Void (s : Db) (r : Reprojection) : Prop :=
  ∃ i workerId attempt, r.role = .worker i workerId attempt ∧
    ∃ o ∈ s.outbox, o.id = i ∧ o.status = .processed

structure Reprojection.Sound (s : Db) (r : Reprojection) : Prop where
  cause : ∀ i, r.call.causedByOutboxEventId = some i →
    ∃ workerId attempt, r.role = .worker i workerId attempt
  row : ∀ i workerId attempt, r.role = .worker i workerId attempt →
    ∃ o ∈ s.outbox, o.id = i ∧ o.eventId = r.call.eventId
  merged : ∀ x, r.stage.event = some x → x.isMerged = true → s.IsMerged r.call.eventId
  found : r.stage = .lookupEvent ∨ r.stage = .acknowledged → Void s r
  written : ∀ write, r.stage = .done (some write) →
    write.row.eventId = r.call.eventId ∧
      ∀ h, write.history = some h → ∀ i, h.causedByOutboxEventId = some i →
        ∃ workerId attempt, r.role = .worker i workerId attempt

/-- What holds for an open transaction while it is open. -/
def TxOk (s : Db) : Tx → Prop
  | .ingest i =>
      (∀ prior ρ x, i.prior = some prior → i.record = some ρ → s.HoldsRecord x ρ →
        ∃ q r, prior = some q ∧ s.Root x r ∧ s.Root q r) ∧
      ∀ e, i.event = some e → (s.IsLive e ∨ ∀ x ∈ s.events, x.id ≠ e) ∧
        ∃ prior, i.prior = some prior ∧ ∀ q, prior = some q → e = q
  | .merge source target => source ≠ target ∧ s.IsLive source ∧ s.IsLive target
  | .reproject r => r.Sound s

section Sound

variable {s s' : Db} {r r' : Reprojection}

/-- What a statement leaves alone. -/
theorem Reprojection.Moves.frame [PyText] (h : r.Moves s r') :
    r'.role = r.role ∧ r'.call.eventId = r.call.eventId ∧
      (∀ i, r'.call.causedByOutboxEventId = some i → r.call.causedByOutboxEventId = some i) ∧
      (r'.stage.holdsLock = true → r.stage.holdsLock = true ∨ r.stage = .waiting) := by
  cases h with
  | wait _ => exact ⟨rfl, rfl, fun _ h => h, fun h => by cases h⟩
  | found _ _ => exact ⟨rfl, rfl, fun _ h => h, fun h => by cases h⟩
  | acknowledge _ => exact ⟨rfl, rfl, fun _ h => h, fun h => by cases h⟩
  | lock hstage => exact ⟨rfl, rfl, fun _ h => h, fun _ => .inr hstage⟩
  | readEvent hstage => exact ⟨rfl, rfl, fun _ h => h, fun _ => .inl (by rw [hstage]; rfl)⟩
  | readProjection hstage => exact ⟨rfl, rfl, fun _ h => h, fun _ => .inl (by rw [hstage]; rfl)⟩
  | rebuild hstage => exact ⟨rfl, rfl, fun _ h => h, fun _ => .inl (by rw [hstage]; rfl)⟩
  | rebuildMerged hstage _ => exact ⟨rfl, rfl, by simp, fun _ => .inl (by rw [hstage]; rfl)⟩
  | skip hstage _ => exact ⟨rfl, rfl, fun _ h => h, fun _ => .inl (by rw [hstage]; rfl)⟩
  | restore hstage _ _ _ => exact ⟨rfl, rfl, fun _ h => h, fun _ => .inl (by rw [hstage]; rfl)⟩
  | bury hstage _ _ => exact ⟨rfl, rfl, fun _ h => h, fun _ => .inl (by rw [hstage]; rfl)⟩
  | readClaims hstage => exact ⟨rfl, rfl, fun _ h => h, fun _ => .inl (by rw [hstage]; rfl)⟩
  | readConflicts hstage => exact ⟨rfl, rfl, fun _ h => h, fun _ => .inl (by rw [hstage]; rfl)⟩
  | build hstage _ => exact ⟨rfl, rfl, fun _ h => h, fun _ => .inl (by rw [hstage]; rfl)⟩

/-- The outbox row of a reprojection that the history names is PROCESSED. -/
theorem Reprojection.Sound.void (h : r.Sound s) (hT : s.Tables) (hfound : r.Found s) : Void s r := by
  obtain ⟨i, hi, g, hg, hcause⟩ := hfound
  obtain ⟨workerId, attempt, hrole⟩ := h.cause i hi
  exact ⟨i, workerId, attempt, hrole, hT.acknowledged g hg i hcause⟩

/-- What a reprojection has to show for its next stage. -/
structure Reprojection.Ready (s : Db) (r : Reprojection) (stage : Stage) : Prop where
  merged : ∀ x, stage.event = some x → x.isMerged = true → s.IsMerged r.call.eventId
  found : stage = .lookupEvent ∨ stage = .acknowledged → Void s r
  written : ∀ write, stage = .done (some write) →
    write.row.eventId = r.call.eventId ∧
      ∀ h, write.history = some h → ∀ i, h.causedByOutboxEventId = some i →
        r.call.causedByOutboxEventId = some i

theorem Reprojection.Sound.goTo (h : r.Sound s) {stage : Stage} (hready : r.Ready s stage) :
    (r.goTo stage).Sound s :=
  ⟨h.cause, h.row, hready.merged, hready.found, fun write hst =>
    ⟨(hready.written write hst).1, fun g hg i hi => h.cause i ((hready.written write hst).2 g hg i hi)⟩⟩

theorem Reprojection.ready_persisted {cur : Option ProjectedAccidentRecord}
    {p : ProjectedAccidentRecord} {write : Option ProjectionWrite}
    (hp : p.eventId = r.call.eventId) (h : s.persist r.call cur p = .ok write) :
    r.Ready s (.done write) := by
  refine ⟨by simp [Stage.event], by simp, ?_⟩
  intro w hw
  rcases Db.persist_ok h with ⟨rfl, -⟩ | rfl
  · simp at hw
  · simp only [Stage.done.injEq, Option.some.injEq] at hw
    subst hw
    refine ⟨hp, ?_⟩
    intro g hg i hi
    simp only [Option.some.injEq] at hg
    subst hg
    exact hi

theorem Reprojection.Sound.moves [PyText] (h : r.Sound s) (hT : s.Tables) (hm : r.Moves s r') :
    r'.Sound s := by
  cases hm with
  | wait _ => exact h.goTo ⟨by simp [Stage.event], by simp, by simp⟩
  | found _ hfound => exact h.goTo ⟨by simp [Stage.event], fun _ => h.void hT hfound, by simp⟩
  | acknowledge hstage =>
      exact h.goTo ⟨by simp [Stage.event], fun _ => h.found (.inl hstage), by simp⟩
  | lock _ => exact h.goTo ⟨by simp [Stage.event], by simp, by simp⟩
  | readEvent _ =>
      refine h.goTo ⟨?_, by simp, by simp⟩
      intro x hx hmerged
      obtain ⟨hmem, hid⟩ := Db.getEvent_some hx
      refine ⟨x, hmem, hid, ?_⟩
      unfold AccidentEvent.isMerged at hmerged
      exact Option.isSome_iff_ne_none.mp hmerged
  | readProjection hstage =>
      exact h.goTo ⟨fun x hx => h.merged x (by rw [hstage]; exact hx), by simp, by simp⟩
  | rebuild hstage =>
      exact h.goTo ⟨fun x hx => h.merged x (by rw [hstage]; exact hx), by simp, by simp⟩
  | rebuildMerged hstage _ =>
      exact ⟨by simp, h.row, fun x hx => h.merged x (by rw [hstage]; exact hx), by simp, by simp⟩
  | skip _ _ => exact h.goTo ⟨by simp [Stage.event], by simp, by simp⟩
  | restore _ _ _ _ =>
      refine h.goTo ⟨by simp [Stage.event], by simp, ?_⟩
      intro w hw
      simp only [Stage.done.injEq, Option.some.injEq] at hw
      subst hw
      exact ⟨rfl, by simp⟩
  | bury _ _ hwrite => exact h.goTo (ready_persisted rfl hwrite)
  | readClaims hstage =>
      exact h.goTo ⟨fun x hx => h.merged x (by rw [hstage]; exact hx), by simp, by simp⟩
  | readConflicts hstage =>
      exact h.goTo ⟨fun x hx => h.merged x (by rw [hstage]; exact hx), by simp, by simp⟩
  | build _ hwrite => exact h.goTo (ready_persisted rfl hwrite)

theorem World.starts_stage (h : World.Starts s r) : r.stage = .waiting ∨ r.stage = .lookup := by
  unfold World.Starts at h
  split at h
  · exact .inl h.2
  · exact .inl h.2
  · exact .inr h.2.1

theorem Reprojection.sound_of_starts (h : World.Starts s r) : r.Sound s := by
  unfold World.Starts at h
  split at h
  · rename_i hrole
    exact ⟨by simp [h.1], by simp [hrole], by simp [h.2, Stage.event], by simp [h.2], by simp [h.2]⟩
  · rename_i writes hrole
    exact ⟨by simp [h.1], by simp [hrole], by simp [h.2, Stage.event], by simp [h.2], by simp [h.2]⟩
  · rename_i i workerId attempt hrole
    obtain ⟨hcause, hstage, hrow⟩ := h
    refine ⟨?_, ?_, by simp [hstage, Stage.event], by simp [hstage], by simp [hstage]⟩
    · intro j hj
      rw [hcause, Option.some.injEq] at hj
      exact ⟨workerId, attempt, hj ▸ hrole⟩
    · intro j workerId' attempt' hrole'
      rw [hrole] at hrole'
      cases hrole'
      exact hrow

/-- A reprojection relies on no more than that merges last and outbox rows stay. -/
theorem Reprojection.Sound.kept (h : r.Sound s) (hmerged : ∀ e, s.IsMerged e → s'.IsMerged e)
    (hkept : s.OutboxKept s') : r.Sound s' := by
  refine ⟨h.cause, ?_, fun x hx hm => hmerged _ (h.merged x hx hm), ?_, h.written⟩
  · intro i workerId attempt hrole
    obtain ⟨o, ho, hid, he⟩ := h.row i workerId attempt hrole
    obtain ⟨o', ho', hid', he', -⟩ := hkept o ho
    exact ⟨o', ho', hid'.trans hid, he'.trans he⟩
  · intro hstage
    obtain ⟨i, workerId, attempt, hrole, hi⟩ := h.found hstage
    exact ⟨i, workerId, attempt, hrole, hkept.acknowledged hi⟩

end Sound

/-! ## What a commit means to the other transactions -/

section Commits

variable {s s' : Db} {e : Uuid} {record : Option (Uuid × String)} {tx : Tx}

theorem TxOk.event_locked {i : Ingestion} (h : TxOk s (.ingest i)) (he : i.event = some e) :
    s.IsLive e ∨ ∀ x ∈ s.events, x.id ≠ e := (h.2 e he).1

/-- The events with claims of an ingestion's record have its event as root. -/
theorem TxOk.record_root (hT : s.Tables) {i : Ingestion} (h : TxOk s (.ingest i))
    (he : i.event = some e) {ρ : Uuid × String} (hρ : i.record = some ρ) {x : Uuid}
    (hx : s.HoldsRecord x ρ) : s.IsLive e ∧ s.Root x e := by
  obtain ⟨hlive, prior, hprior, hprior_eq⟩ := h.2 e he
  obtain ⟨q, r, rfl, hxr, hqr⟩ := h.1 prior ρ x hprior hρ hx
  have heq := hprior_eq q rfl
  subst heq
  have hlive : s.IsLive e := by
    rcases hlive with hlive | hnone
    · exact hlive
    · exfalso
      obtain ⟨n, hn⟩ := hqr
      cases hn with
      | root hl =>
          obtain ⟨y, hy, hid, -⟩ := hl
          exact hnone y hy hid
      | step hy _ =>
          obtain ⟨y, hy, hid, -⟩ := hy
          exact hnone y hy hid
  rw [hT.root_unique hqr (Db.root_of_isLive hlive)] at hxr
  exact ⟨hlive, hxr⟩

/-- **The footprint of an ingestion.**  The evidence of no other event that is not
merged changes. -/
theorem Db.IngestCommit.evidence_other (hT : s.Tables) {i : Ingestion} (hi : TxOk s (.ingest i))
    (he : i.event = some e) (h : s.IngestCommit s' e i.record) {x : Uuid} (hx : x ≠ e)
    (hmerged : ¬ s.IsMerged x) : s'.evidence x = s.evidence x := by
  rcases h.footprint.others x (by simpa using hx) with heq | ⟨ρ, hρ, hholds⟩
  · exact heq
  · exfalso
    obtain ⟨-, n, hroot⟩ := hi.record_root hT he hρ hholds
    cases hroot with
    | root _ => exact hx rfl
    | step hpoint _ =>
        obtain ⟨y, hy, hid, hsome⟩ := hpoint
        exact hmerged ⟨y, hy, hid, by simp [hsome]⟩

theorem Db.IngestCommit.isLive_event {i : Ingestion} (hi : TxOk s (.ingest i))
    (he : i.event = some e) (h : s.IngestCommit s' e i.record) : s'.IsLive e := by
  rcases h.events with ⟨⟨x, hx, hid⟩, hev⟩ | ⟨-, hev⟩
  · rcases hi.event_locked he with hlive | hnone
    · exact (Db.isLive_congr hev).mpr hlive
    · exact absurd hid (hnone x hx)
  · exact ⟨⟨e, none⟩, by rw [hev]; simp, rfl, rfl⟩

theorem Db.IngestCommit.isMerged (h : s.IngestCommit s' e record) {x : Uuid} (hx : s.IsMerged x) :
    s'.IsMerged x := by
  obtain ⟨extra, hev, -⟩ := h.events_append
  obtain ⟨y, hy, hid, hsome⟩ := hx
  exact ⟨y, by rw [hev]; exact List.mem_append_left _ hy, hid, hsome⟩

theorem Db.IngestCommit.isLive (h : s.IngestCommit s' e record) {x : Uuid} (hx : s.IsLive x) :
    s'.IsLive x := by
  obtain ⟨extra, hev, -⟩ := h.events_append
  obtain ⟨y, hy, hid, hnone⟩ := hx
  exact ⟨y, by rw [hev]; exact List.mem_append_left _ hy, hid, hnone⟩

theorem Db.IngestCommit.tables (hT : s.Tables) {i : Ingestion} (hi : TxOk s (.ingest i))
    (he : i.event = some e) (h : s.IngestCommit s' e i.record) : s'.Tables := by
  obtain ⟨extra, hev, hextra⟩ := h.events_append
  have hroot : ∀ x r, s.Root x r → s'.Root x r := fun x r hr => hr.of_append extra hev
  have hlive := Db.IngestCommit.isLive_event hi he h
  refine ⟨?_, h.queued.unique hT.outboxIds, ?_, ?_⟩
  · rcases h.events with ⟨-, hev⟩ | ⟨hnew, hev⟩
    · rw [hev]
      exact hT.eventIds
    · rw [hev]
      exact hT.eventIds.append_single hnew
  · rw [h.footprint.history]
    intro g hg j hj
    exact h.queued.kept.acknowledged (hT.acknowledged g hg j hj)
  · -- a claim of the record that is new sits on the event of the ingestion
    have hholder : ∀ x ρ, s'.HoldsRecord x ρ → s.HoldsRecord x ρ ∨
        (i.record = some ρ ∧ s'.Root x e) := by
      intro x ρ hx
      rcases h.records x ρ hx with hx | ⟨rfl, hρ⟩
      · exact .inl hx
      · exact .inr ⟨hρ, Db.root_of_isLive hlive⟩
    intro x y ρ hx hy
    rcases hholder x ρ hx with hx | ⟨hρ, hxe⟩
    · rcases hholder y ρ hy with hy | ⟨hρ, hye⟩
      · obtain ⟨r, hxr, hyr⟩ := hT.records x y ρ hx hy
        exact ⟨r, hroot x r hxr, hroot y r hyr⟩
      · exact ⟨e, hroot x e (hi.record_root hT he hρ hx).2, hye⟩
    · rcases hholder y ρ hy with hy | ⟨-, hye⟩
      · exact ⟨e, hxe, hroot y e (hi.record_root hT he hρ hy).2⟩
      · exact ⟨e, hxe, hye⟩

/-- An ingestion commits: the other transactions neither work on its record nor
on its event row. -/
theorem TxOk.ingestCommit (h : s.IngestCommit s' e record) (htx : TxOk s tx)
    (hrecord : ∀ ρ, record = some ρ → ¬ tx.locksRecord ρ) (hrow : ¬ tx.locksRow e) :
    TxOk s' tx := by
  obtain ⟨extra, hev, hextra⟩ := h.events_append
  cases tx with
  | ingest j =>
      refine ⟨?_, ?_⟩
      · intro prior ρ x hprior hρ hx
        rcases h.records x ρ hx with hx | ⟨-, hrec⟩
        · obtain ⟨q, r, hq, hxr, hqr⟩ := htx.1 prior ρ x hprior hρ hx
          exact ⟨q, r, hq, hxr.of_append extra hev, hqr.of_append extra hev⟩
        · exact absurd hρ (hrecord ρ hrec)
      · intro e' he'
        obtain ⟨hlive, hprior⟩ := htx.2 e' he'
        refine ⟨?_, hprior⟩
        rcases hlive with hlive | hnone
        · exact .inl (h.isLive hlive)
        · right
          intro x hx
          rw [hev, List.mem_append] at hx
          rcases hx with hx | hx
          · exact hnone x hx
          · intro hxe
            have heq : e' = e := hxe.symm.trans (hextra x hx)
            exact hrow (heq ▸ he')
  | merge source target => exact ⟨htx.1, h.isLive htx.2.1, h.isLive htx.2.2⟩
  | reproject r =>
      exact Reprojection.Sound.kept htx (fun _ hx => h.isMerged hx) h.queued.kept

section Merge

variable {source target : Uuid}

theorem Db.MergeCommit.isMerged (h : s.MergeCommit s' source target) {x : Uuid} (hx : s.IsMerged x) :
    s'.IsMerged x := by
  obtain ⟨y, hy, hid, hsome⟩ := hx
  refine ⟨y, ?_, hid, hsome⟩
  rw [h.events]
  refine mem_updateWhere.mpr ⟨y, hy, if_neg ?_⟩
  simp [hsome]

theorem Db.MergeCommit.isMerged_source (h : s.MergeCommit s' source target)
    (htx : TxOk s (.merge source target)) : s'.IsMerged source := by
  obtain ⟨y, hy, hid, hnone⟩ := htx.2.1
  refine ⟨{ y with mergedInto := some target }, ?_, hid, by simp⟩
  rw [h.events]
  exact mem_updateWhere.mpr ⟨y, hy, if_pos (decide_eq_true ⟨hid, hnone⟩)⟩

/-- A holder of a record after a merge stems from a holder before it, and its
root is where that one's root went. -/
theorem Db.MergeCommit.holder (hT : s.Tables) (h : s.MergeCommit s' source target)
    (htx : TxOk s (.merge source target)) {x : Uuid} {ρ : Uuid × String}
    (hx : s'.HoldsRecord x ρ) :
    ∃ x₀, s.HoldsRecord x₀ ρ ∧
      ∀ r, s.Root x₀ r → s'.Root x (if r = source then target else r) := by
  have htarget := Db.Pointed.isLive h.events htx.2.2 (Ne.symm htx.1)
  rcases h.records x ρ hx with hx | ⟨rfl, hsource⟩
  · exact ⟨x, hx, fun r hr => Db.Pointed.root h.events htarget hr⟩
  · refine ⟨source, hsource, ?_⟩
    intro r hr
    rw [hT.root_unique hr (Db.root_of_isLive htx.2.1), if_pos rfl]
    exact Db.root_of_isLive htarget

theorem Db.MergeCommit.tables (hT : s.Tables) (h : s.MergeCommit s' source target)
    (htx : TxOk s (.merge source target)) : s'.Tables := by
  refine ⟨?_, h.queued.unique hT.outboxIds, ?_, ?_⟩
  · rw [h.events]
    refine hT.eventIds.updateWhere ?_
    intro _
    rfl
  · rw [h.footprint.history]
    intro g hg j hj
    exact h.queued.kept.acknowledged (hT.acknowledged g hg j hj)
  · intro x y ρ hx hy
    obtain ⟨x₀, hx₀, hrootx⟩ := h.holder hT htx hx
    obtain ⟨y₀, hy₀, hrooty⟩ := h.holder hT htx hy
    obtain ⟨r, hxr, hyr⟩ := hT.records x₀ y₀ ρ hx₀ hy₀
    exact ⟨_, hrootx r hxr, hrooty r hyr⟩

/-- A merge commits: the other transactions hold neither of its event rows. -/
theorem TxOk.mergeCommit (hT : s.Tables) (h : s.MergeCommit s' source target)
    (hm : TxOk s (.merge source target)) (htx : TxOk s tx) (hrow : ¬ tx.locksRow source) :
    TxOk s' tx := by
  have htarget := Db.Pointed.isLive h.events hm.2.2 (Ne.symm hm.1)
  cases tx with
  | ingest j =>
      refine ⟨?_, ?_⟩
      · intro prior ρ x hprior hρ hx
        obtain ⟨x₀, hx₀, hrootx⟩ := h.holder hT hm hx
        obtain ⟨q, r, hq, hxr, hqr⟩ := htx.1 prior ρ x₀ hprior hρ hx₀
        exact ⟨q, _, hq, hrootx r hxr, Db.Pointed.root h.events htarget hqr⟩
      · intro e' he'
        obtain ⟨hlive, hprior⟩ := htx.2 e' he'
        refine ⟨?_, hprior⟩
        rcases hlive with hlive | hnone
        · left
          refine Db.Pointed.isLive h.events hlive ?_
          rintro rfl
          exact hrow he'
        · right
          intro x hx
          rw [h.events] at hx
          obtain ⟨y, hy, rfl⟩ := mem_updateWhere.mp hx
          split
          · exact hnone y hy
          · exact hnone y hy
  | merge a b =>
      refine ⟨htx.1, ?_, ?_⟩
      · exact Db.Pointed.isLive h.events htx.2.1 fun ha => hrow (.inl ha.symm)
      · exact Db.Pointed.isLive h.events htx.2.2 fun hb => hrow (.inr hb.symm)
  | reproject r =>
      exact Reprojection.Sound.kept htx (fun _ hx => h.isMerged hx) h.queued.kept

end Merge

/-- A change that leaves the events alone and adds no holder of a record. -/
theorem TxOk.frame (hev : s'.events = s.events)
    (hrecords : ∀ x ρ, s'.HoldsRecord x ρ → s.HoldsRecord x ρ) (hkept : s.OutboxKept s')
    (htx : TxOk s tx) : TxOk s' tx := by
  cases tx with
  | ingest j =>
      refine ⟨?_, ?_⟩
      · intro prior ρ x hprior hρ hx
        obtain ⟨q, r, hq, hxr, hqr⟩ := htx.1 prior ρ x hprior hρ (hrecords x ρ hx)
        exact ⟨q, r, hq, (Db.root_congr hev).mpr hxr, (Db.root_congr hev).mpr hqr⟩
      · intro e' he'
        obtain ⟨hlive, hprior⟩ := htx.2 e' he'
        rw [hev, Db.isLive_congr hev]
        exact ⟨hlive, hprior⟩
  | merge a b =>
      exact ⟨htx.1, (Db.isLive_congr hev).mpr htx.2.1, (Db.isLive_congr hev).mpr htx.2.2⟩
  | reproject r =>
      refine Reprojection.Sound.kept htx ?_ hkept
      intro x hx
      unfold Db.IsMerged at hx ⊢
      rw [hev]
      exact hx

theorem Committed.tables {r : Reprojection} {write : Option ProjectionWrite} (hT : s.Tables)
    (hr : r.Sound s) (hstage : ∀ w, write = some w → r.stage = .done write)
    (h : Committed s s' r write) : s'.Tables := by
  refine ⟨?_, ?_, ?_, ?_⟩
  · rw [h.events]
    exact hT.eventIds
  · rcases h.outbox with ⟨-, hout⟩ | ⟨i, workerId, attempt, -, -, hout⟩
    · rw [hout]
      exact hT.outboxIds
    · rw [hout]
      refine hT.outboxIds.updateWhere ?_
      intro _
      rfl
  · intro g hg j hj
    rw [h.history, List.mem_append] at hg
    rcases hg with hg | hg
    · exact h.kept.acknowledged (hT.acknowledged g hg j hj)
    · -- the row that the new history names is acknowledged in the same commit
      rw [Option.mem_toList] at hg
      obtain ⟨w, rfl, hhist⟩ := Option.bind_eq_some_iff.mp hg
      obtain ⟨workerId, attempt, hrole⟩ := (hr.written w (hstage w rfl)).2 g hhist j hj
      rcases h.outbox with ⟨hnone, -⟩ | ⟨i, workerId', attempt', hrole', ⟨o, ho, hlease⟩, hout⟩
      · exact absurd hrole (hnone j workerId attempt)
      · rw [hrole] at hrole'
        cases hrole'
        refine ⟨Db.releasedRow .processed o, ?_, ?_, rfl⟩
        · rw [hout]
          exact mem_updateWhere.mpr ⟨o, ho, if_pos hlease⟩
        · simp only [Db.leasedTo, decide_eq_true_eq] at hlease
          exact hlease.1
  · intro x y ρ hx hy
    obtain ⟨r, hxr, hyr⟩ := hT.records x y ρ (h.records x ρ hx) (h.records y ρ hy)
    exact ⟨r, (Db.root_congr h.events).mpr hxr, (Db.root_congr h.events).mpr hyr⟩

theorem Db.LeaseOnly.tables (hT : s.Tables) (h : s.LeaseOnly s') : s'.Tables := by
  have hkept := h.kept
  obtain ⟨p, f, hs', hf⟩ := h.update
  have hev : s'.events = s.events := by rw [hs']
  subst hs'
  refine ⟨hT.eventIds, hT.outboxIds.updateWhere fun o => (hf o).1,
    fun g hg j hj => hkept.acknowledged (hT.acknowledged g hg j hj), ?_⟩
  intro x y ρ hx hy
  obtain ⟨r, hxr, hyr⟩ := hT.records x y ρ hx hy
  exact ⟨r, (Db.root_congr hev).mpr hxr, (Db.root_congr hev).mpr hyr⟩

theorem TxOk.leaseOnly (h : s.LeaseOnly s') (htx : TxOk s tx) : TxOk s' tx := by
  have hkept := h.kept
  obtain ⟨p, f, rfl, -⟩ := h.update
  exact TxOk.frame (s := s) rfl (fun _ _ hx => hx) hkept htx

end Commits

/-- **The standing invariant.** -/
structure World.Inv (w : World) : Prop where
  tables : w.db.Tables
  txs : Slots.All (TxOk w.db) w.txs
  recordLocks : Slots.Exclusive Tx.locksRecord w.txs
  rowLocks : Slots.Exclusive Tx.locksRow w.txs
  reprojectionLocks : Slots.Exclusive Tx.locksReprojection w.txs

theorem World.inv_empty (sources : List Source) : (World.idle (Db.empty sources)).Inv :=
  ⟨Db.tables_empty sources, Slots.all_empty _, Slots.exclusive_empty _, Slots.exclusive_empty _,
    Slots.exclusive_empty _⟩

section Inv

variable [PyText] {w w' : World}

omit [PyText] in
/-- What is left of the locks when a transaction ends. -/
theorem World.Inv.finish (h : w.Inv) {t : Nat} {s' : Db} (hT : s'.Tables)
    (htxs : Slots.All (TxOk s') (Slots.clear w.txs t)) : (w.finish t s').Inv :=
  ⟨hT, htxs, h.recordLocks.clear, h.rowLocks.clear, h.reprojectionLocks.clear⟩

/-- **Every step keeps the invariant.** -/
theorem World.Inv.step (h : w.Inv) (hstep : w.Step w') : w'.Inv := by
  cases hstep with
  | @beginIngest t record hfree hlock =>
      refine ⟨h.tables, h.txs.put ⟨by simp, by simp⟩, ?_, ?_, ?_⟩
      · exact h.recordLocks.put fun ρ hρ t' y _ hy => hlock ρ hρ t' y hy
      · exact h.rowLocks.put fun e he => by simp [Tx.locksRow] at he
      · exact h.reprojectionLocks.put fun e he => by simp [Tx.locksReprojection] at he
  | @continuity t i prior hopen hbefore hread =>
      have hold := h.txs t _ hopen
      refine ⟨h.tables, h.txs.put ⟨?_, ?_⟩, h.recordLocks.advance hopen fun _ hρ => hρ,
        h.rowLocks.advance hopen fun _ he => he, h.reprojectionLocks.advance hopen fun _ he => he⟩
      · intro prior' ρ x hprior hρ hx
        simp only [Option.some.injEq] at hprior
        subst hprior
        rcases hread ρ hρ with ⟨-, hnone⟩ | ⟨y, q, rfl, hy, hyq⟩
        · exact absurd hx (hnone x)
        · obtain ⟨r, hxr, hyr⟩ := h.tables.records x y ρ hx hy
          rw [h.tables.root_unique hyr hyq] at hxr
          have hq := Db.root_of_isLive hyq.isLive
          exact ⟨q, q, rfl, hxr, hq⟩
      · intro e he
        rw [hbefore.2] at he
        cases he
  | @lockEvent t i prior e hopen hbefore hprior hlock hlive =>
      have hold := h.txs t _ hopen
      refine ⟨h.tables, h.txs.put ⟨hold.1, ?_⟩, h.recordLocks.advance hopen fun _ hρ => hρ, ?_,
        h.reprojectionLocks.advance hopen fun _ he => he⟩
      · intro e' he'
        simp only [Option.some.injEq] at he'
        subst he'
        exact ⟨hlive, prior, hbefore.1, hprior⟩
      · refine h.rowLocks.acquire hopen hlock ?_
        intro e' he'
        right
        simp only [Tx.locksRow, Option.some.injEq] at he'
        exact he'.symm
  | @commitIngest t i e s' hopen hevent hcommit =>
      have hi := h.txs t _ hopen
      refine h.finish (hcommit.tables h.tables hi hevent) ?_
      intro t' tx htx
      obtain ⟨hne, htx⟩ := Slots.clear_some htx
      refine (h.txs t' tx htx).ingestCommit hcommit ?_ ?_
      · intro ρ hρ hlocks
        exact hne (h.recordLocks htx hopen hlocks hρ)
      · intro hlocks
        exact hne (h.rowLocks htx hopen hlocks hevent)
  | @beginMerge t source target hfree hne hsource htarget hlive =>
      refine ⟨h.tables, h.txs.put ⟨hne, hlive.1, hlive.2⟩, ?_, ?_, ?_⟩
      · exact h.recordLocks.put fun ρ hρ => by simp [Tx.locksRecord] at hρ
      · refine h.rowLocks.put ?_
        intro e he t' y _ hy
        rcases he with rfl | rfl
        · exact hsource t' y hy
        · exact htarget t' y hy
      · exact h.reprojectionLocks.put fun e he => by simp [Tx.locksReprojection] at he
  | @commitMerge t source target s' hopen hcommit =>
      have hm := h.txs t _ hopen
      refine h.finish (hcommit.tables h.tables hm) ?_
      intro t' tx htx
      obtain ⟨hne, htx⟩ := Slots.clear_some htx
      refine TxOk.mergeCommit h.tables hcommit hm (h.txs t' tx htx) ?_
      intro hlocks
      exact hne (h.rowLocks htx hopen hlocks (.inl rfl))
  | @beginReproject t r hfree hstart =>
      refine ⟨h.tables, h.txs.put (Reprojection.sound_of_starts hstart), ?_, ?_, ?_⟩
      · exact h.recordLocks.put fun ρ hρ => by simp [Tx.locksRecord] at hρ
      · exact h.rowLocks.put fun e he => by simp [Tx.locksRow] at he
      · refine h.reprojectionLocks.put ?_
        intro e he
        exfalso
        rcases World.starts_stage hstart with hstage | hstage
        · simp [Tx.locksReprojection, hstage, Stage.holdsLock] at he
        · simp [Tx.locksReprojection, hstage, Stage.holdsLock] at he
  | @advance t r r' hopen hlock hnext =>
      have hmoves := Reprojection.next_moves hnext
      obtain ⟨-, hcall, -, hholds⟩ := hmoves.frame
      have hr : r.Sound w.db := h.txs t _ hopen
      refine ⟨h.tables, h.txs.put (hr.moves h.tables hmoves),
        h.recordLocks.advance hopen fun _ hρ => by simp [Tx.locksRecord] at hρ,
        h.rowLocks.advance hopen fun _ he => by simp [Tx.locksRow] at he, ?_⟩
      by_cases hwaiting : r.stage = .waiting
      · refine h.reprojectionLocks.acquire hopen (hlock hwaiting) ?_
        intro e he
        exact .inr (he.1.symm.trans hcall)
      · refine h.reprojectionLocks.advance hopen ?_
        intro e he
        exact ⟨hcall ▸ he.1, (hholds he.2).resolve_right hwaiting⟩
  | @commitReproject t r write s' hopen hdone hcommit =>
      have hspec := hcommit.spec
      refine h.finish (hspec.tables h.tables (h.txs t _ hopen) fun _ _ => hdone) ?_
      exact h.txs.clear.imp fun _ htx => htx.frame hspec.events hspec.records hspec.kept
  | @acknowledge t r s' hopen hdone hcommit =>
      have hspec := hcommit.spec
      refine h.finish (hspec.tables h.tables (h.txs t _ hopen) (by simp)) ?_
      exact h.txs.clear.imp fun _ htx => htx.frame hspec.events hspec.records hspec.kept
  | @rollback t => exact h.finish h.tables h.txs.clear
  | @fetch id workerId now =>
      have hl := Db.leaseOnly_fetch w.db id workerId now
      exact ⟨hl.tables h.tables, h.txs.imp fun _ htx => htx.leaseOnly hl, h.recordLocks, h.rowLocks,
        h.reprojectionLocks⟩
  | @fail id status workerId attempt hstatus =>
      have hl := Db.leaseOnly_fail w.db id workerId attempt hstatus
      exact ⟨hl.tables h.tables, h.txs.imp fun _ htx => htx.leaseOnly hl, h.recordLocks, h.rowLocks,
        h.reprojectionLocks⟩
  | @recover id maxAttempts =>
      have hl := Db.leaseOnly_recover w.db id maxAttempts
      exact ⟨hl.tables h.tables, h.txs.imp fun _ htx => htx.leaseOnly hl, h.recordLocks, h.rowLocks,
        h.reprojectionLocks⟩

end Inv

end Atlas
