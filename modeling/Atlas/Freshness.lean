import Atlas.ConcurrentLaws
import Mathlib.Logic.Relation

/-!
# Freshness of the projections

However the transactions interleave, a live event with claims has a projection
that agrees with its evidence, or an outbox row that still asks for one.

The argument follows a reprojection from its reads to its commit.  While it
holds the lock of its event, no other reprojection commits there, so the stored
row it read stays.  The evidence it read can be overtaken by an ingestion or a
merge only, and each of these queues a new outbox row.  A worker acknowledges the
row it was handed and no other, so the new row outlives its commit.
-/

namespace Atlas

open Rows

/-! ## The content of a build -/

@[simp] theorem serialiseFields_storedFields (fields : List (String × Json)) :
    serialiseFields (storedFields fields) = fields := by
  unfold serialiseFields storedFields
  rw [List.map_map]
  exact List.map_id fields

/-- Storing a projection keeps its content. -/
@[simp] theorem content_storedRow (p : ProjectedAccidentRecord) :
    (Db.storedRow p).content = p.content := by
  simp [ProjectedAccidentRecord.content, Db.storedRow]

namespace Db

variable {s s' : Db} {e : Uuid}

section Content

variable [PyText]

theorem content_buildOn (s : Db) (e : Uuid) (ev : Evidence) (version version' : Nat)
    (now now' : Time) :
    (s.buildOn e ev version now).content = (s.buildOn e ev version' now').content := rfl

theorem buildOn_congr (h : s'.sources = s.sources) (e : Uuid) (ev : Evidence) (version : Nat)
    (now : Time) : s'.buildOn e ev version now = s.buildOn e ev version now := by
  unfold buildOn getSourcesByIds
  rw [h]

/-- The record has the content of a build on this evidence. -/
def Shows (s : Db) (e : Uuid) (ev : Evidence) (p : ProjectedAccidentRecord) : Prop :=
  ∀ version now, p.content = (s.buildOn e ev version now).content

theorem Shows.congr {ev : Evidence} {p : ProjectedAccidentRecord} (h : s.Shows e ev p)
    (hsources : s'.sources = s.sources) : s'.Shows e ev p := by
  intro version now
  rw [buildOn_congr hsources]
  exact h version now

/-- The stored projection agrees with the evidence. -/
def Fresh (s : Db) (e : Uuid) : Prop :=
  ∃ p, s.getProjection e = some p ∧ s.Shows e (s.evidence e) p

end Content

/-- An outbox row of the event waits to be processed. -/
def Pending (s : Db) (e : Uuid) : Prop := ∃ o ∈ s.outbox, o.eventId = e ∧ o.status ≠ .processed

/-! ## What a commit leaves of an event -/

/-- The projection stays, unprocessed outbox rows stay unprocessed, and the
evidence stays or a new outbox row is queued. -/
structure Leaves (s s' : Db) (e : Uuid) : Prop where
  sources : s'.sources = s.sources
  projection : s'.getProjection e = s.getProjection e
  evidence : (s'.evidence e = s.evidence e ∧ (s'.HasClaims e → s.HasClaims e)) ∨ Queued s s' e
  pending : ∀ o ∈ s.outbox, o.eventId = e → o.status ≠ .processed →
    ∃ o' ∈ s'.outbox, o'.id = o.id ∧ o'.eventId = e ∧ o'.status ≠ .processed
  kept : OutboxKept s s'

theorem getProjection_congr (h : s'.projections = s.projections) (e : Uuid) :
    s'.getProjection e = s.getProjection e := by
  unfold getProjection
  rw [h]

theorem Queued.pending {x : Uuid} (h : Queued s s' x) {o : OutboxEvent} (ho : o ∈ s.outbox)
    (he : o.eventId = e) (hst : o.status ≠ .processed) :
    ∃ o' ∈ s'.outbox, o'.id = o.id ∧ o'.eventId = e ∧ o'.status ≠ .processed := by
  obtain ⟨new, -, -, -, hout⟩ := h
  exact ⟨o, by rw [hout]; exact List.mem_append_left _ ho, rfl, he, hst⟩

theorem IngestCommit.leaves (hT : s.Tables) {i : Ingestion} (hi : TxOk s (.ingest i))
    (he : i.event = some e) (h : s.IngestCommit s' e i.record) {x : Uuid}
    (hmerged : ¬ s.IsMerged x) : Leaves s s' x := by
  refine ⟨h.footprint.sources, getProjection_congr h.projections x, ?_,
    fun o ho hoe hst => h.queued.pending ho hoe hst, h.queued.kept⟩
  by_cases hx : x = e
  · exact .inr (hx ▸ h.queued)
  · refine .inl ⟨h.evidence_other hT hi he hx hmerged, ?_⟩
    intro hclaims
    exact (h.footprint.claimed x hclaims).resolve_right (by simpa using hx)

theorem MergeCommit.leaves {source target : Uuid} (h : s.MergeCommit s' source target) {x : Uuid}
    (hx : x ≠ source) : Leaves s s' x := by
  refine ⟨h.footprint.sources, ?_, ?_, fun o ho hoe hst => h.queued.pending ho hoe hst,
    h.queued.kept⟩
  · unfold getProjection
    rw [h.projections]
    exact lookup_delete_ne hx s.projections
  · by_cases hxt : x = target
    · exact .inr (hxt ▸ h.queued)
    · have hout : x ∉ [source, target] := by simp [hx, hxt]
      refine .inl ⟨?_, fun hclaims => (h.footprint.claimed x hclaims).resolve_right hout⟩
      rcases h.footprint.others x hout with heq | ⟨ρ, hρ, -⟩
      · exact heq
      · cases hρ

theorem LeaseOnly.leaves (h : LeaseOnly s s') (x : Uuid) : Leaves s s' x := by
  have hkept := h.kept
  obtain ⟨p, f, rfl, hf⟩ := h.update
  refine ⟨rfl, rfl, .inl ⟨rfl, fun hclaims => hclaims⟩, ?_, hkept⟩
  intro o ho he hst
  by_cases hp : p o = true
  · exact ⟨f o, mem_updateWhere.mpr ⟨o, ho, if_pos hp⟩, (hf o).1, (hf o).2.1.trans he,
      ((hf o).2.2 hp).2⟩
  · exact ⟨o, mem_updateWhere.mpr ⟨o, ho, if_neg hp⟩, rfl, he, hst⟩

end Db

section Commit

variable {s s' : Db} {r : Reprojection} {write : Option ProjectionWrite}

/-- A row that the commit does not acknowledge stays as it was. -/
theorem Committed.row_kept (h : Committed s s' r write) {o : OutboxEvent} (ho : o ∈ s.outbox)
    (hother : ∀ i workerId attempt, r.role = .worker i workerId attempt → o.id ≠ i) :
    o ∈ s'.outbox := by
  rcases h.outbox with ⟨-, hout⟩ | ⟨i, workerId, attempt, hrole, -, hout⟩
  · rw [hout]
    exact ho
  · rw [hout]
    refine mem_updateWhere.mpr ⟨o, ho, if_neg ?_⟩
    have hne := hother i workerId attempt hrole
    simp [Db.leasedTo, hne]

/-- The commit of a reprojection leaves the other events alone. -/
theorem Committed.leaves (hT : s.Tables) (hr : r.Sound s)
    (hstage : ∀ w, write = some w → r.stage = .done write) (h : Committed s s' r write) {x : Uuid}
    (hx : x ≠ r.call.eventId) : Db.Leaves s s' x := by
  refine ⟨h.sources, ?_, .inl ⟨h.others x hx, fun hclaims => ?_⟩, ?_, h.kept⟩
  · rw [h.projection, Db.getProjection_applyWrite]
    cases hw : write with
    | none => rfl
    | some w =>
        have hrow := (hr.written w (hw ▸ hstage w hw)).1
        change (if x = w.row.eventId then some w.row else s.getProjection x) = s.getProjection x
        rw [hrow, if_neg hx]
  · exact (h.claimed x hclaims).resolve_right hx
  · intro o ho he hst
    refine ⟨o, h.row_kept ho ?_, rfl, he, hst⟩
    rintro i workerId attempt hrole rfl
    obtain ⟨o', ho', hid, he'⟩ := hr.row o.id workerId attempt hrole
    rw [hT.outboxIds.eq_of_key ho' ho hid] at he'
    exact hx (he.symm.trans he')

/-- A worker whose row is PROCESSED cannot commit. -/
theorem Committed.not_void (hT : s.Tables) (h : Committed s s' r write) : ¬ Void s r := by
  rintro ⟨i, workerId, attempt, hrole, o, ho, hid, hst⟩
  rcases h.outbox with ⟨hnone, -⟩ | ⟨i', workerId', attempt', hrole', ⟨o', ho', hlease⟩, -⟩
  · exact hnone i workerId attempt hrole
  · rw [hrole] at hrole'
    cases hrole'
    simp only [Db.leasedTo, decide_eq_true_eq] at hlease
    rw [hT.outboxIds.eq_of_key ho' ho (hlease.1.trans hid.symm), hst] at hlease
    cases hlease.2.1

end Commit

/-! ## A reprojection from its reads to its commit -/

/-- The stored row as the reprojection has read it. -/
def Stage.current : Stage → Option (Option ProjectedAccidentRecord)
  | .projectionRead _ cur | .rebuilding _ cur | .claimsRead _ cur _ | .conflictsRead _ cur _ =>
      some cur
  | _ => none

namespace Reprojection

/-- An outbox row of the event waits that this reprojection will not acknowledge. -/
def Overtaken (s : Db) (r : Reprojection) : Prop :=
  ∃ o ∈ s.outbox, o.eventId = r.call.eventId ∧ o.status ≠ .processed ∧
    ∀ i workerId attempt, r.role = .worker i workerId attempt → o.id ≠ i

variable [PyText]

/-- After the write the stored projection agrees with the evidence as the
reprojection sees it. -/
def Delivers (s : Db) (r : Reprojection) (write : Option ProjectionWrite) : Prop :=
  ∃ p, (s.applyWrite write).getProjection r.call.eventId = some p ∧
    s.Shows r.call.eventId (r.view s) p

/-- What was read is still so, or the reprojection is overtaken, or it will not
commit. -/
structure Current (s : Db) (r : Reprojection) : Prop where
  projection : ∀ cur, r.stage.current = some cur → s.getProjection r.call.eventId = cur
  claims : ∀ event cur claims, r.stage = .claimsRead event cur claims →
    claims = (r.view s).claims ∨ r.Overtaken s
  evidence : ∀ event cur ev, r.stage = .conflictsRead event cur ev →
    ev = r.view s ∨ r.Overtaken s
  written : ∀ write, r.stage = .done write → r.Delivers s write ∨ r.Overtaken s ∨ Void s r

section Current

variable {s s' : Db} {r r' : Reprojection}

/-- A reprojection without the lock has read nothing yet. -/
theorem current_of_unlocked (h : r.stage.holdsLock = false) : r.Current s := by
  constructor
  · intro cur hcur
    cases hstage : r.stage <;> simp [hstage, Stage.current, Stage.holdsLock] at hcur h
  · intro event cur claims hstage
    simp [hstage, Stage.holdsLock] at h
  · intro event cur ev hstage
    simp [hstage, Stage.holdsLock] at h
  · intro write hstage
    simp [hstage, Stage.holdsLock] at h

omit [PyText] in
theorem view_congr (h : s'.evidence r.call.eventId = s.evidence r.call.eventId) :
    r.view s' = r.view s := by
  unfold view
  rw [h]

omit [PyText] in
theorem Overtaken.leaves (h : r.Overtaken s) (hl : s.Leaves s' r.call.eventId) : r.Overtaken s' := by
  obtain ⟨o, ho, he, hst, hother⟩ := h
  obtain ⟨o', ho', hid, he', hst'⟩ := hl.pending o ho he hst
  exact ⟨o', ho', he', hst', fun i workerId attempt hrole => hid ▸ hother i workerId attempt hrole⟩

omit [PyText] in
/-- A row that is queued for the event overtakes its reprojections. -/
theorem overtaken_of_queued (hr : r.Sound s) (h : s.Queued s' r.call.eventId) : r.Overtaken s' := by
  obtain ⟨o, he, hst, hnew, hout⟩ := h
  refine ⟨o, by rw [hout]; simp, he, by simp [hst], ?_⟩
  rintro i workerId attempt hrole rfl
  obtain ⟨o', ho', hid, -⟩ := hr.row o.id workerId attempt hrole
  exact hnew o' ho' hid

/-- **What was read stays so, or is overtaken.** -/
theorem Current.leaves (h : r.Current s) (hr : r.Sound s) (hl : s.Leaves s' r.call.eventId) :
    r.Current s' := by
  have hprojection : ∀ cur, r.stage.current = some cur → s'.getProjection r.call.eventId = cur := by
    intro cur hcur
    rw [hl.projection]
    exact h.projection cur hcur
  rcases hl.evidence with ⟨hev, -⟩ | hqueued
  · have hview := view_congr (r := r) hev
    refine ⟨hprojection, ?_, ?_, ?_⟩
    · intro event cur claims hstage
      rw [hview]
      exact (h.claims event cur claims hstage).imp_right fun ho => ho.leaves hl
    · intro event cur ev hstage
      rw [hview]
      exact (h.evidence event cur ev hstage).imp_right fun ho => ho.leaves hl
    · intro write hstage
      refine (h.written write hstage).imp ?_ (Or.imp (fun ho => ho.leaves hl) ?_)
      · rintro ⟨p, hp, hshows⟩
        refine ⟨p, ?_, hview ▸ hshows.congr hl.sources⟩
        rw [Db.getProjection_applyWrite, hl.projection, ← Db.getProjection_applyWrite]
        exact hp
      · rintro ⟨i, workerId, attempt, hrole, hi⟩
        exact ⟨i, workerId, attempt, hrole, hl.kept.acknowledged hi⟩
  · have hover := overtaken_of_queued hr hqueued
    exact ⟨hprojection, fun _ _ _ _ => .inr hover, fun _ _ _ _ => .inr hover,
      fun _ _ => .inr (.inl hover)⟩

/-- A build that is persisted delivers. -/
theorem delivers_of_persist {cur : Option ProjectedAccidentRecord} {write : Option ProjectionWrite}
    (hcur : s.getProjection r.call.eventId = cur)
    (h : s.persist r.call cur
      (s.buildOn r.call.eventId (r.view s) (Db.nextVersion cur) r.call.now) = .ok write) :
    r.Delivers s write := by
  rcases Db.persist_ok h with ⟨rfl, c, rfl, hcontent⟩ | rfl
  · exact ⟨c, hcur, fun version now => hcontent⟩
  · refine ⟨Db.storedRow
      (s.buildOn r.call.eventId (r.view s) (Db.nextVersion cur) r.call.now), ?_, ?_⟩
    · rw [Db.getProjection_applyWrite]
      exact if_pos rfl
    · intro version now
      rw [content_storedRow]
      exact Db.content_buildOn _ _ _ _ _ _ _

/-- **One statement.** -/
theorem Current.moves (h : r.Current s) (hr : r.Sound s) (hT : s.Tables)
    (hmerged : ¬ s.IsMerged r.call.eventId) (hm : r.Moves s r') : r'.Current s := by
  cases hm with
  | wait _ => exact current_of_unlocked rfl
  | found _ _ => exact current_of_unlocked rfl
  | acknowledge _ => exact current_of_unlocked rfl
  | lock _ => exact ⟨by simp [Stage.current, goTo], by simp [goTo], by simp [goTo], by simp [goTo]⟩
  | readEvent _ => exact ⟨by simp [Stage.current, goTo], by simp [goTo], by simp [goTo], by simp [goTo]⟩
  | readProjection _ =>
      refine ⟨?_, by simp [goTo], by simp [goTo], by simp [goTo]⟩
      intro cur hcur
      simpa [Stage.current, goTo] using hcur
  | @rebuild event cur hstage =>
      refine ⟨?_, by simp [goTo], by simp [goTo], by simp [goTo]⟩
      intro cur' hcur
      exact h.projection cur' (by rw [hstage]; exact hcur)
  | @rebuildMerged event cur hstage _ =>
      refine ⟨?_, by simp, by simp, by simp⟩
      intro cur' hcur
      exact h.projection cur' (by rw [hstage]; exact hcur)
  | skip _ hfound =>
      exact ⟨by simp [Stage.current, goTo], by simp [goTo], by simp [goTo],
        fun _ _ => .inr (.inr (hr.void hT hfound))⟩
  | restore _ hfound _ _ =>
      exact ⟨by simp [Stage.current, goTo], by simp [goTo], by simp [goTo],
        fun _ _ => .inr (.inr (hr.void hT hfound))⟩
  | @bury event cur target write hstage hpoint _ =>
      -- the event row was read as merged
      exfalso
      refine hmerged (hr.merged event (by rw [hstage]; rfl) ?_)
      simp [AccidentEvent.isMerged, hpoint]
  | @readClaims event cur hstage =>
      refine ⟨?_, ?_, by simp [goTo], by simp [goTo]⟩
      · intro cur' hcur
        exact h.projection cur' (by rw [hstage]; exact hcur)
      · intro event' cur' claims hclaims
        simp only [goTo, Stage.claimsRead.injEq] at hclaims
        exact .inl hclaims.2.2.symm
  | @readConflicts event cur claims hstage =>
      refine ⟨?_, by simp [goTo], ?_, by simp [goTo]⟩
      · intro cur' hcur
        exact h.projection cur' (by rw [hstage]; exact hcur)
      · intro event' cur' ev hev
        simp only [goTo, Stage.conflictsRead.injEq] at hev
        refine (h.claims event cur claims hstage).imp_left ?_
        rintro rfl
        exact hev.2.2.symm
  | @build event cur ev write hstage hwrite =>
      refine ⟨by simp [Stage.current, goTo], by simp [goTo], by simp [goTo], ?_⟩
      intro write' hwrite'
      simp only [goTo, Stage.done.injEq] at hwrite'
      subst hwrite'
      rcases h.evidence event cur ev hstage with rfl | hover
      · exact .inl (delivers_of_persist (h.projection cur (by rw [hstage]; rfl)) hwrite)
      · exact .inr (.inl hover)

end Current

end Reprojection

/-! ## Every reachable world -/

section World

variable [PyText]

/-- The projection is fresh, a row asks for it, or there is nothing to show. -/
def Db.Settled (s : Db) (e : Uuid) : Prop := s.Fresh e ∨ s.Pending e ∨ ¬ s.HasClaims e

theorem Db.Settled.leaves {s s' : Db} {e : Uuid} (h : s.Settled e) (hl : s.Leaves s' e) :
    s'.Settled e := by
  rcases hl.evidence with ⟨hev, hclaims⟩ | ⟨o, he, hst, -, hout⟩
  · rcases h with ⟨p, hp, hshows⟩ | ⟨o, ho, he, hst⟩ | hnone
    · refine .inl ⟨p, hl.projection.trans hp, ?_⟩
      rw [hev]
      exact hshows.congr hl.sources
    · obtain ⟨o', ho', -, he', hst'⟩ := hl.pending o ho he hst
      exact .inr (.inl ⟨o', ho', he', hst'⟩)
    · exact .inr (.inr fun h' => hnone (hclaims h'))
  · exact .inr (.inl ⟨o, by rw [hout]; simp, he, by simp [hst]⟩)

/-- **A reprojection that commits settles its event.** -/
theorem Reprojection.Current.settles {s s' : Db} {r : Reprojection} {write : Option ProjectionWrite}
    (h : r.Current s) (hT : s.Tables) (hstage : r.stage = .done write)
    (hc : Committed s s' r write) : s'.Settled r.call.eventId := by
  rcases h.written write hstage with ⟨p, hp, hshows⟩ | ⟨o, ho, he, hst, hother⟩ | hvoid
  · refine .inl ⟨p, (hc.projection _).trans hp, ?_⟩
    rw [hc.view]
    exact hshows.congr hc.sources
  · exact .inr (.inl ⟨o, hc.row_kept ho hother, he, hst⟩)
  · exact absurd hvoid (hc.not_void hT)

/-- Every reprojection of an event that is not merged is current. -/
def TxCurrent (s : Db) : Tx → Prop
  | .reproject r => ¬ s.IsMerged r.call.eventId → r.Current s
  | _ => True

structure World.Settled (w : World) : Prop where
  inv : w.Inv
  events : ∀ e, ¬ w.db.IsMerged e → w.db.Settled e
  txs : Slots.All (TxCurrent w.db) w.txs

theorem TxCurrent.leaves {s s' : Db} {tx : Tx} (hok : TxOk s tx)
    (hmerged : ∀ e, s.IsMerged e → s'.IsMerged e)
    (hl : ∀ r, tx = .reproject r → ¬ s'.IsMerged r.call.eventId → s.Leaves s' r.call.eventId)
    (h : TxCurrent s tx) : TxCurrent s' tx := by
  cases tx with
  | ingest i => trivial
  | merge source target => trivial
  | reproject r =>
      intro hnot
      exact (h fun hm => hnot (hmerged _ hm)).leaves hok (hl r rfl hnot)

section Step

variable {w w' : World}

/-- A change of the store that leaves every event that is not merged. -/
theorem World.Settled.leaves (h : w.Settled) {s' : Db} {txs : Nat → Option Tx}
    (hinv : (⟨s', txs⟩ : World).Inv) (htxs : ∀ t tx, txs t = some tx → w.txs t = some tx)
    (hmerged : ∀ e, w.db.IsMerged e → s'.IsMerged e)
    (hl : ∀ e, ¬ s'.IsMerged e → w.db.Leaves s' e) : (⟨s', txs⟩ : World).Settled := by
  refine ⟨hinv, ?_, ?_⟩
  · intro e he
    exact (h.events e fun hm => he (hmerged e hm)).leaves (hl e he)
  · intro t tx htx
    have hold := htxs t tx htx
    exact (h.txs t tx hold).leaves (h.inv.txs t tx hold) hmerged fun r _ hr => hl _ hr

/-- A transaction moves on while the store stays. -/
theorem World.Settled.put (h : w.Settled) {t : Nat} {tx : Tx} (hinv : (w.put t tx).Inv)
    (htx : TxCurrent w.db tx) : (w.put t tx).Settled :=
  ⟨hinv, h.events, h.txs.put htx⟩

/-- A reprojection commits. -/
theorem World.Settled.commit (h : w.Settled) {t : Nat} {r : Reprojection}
    {write : Option ProjectionWrite} {s' : Db} (hopen : w.txs t = some (.reproject r))
    (hstage : r.stage = .done write) (hc : Committed w.db s' r write)
    (hinv : (w.finish t s').Inv) : (w.finish t s').Settled := by
  have hr : r.Sound w.db := h.inv.txs t _ hopen
  have hmerged : ∀ e, w.db.IsMerged e ↔ s'.IsMerged e := by
    intro e
    unfold Db.IsMerged
    rw [hc.events]
  refine ⟨hinv, ?_, ?_⟩
  · intro e he
    have hold : ¬ w.db.IsMerged e := fun hm => he ((hmerged e).mp hm)
    by_cases heq : e = r.call.eventId
    · subst heq
      exact (h.txs t _ hopen hold).settles h.inv.tables hstage hc
    · exact (h.events e hold).leaves (hc.leaves h.inv.tables hr (fun _ _ => hstage) heq)
  · intro t' tx htx
    obtain ⟨hne, htx⟩ := Slots.clear_some htx
    cases tx with
    | ingest i => trivial
    | merge source target => trivial
    | reproject r' =>
        intro hnot
        by_cases heq : r'.call.eventId = r.call.eventId
        · -- the lock was with the reprojection that committed
          refine Reprojection.current_of_unlocked ?_
          by_contra hlock
          refine hne (h.inv.reprojectionLocks (r := r.call.eventId) htx hopen ⟨heq, ?_⟩ ⟨rfl, ?_⟩)
          · simpa using hlock
          · rw [hstage]
            rfl
        · exact (h.txs t' _ htx fun hm => hnot ((hmerged _).mp hm)).leaves (h.inv.txs t' _ htx)
            (hc.leaves h.inv.tables hr (fun _ _ => hstage) heq)

theorem World.Settled.step (h : w.Settled) (hstep : w.Step w') : w'.Settled := by
  have hinv := h.inv.step hstep
  cases hstep with
  | beginIngest _ _ => exact h.put hinv trivial
  | continuity _ _ _ => exact h.put hinv trivial
  | lockEvent _ _ _ _ _ => exact h.put hinv trivial
  | commitIngest hopen hevent hcommit =>
      have hi := h.inv.txs _ _ hopen
      refine h.leaves hinv (fun _ _ htx => (Slots.clear_some htx).2)
        (fun e he => hcommit.isMerged he) ?_
      intro e he
      exact hcommit.leaves h.inv.tables hi hevent fun hm => he (hcommit.isMerged hm)
  | beginMerge _ _ _ _ _ => exact h.put hinv trivial
  | commitMerge hopen hcommit =>
      have hm := h.inv.txs _ _ hopen
      refine h.leaves hinv (fun _ _ htx => (Slots.clear_some htx).2)
        (fun e he => hcommit.isMerged he) ?_
      intro e he
      refine hcommit.leaves ?_
      rintro rfl
      exact he (hcommit.isMerged_source hm)
  | @beginReproject t r hfree hstart =>
      refine h.put hinv fun _ => Reprojection.current_of_unlocked ?_
      rcases World.starts_stage hstart with hstage | hstage
      · rw [hstage]
        rfl
      · rw [hstage]
        rfl
  | @advance t r r' hopen hlock hnext =>
      have hmoves := Reprojection.next_moves hnext
      have hr : r.Sound w.db := h.inv.txs t _ hopen
      refine h.put hinv fun hmerged => ?_
      rw [hmoves.frame.2.1] at hmerged
      exact (h.txs t _ hopen hmerged).moves hr h.inv.tables hmerged hmoves
  | commitReproject hopen hdone hcommit => exact h.commit hopen hdone hcommit.spec hinv
  | acknowledge hopen hdone hcommit =>
      have hr : Reprojection.Sound w.db _ := h.inv.txs _ _ hopen
      exact absurd (hr.found (.inr hdone)) (hcommit.spec.not_void h.inv.tables)
  | rollback => exact ⟨hinv, h.events, h.txs.clear⟩
  | @fetch id workerId now =>
      exact h.leaves hinv (fun _ _ htx => htx) (fun _ he => he) fun e _ =>
        (Db.leaseOnly_fetch w.db id workerId now).leaves e
  | @fail id status workerId attempt hstatus =>
      exact h.leaves hinv (fun _ _ htx => htx) (fun _ he => he) fun e _ =>
        (Db.leaseOnly_fail w.db id workerId attempt hstatus).leaves e
  | @recover id maxAttempts =>
      exact h.leaves hinv (fun _ _ htx => htx) (fun _ he => he) fun e _ =>
        (Db.leaseOnly_recover w.db id maxAttempts).leaves e

end Step

theorem World.settled_empty (sources : List Source) : (World.idle (Db.empty sources)).Settled := by
  refine ⟨World.inv_empty sources, ?_, Slots.all_empty _⟩
  intro e _
  refine .inr (.inr ?_)
  rintro ⟨k, hk, -⟩
  cases hk

theorem World.settled_of_run {sources : List Source} {w : World}
    (hrun : Relation.ReflTransGen World.Step (World.idle (Db.empty sources)) w) : w.Settled := by
  induction hrun with
  | refl => exact World.settled_empty sources
  | tail _ hstep ih => exact ih.step hstep

/-- With all its outbox rows PROCESSED a live event with claims is fresh. -/
theorem World.Settled.fresh {w : World} (h : w.Settled) {e : Uuid} (hlive : w.db.IsLive e)
    (hclaims : w.db.HasClaims e)
    (hprocessed : ∀ o ∈ w.db.outbox, o.eventId = e → o.status = .processed) : w.db.Fresh e := by
  rcases h.events e (h.inv.tables.not_isMerged hlive) with hfresh | hpending | hnone
  · exact hfresh
  · obtain ⟨o, ho, he, hst⟩ := hpending
    exact absurd (hprocessed o ho he) hst
  · exact absurd hclaims hnone

/-- **Freshness at quiescence.**  In every world the transactions can reach, the
projection of a live event with claims whose outbox rows are all PROCESSED has
the content of a build on its current claims, conflicts and sources. -/
theorem World.projection_fresh_when_processed {sources : List Source} {w : World}
    (hrun : Relation.ReflTransGen World.Step (World.idle (Db.empty sources)) w) {e : Uuid}
    (hlive : w.db.IsLive e) (hclaims : w.db.HasClaims e)
    (hprocessed : ∀ o ∈ w.db.outbox, o.eventId = e → o.status = .processed) :
    ∃ p, w.db.getProjection e = some p ∧
      ∀ version now, p.content = (w.db.buildFrom e version now).content :=
  (World.settled_of_run hrun).fresh hlive hclaims hprocessed

/-! ### A worker that delivers -/

/-- Statements of a reprojection in a row. -/
def Reprojection.statements (s : Db) : Nat → Reprojection → Except AtlasError Reprojection
  | 0, r => .ok r
  | n + 1, r => do
      let r' ← r.next s
      Reprojection.statements s n r'

/-- A reprojection that is alone gets through its statements. -/
theorem World.run_statements {s : Db} {t : Nat} {n : Nat} {r r' : Reprojection}
    (h : r.statements s n = .ok r') :
    Relation.ReflTransGen World.Step ((World.idle s).put t (.reproject r))
      ((World.idle s).put t (.reproject r')) := by
  induction n generalizing r with
  | zero =>
      cases h
      exact .refl
  | succ n ih =>
      unfold Reprojection.statements at h
      obtain ⟨r₁, hnext, hrest⟩ := Outcome.bind_ok.mp h
      have hfirst : World.Step ((World.idle s).put t (.reproject r))
          (((World.idle s).put t (.reproject r)).put t (.reproject r₁)) := by
        refine .advance (Slots.put_self _ t _) ?_ hnext
        intro hwaiting t' x hx hholds
        cases Slots.put_some hx with
        | inl hself =>
            rw [hself.2] at hholds
            have hlock := hholds.2
            rw [hwaiting] at hlock
            cases hlock
        | inr hother => cases hother.2
      unfold World.put at hfirst
      rw [Slots.put_put] at hfirst
      exact .head hfirst (ih hrest)

end World

def register : Source := ⟨1, "Register", 1⟩

/-- What an ingestion of one claim leaves. -/
def ingestedStore : Db :=
  { Db.empty [register] with
    events := [⟨5, none⟩]
    claims := [⟨2, 5, 1, none, "operator", .str "Acme", .raw, 0, none, none⟩]
    outbox := [⟨3, 5, none, .pending, 0, none, none⟩] }

theorem ingestCommit_ingestedStore : (Db.empty [register]).IngestCommit ingestedStore 5 none := by
  refine ⟨⟨rfl, rfl, ?_, ?_⟩, ?_, .inr ⟨?_, rfl⟩, rfl, ⟨_, rfl, rfl, ?_, rfl⟩⟩
  · intro x hx
    have hne : (5 : Uuid) ≠ x := fun heq => hx (by rw [heq]; exact List.mem_singleton_self x)
    refine .inl ?_
    simp [Db.evidence, Db.findActiveByEvent, Db.findConflictsByEvent, ingestedStore, Db.empty, hne]
  · intro x hx
    obtain ⟨k, hk, rfl⟩ := hx
    rw [List.mem_singleton.mp hk]
    exact .inr (List.mem_singleton_self _)
  · intro x ρ hx
    obtain ⟨k, hk, -, hrecord⟩ := hx
    rw [List.mem_singleton.mp hk] at hrecord
    cases hrecord
  · exact fun x hx => (List.not_mem_nil hx).elim
  · exact fun o ho => (List.not_mem_nil ho).elim

def leasedStore : Db := ingestedStore.fetchAndLock 3 "worker" 1

/-- The worker's reprojection of the row it leased. -/
def workerReprojection : Reprojection :=
  ⟨⟨5, none, none, some 3, false, 2⟩, .worker 3 "worker" 1, .lookup⟩

/-- What the worker comes to write. -/
def deliveredWrite : Option ProjectionWrite :=
  match workerReprojection.statements leasedStore 8 with
  | .ok ⟨_, _, .done write⟩ => write
  | _ => none

def deliveredStore : Db := ((leasedStore.applyWrite deliveredWrite).updateStatus 3 .processed "worker" 1).2

theorem World.finish_put (s s' : Db) (t : Nat) (tx : Tx) :
    ((World.idle s).put t tx).finish t s' = World.idle s' := by
  unfold World.finish World.put World.idle
  rw [Slots.clear_put]
  unfold Slots.clear
  rw [Function.update_eq_self]

theorem World.put_put (s : Db) (t : Nat) (tx tx' : Tx) :
    ((World.idle s).put t tx).put t tx' = (World.idle s).put t tx' := by
  unfold World.put
  rw [Slots.put_put]

theorem World.txs_put (s : Db) (t : Nat) (tx : Tx) : ((World.idle s).put t tx).txs t = some tx :=
  Slots.put_self _ t tx

theorem run_ingests : Relation.ReflTransGen World.Step (World.idle (Db.empty [register]))
    (World.idle ingestedStore) := by
  have hbegin : World.Step (World.idle (Db.empty [register]))
      ((World.idle (Db.empty [register])).put 0 (.ingest ⟨none, none, none⟩)) :=
    .beginIngest rfl (by intro ρ h; cases h)
  have hcontinuity : World.Step _ (World.put _ 0 (.ingest ⟨none, some none, none⟩)) :=
    .continuity (World.txs_put (Db.empty [register]) 0 (.ingest ⟨none, none, none⟩)) ⟨rfl, rfl⟩
      (by intro ρ h; cases h)
  have hlock := World.Step.lockEvent (e := 5)
    (World.txs_put (Db.empty [register]) 0 (.ingest ⟨none, some none, none⟩)) ⟨rfl, rfl⟩
    (by intro q h; cases h) (by
      intro t x hx hholds
      cases Slots.put_some hx with
      | inl hself =>
          rw [hself.2] at hholds
          cases hholds
      | inr hother => cases hother.2) (.inr fun x hx => (List.not_mem_nil hx).elim)
  have hcommit := World.Step.commitIngest
    (World.txs_put (Db.empty [register]) 0 (.ingest ⟨none, some none, some 5⟩)) rfl
    ingestCommit_ingestedStore
  rw [World.put_put] at hcontinuity hlock
  rw [World.finish_put] at hcommit
  exact (((Relation.ReflTransGen.single hbegin).tail hcontinuity).tail hlock).tail hcommit

theorem run_delivers : Relation.ReflTransGen World.Step (World.idle ingestedStore)
    (World.idle deliveredStore) := by
  have hfetch : World.Step (World.idle ingestedStore) (World.idle leasedStore) :=
    .fetch (w := World.idle ingestedStore)
  have hbegin : World.Step (World.idle leasedStore)
      ((World.idle leasedStore).put 0 (.reproject workerReprojection)) :=
    .beginReproject rfl ⟨rfl, rfl, _, List.mem_cons_self, rfl, rfl⟩
  have hstatements : workerReprojection.statements leasedStore 8 =
      .ok (workerReprojection.goTo (.done deliveredWrite)) := rfl
  have hcommit : World.Step _ (World.finish _ 0 deliveredStore) := .commitReproject
    (World.txs_put leasedStore 0 (.reproject (workerReprojection.goTo (.done deliveredWrite)))) rfl
    ⟨rfl, rfl⟩
  rw [World.finish_put] at hcommit
  exact (((Relation.ReflTransGen.single hfetch).tail hbegin).trans (World.run_statements hstatements)).tail hcommit

theorem projection_fresh_when_processed_delivered :
    Relation.ReflTransGen World.Step (World.idle (Db.empty [register])) (World.idle deliveredStore) ∧
      ∃ p, deliveredStore.getProjection 5 = some p ∧
        ∀ version now, p.content = (deliveredStore.buildFrom 5 version now).content := by
  have hrun := run_ingests.trans run_delivers
  refine ⟨hrun, World.projection_fresh_when_processed hrun ?_ ?_ ?_⟩
  · exact ⟨⟨5, none⟩, List.mem_singleton_self _, rfl, rfl⟩
  · exact ⟨_, List.mem_singleton_self _, rfl⟩
  · intro o ho _
    rw [List.mem_singleton.mp ho]
    rfl

end Atlas
