import Atlas.SystemLaws

/-!
# Conflict rows across a step

Conflict rows are never deleted, and an operation touches only rows of the event
it is about: an ingestion those of the submission's event and those a replaced
claim had won, a merge those of its two events, a curator action one row.
Merged events stay merged.
-/

namespace Atlas

open Rows

namespace Db

/-! ## Merged events -/

/-- An event that exists is live or merged. -/
theorem isLive_of_not_isMerged {s : Db} {e : Uuid} (hexists : ∃ x ∈ s.events, x.id = e)
    (h : ¬ s.IsMerged e) : s.IsLive e := by
  obtain ⟨x, hx, hid⟩ := hexists
  refine ⟨x, hx, hid, ?_⟩
  by_contra hm
  exact h ⟨x, hx, hid, hm⟩

theorem isMerged_congr {s s' : Db} (h : s'.events = s.events) (e : Uuid) :
    s'.IsMerged e ↔ s.IsMerged e := by
  unfold IsMerged
  rw [h]

section Detect

variable [PyText] {s s' : Db}

theorem Ingested.isMerged {call : IngestCall} {sub : Submission} {s₀ s₁ s₂ s₃ : Db}
    {w : ClaimWriteResult} (h : Ingested s s' call sub s₀ w s₁ s₂ s₃) (e : Uuid) :
    s'.IsMerged e ↔ s.IsMerged e := by
  obtain ⟨extra, hev, hextra⟩ := h.events
  unfold IsMerged
  rw [hev]
  constructor
  · intro hm
    obtain ⟨x, hx, hid, hmerged⟩ := hm
    rcases List.mem_append.mp hx with hx | hx
    · exact ⟨x, hx, hid, hmerged⟩
    · rw [(hextra x hx).1] at hmerged
      exact absurd rfl hmerged
  · intro hm
    obtain ⟨x, hx, hrest⟩ := hm
    exact ⟨x, List.mem_append_left _ hx, hrest⟩

/-- The event of a submission is live. -/
theorem Ingested.not_isMerged {call : IngestCall} {sub : Submission} {s₀ s₁ s₂ s₃ : Db}
    {w : ClaimWriteResult} (h : Ingested s s' call sub s₀ w s₁ s₂ s₃) :
    ¬ s'.IsMerged sub.eventId := by
  have hlive : s'.IsLive sub.eventId := by
    unfold IsLive
    rw [h.events_eq]
    exact h.prepared.live
  exact hlive.not_isMerged h.wellFormed

theorem Merged.isMerged (hwf : s.WellFormed) {call : MergeCall} {s₃ s₄ : Db}
    (h : Merged s s' call s₃ s₄) (e : Uuid) :
    s'.IsMerged e ↔ e = call.sourceEventId ∨ s.IsMerged e := by
  rw [isMerged_congr (h.events hwf)]
  by_cases he : e = call.sourceEventId
  · subst he
    simp [withPointer_isMerged h.source]
  · rw [withPointer_isMerged_other he]
    simp [he]

/-! ## Rows after an ingestion -/

section Ingest

variable {call : IngestCall} {sub : Submission} {s₀ s₁ s₂ s₃ : Db} {w : ClaimWriteResult}

theorem Ingested.conflicts_eq (h : Ingested s s' call sub s₀ w s₁ s₂ s₃) :
    s'.conflicts = s₃.conflicts := by
  obtain ⟨result, rfl⟩ := h.finished
  rfl

theorem Ingested.written_conflicts (h : Ingested s s' call sub s₀ w s₁ s₂ s₃) :
    w.db.conflicts = s.conflicts := by
  rw [h.written.rest]
  show s₀.conflicts = s.conflicts
  rw [h.prepared.rest]

theorem Ingested.claims_eq (h : Ingested s s' call sub s₀ w s₁ s₂ s₃) :
    s'.claims = w.db.claims ∧ s₁.claims = w.db.claims ∧ s₂.claims = w.db.claims := by
  have h₁ := h.reconciled.winners.only.claims
  have h₂ := h.reconciled.stale.only.claims
  refine ⟨?_, h₁, h₂.trans h₁⟩
  obtain ⟨result, rfl⟩ := h.finished
  exact h.conflictsOnly.claims

/-- A claim superseded by the submission is an active claim it replaces. -/
theorem Ingested.mem_superseded (hwf : s.WellFormed) (h : Ingested s s' call sub s₀ w s₁ s₂ s₃)
    {k : Claim} : k ∈ w.supersededClaims ↔
      k ∈ s.claims ∧ k.isActive = true ∧ s.Replaces sub k ∧
        k.fieldName ∈ call.claims.map NormalisedClaim.fieldName := by
  have hold : s₀.claims = s.claims := by rw [h.prepared.rest]
  rw [h.written.superseded, supersededBySubmission, hold, h.newClaimOf_isSome]
  constructor
  · intro hk
    obtain ⟨hmem, hactive, hrep, hfield⟩ := hk
    exact ⟨hmem, hactive, (h.replaces hwf hmem).mp hrep, hfield⟩
  · intro hk
    obtain ⟨hmem, hactive, hrep, hfield⟩ := hk
    exact ⟨hmem, hactive, (h.replaces hwf hmem).mpr hrep, hfield⟩

/-- A conflict to reconcile lies on the event and field of a claim that the
submission superseded. -/
theorem Ingested.toReconcile_claim (hwf : s.WellFormed)
    (h : Ingested s s' call sub s₀ w s₁ s₂ s₃) {pr : ClaimConflict × Claim}
    (hpr : pr ∈ w.resolvedConflictsToReconcile) :
    ∃ k ∈ w.supersededClaims, pr.1.winningClaimId = some k.id ∧ k.eventId = pr.1.eventId ∧
      k.fieldName = pr.1.fieldName ∧ newClaimOf w.newClaims k.fieldName = some pr.2 := by
  obtain ⟨hmem, -, k, hk, hwin, hnew⟩ := mem_toReconcile h.toReconcile hpr
  have hmemS : pr.1 ∈ s.conflicts := h.written_conflicts ▸ hmem
  obtain ⟨x, hx, hid, hxe, hxf⟩ := hwf.winner hmemS hwin
  have hkx := hwf.claimIds.eq_of_key hx ((h.mem_superseded hwf).mp hk).1 hid
  rw [hkx] at hxe hxf
  exact ⟨k, hk, hwin, hxe, hxf, hnew⟩

/-- **Where a row after an ingestion comes from.**  It was there, or it is on the
submission's event, or a claim the submission superseded lies on its event and
field. -/
theorem Ingested.conflict_origin (hwf : s.WellFormed)
    (h : Ingested s s' call sub s₀ w s₁ s₂ s₃) {d : ClaimConflict} (hd : d ∈ s'.conflicts) :
    d ∈ s.conflicts ∨ d.eventId = sub.eventId ∨
      ∃ k ∈ w.supersededClaims, k.eventId = d.eventId ∧ k.fieldName = d.fieldName := by
  by_cases he : d.eventId = sub.eventId
  · exact Or.inr (Or.inl he)
  · rw [h.conflicts_eq, h.reconciled.detected.others d (fun hx => he hx.1)] at hd
    rcases h.reconciled.stale.rows d hd with hd | ⟨hde, -⟩
    · by_cases hin : d.id ∈ w.resolvedConflictsToReconcile.map fun pr => pr.1.id
      · right; right
        obtain ⟨pr, hpr, hid⟩ := List.mem_map.mp hin
        obtain ⟨d', hd', hid', hev, hfn, -⟩ := h.reconciled.winners.settled pr hpr
        have hdd := h.reconciled.winners.wf.conflictIds.eq_of_key hd hd' (hid.symm.trans hid'.symm)
        obtain ⟨k, hk, -, hke, hkf, -⟩ := h.toReconcile_claim hwf hpr
        rw [hdd, hev, hfn]
        exact ⟨k, hk, hke, hkf⟩
      · left
        rw [h.reconciled.winners.others d hin] at hd
        exact h.written_conflicts ▸ hd
    · exact absurd hde he

/-- A claim that a submission replaces lies on the submission's event, unless its
event is merged. -/
theorem Ingested.replaced_event (hI : s.Inv) (h : Ingested s s' call sub s₀ w s₁ s₂ s₃)
    {k : Claim} (hk : k ∈ s.claims) (hrep : s.Replaces sub k) (hlive : ¬ s.IsMerged k.eventId) :
    k.eventId = sub.eventId := by
  unfold Replaces at hrep
  split at hrep
  · rename_i r hr
    obtain ⟨x, hx, hxrec, hroot⟩ := h.prepared.owner r hr k hk hrep.2
    obtain ⟨r', hk', hx'⟩ := hI.rooted.common hI.wf hk hx hrep.2 hxrec
    rw [hx'.unique hI.wf hroot] at hk'
    have hself := root_of_isLive (isLive_of_not_isMerged (hI.wf.claimEvent k hk) hlive)
    exact hself.unique hI.wf hk'
  · exact hrep.1

/-- Rows of other events persist through an ingestion. -/
theorem Ingested.row_persists (h : Ingested s s' call sub s₀ w s₁ s₂ s₃) {c : ClaimConflict}
    (hc : c ∈ s.conflicts) (hne : c.eventId ≠ sub.eventId) :
    ∃ d ∈ s'.conflicts, d.eventId = c.eventId ∧ d.fieldName = c.fieldName := by
  have hrow : ∃ d ∈ s₁.conflicts, d.eventId = c.eventId ∧ d.fieldName = c.fieldName := by
    by_cases hin : c.id ∈ w.resolvedConflictsToReconcile.map fun pr => pr.1.id
    · obtain ⟨pr, hpr, hid⟩ := List.mem_map.mp hin
      obtain ⟨d, hd, -, hev, hfn, -⟩ := h.reconciled.winners.settled pr hpr
      have hmem := (mem_toReconcile h.toReconcile hpr).1
      rw [← h.written_conflicts] at hc
      rw [h.written.wf.conflictIds.eq_of_key hmem hc hid] at hev hfn
      exact ⟨d, hd, hev, hfn⟩
    · refine ⟨c, (h.reconciled.winners.others c hin).mpr ?_, rfl, rfl⟩
      rw [h.written_conflicts]
      exact hc
  obtain ⟨d, hd, hde, hdf⟩ := hrow
  have hdne : d.eventId ≠ sub.eventId := hde ▸ hne
  have hd₂ := h.reconciled.stale.kept d hd (Or.inr (Or.inr hdne))
  refine ⟨d, ?_, hde, hdf⟩
  rw [h.conflicts_eq, h.reconciled.detected.others d (fun hx => hdne hx.1)]
  exact hd₂

/-- A RESOLVED row after the detection of an ingestion was RESOLVED before it. -/
theorem Ingested.resolved_before_detection (h : Ingested s s' call sub s₀ w s₁ s₂ s₃)
    {d : ClaimConflict} (hd : d ∈ s'.conflicts) (hres : d.status = .resolved) :
    d ∈ s₂.conflicts := by
  rw [h.conflicts_eq] at hd
  exact h.reconciled.detected.resolved_origin hd hres

end Ingest

/-! ## Rows after a merge -/

section Merge

variable {call : MergeCall} {s₃ s₄ : Db}

theorem Merged.conflicts_eq (h : Merged s s' call s₃ s₄) : s'.conflicts = s₄.conflicts := by
  obtain ⟨reviews, rfl⟩ := h.finished
  rfl

theorem Merged.mem_closed (hwf : s.WellFormed) (h : Merged s s' call s₃ s₄) {d : ClaimConflict}
    (hd : d ∈ s₃.conflicts) :
    (d.eventId = call.sourceEventId ∧ d.status = .resolved) ∨
      (d ∈ s.conflicts ∧ d.eventId ≠ call.sourceEventId) := by
  obtain ⟨n, history, activity, heq⟩ := h.closed_eq hwf
  rw [heq] at hd
  obtain ⟨c, hc, rfl⟩ := mem_updateWhere.mp hd
  by_cases hev : c.eventId = call.sourceEventId
  · left
    cases hst : c.status with
    | «open» =>
        rw [if_pos (by simp [hev])]
        exact ⟨hev, rfl⟩
    | resolved =>
        rw [if_neg (by simp)]
        exact ⟨hev, hst⟩
  · right
    rw [if_neg (by simp [hev])]
    exact ⟨hc, hev⟩

/-- An OPEN row after a merge is on the target, or was there and not on the
source event. -/
theorem Merged.open_origin (hwf : s.WellFormed) (h : Merged s s' call s₃ s₄) {d : ClaimConflict}
    (hd : d ∈ s'.conflicts) (hopen : d.status = .open) :
    d.eventId = call.targetEventId ∨ (d ∈ s.conflicts ∧ d.eventId ≠ call.sourceEventId) := by
  by_cases he : d.eventId = call.targetEventId
  · exact Or.inl he
  · right
    rw [h.conflicts_eq, h.detected.others d (fun hx => he hx.1)] at hd
    rcases h.mem_closed hwf hd with ⟨-, hres⟩ | hold
    · rw [hopen] at hres
      cases hres
    · exact hold

/-- A RESOLVED row after a merge is on the source event, or was there. -/
theorem Merged.resolved_origin (hwf : s.WellFormed) (h : Merged s s' call s₃ s₄)
    {d : ClaimConflict} (hd : d ∈ s'.conflicts) (hres : d.status = .resolved) :
    d.eventId = call.sourceEventId ∨ d ∈ s.conflicts := by
  rw [h.conflicts_eq] at hd
  rcases h.mem_closed hwf (h.detected.resolved_origin hd hres) with ⟨hev, -⟩ | ⟨hold, -⟩
  · exact Or.inl hev
  · exact Or.inr hold

/-- Rows of other events persist through a merge. -/
theorem Merged.row_persists (hwf : s.WellFormed) (h : Merged s s' call s₃ s₄) {c : ClaimConflict}
    (hc : c ∈ s.conflicts) (hsource : c.eventId ≠ call.sourceEventId)
    (htarget : c.eventId ≠ call.targetEventId) : c ∈ s'.conflicts := by
  rw [h.conflicts_eq, h.detected.others c (fun hx => htarget hx.1)]
  obtain ⟨n, history, activity, heq⟩ := h.closed_eq hwf
  rw [heq]
  exact mem_updateWhere.mpr ⟨c, hc, if_neg (by simp [hsource])⟩

end Merge

end Detect

/-! ## Rows after a curator action -/

section Curator

variable {s s' : Db}

/-- The rows after an update of one row: that row, and the others as they were. -/
theorem mem_rewritten_row {g : ClaimConflict → ClaimConflict} (hwf : s.WellFormed)
    {c : ClaimConflict} (hc : c ∈ s.conflicts)
    (h : s'.conflicts = updateWhere (fun d => d.id = c.id) g s.conflicts) {d : ClaimConflict} :
    d ∈ s'.conflicts ↔ d = g c ∨ (d ∈ s.conflicts ∧ d.id ≠ c.id) := by
  rw [h, mem_updateWhere]
  constructor
  · intro hd
    obtain ⟨x, hx, rfl⟩ := hd
    by_cases hid : x.id = c.id
    · rw [if_pos (by simpa using hid), hwf.conflictIds.eq_of_key hx hc hid]
      exact Or.inl rfl
    · rw [if_neg (by simpa using hid)]
      exact Or.inr ⟨hx, hid⟩
  · intro hd
    rcases hd with rfl | ⟨hd, hid⟩
    · exact ⟨c, hc, if_pos (by simp)⟩
    · exact ⟨d, hd, if_neg (by simpa using hid)⟩

end Curator

end Db

end Atlas
