import Atlas.Resolution

/-!
# Ingestions after a resolution

A resolved conflict may see any number of ingestions before a curator reopens it.
As long as it stays RESOLVED, inactive claims stay as they are, a claim is
superseded only by newer ones, and links are only added for active claims.  The
winner stays, or it has moved to a correction that superseded a linked claim.
`Kept` collects this and `kept_run` carries it along the ingestions.
-/

namespace Atlas

open Outcome Rows

namespace Db

/-! ## One ingestion -/

/-- The type that a reactivation restores depends on the superseding history rows
of the claim. -/
theorem restoredType_append {s s' : Db} {hs : List ClaimHistory} {id : Uuid}
    (h : s'.claimHistory = s.claimHistory ++ hs)
    (hnone : ∀ r ∈ hs, r.toClaimType = .superseded → r.claimId ≠ id) :
    s'.restoredType id = s.restoredType id := by
  unfold restoredType
  rw [h, List.reverse_append, List.find?_append]
  have hfind : (hs.reverse.find? fun r => r.claimId = id ∧ r.toClaimType = .superseded) = none := by
    rw [List.find?_eq_none]
    intro r hr
    simp only [decide_eq_true_eq]
    intro hcond
    exact hnone r (List.mem_reverse.mp hr) hcond.2 hcond.1
  rw [hfind, Option.none_or]

section Ingest

variable [PyText] {s s' : Db} {call : IngestCall} {sub : Submission} {s₀ s₁ s₂ s₃ : Db}
  {w : ClaimWriteResult}

theorem Ingested.nextId_lt (h : Ingested s s' call sub s₀ w s₁ s₂ s₃) : s.nextId < s'.nextId := by
  obtain ⟨result, hsnap⟩ := h.snapshots
  have hrow : { snapshotRow sub.snapshotId call with ingestionResult := some result } ∈
      s'.snapshots := by
    rw [hsnap]
    refine mem_updateWhere.mpr ⟨snapshotRow sub.snapshotId call, by simp, if_pos ?_⟩
    simp [snapshotRow]
  have hlt := h.wellFormed.snapshot_lt _ hrow
  rw [← h.prepared.snapshotId]
  exact hlt

/-- A claim before an ingestion is there after it: as it was, or superseded by a
new claim when it was active. -/
theorem Ingested.claim_after (hwf : s.WellFormed) (h : Ingested s s' call sub s₀ w s₁ s₂ s₃)
    {k : Claim} (hk : k ∈ s.claims) :
    (k ∈ s'.claims ∧ k ∉ w.supersededClaims) ∨
      (k ∈ w.supersededClaims ∧ ∃ n ∈ w.newClaims, n.fieldName = k.fieldName ∧
        newClaimOf w.newClaims k.fieldName = some n ∧ supersedeRow n.id k ∈ s'.claims) := by
  by_cases hsup : k ∈ w.supersededClaims
  · right
    refine ⟨hsup, ?_⟩
    obtain ⟨-, hactive, hrep, hfield⟩ := (h.mem_superseded hwf).mp hsup
    obtain ⟨n, hn⟩ := Option.isSome_iff_exists.mp (h.newClaimOf_isSome.mpr hfield)
    obtain ⟨hmem, hnf⟩ := newClaimOf_some hn
    refine ⟨n, hmem, hnf, hn, ?_⟩
    rw [h.claims]
    refine List.mem_append_left _ (List.mem_map.mpr ⟨k, hk, ?_⟩)
    unfold rewritten
    rw [if_pos ⟨hactive, (h.replaces hwf hk).mpr hrep⟩, hn]
  · exact Or.inl ⟨h.claim_kept hwf hk hsup, hsup⟩

/-- A claim after an ingestion was there, was superseded by a new claim, or is
new. -/
theorem Ingested.claim_before (hwf : s.WellFormed) (h : Ingested s s' call sub s₀ w s₁ s₂ s₃)
    {k' : Claim} (hk' : k' ∈ s'.claims) :
    k' ∈ s.claims ∨ (∃ k ∈ s.claims, k.isActive = true ∧ ∃ n, s.nextId ≤ n ∧
        k' = supersedeRow n k) ∨
      (s.nextId ≤ k'.id ∧ k'.isActive = true ∧ k'.supersededBy = none ∧
        k'.eventId = sub.eventId) := by
  have hfresh : ∀ n ∈ w.newClaims, s.nextId ≤ n.id := fun n hn =>
    le_trans (Nat.le_of_lt h.prepared.nextId) (h.written.news n hn).1
  rw [h.claims] at hk'
  rcases List.mem_append.mp hk' with hk' | hk'
  · obtain ⟨k, hk, rfl⟩ := List.mem_map.mp hk'
    rcases h.rewritten_eq hwf hk with ⟨heq, -⟩ | ⟨⟨hactive, -⟩, n, hn, -, heq⟩
    · rw [heq]
      exact Or.inl hk
    · exact Or.inr (Or.inl ⟨k, hk, hactive, n.id, hfresh n hn, heq⟩)
  · obtain ⟨-, item, -, heq⟩ := h.written.news k' hk'
    refine Or.inr (Or.inr ⟨hfresh k' hk', ?_, ?_, ?_⟩)
    · rw [heq]
      rfl
    · rw [heq]
      rfl
    · rw [heq]
      rfl

theorem Ingested.links_kept (h : Ingested s s' call sub s₀ w s₁ s₂ s₃) {l : Uuid × Uuid}
    (hl : l ∈ s.conflictClaims) : l ∈ s'.conflictClaims := by
  have hw : w.db.conflictClaims = s.conflictClaims := by
    rw [h.written.rest]
    show s₀.conflictClaims = s.conflictClaims
    rw [h.prepared.rest]
  obtain ⟨result, rfl⟩ := h.finished
  rw [← hw] at hl
  exact h.reconciled.detected.links l
    (h.reconciled.stale.links l (h.reconciled.winners.links l hl))

/-- A link that an ingestion adds is one of an OPEN conflict or of a claim that
is active after it. -/
theorem Ingested.links_new (h : Ingested s s' call sub s₀ w s₁ s₂ s₃) {l : Uuid × Uuid}
    (hl : l ∈ s'.conflictClaims) :
    l ∈ s.conflictClaims ∨ (∃ c ∈ s'.conflicts, c.id = l.1 ∧ c.status = .open) ∨
      ∃ k ∈ s'.claims, k.id = l.2 ∧ k.isActive = true := by
  have hw : w.db.conflictClaims = s.conflictClaims := by
    rw [h.written.rest]
    show s₀.conflictClaims = s.conflictClaims
    rw [h.prepared.rest]
  have hclaims := h.claims_eq
  have hconf := h.conflicts_eq
  have hl₃ : l ∈ s₃.conflictClaims := by
    obtain ⟨result, rfl⟩ := h.finished
    exact hl
  rcases h.reconciled.detected.newLinks l hl₃ with hl | ⟨c, hc, hid, -, -, hopen⟩
  · rcases h.reconciled.stale.newLinks l hl with hl | ⟨k, hk, hid, hactive⟩
    · rcases h.reconciled.winners.newLinks l hl with hl | ⟨k, hk, hid, hactive⟩
      · exact Or.inl (hw ▸ hl)
      · exact Or.inr (Or.inr ⟨k, hclaims.1 ▸ hk, hid, hactive⟩)
    · refine Or.inr (Or.inr ⟨k, ?_, hid, hactive⟩)
      rw [hclaims.1, ← hclaims.2.1]
      exact hk
  · exact Or.inr (Or.inl ⟨c, hconf ▸ hc, hid, hopen⟩)

/-- An ingestion records no further supersession of a claim that was inactive. -/
theorem Ingested.restoredType (hwf : s.WellFormed) (h : Ingested s s' call sub s₀ w s₁ s₂ s₃)
    {k : Claim} (hk : k ∈ s.claims) (hinactive : k.isActive = false) :
    s'.restoredType k.id = s.restoredType k.id := by
  obtain ⟨hs, hhist, hrows⟩ := h.written.history
  have hold : s₀.claimHistory = s.claimHistory := by rw [h.prepared.rest]
  have hnew : s'.claimHistory = s.claimHistory ++ hs := by
    obtain ⟨result, rfl⟩ := h.finished
    rw [← hold, ← hhist]
    show s₃.claimHistory = w.db.claimHistory
    rw [h.conflictsOnly.rest]
  apply restoredType_append hnew
  intro r hr hsup hid
  obtain ⟨x, hx, hxid⟩ := hrows r hr hsup
  obtain ⟨hmem, hactive, -⟩ := (h.mem_superseded hwf).mp hx
  rw [hwf.claimIds.eq_of_key hmem hk (hxid.trans hid), hinactive] at hactive
  cases hactive

/-- The winner of a conflict that is RESOLVED before and after an ingestion: it
stays, or it was superseded and an active claim takes its place, the replacement
when that is one of them. -/
theorem Ingested.winner_after (hwf : s.WellFormed) (h : Ingested s s' call sub s₀ w s₁ s₂ s₃)
    {c d : ClaimConflict} (hc : c ∈ s.conflicts) (hcres : c.status = .resolved)
    (hd : d ∈ s'.conflicts) (hdres : d.status = .resolved) (hid : d.id = c.id) :
    (d.eventId = c.eventId ∧ d.fieldName = c.fieldName) ∧
      (d.winningClaimId = c.winningClaimId ∨
        ∃ k ∈ w.supersededClaims, ∃ n, c.winningClaimId = some k.id ∧
          newClaimOf w.newClaims k.fieldName = some n ∧ k.eventId = c.eventId ∧
          k.fieldName = c.fieldName ∧
          (∃ x ∈ Session.activeOf w.db c, d.winningClaimId = some x.id) ∧
          (n ∈ Session.activeOf w.db c → d.winningClaimId = some n.id)) := by
  -- the row after the winners were settled, by the case it is in
  have hrow : ∀ x ∈ s₁.conflicts, x.id = c.id → x = c ∨
      ∃ k ∈ w.supersededClaims, ∃ n, c.winningClaimId = some k.id ∧
        newClaimOf w.newClaims k.fieldName = some n ∧ k.eventId = c.eventId ∧
        k.fieldName = c.fieldName ∧ Session.WinnerSettled w.db c n x := by
    intro x hx hxid
    by_cases hin : x.id ∈ w.resolvedConflictsToReconcile.map fun pr => pr.1.id
    · right
      obtain ⟨pr, hpr, hprid⟩ := List.mem_map.mp hin
      obtain ⟨y, hy, hsettled⟩ := h.reconciled.winners.settled pr hpr
      have hxy := h.reconciled.winners.wf.conflictIds.eq_of_key hx hy
        (hprid.symm.trans hsettled.1.symm)
      have hprmem : pr.1 ∈ s.conflicts :=
        h.written_conflicts ▸ (mem_toReconcile h.toReconcile hpr).1
      have hprc := hwf.conflictIds.eq_of_key hprmem hc (hprid.trans hxid)
      obtain ⟨k, hk, hwin, hke, hkf, hnew⟩ := h.toReconcile_claim hwf hpr
      rw [hprc] at hwin hke hkf hsettled
      exact ⟨k, hk, pr.2, hwin, hnew, hke, hkf, hxy ▸ hsettled⟩
    · left
      rw [h.reconciled.winners.others x hin, h.written_conflicts] at hx
      exact hwf.conflictIds.eq_of_key hx hc hxid
  rcases h.reconciled.stale.rows d (h.resolved_before_detection hd hdres) with
    hd₁ | ⟨-, -, -, x, hx, hxid, -, -, hopen, hagree⟩
  · rcases hrow d hd₁ hid with rfl | ⟨k, hk, n, hwin, hnew, hke, hkf, -, hev, hfn, hsettled⟩
    · exact ⟨⟨rfl, rfl⟩, Or.inl rfl⟩
    · refine ⟨⟨hev, hfn⟩, ?_⟩
      rcases hsettled with ⟨-, rfl⟩ | ⟨-, x, hx, hdwin, hrep⟩ | ⟨-, hopen⟩
      · exact Or.inl rfl
      · right
        obtain ⟨y, hy, rfl⟩ := List.mem_map.mp hx
        refine ⟨k, hk, n, hwin, hnew, hke, hkf, ⟨y, hy, hdwin⟩, ?_⟩
        intro hn
        have hnf := (newClaimOf_some hnew).2.trans hkf
        rw [hdwin, hrep hnf (List.mem_map_of_mem hn)]
      · rw [hdres] at hopen
        cases hopen
  · -- a row that was closed as stale had been opened by a disagreement
    exfalso
    rcases hrow x hx (hxid.trans hid) with rfl | ⟨k, -, n, -, -, -, -, -, hev, hfn, hsettled⟩
    · rw [hcres] at hopen
      cases hopen
    · rcases hsettled with ⟨-, rfl⟩ | ⟨hst, -⟩ | ⟨hdis, -⟩
      · rw [hcres] at hopen
        cases hopen
      · rw [hcres, hopen] at hst
        cases hst
      · apply hagree
        have hactive : Session.activeOf s₁ x = Session.activeOf w.db c := by
          rw [Session.activeOf_congr h.claims_eq.2.1]
          unfold Session.activeOf
          rw [hev, hfn]
        rw [hactive]
        exact hdis

end Ingest

/-! ## Active claims of merged events -/

/-- An active claim of a merged event is linked to a conflict: only a reopening
puts one there, and an override is linked when it is made. -/
def MergedLinked (s : Db) : Prop :=
  ∀ k ∈ s.claims, k.isActive = true → s.IsMerged k.eventId →
    ∃ conflictId, (conflictId, k.id) ∈ s.conflictClaims

section MergedLinked

variable {s s' : Db}

theorem mergedLinked_empty (sources : List Source) : (Db.empty sources).MergedLinked := by
  intro k hk
  simp [Db.empty] at hk

theorem Resolved.links {call : ResolveCall} {c u : ClaimConflict} {winner : Uuid} {sw : Db}
    (h : Resolved s s' call c winner sw u) {l : Uuid × Uuid} :
    l ∈ s'.conflictClaims ↔ l ∈ s.conflictClaims ∨ l = (c.id, winner) := by
  have heq : s'.conflictClaims = sw.conflictClaims := by
    obtain ⟨ps, hs, rfl⟩ := h.written
    rfl
  rw [heq]
  exact h.chosen.links

theorem Resolved.mergedLinked {call : ResolveCall} {c u : ClaimConflict} {winner : Uuid} {sw : Db}
    (hwf : s.WellFormed) (h : Resolved s s' call c winner sw u) (hP : s.MergedLinked) :
    s'.MergedLinked := by
  intro k hk hactive hm
  rw [isMerged_congr h.events] at hm
  rcases (h.active_origin hwf hk hactive).2 with hold | ⟨rfl, hid⟩
  · obtain ⟨i, hi⟩ := hP k hold hactive hm
    exact ⟨i, h.links.mpr (Or.inl hi)⟩
  · exact ⟨c.id, h.links.mpr (Or.inr (by rw [hid]; rfl))⟩

theorem Reopened.mergedLinked {call : ReopenCall} {c : ClaimConflict} (hwf : s.WellFormed)
    (h : Reopened s s' call c) (hP : s.MergedLinked) : s'.MergedLinked := by
  intro k' hk' hactive hm
  rw [isMerged_congr h.events] at hm
  rw [h.links]
  obtain ⟨k, hk, ⟨hr, rfl⟩ | ⟨-, rfl⟩⟩ := (h.mem_claims hwf).mp hk'
  · exact ⟨c.id, hr.2.1⟩
  · exact hP k' hk hactive hm

section Detect

variable [PyText]

theorem Ingested.mergedLinked {call : IngestCall} {sub : Submission} {s₀ s₁ s₂ s₃ : Db}
    {w : ClaimWriteResult} (hwf : s.WellFormed) (h : Ingested s s' call sub s₀ w s₁ s₂ s₃)
    (hP : s.MergedLinked) : s'.MergedLinked := by
  intro k hk hactive hm
  rcases h.active_origin hwf hk hactive with ⟨hold, -⟩ | hnew
  · rw [h.isMerged] at hm
    obtain ⟨i, hi⟩ := hP k hold hactive hm
    exact ⟨i, h.links_kept hi⟩
  · obtain ⟨-, item, -, heq⟩ := h.written.news k hnew
    rw [heq] at hm
    exact absurd hm h.not_isMerged

theorem Merged.mergedLinked {call : MergeCall} {s₃ s₄ : Db} (hwf : s.WellFormed)
    (h : Merged s s' call s₃ s₄) (hP : s.MergedLinked) : s'.MergedLinked := by
  have hlinks : ∀ l ∈ s.conflictClaims, l ∈ s'.conflictClaims := by
    intro l hl
    have hl₃ : l ∈ s₃.conflictClaims := by
      obtain ⟨n, history, activity, heq⟩ := h.closed_eq hwf
      rw [heq]
      exact hl
    obtain ⟨reviews, rfl⟩ := h.finished
    exact h.detected.links l hl₃
  intro k hk hactive hm
  rcases (h.mem_claims hwf).mp hk with ⟨hold, hsource⟩ | ⟨p, -, rfl⟩ | ⟨p, -, rfl⟩
  · rcases (h.isMerged hwf _).mp hm with he | hm
    · exact absurd ⟨he, hactive⟩ hsource
    · obtain ⟨i, hi⟩ := hP k hold hactive hm
      exact ⟨i, hlinks _ hi⟩
  · cases hactive
  · exact absurd hm ((h.isLive_target hwf).not_isMerged h.wellFormed)

theorem Change.mergedLinked (hwf : s.WellFormed) (h : Change s s') (hP : s.MergedLinked) :
    s'.MergedLinked := by
  cases h with
  | upkeep h =>
      obtain ⟨ps, hs, os, rs, rfl⟩ := h
      exact hP
  | ingested h => exact h.mergedLinked hwf hP
  | resolved h => exact h.mergedLinked hwf hP
  | merged h => exact h.mergedLinked hwf hP

end Detect

end MergedLinked

end Db

theorem Reachable.mergedLinked [PyText] {s : Db} (h : Reachable s) : s.MergedLinked :=
  (reachable_rule Db.mergedLinked_empty (fun _ _ hI hP h => h.mergedLinked hI.wf hP)
    (fun _ _ _ _ hI hP h => h.mergedLinked hI.wf hP) h).2

end Atlas
