import Atlas.ConflictRows

/-!
# Merged events are inert

An event with a merge pointer should hold no active claim and no OPEN conflict.
Merging establishes this for the source event, and no later ingestion, resolution
or merge touches it again.  A reopening checks no merge pointer, so a run keeps
merged events inert exactly when it commits no reopening on one of them.
-/

namespace Atlas

open Rows

namespace Db

/-- No merged event has an active claim or an OPEN conflict. -/
structure Inert (s : Db) : Prop where
  claims : ∀ k ∈ s.claims, k.isActive = true → ¬ s.IsMerged k.eventId
  conflicts : ∀ c ∈ s.conflicts, c.status = .open → ¬ s.IsMerged c.eventId

instance (s : Db) : Decidable s.Inert :=
  decidable_of_iff ((∀ k ∈ s.claims, k.isActive = true → ¬ s.IsMerged k.eventId) ∧
      ∀ c ∈ s.conflicts, c.status = .open → ¬ s.IsMerged c.eventId)
    ⟨fun h => ⟨h.1, h.2⟩, fun h => ⟨h.1, h.2⟩⟩

theorem inert_empty (sources : List Source) : (Db.empty sources).Inert := by
  constructor <;> simp [Db.empty]

/-! ## The steps that keep it -/

section Detect

variable [PyText] {s s' : Db}

theorem Ingested.inert {call : IngestCall} {sub : Submission} {s₀ s₁ s₂ s₃ : Db}
    {w : ClaimWriteResult} (hwf : s.WellFormed) (h : Ingested s s' call sub s₀ w s₁ s₂ s₃)
    (hP : s.Inert) : s'.Inert := by
  constructor
  · intro k hk hactive
    rcases h.active_origin hwf hk hactive with ⟨hold, -⟩ | hnew
    · rw [h.isMerged]
      exact hP.claims k hold hactive
    · obtain ⟨-, item, -, heq⟩ := h.written.news k hnew
      rw [heq]
      exact h.not_isMerged
  · intro d hd hopen
    rcases h.conflict_origin hwf hd with hold | hev | ⟨k, hk, hke, -⟩
    · rw [h.isMerged]
      exact hP.conflicts d hold hopen
    · rw [hev]
      exact h.not_isMerged
    · -- the row's event held an active claim
      obtain ⟨hmem, hactive, -⟩ := (h.mem_superseded hwf).mp hk
      rw [h.isMerged, ← hke]
      exact hP.claims k hmem hactive

omit [PyText] in
theorem Resolved.inert {call : ResolveCall} {c u : ClaimConflict} {winner : Uuid} {sw : Db}
    (hwf : s.WellFormed) (h : Resolved s s' call c winner sw u) (hP : s.Inert) : s'.Inert := by
  constructor
  · intro k hk hactive
    rw [isMerged_congr h.events]
    rcases (h.active_origin hwf hk hactive).2 with hold | ⟨rfl, -⟩
    · exact hP.claims k hold hactive
    · exact hP.conflicts c h.mem h.isOpen
  · intro d hd hopen
    rw [isMerged_congr h.events]
    rcases (mem_rewritten_row hwf h.mem h.conflicts).mp hd with rfl | ⟨hold, -⟩
    · cases hopen
    · exact hP.conflicts d hold hopen

theorem Merged.inert {call : MergeCall} {s₃ s₄ : Db} (hwf : s.WellFormed)
    (h : Merged s s' call s₃ s₄) (hP : s.Inert) : s'.Inert := by
  have htarget : ¬ s'.IsMerged call.targetEventId :=
    (h.isLive_target hwf).not_isMerged h.wellFormed
  constructor
  · intro k hk hactive
    rcases (h.mem_claims hwf).mp hk with ⟨hold, hsource⟩ | ⟨p, -, rfl⟩ | ⟨p, -, rfl⟩
    · rw [h.isMerged hwf]
      intro hm
      rcases hm with he | hm
      · exact hsource ⟨he, hactive⟩
      · exact hP.claims k hold hactive hm
    · cases hactive
    · exact htarget
  · intro d hd hopen
    rcases h.open_origin hwf hd hopen with he | ⟨hold, hsource⟩
    · rw [he]
      exact htarget
    · rw [h.isMerged hwf]
      intro hm
      rcases hm with he | hm
      · exact hsource he
      · exact hP.conflicts d hold hopen hm

theorem Change.inert (hwf : s.WellFormed) (h : Change s s') (hP : s.Inert) : s'.Inert := by
  cases h with
  | upkeep h =>
      obtain ⟨ps, hs, os, rs, rfl⟩ := h
      exact ⟨hP.claims, hP.conflicts⟩
  | ingested h => exact h.inert hwf hP
  | resolved h => exact h.inert hwf hP
  | merged h => exact h.inert hwf hP

end Detect

/-! ## Reopening -/

/-- The conflict is not about a merged event. -/
def OnLiveEvent (s : Db) (c : ClaimConflict) : Prop := ¬ s.IsMerged c.eventId

/-- **Reopening keeps merged events inert exactly when it is not about one.** -/
theorem Reopened.inert_iff {s s' : Db} (hwf : s.WellFormed) {call : ReopenCall}
    {c : ClaimConflict} (h : Reopened s s' call c) (hP : s.Inert) :
    s'.Inert ↔ s.OnLiveEvent c := by
  have hrow := fun d => mem_rewritten_row hwf h.mem h.conflicts (d := d)
  constructor
  · intro hP'
    have hreopened := (hrow (bumped (reopenedByUser call) c)).mpr (Or.inl rfl)
    have hlive := hP'.conflicts _ hreopened rfl
    rwa [isMerged_congr h.events] at hlive
  · intro hlive
    constructor
    · intro k' hk' hactive
      rw [isMerged_congr h.events]
      obtain ⟨k, hk, ⟨hr, rfl⟩ | ⟨-, rfl⟩⟩ := (h.mem_claims hwf).mp hk'
      · -- a reactivated claim is on the conflict's event
        rw [show (s.unsupersedeRow k).eventId = c.eventId from hr.2.2.1]
        exact hlive
      · exact hP.claims k' hk hactive
    · intro d hd hopen
      rw [isMerged_congr h.events]
      rcases (hrow d).mp hd with rfl | ⟨hold, -⟩
      · exact hlive
      · exact hP.conflicts d hold hopen

end Db

/-- **Merged events are inert** all along a run exactly when the run commits no
reopening of a conflict of a merged event. -/
theorem merged_events_inert_iff [PyText] (sources : List Source) (ops : List Op) :
    Runs.EveryState step Db.Inert (Db.empty sources) ops ↔
      Runs.EveryStep step (Db.AtReopening Db.OnLiveEvent) (Db.empty sources) ops :=
  Runs.everyState_iff_everyStep (I := Db.Inv) (fun _ o hI => Db.step_inv hI o)
    (fun _ o hI hP => Db.step_iff_atReopening hI.wf hP (fun _ h => h.inert hI.wf hP)
      (fun _ _ _ h => h.inert_iff hI.wf hP) o)
    (Db.inv_empty sources) (Db.inert_empty sources) ops

/-- A contested event is merged into another one, which closes its conflict; the
closed conflict is then reopened. -/
def mergedThenReopened : List Op :=
  [operatorReport 0 100 none none 1 1, operatorReport 1 101 (some 5) none 2 2,
    operatorReport 2 102 none none 1 3, .merge ⟨5, 13, 9, "", none, 4⟩,
    .reopen ⟨10, 2, 9, "", 5⟩]

/-- Reopening leaves an OPEN conflict on the merged event. -/
theorem reopen_on_merged_event : ¬ ∀ sources ops, (after sources ops).Inert := by
  intro h
  have hfails : ¬ (after fourSources mergedThenReopened).Inert := by decide +kernel
  exact hfails (h fourSources mergedThenReopened)

end Atlas
