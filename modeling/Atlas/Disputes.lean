import Atlas.ConflictRows

/-!
# Disputed fields and conflict rows

The projection marks a field disputed from the values of its active claims; the
detector opens a conflict only for claims of at least two sources.  Two
invariants tie them together on unmerged events: a RESOLVED conflict has an
active winner, and a field whose active claims disagree across two sources has a
conflict row.  So a disputed field has an OPEN conflict, or all its active claims
come from one source.
-/

namespace Atlas

open Rows

namespace Db

/-! ## Claims of an untouched field -/

/-- A step that rewrites claims elsewhere and adds claims elsewhere leaves the
active claims of a field alone. -/
theorem findActive_of_map {s s' : Db} {g : Claim → Claim} {extra : List Claim} {e : Uuid}
    {f : String} (hclaims : s'.claims = s.claims.map g ++ extra)
    (hkeep : ∀ k ∈ s.claims, (g k).eventId = k.eventId ∧ (g k).fieldName = k.fieldName)
    (hsame : ∀ k ∈ s.claims, k.eventId = e → k.fieldName = f → g k = k)
    (hextra : ∀ k ∈ extra, k.eventId = e → k.fieldName ≠ f) :
    s'.findActiveByEventField e f = s.findActiveByEventField e f := by
  unfold findActiveByEventField
  rw [hclaims, List.filter_append]
  have hnone : (extra.filter fun c => c.eventId = e ∧ c.fieldName = f ∧ c.isActive) = [] := by
    rw [List.filter_eq_nil_iff]
    intro k hk
    have := hextra k hk
    simp only [decide_eq_true_eq]
    tauto
  rw [hnone, List.append_nil, List.filter_map]
  have hfilter : (s.claims.filter ((fun c => decide (c.eventId = e ∧ c.fieldName = f ∧
      c.isActive = true)) ∘ g)) =
      s.claims.filter fun c => c.eventId = e ∧ c.fieldName = f ∧ c.isActive := by
    apply List.filter_congr
    intro k hk
    obtain ⟨hev, hfn⟩ := hkeep k hk
    by_cases hkey : k.eventId = e ∧ k.fieldName = f
    · simp [hsame k hk hkey.1 hkey.2]
    · simp only [Function.comp_apply, hev, hfn, decide_eq_decide]
      tauto
  rw [hfilter]
  apply (List.map_congr_left ?_).trans (List.map_id _)
  intro k hk
  simp only [List.mem_filter, decide_eq_true_eq] at hk
  exact hsame k hk.1 hk.2.1 hk.2.2.1

section Detect

variable [PyText] {s s' : Db}

theorem contested_congr {e : Uuid} {f : String}
    (h : s'.findActiveByEventField e f = s.findActiveByEventField e f) :
    s'.Contested e f ↔ s.Contested e f := by
  unfold Contested
  rw [h]

/-! ## The two invariants -/

/-- A RESOLVED conflict of an unmerged event has an active winner. -/
def WinnersActive (s : Db) : Prop :=
  ∀ c ∈ s.conflicts, c.status = .resolved → ¬ s.IsMerged c.eventId →
    ∃ k ∈ s.claims, c.winningClaimId = some k.id ∧ k.isActive = true

/-- A contested field of an unmerged event has a conflict row. -/
def ContestedFlagged (s : Db) : Prop :=
  ∀ e f, ¬ s.IsMerged e → s.Contested e f → ∃ c ∈ s.conflicts, c.eventId = e ∧ c.fieldName = f

/-- Every contested field of an unmerged event is flagged or settled. -/
structure Guarded (s : Db) : Prop where
  winners : s.WinnersActive
  flagged : s.ContestedFlagged

theorem guarded_empty (sources : List Source) : (Db.empty sources).Guarded := by
  constructor
  · intro c hc
    simp [Db.empty] at hc
  · intro e f _ hcon
    obtain ⟨a, ha, -⟩ := hcon.2
    simp [Db.empty, findActiveByEventField] at ha

/-! ## Ingestion -/

section Ingest

variable {call : IngestCall} {sub : Submission} {s₀ s₁ s₂ s₃ : Db} {w : ClaimWriteResult}

/-- An ingestion leaves the claims of other unmerged events alone. -/
theorem Ingested.rewritten_other (hI : s.Inv) (h : Ingested s s' call sub s₀ w s₁ s₂ s₃)
    {k : Claim} (hk : k ∈ s.claims) (hlive : ¬ s.IsMerged k.eventId)
    (hne : k.eventId ≠ sub.eventId) : s₀.rewritten sub w.newClaims k = k := by
  rcases h.rewritten_eq hI.wf hk with ⟨heq, -⟩ | ⟨⟨-, hrep, -⟩, -⟩
  · exact heq
  · exact absurd (h.replaced_event hI hk hrep hlive) hne

theorem Ingested.findActive_other (hI : s.Inv) (h : Ingested s s' call sub s₀ w s₁ s₂ s₃)
    {e : Uuid} (hlive : ¬ s.IsMerged e) (hne : e ≠ sub.eventId) (f : String) :
    s'.findActiveByEventField e f = s.findActiveByEventField e f := by
  apply findActive_of_map h.claims
  · intro k hk
    rcases h.rewritten_eq hI.wf hk with ⟨heq, -⟩ | ⟨-, n, -, -, heq⟩
    · rw [heq]
      exact ⟨rfl, rfl⟩
    · rw [heq]
      exact ⟨rfl, rfl⟩
  · intro k hk hke _
    exact h.rewritten_other hI hk (hke ▸ hlive) (hke ▸ hne)
  · intro k hk hke _
    obtain ⟨-, item, -, heq⟩ := h.written.news k hk
    rw [heq] at hke
    exact hne hke.symm

theorem Ingested.contestedFlagged (hI : s.Inv) (h : Ingested s s' call sub s₀ w s₁ s₂ s₃)
    (hP : s.ContestedFlagged) : s'.ContestedFlagged := by
  intro e f hlive hcon
  by_cases he : e = sub.eventId
  · -- detection opened the field
    have hclaims : s'.claims = s₂.claims := h.claims_eq.1.trans h.claims_eq.2.2.symm
    have hcon₂ : s₂.Contested e f := by
      refine (contested_congr ?_).mp hcon
      unfold findActiveByEventField
      rw [hclaims]
    rw [he] at hcon₂
    obtain ⟨c, hc, hce, hcf, -, -⟩ :=
      h.reconciled.detected.opened f (Session.mem_contestedFields.mpr hcon₂)
    exact ⟨c, h.conflicts_eq ▸ hc, hce.trans he.symm, hcf⟩
  · rw [h.isMerged] at hlive
    have hcon' := (contested_congr (h.findActive_other hI hlive he f)).mp hcon
    obtain ⟨c, hc, hce, hcf⟩ := hP e f hlive hcon'
    obtain ⟨d, hd, hde, hdf⟩ := h.row_persists hc (hce ▸ he)
    exact ⟨d, hd, hde.trans hce, hdf.trans hcf⟩

/-- A winner that is not superseded by the submission is still there. -/
theorem Ingested.claim_kept (hwf : s.WellFormed) (h : Ingested s s' call sub s₀ w s₁ s₂ s₃)
    {k : Claim} (hk : k ∈ s.claims) (hnot : k ∉ w.supersededClaims) : k ∈ s'.claims := by
  rw [h.claims]
  refine List.mem_append_left _ (List.mem_map.mpr ⟨k, hk, ?_⟩)
  rcases h.rewritten_eq hwf hk with ⟨heq, -⟩ | ⟨hall, -⟩
  · exact heq
  · exact absurd ((h.mem_superseded hwf).mpr ⟨hk, hall⟩) hnot

/-- The RESOLVED conflict that a superseded claim had won is to be reconciled. -/
theorem Ingested.winner_toReconcile (hwf : s.WellFormed)
    (h : Ingested s s' call sub s₀ w s₁ s₂ s₃) {d : ClaimConflict} (hd : d ∈ s.conflicts)
    (hres : d.status = .resolved) {k : Claim} (hwin : d.winningClaimId = some k.id)
    (hk : k ∈ w.supersededClaims) :
    d.id ∈ w.resolvedConflictsToReconcile.map fun pr => pr.1.id := by
  obtain ⟨hmem, -, -, hfield⟩ := (h.mem_superseded hwf).mp hk
  obtain ⟨n, hn⟩ := Option.isSome_iff_exists.mp (h.newClaimOf_isSome.mpr hfield)
  have hfind : w.db.findResolvedByWinningClaim k.id = some d := by
    unfold findResolvedByWinningClaim
    rw [h.written_conflicts]
    cases hf : s.conflicts.reverse.find? fun c =>
        decide (c.winningClaimId = some k.id ∧ c.status = .resolved) with
    | none =>
        rw [List.find?_eq_none] at hf
        have := hf d (List.mem_reverse.mpr hd)
        simp [hwin, hres] at this
    | some d' =>
        -- two conflicts with one winner are one row
        have hd' := List.mem_reverse.mp (List.mem_of_find?_eq_some hf)
        have hcond := List.find?_some hf
        simp only [decide_eq_true_eq] at hcond
        obtain ⟨x, hx, hxid, hxe, hxf⟩ := hwf.winner hd hwin
        obtain ⟨y, hy, hyid, hye, hyf⟩ := hwf.winner hd' hcond.1
        have hxy := hwf.claimIds.eq_of_key hx hy (hxid.trans hyid.symm)
        rw [hxy] at hxe hxf
        rw [hwf.row_eq hd' hd (hye.symm.trans hxe) (hyf.symm.trans hxf)]
  refine List.mem_map.mpr ⟨(d, n), ?_, rfl⟩
  rw [h.toReconcile, List.mem_filterMap]
  refine ⟨k, hk, ?_⟩
  unfold Db.toReconcile
  rw [hfind]
  have hn' : (w.newClaims.find? fun c => decide (c.fieldName = k.fieldName)) = some n := hn
  simp [hn']

/-- The replacement of a superseded winner is an active claim of the conflict. -/
theorem Ingested.replacement_active (h : Ingested s s' call sub s₀ w s₁ s₂ s₃)
    {c : ClaimConflict} {n : Claim} (hn : n ∈ w.newClaims) (hev : c.eventId = sub.eventId)
    (hfn : n.fieldName = c.fieldName) : n ∈ Session.activeOf w.db c := by
  obtain ⟨-, item, -, heq⟩ := h.written.news n hn
  refine mem_findActiveByEventField.mpr ⟨?_, ?_, hfn, ?_⟩
  · rw [h.written.claims]
    exact List.mem_append_right _ hn
  · rw [hev, heq]
    rfl
  · rw [heq]
    rfl

theorem Ingested.winnersActive (hI : s.Inv) (h : Ingested s s' call sub s₀ w s₁ s₂ s₃)
    (hP : s.WinnersActive) : s'.WinnersActive := by
  have hclaims := h.claims_eq
  intro d hd hres hlive
  rw [h.isMerged] at hlive
  have hmem : ∀ c x, x ∈ (Session.activeOf w.db c).map Claim.id →
      ∃ k ∈ s'.claims, k.id = x ∧ k.isActive = true := by
    intro c x hx
    obtain ⟨k, hk, rfl⟩ := List.mem_map.mp hx
    obtain ⟨hk, -, -, hactive⟩ := mem_findActiveByEventField.mp hk
    exact ⟨k, hclaims.1 ▸ hk, rfl, hactive⟩
  rcases h.reconciled.stale.rows d (h.resolved_before_detection hd hres) with
    hd₁ | ⟨-, -, ⟨x, hx, hwin⟩, -⟩
  · by_cases hin : d.id ∈ w.resolvedConflictsToReconcile.map fun pr => pr.1.id
    · -- the winner was superseded and the row is settled
      obtain ⟨pr, hpr, hid⟩ := List.mem_map.mp hin
      obtain ⟨d', hd', hid', hev, hfn, hsettled⟩ := h.reconciled.winners.settled pr hpr
      have hdd := h.reconciled.winners.wf.conflictIds.eq_of_key hd₁ hd' (hid.symm.trans hid'.symm)
      subst hdd
      obtain ⟨k, hk, -, hke, hkf, hnew⟩ := h.toReconcile_claim hI.wf hpr
      rcases hsettled with ⟨hnil, -⟩ | ⟨-, x, hx, hwin, -⟩ | ⟨-, hopen⟩
      · obtain ⟨hkmem, -, hrep, -⟩ := (h.mem_superseded hI.wf).mp hk
        obtain ⟨hn, hnf⟩ := newClaimOf_some hnew
        have hkev := h.replaced_event hI hkmem hrep (by rw [hke, ← hev]; exact hlive)
        have hactive := h.replacement_active hn (hke.symm.trans hkev) (hnf.trans hkf)
        rw [hnil] at hactive
        cases hactive
      · obtain ⟨k, hk, rfl, hactive⟩ := hmem _ x hx
        exact ⟨k, hk, hwin, hactive⟩
      · rw [hres] at hopen
        cases hopen
    · rw [h.reconciled.winners.others d hin, h.written_conflicts] at hd₁
      obtain ⟨k, hk, hwin, hactive⟩ := hP d hd₁ hres hlive
      have hnot : k ∉ w.supersededClaims := fun hsup =>
        hin (h.winner_toReconcile hI.wf hd₁ hres hwin hsup)
      exact ⟨k, h.claim_kept hI.wf hk hnot, hwin, hactive⟩
  · rw [Session.activeOf_congr hclaims.2.1] at hx
    obtain ⟨k, hk, rfl, hactive⟩ := hmem d x hx
    exact ⟨k, hk, hwin, hactive⟩

end Ingest

/-! ## Curator actions -/

section Resolve

variable {call : ResolveCall} {c u : ClaimConflict} {winner : Uuid} {sw : Db}

omit [PyText]

/-- A loser lies on the event and field of the conflict. -/
theorem Resolved.loser (hwf : s.WellFormed) (h : Resolved s s' call c winner sw u) {k : Claim}
    (hk : k ∈ sw.claims) (hloser : sw.IsLoser c winner k) :
    k.eventId = c.eventId ∧ k.fieldName = c.fieldName := by
  obtain ⟨hwf', hc', -⟩ := h.chosen.spec hwf h.mem
  exact hwf'.link hc' hk hloser.1

theorem Resolved.mem_chosen (h : Resolved s s' call c winner sw u) {k : Claim}
    (hk : k ∈ s.claims) : k ∈ sw.claims := by
  rcases h.chosen.claims with hsw | ⟨-, hsw⟩
  · exact hsw ▸ hk
  · rw [hsw]
    exact List.mem_append_left _ hk

theorem Resolved.findActive_other (hwf : s.WellFormed) (h : Resolved s s' call c winner sw u)
    {e : Uuid} {f : String} (hne : ¬ (c.eventId = e ∧ c.fieldName = f)) :
    s'.findActiveByEventField e f = s.findActiveByEventField e f := by
  have hclaims : ∃ extra, (∀ k ∈ extra, k.eventId = c.eventId ∧ k.fieldName = c.fieldName) ∧
      s'.claims = s.claims.map (fun k => if decide (sw.IsLoser c winner k) = true then
        supersedeRow winner k else k) ++ extra := by
    rcases h.chosen.claims with hsw | ⟨-, hsw⟩
    · refine ⟨[], by simp, ?_⟩
      rw [h.claims hwf, updateWhere, hsw, List.append_nil]
    · rw [h.claims hwf, updateWhere, hsw, List.map_append]
      refine ⟨_, ?_, rfl⟩
      intro k hk
      obtain ⟨o, ho, rfl⟩ := List.mem_map.mp hk
      rw [List.mem_singleton.mp ho]
      split
      · exact ⟨rfl, rfl⟩
      · exact ⟨rfl, rfl⟩
  obtain ⟨extra, hextra, hclaims⟩ := hclaims
  apply findActive_of_map hclaims
  · intro k _
    split
    · exact ⟨rfl, rfl⟩
    · exact ⟨rfl, rfl⟩
  · intro k hk hke hkf
    apply if_neg
    intro hloser
    obtain ⟨hce, hcf⟩ := h.loser hwf (h.mem_chosen hk) (by simpa using hloser)
    exact hne ⟨hce.symm.trans hke, hcf.symm.trans hkf⟩
  · intro k hk hke hkf
    obtain ⟨hce, hcf⟩ := hextra k hk
    exact hne ⟨hce.symm.trans hke, hcf.symm.trans hkf⟩

/-- A claim that is no loser is still there. -/
theorem Resolved.claim_kept (hwf : s.WellFormed) (h : Resolved s s' call c winner sw u)
    {k : Claim} (hk : k ∈ sw.claims) (hnot : ¬ sw.IsLoser c winner k) : k ∈ s'.claims := by
  rw [h.claims hwf]
  exact mem_updateWhere.mpr ⟨k, hk, if_neg (by simpa using hnot)⟩

theorem Resolved.winnersActive (hwf : s.WellFormed) (h : Resolved s s' call c winner sw u)
    (hP : s.WinnersActive) : s'.WinnersActive := by
  intro d hd hres hlive
  rw [isMerged_congr h.events] at hlive
  rcases (mem_rewritten_row hwf h.mem h.conflicts).mp hd with rfl | ⟨hold, hid⟩
  · obtain ⟨-, -, -, k, hk, rfl, hactive, -⟩ := h.chosen.spec hwf h.mem
    exact ⟨k, h.claim_kept hwf hk (fun hl => hl.2.1 rfl), rfl, hactive⟩
  · obtain ⟨k, hk, hwin, hactive⟩ := hP d hold hres hlive
    refine ⟨k, h.claim_kept hwf (h.mem_chosen hk) ?_, hwin, hactive⟩
    -- a winner of another conflict is on another event or field
    intro hloser
    obtain ⟨hke, hkf⟩ := h.loser hwf (h.mem_chosen hk) hloser
    obtain ⟨x, hx, hxid, hxe, hxf⟩ := hwf.winner hold hwin
    rw [hwf.claimIds.eq_of_key hx hk hxid] at hxe hxf
    exact hid (congrArg ClaimConflict.id
      (hwf.row_eq hold h.mem (hxe.symm.trans hke) (hxf.symm.trans hkf)))

end Resolve

section Reopen

variable {call : ReopenCall} {c : ClaimConflict}

omit [PyText]

theorem Reopened.findActive_other (hwf : s.WellFormed) (h : Reopened s s' call c) {e : Uuid}
    {f : String} (hne : ¬ (c.eventId = e ∧ c.fieldName = f)) :
    s'.findActiveByEventField e f = s.findActiveByEventField e f := by
  have hclaims : s'.claims = s.claims.map (fun k =>
      if decide (k.id ∈ (s.toReactivate c).map Claim.id) = true then s.unsupersedeRow k else k) ++
      [] := by
    rw [h.claims, updateWhere, List.append_nil]
  apply findActive_of_map hclaims
  · intro k _
    split
    · exact ⟨rfl, rfl⟩
    · exact ⟨rfl, rfl⟩
  · intro k hk hke hkf
    apply if_neg
    intro hr
    obtain ⟨-, -, hce, hcf⟩ := (mem_toReactivate_id hwf hk).mp (by simpa using hr)
    exact hne ⟨hce.symm.trans hke, hcf.symm.trans hkf⟩
  · simp

theorem Reopened.winnersActive (hwf : s.WellFormed) (h : Reopened s s' call c)
    (hP : s.WinnersActive) : s'.WinnersActive := by
  intro d hd hres hlive
  rw [isMerged_congr h.events] at hlive
  rcases (mem_rewritten_row hwf h.mem h.conflicts).mp hd with rfl | ⟨hold, -⟩
  · cases hres
  · obtain ⟨k, hk, hwin, hactive⟩ := hP d hold hres hlive
    by_cases hr : s.Reactivated c k
    · exact ⟨s.unsupersedeRow k, (h.mem_claims hwf).mpr ⟨k, hk, Or.inl ⟨hr, rfl⟩⟩, hwin,
        restoredType_isActive s k.id⟩
    · exact ⟨k, (h.mem_claims hwf).mpr ⟨k, hk, Or.inr ⟨hr, rfl⟩⟩, hwin, hactive⟩

end Reopen

/-- An action that rewrites one row and leaves the other fields' claims alone
keeps contested fields flagged. -/
theorem contestedFlagged_of_row (hwf : s.WellFormed) {c : ClaimConflict} (hc : c ∈ s.conflicts)
    {g : ClaimConflict → ClaimConflict} (hg : KeepsConflict g)
    (hconflicts : s'.conflicts = updateWhere (fun d => d.id = c.id) g s.conflicts)
    (hevents : s'.events = s.events)
    (hother : ∀ e f, ¬ (c.eventId = e ∧ c.fieldName = f) →
      s'.findActiveByEventField e f = s.findActiveByEventField e f)
    (hP : s.ContestedFlagged) : s'.ContestedFlagged := by
  intro e f hlive hcon
  have hrow := fun d => mem_rewritten_row hwf hc hconflicts (d := d)
  have hself := (hrow (g c)).mpr (Or.inl rfl)
  by_cases hkey : c.eventId = e ∧ c.fieldName = f
  · exact ⟨g c, hself, (hg.eventId c).trans hkey.1, (hg.fieldName c).trans hkey.2⟩
  · rw [isMerged_congr hevents] at hlive
    obtain ⟨d, hd, hde, hdf⟩ := hP e f hlive ((contested_congr (hother e f hkey)).mp hcon)
    refine ⟨d, (hrow d).mpr (Or.inr ⟨hd, ?_⟩), hde, hdf⟩
    intro hid
    rw [hwf.conflictIds.eq_of_key hd hc hid] at hde hdf
    exact hkey ⟨hde, hdf⟩

/-! ## Merging -/

section Merge

variable {call : MergeCall} {s₃ s₄ : Db}

theorem Merged.findActive_other (hwf : s.WellFormed) (h : Merged s s' call s₃ s₄) {e : Uuid}
    (hsource : e ≠ call.sourceEventId) (htarget : e ≠ call.targetEventId) (f : String) :
    s'.findActiveByEventField e f = s.findActiveByEventField e f := by
  have hkeep := keepsClaim_absorbed (s.transferPairs call)
  apply findActive_of_map (h.claims hwf)
  · intro k _
    exact ⟨hkeep.eventId k, hkeep.fieldName k⟩
  · intro k hk hke _
    exact absorbed_other hwf hk (fun hx => hsource (hke.symm.trans hx.1))
  · intro k hk hke _
    obtain ⟨p, hp, rfl⟩ := List.mem_map.mp hk
    exact htarget hke.symm

theorem Merged.winnersActive (hwf : s.WellFormed) (h : Merged s s' call s₃ s₄)
    (hP : s.WinnersActive) : s'.WinnersActive := by
  intro d hd hres hlive
  rw [h.isMerged hwf, not_or] at hlive
  rcases h.resolved_origin hwf hd hres with hev | hold
  · exact absurd hev hlive.1
  · obtain ⟨k, hk, hwin, hactive⟩ := hP d hold hres hlive.2
    obtain ⟨x, hx, hxid, hxe, -⟩ := hwf.winner hold hwin
    rw [hwf.claimIds.eq_of_key hx hk hxid] at hxe
    refine ⟨k, (h.mem_claims hwf).mpr (Or.inl ⟨hk, ?_⟩), hwin, hactive⟩
    intro hsource
    exact hlive.1 (hxe.symm.trans hsource.1)

theorem Merged.contestedFlagged (hwf : s.WellFormed) (h : Merged s s' call s₃ s₄)
    (hP : s.ContestedFlagged) : s'.ContestedFlagged := by
  intro e f hlive hcon
  have hclaims : s'.claims = s₃.claims := by
    obtain ⟨reviews, rfl⟩ := h.finished
    exact h.detected.only.claims
  by_cases htarget : e = call.targetEventId
  · have hcon₃ : s₃.Contested e f := by
      refine (contested_congr ?_).mp hcon
      unfold findActiveByEventField
      rw [hclaims]
    rw [htarget] at hcon₃
    obtain ⟨c, hc, hce, hcf, -, -⟩ :=
      h.detected.opened f (Session.mem_contestedFields.mpr hcon₃)
    exact ⟨c, h.conflicts_eq ▸ hc, hce.trans htarget.symm, hcf⟩
  · rw [h.isMerged hwf, not_or] at hlive
    have hcon' := (contested_congr (h.findActive_other hwf hlive.1 htarget f)).mp hcon
    obtain ⟨c, hc, hce, hcf⟩ := hP e f hlive.2 hcon'
    exact ⟨c, h.row_persists hwf hc (hce ▸ hlive.1) (hce ▸ htarget), hce, hcf⟩

end Merge

/-! ## Every run -/

theorem Change.guarded (hI : s.Inv) (h : Change s s') (hP : s.Guarded) : s'.Guarded := by
  cases h with
  | upkeep h =>
      obtain ⟨ps, hs, os, rs, rfl⟩ := h
      exact ⟨hP.winners, hP.flagged⟩
  | ingested h => exact ⟨h.winnersActive hI hP.winners, h.contestedFlagged hI hP.flagged⟩
  | resolved h =>
      exact ⟨h.winnersActive hI.wf hP.winners, contestedFlagged_of_row hI.wf h.mem
        keepsConflict_resolvedByUser.bumped h.conflicts h.events
        (fun _ _ hne => h.findActive_other hI.wf hne) hP.flagged⟩
  | merged h => exact ⟨h.winnersActive hI.wf hP.winners, h.contestedFlagged hI.wf hP.flagged⟩

theorem Reopened.guarded {call : ReopenCall} {c : ClaimConflict} (hI : s.Inv)
    (h : Reopened s s' call c) (hP : s.Guarded) : s'.Guarded :=
  ⟨h.winnersActive hI.wf hP.winners, contestedFlagged_of_row hI.wf h.mem
    (keepsConflict_reopenedByUser call).bumped h.conflicts h.events
    (fun _ _ hne => h.findActive_other hI.wf hne) hP.flagged⟩

end Detect

end Db

section Runs

variable [PyText]

theorem Reachable.guarded {s : Db} (h : Reachable s) : s.Guarded :=
  (reachable_rule Db.guarded_empty (fun _ _ hI hP h => h.guarded hI hP)
    (fun _ _ _ _ hI hP h => h.guarded hI hP) h).2

omit [PyText] in
/-- The latest RESOLVED conflict of a field is its conflict row. -/
theorem latestResolved_row {s : Db} (hwf : s.WellFormed) {e : Uuid} {f : String}
    {c : ClaimConflict} (hc : c ∈ s.conflicts) (hce : c.eventId = e) (hcf : c.fieldName = f)
    (hres : c.status = .resolved) :
    latestResolved ((s.findConflictsByEvent e).filter fun d => d.eventId = e) f = some c := by
  have hmem : ∀ d, d ∈ (s.findConflictsByEvent e).filter (fun d => d.eventId = e) ↔
      d ∈ s.conflicts ∧ d.eventId = e := by
    intro d
    simp [Db.findConflictsByEvent, List.mem_insertionSort]
  cases hlatest : latestResolved ((s.findConflictsByEvent e).filter fun d => d.eventId = e) f with
  | none => exact absurd hres (latestResolved_none hlatest c ((hmem c).mpr ⟨hc, hce⟩) hcf)
  | some r =>
      obtain ⟨hr, -, hrf⟩ := latestResolved_some hlatest
      obtain ⟨hr, hre⟩ := (hmem r).mp hr
      rw [hwf.row_eq hr hc (hre.trans hce.symm) (hrf.trans hcf.symm)]

/-- All the claims come from one source. -/
def SingleSource (claims : List Claim) : Prop :=
  ∀ a ∈ claims, ∀ b ∈ claims, a.sourceId = b.sourceId

/-- **A disputed field is actionable, or one source disagrees with itself.**  On
an unmerged event a field that the projection marks disputed has an OPEN
conflict, unless all its active claims come from one source. -/
theorem disputed_field_open_or_single_source {s : Db} (hs : Reachable s) {e : Uuid} {f : String}
    (hlive : ¬ s.IsMerged e) {version : Nat} {now : Time}
    (hdisputed : f ∈ (s.buildFrom e version now).unresolvedConflictFields) :
    (∃ c ∈ s.conflicts, c.eventId = e ∧ c.fieldName = f ∧ c.status = .open) ∨
      SingleSource (s.findActiveByEventField e f) := by
  have hwf := hs.inv.wf
  rcases projectField_disputed (mem_unresolvedConflictFields hdisputed) with
    ⟨c, hc, hce, hopen, hcf⟩ | ⟨hdis, hnone⟩
  · have hmem := (List.mem_insertionSort _).mp hc
    exact Or.inl ⟨c, (List.mem_filter.mp hmem).1, hce, hcf, hopen⟩
  · rw [Db.fieldGroup_findActiveByEvent] at hdis hnone
    by_cases hmulti : MultiSource (s.findActiveByEventField e f)
    · left
      obtain ⟨c, hc, hce, hcf⟩ := hs.guarded.flagged e f hlive ⟨hdis, hmulti⟩
      refine ⟨c, hc, hce, hcf, ?_⟩
      cases hst : c.status with
      | «open» => rfl
      | resolved =>
          -- the projection would take the active winner's value
          exfalso
          obtain ⟨k, hk, hwin, hactive⟩ := hs.guarded.winners c hc hst (hce ▸ hlive)
          obtain ⟨x, hx, hxid, hxe, hxf⟩ := hwf.winner hc hwin
          rw [hwf.claimIds.eq_of_key hx hk hxid] at hxe hxf
          rw [latestResolved_row hwf hc hce hcf hst] at hnone
          simp only [resolvedWinner, Option.bind_some, hwin, List.find?_eq_none] at hnone
          have hmem : k ∈ s.findActiveByEventField e f :=
            Db.mem_findActiveByEventField.mpr ⟨hk, hxe.trans hce, hxf.trans hcf, hactive⟩
          have := hnone k hmem
          simp at this
    · right
      intro a ha b hb
      by_contra hne
      exact hmulti ⟨a, ha, b, hb, hne⟩

end Runs

/-- One source reports two records about one event, with different values. -/
def twoRecordsOneSource : List Op :=
  [operatorReport 0 100 none (some "r1") 1 1, operatorReport 0 101 (some 5) (some "r2") 2 2]

theorem disputed_field_open_or_single_source_two_records :
    (∃ c ∈ (after fourSources twoRecordsOneSource).conflicts, c.eventId = 5 ∧
        c.fieldName = "operator" ∧ c.status = .open) ∨
      SingleSource ((after fourSources twoRecordsOneSource).findActiveByEventField 5 "operator") := by
  have hdisputed : "operator" ∈ ((after fourSources twoRecordsOneSource).buildFrom 5 1
      3).unresolvedConflictFields := by decide +kernel
  exact disputed_field_open_or_single_source ⟨fourSources, twoRecordsOneSource, rfl⟩
    (by decide +kernel) hdisputed

/-- A disputed field without any conflict. -/
theorem single_source_dispute_has_no_conflict :
    ¬ ∀ sources ops e f version now, ¬ (after sources ops).IsMerged e →
      f ∈ ((after sources ops).buildFrom e version now).unresolvedConflictFields →
      ∃ c ∈ (after sources ops).conflicts, c.eventId = e ∧ c.fieldName = f ∧ c.status = .open := by
  intro h
  have hnone : (after fourSources twoRecordsOneSource).conflicts = [] := by decide +kernel
  obtain ⟨c, hc, -⟩ := h fourSources twoRecordsOneSource 5 "operator" 1 3 (by decide +kernel)
    (by decide +kernel)
  rw [hnone] at hc
  cases hc

end Atlas
