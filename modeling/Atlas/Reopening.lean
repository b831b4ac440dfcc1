import Atlas.Evolution

/-!
# Reopening after a resolution

Reopening should undo the resolution: reactivate the claims that it superseded
and whose source has not spoken since.  The code reactivates the linked claims
that point at the *current* winner.  The two agree exactly when the winner is
still the one that the resolution chose, no linked claim pointed at it before,
and no loser's source has submitted a value since.
-/

namespace Atlas

open Outcome Rows

namespace Db

/-! ## What ingestions keep -/

/-- What a run of ingestions keeps of the store `s` in which the conflict `c` was
resolved. -/
structure Kept (s t : Db) (c : ClaimConflict) : Prop where
  inv : t.Inv
  nextId : s.nextId ≤ t.nextId
  /-- Claims stay, inactive ones as they were. -/
  old : ∀ k ∈ s.claims, ∃ k' ∈ t.claims, k'.id = k.id ∧ k'.sourceId = k.sourceId ∧
    (k.isActive = false → k' = k)
  /-- A claim that points at an old claim was there and points at it already. -/
  pointers : ∀ k ∈ t.claims, ∀ b, k.supersededBy = some b → b < s.nextId → k ∈ s.claims
  links : ∀ l ∈ s.conflictClaims, l ∈ t.conflictClaims
  /-- Claims that were inactive are not linked to the conflict later. -/
  newLinks : ∀ k ∈ s.claims, k.isActive = false → (c.id, k.id) ∈ t.conflictClaims →
    (c.id, k.id) ∈ s.conflictClaims
  restored : ∀ k ∈ s.claims, k.isActive = false → t.restoredType k.id = s.restoredType k.id
  row : ∀ d ∈ t.conflicts, d.id = c.id → d.eventId = c.eventId ∧ d.fieldName = c.fieldName
  /-- The winner stays, or it superseded a linked claim that was not inactive. -/
  winner : ∀ d ∈ t.conflicts, d.id = c.id → d.winningClaimId = c.winningClaimId ∨
    ∃ b, d.winningClaimId = some b ∧ ∃ k ∈ t.claims, k.supersededBy = some b ∧
      (c.id, k.id) ∈ t.conflictClaims ∧ ∀ k₁ ∈ s.claims, k₁.id = k.id → k₁.isActive = true
  /-- On a merged event the winner is the only claim that can be active. -/
  alone : t.IsMerged c.eventId → ∀ k ∈ t.claims, k.isActive = true → k.eventId = c.eventId →
    k.fieldName = c.fieldName → c.winningClaimId = some k.id

/-- The conflict is RESOLVED. -/
def IsResolved (conflictId : Uuid) (s : Db) : Prop :=
  ∃ c ∈ s.conflicts, c.id = conflictId ∧ c.status = .resolved

instance (conflictId : Uuid) (s : Db) : Decidable (IsResolved conflictId s) := by
  unfold IsResolved
  infer_instance

section Kept

variable [PyText] {s t t' : Db} {c : ClaimConflict} {call : IngestCall} {sub : Submission}
  {s₀ s₁ s₂ s₃ : Db} {w : ClaimWriteResult}

omit [PyText] in
/-- A claim that an ingestion supersedes was not inactive in the beginning. -/
theorem Kept.not_inactive (hK : Kept s t c) {k : Claim} (hk : k ∈ t.claims)
    (hactive : k.isActive = true) : ∀ k₁ ∈ s.claims, k₁.id = k.id → k₁.isActive = true := by
  intro k₁ hk₁ hid
  by_contra hcon
  obtain ⟨k', hk', hid', -, hsame⟩ := hK.old k₁ hk₁
  have hkk := hsame (by simpa using hcon)
  rw [hkk] at hk'
  rw [hK.inv.wf.claimIds.eq_of_key hk' hk hid] at hcon
  exact hcon hactive

/-- The winner after one more ingestion. -/
theorem Kept.winner_step (hK : Kept s t c) (h : Ingested t t' call sub s₀ w s₁ s₂ s₃)
    (hres : IsResolved c.id t) {d' : ClaimConflict} (hd' : d' ∈ t'.conflicts)
    (hid' : d'.id = c.id) (hres' : d'.status = .resolved) :
    (d'.eventId = c.eventId ∧ d'.fieldName = c.fieldName) ∧
      (d'.winningClaimId = c.winningClaimId ∨
        ∃ b, d'.winningClaimId = some b ∧ ∃ k ∈ t'.claims, k.supersededBy = some b ∧
          (c.id, k.id) ∈ t'.conflictClaims ∧
          ∀ k₁ ∈ s.claims, k₁.id = k.id → k₁.isActive = true) := by
  have hwf := hK.inv.wf
  obtain ⟨d, hd, hid, hdres⟩ := hres
  obtain ⟨hev, hfn⟩ := hK.row d hd hid
  obtain ⟨⟨hev', hfn'⟩, hwin⟩ := h.winner_after hwf hd hdres hd' hres' (hid'.trans hid.symm)
  refine ⟨⟨hev'.trans hev, hfn'.trans hfn⟩, ?_⟩
  rcases hwin with hsame | ⟨k, hk, n, hdwin, hnew, hke, hkf, ⟨x, hx, hxwin⟩, hrep⟩
  · rw [hsame]
    rcases hK.winner d hd hid with hstay | ⟨b, hb, k, hk, hkb, hlink, hnot⟩
    · exact Or.inl hstay
    · -- the claim behind the moved winner is inactive, so it stays as it is
      right
      refine ⟨b, hb, k, ?_, hkb, h.links_kept hlink, hnot⟩
      apply h.claim_kept hwf hk
      intro hsup
      have hinactive := (hwf.superseded k hk).mpr (by rw [hkb]; simp)
      rw [((h.mem_superseded hwf).mp hsup).2.1] at hinactive
      cases hinactive
  · obtain ⟨hkmem, hkactive, hkrep, -⟩ := (h.mem_superseded hwf).mp hk
    right
    by_cases hmerged : t.IsMerged c.eventId
    · -- no other claim of a merged event is active, so no winner takes over
      exfalso
      obtain ⟨hxmem, hxe, hxf, hxactive⟩ := mem_findActiveByEventField.mp hx
      rw [← h.claims_eq.1] at hxmem
      have hxold : x ∈ t.claims := by
        rcases h.claim_before hwf hxmem with hold | ⟨y, -, -, m, -, rfl⟩ | ⟨-, -, -, hxsub⟩
        · exact hold
        · cases hxactive
        · rw [hxe, hev] at hxsub
          rw [← h.isMerged, hxsub] at hmerged
          exact absurd hmerged h.not_isMerged
      have hkwin := hK.alone hmerged k hkmem hkactive (hke.trans hev) (hkf.trans hfn)
      have hxwin := hK.alone hmerged x hxold hxactive (hxe.trans hev) (hxf.trans hfn)
      have hxk := hwf.claimIds.eq_of_key hxold hkmem
        (Option.some.inj (hxwin.symm.trans hkwin))
      rcases h.claim_after hwf hkmem with ⟨-, hnot⟩ | ⟨-, m, -, -, -, hrow⟩
      · exact hnot hk
      · have hsame := h.wellFormed.claimIds.eq_of_key hxmem hrow (by rw [hxk]; rfl)
        rw [hsame] at hxactive
        cases hxactive
    · have hksub := h.replaced_event hK.inv hkmem hkrep (by rw [hke, hev]; exact hmerged)
      obtain ⟨hn, hnf⟩ := newClaimOf_some hnew
      have hnactive := h.replacement_active hn (hke.symm.trans hksub) (hnf.trans hkf)
      rcases h.claim_after hwf hkmem with ⟨-, hnot⟩ | ⟨-, m, hm, -, hmnew, hrow⟩
      · exact absurd hk hnot
      · have hmn : m = n := Option.some.inj (hmnew.symm.trans hnew)
        rw [hmn] at hrow
        refine ⟨n.id, hrep hnactive, _, hrow, rfl, ?_, ?_⟩
        · have hlink := hwf.winnerLinked d hd k.id hdwin
          rw [hid] at hlink
          exact h.links_kept hlink
        · intro k₁ hk₁ hk₁id
          exact hK.not_inactive hkmem hkactive k₁ hk₁ hk₁id

/-- **One more ingestion** that leaves the conflict RESOLVED. -/
theorem Kept.step (hK : Kept s t c) (h : Ingested t t' call sub s₀ w s₁ s₂ s₃)
    (hres : IsResolved c.id t) (hres' : IsResolved c.id t') : Kept s t' c := by
  have hwf := hK.inv.wf
  have hwf' := h.wellFormed
  -- the row of the conflict is RESOLVED
  have hstatus : ∀ d ∈ t'.conflicts, d.id = c.id → d.status = .resolved := by
    intro d hd hid
    obtain ⟨x, hx, hxid, hxres⟩ := hres'
    rw [hwf'.conflictIds.eq_of_key hd hx (hid.trans hxid.symm)]
    exact hxres
  have hinactive : ∀ k ∈ s.claims, k.isActive = false → k ∈ t.claims ∧ k ∈ t'.claims := by
    intro k hk hk0
    obtain ⟨k', hk', -, -, hsame⟩ := hK.old k hk
    rw [hsame hk0] at hk'
    refine ⟨hk', h.claim_kept hwf hk' ?_⟩
    intro hsup
    rw [((h.mem_superseded hwf).mp hsup).2.1] at hk0
    cases hk0
  constructor
  case inv => exact ⟨hwf', h.rooted hwf hK.inv.rooted⟩
  case nextId => exact le_trans hK.nextId (Nat.le_of_lt h.nextId_lt)
  case old =>
    intro k hk
    obtain ⟨k', hk', hid, hsrc, -⟩ := hK.old k hk
    rcases h.claim_after hwf hk' with ⟨hkept, -⟩ | ⟨hsup, n, -, -, -, hrow⟩
    · exact ⟨k', hkept, hid, hsrc, fun hk0 => hwf'.claimIds.eq_of_key hkept
        (hinactive k hk hk0).2 hid⟩
    · exact ⟨_, hrow, hid, hsrc, fun hk0 => hwf'.claimIds.eq_of_key hrow
        (hinactive k hk hk0).2 hid⟩
  case pointers =>
    intro k hk b hkb hlt
    rcases h.claim_before hwf hk with hold | ⟨y, -, -, m, hm, rfl⟩ | ⟨-, -, hnone, -⟩
    · exact hK.pointers k hold b hkb hlt
    · simp only [supersedeRow, Option.some.injEq] at hkb
      rw [← hkb] at hlt
      exact absurd (lt_of_lt_of_le hlt hK.nextId) (Nat.not_lt_of_le hm)
    · rw [hnone] at hkb
      cases hkb
  case links => exact fun l hl => h.links_kept (hK.links l hl)
  case newLinks =>
    intro k hk hk0 hl
    rcases h.links_new hl with hl | ⟨d, hd, hid, hopen⟩ | ⟨x, hx, hxid, hxactive⟩
    · exact hK.newLinks k hk hk0 hl
    · rw [hstatus d hd hid] at hopen
      cases hopen
    · rw [hwf'.claimIds.eq_of_key hx (hinactive k hk hk0).2 hxid, hk0] at hxactive
      cases hxactive
  case restored =>
    intro k hk hk0
    rw [h.restoredType hwf (hinactive k hk hk0).1 hk0]
    exact hK.restored k hk hk0
  case row =>
    intro d hd hid
    exact (hK.winner_step h hres hd hid (hstatus d hd hid)).1
  case winner =>
    intro d hd hid
    exact (hK.winner_step h hres hd hid (hstatus d hd hid)).2
  case alone =>
    intro hmerged k hk hactive hke hkf
    rcases h.active_origin hwf hk hactive with ⟨hold, -⟩ | hnew
    · exact hK.alone ((h.isMerged _).mp hmerged) k hold hactive hke hkf
    · obtain ⟨-, item, -, heq⟩ := h.written.news k hnew
      have hksub : k.eventId = sub.eventId := by rw [heq]; rfl
      rw [← hke, hksub] at hmerged
      exact absurd hmerged h.not_isMerged

/-- **Any number of ingestions** that leave the conflict RESOLVED. -/
theorem kept_run (calls : List IngestCall) (hK : Kept s t c)
    (hres : Runs.EveryState step (IsResolved c.id) t (calls.map .ingest)) :
    Kept s (Runs.run step t (calls.map .ingest)) c := by
  induction calls generalizing t with
  | nil => exact hK
  | cons call calls ih =>
      rw [List.map_cons, Runs.EveryState.cons] at hres
      obtain ⟨hres₀, hrest⟩ := hres
      have hres₁ : IsResolved c.id (Atlas.step t (.ingest call)) := hrest [] List.nil_prefix
      rw [List.map_cons, Runs.run_cons]
      refine ih ?_ hrest
      rcases step_cases t (.ingest call) with h | ⟨-, h⟩
      · simp only [Op.run, bind_ok, pure_ok] at h
        obtain ⟨⟨result, t'⟩, hrun, heq⟩ := h
        rw [← heq] at hres₁ ⊢
        rcases ingest_cases hK.inv.wf hrun with hreplay | ⟨sub, s₀, w, s₁, s₂, s₃, hing⟩
        · simp only at hreplay ⊢
          rw [hreplay]
          exact hK
        · exact hK.step hing hres₀ hres₁
      · rw [h]
        exact hK

end Kept

/-! ## The store a resolution leaves -/

section Resolve

variable {s s' : Db} {call : ResolveCall} {c u : ClaimConflict} {winner : Uuid} {sw : Db}

theorem Resolved.mem_row (hwf : s.WellFormed) (h : Resolved s s' call c winner sw u) :
    u ∈ s'.conflicts := by
  rw [h.row]
  exact (mem_rewritten_row hwf h.mem h.conflicts).mpr (Or.inl rfl)

theorem Resolved.row_id (h : Resolved s s' call c winner sw u) : u.id = c.id := by
  rw [h.row]
  rfl

theorem Resolved.row_winner (h : Resolved s s' call c winner sw u) :
    u.winningClaimId = some winner := by
  rw [h.row]
  rfl

/-- The winner is an active claim after the resolution. -/
theorem Resolved.winner_active (hwf : s.WellFormed) (h : Resolved s s' call c winner sw u) :
    ∃ k ∈ s'.claims, k.id = winner ∧ k.isActive = true := by
  obtain ⟨-, -, -, k, hk, hid, hactive, -⟩ := h.chosen.spec hwf h.mem
  exact ⟨k, h.claim_kept hwf hk (fun hl => hl.2.1 hid), hid, hactive⟩

/-- The claims that lose a resolution, read off the store before it. -/
def Loses (s : Db) (u : ClaimConflict) (k : Claim) : Prop :=
  (u.id, k.id) ∈ s.conflictClaims ∧ k.isActive = true ∧ u.winningClaimId ≠ some k.id

theorem Resolved.isLoser_iff (h : Resolved s s' call c winner sw u) {k : Claim} :
    sw.IsLoser c winner k ↔ s.Loses u k := by
  unfold IsLoser Loses
  rw [h.row_winner, h.row_id, h.chosen.links]
  constructor
  · intro hl
    obtain ⟨hlink, hne, hactive⟩ := hl
    refine ⟨?_, hactive, fun heq => hne (Option.some.inj heq).symm⟩
    rcases hlink with hlink | hlink
    · exact hlink
    · exact absurd (Prod.mk.inj hlink).2 hne
  · intro hl
    obtain ⟨hlink, hactive, hne⟩ := hl
    exact ⟨Or.inl hlink, fun heq => hne (by rw [heq]), hactive⟩

/-- The claims that point at the winner and are linked after a resolution: the
losers, and those that pointed at it before. -/
theorem Resolved.points_iff (hwf : s.WellFormed) (h : Resolved s s' call c winner sw u)
    {k : Claim} : (k ∈ s'.claims ∧ k.supersededBy = some winner ∧
        (u.id, k.id) ∈ s'.conflictClaims) ↔
      ∃ k₀ ∈ s.claims, (s.Loses u k₀ ∧ k = supersedeRow winner k₀) ∨
        (k = k₀ ∧ k₀.supersededBy = some winner ∧ (u.id, k₀.id) ∈ s.conflictClaims) := by
  have hwf' := h.wellFormed hwf
  constructor
  · intro hall
    obtain ⟨hk, hkb, hlink⟩ := hall
    have hne : k.id ≠ winner := by
      intro hid
      obtain ⟨x, hx, hxid, hxactive⟩ := h.winner_active hwf
      rw [hwf'.claimIds.eq_of_key hx hk (hxid.trans hid.symm)] at hxactive
      have hinactive := (hwf'.superseded k hk).mpr (by rw [hkb]; simp)
      rw [hxactive] at hinactive
      cases hinactive
    have hlink₀ : (u.id, k.id) ∈ s.conflictClaims := by
      rcases h.links.mp hlink with hl | hl
      · exact hl
      · exact absurd (Prod.mk.inj hl).2 hne
    rw [h.claims hwf] at hk
    obtain ⟨x, hx, hxk⟩ := mem_updateWhere.mp hk
    have hxid : x.id = k.id := by
      rw [← hxk]
      split <;> rfl
    have hxold : x ∈ s.claims := by
      rcases h.chosen.claims with hsw | ⟨hfresh, hsw⟩
      · exact hsw ▸ hx
      · rw [hsw] at hx
        rcases List.mem_append.mp hx with hx | hx
        · exact hx
        · rw [List.mem_singleton.mp hx] at hxid
          exact absurd (hxid.symm.trans hfresh.symm) hne
    refine ⟨x, hxold, ?_⟩
    by_cases hloser : sw.IsLoser c winner x
    · rw [if_pos (by simpa using hloser)] at hxk
      exact Or.inl ⟨h.isLoser_iff.mp hloser, hxk.symm⟩
    · rw [if_neg (by simpa using hloser)] at hxk
      rw [hxk]
      exact Or.inr ⟨rfl, hkb, hlink₀⟩
  · intro hex
    obtain ⟨k₀, hk₀, ⟨hlose, rfl⟩ | ⟨rfl, hkb, hlink⟩⟩ := hex
    · refine ⟨?_, rfl, h.links.mpr (Or.inl hlose.1)⟩
      rw [h.claims hwf]
      exact mem_updateWhere.mpr ⟨k₀, h.mem_chosen hk₀,
        if_pos (by simpa using h.isLoser_iff.mpr hlose)⟩
    · refine ⟨?_, hkb, h.links.mpr (Or.inl hlink)⟩
      apply h.claim_kept hwf (h.mem_chosen hk₀)
      intro hloser
      have hinactive := (hwf.superseded k hk₀).mpr (by rw [hkb]; simp)
      rw [hloser.2.2] at hinactive
      cases hinactive

/-- The type a loser had is the one that reactivating it restores. -/
theorem Resolved.restoredType (hwf : s.WellFormed) (h : Resolved s s' call c winner sw u)
    {k : Claim} (hk : k ∈ s.claims) (hlose : s.Loses u k) :
    s'.restoredType k.id = k.claimType := by
  obtain ⟨losing, hhist, hmem⟩ := h.history hwf
  have hkl : k ∈ losing := (hmem k).mpr ⟨h.mem_chosen hk, h.isLoser_iff.mpr hlose⟩
  -- the last superseding row of the claim is the one the resolution wrote
  have hfind : ∃ r, (s'.claimHistory.reverse.find? fun r => r.claimId = k.id ∧
      r.toClaimType = .superseded) = some r ∧ r.fromClaimType = some k.claimType := by
    rw [hhist, List.reverse_append, List.find?_append]
    cases hf : (losing.map (losingHistory call)).reverse.find? fun r =>
        decide (r.claimId = k.id ∧ r.toClaimType = .superseded) with
    | none =>
        rw [List.find?_eq_none] at hf
        have := hf (losingHistory call k) (List.mem_reverse.mpr (List.mem_map_of_mem hkl))
        simp [losingHistory] at this
    | some r =>
        refine ⟨r, by simp, ?_⟩
        obtain ⟨x, hx, rfl⟩ := List.mem_map.mp
          (List.mem_reverse.mp (List.mem_of_find?_eq_some hf))
        have hcond := List.find?_some hf
        simp only [losingHistory, decide_eq_true_eq] at hcond
        rw [(h.wfWinner hwf).claimIds.eq_of_key ((hmem x).mp hx).1 (h.mem_chosen hk) hcond.1]
        rfl
  obtain ⟨r, hr, hfrom⟩ := hfind
  have hactive := hlose.2.1
  unfold Db.restoredType
  rw [hr]
  simp only [hfrom]
  cases hct : k.claimType with
  | superseded => simp [Claim.isActive, hct, ClaimType.isActive] at hactive
  | raw => rfl
  | confirmed => rfl
  | manualOverride => rfl

/-- A resolution of a conflict on a merged event leaves its winner alone there. -/
theorem Resolved.kept (hI' : s'.Inv) (hwf : s.WellFormed) (hlinked : s.MergedLinked)
    (h : Resolved s s' call c winner sw u) : Kept s' s' u := by
  constructor
  case inv => exact hI'
  case nextId => exact le_refl _
  case old => exact fun k hk => ⟨k, hk, rfl, rfl, fun _ => rfl⟩
  case pointers => exact fun k hk _ _ _ => hk
  case links => exact fun l hl => hl
  case newLinks => exact fun _ _ _ hl => hl
  case restored => exact fun _ _ _ => rfl
  case row =>
    intro d hd hid
    rw [hI'.wf.conflictIds.eq_of_key hd (h.mem_row hwf) hid]
    exact ⟨rfl, rfl⟩
  case winner =>
    intro d hd hid
    rw [hI'.wf.conflictIds.eq_of_key hd (h.mem_row hwf) hid]
    exact Or.inl rfl
  case alone =>
    intro hmerged k hk hactive hke hkf
    have hevidence : s.EvidenceLinked call.conflictId := by
      intro d hd hid x hx hxe hxf hxactive
      have hdc := hwf.conflictIds.eq_of_key hd h.mem (hid.trans h.id.symm)
      have hm : s.IsMerged x.eventId := by
        rw [isMerged_congr h.events] at hmerged
        rw [hxe, hdc]
        rwa [h.row] at hmerged
      obtain ⟨i, hi⟩ := hlinked x hx hxactive hm
      obtain ⟨y, hy, hyi, z, hz, hzx, hze, hzf⟩ := hwf.linkRef _ hi
      rw [hwf.claimIds.eq_of_key hz hx hzx] at hze hzf
      rw [← hwf.row_eq hy hd (hze.symm.trans hxe) (hzf.symm.trans hxf), hyi]
      exact hi
    have honly := (h.winnerOnly_iff hwf).mpr hevidence
    have hmem := List.mem_map_of_mem (f := fun k : Claim => some k.id)
      (mem_findActiveByEventField.mpr ⟨hk, hke, hkf, hactive⟩)
    rw [honly, List.mem_singleton] at hmem
    exact hmem.symm

end Resolve

/-! ## Undoing a resolution -/

/-- The claim was active before the resolution and is not after it. -/
def SupersededBetween (s₀ s₁ : Db) (id : Uuid) : Prop :=
  ∃ k₀ ∈ s₀.claims, ∃ k₁ ∈ s₁.claims, k₀.id = id ∧ k₁.id = id ∧ k₀.isActive = true ∧
    k₁.isActive = false

/-- The claim's source has since submitted a newer value for its field. -/
def SubmittedSince (s₁ s₂ : Db) (k : Claim) : Prop :=
  ∃ n ∈ s₂.claims, (∀ x ∈ s₁.claims, x.id ≠ n.id) ∧ n.sourceId = k.sourceId ∧
    n.eventId = k.eventId ∧ n.fieldName = k.fieldName

/-- **The resolution from `s₀` to `s₁` is undone** by the reopening from `s₂` to
`s₃`: it reactivates exactly the claims that the resolution superseded and whose
source has not submitted since, with their types, and changes no other claim's
activity. -/
structure ResolutionUndone (s₀ s₁ s₂ s₃ : Db) : Prop where
  ids : s₃.claims.map Claim.id = s₂.claims.map Claim.id
  revived : ∀ k₂ ∈ s₂.claims, ∀ k₃ ∈ s₃.claims, k₃.id = k₂.id → k₂.isActive = false →
    (k₃.isActive = true ↔ SupersededBetween s₀ s₁ k₂.id ∧ ¬ SubmittedSince s₁ s₂ k₂)
  typed : ∀ k₀ ∈ s₀.claims, ∀ k₂ ∈ s₂.claims, ∀ k₃ ∈ s₃.claims, k₂.id = k₀.id → k₃.id = k₀.id →
    k₂.isActive = false → k₃.isActive = true → k₃.claimType = k₀.claimType
  kept : ∀ k₂ ∈ s₂.claims, ∀ k₃ ∈ s₃.claims, k₃.id = k₂.id → k₂.isActive = true →
    k₃.isActive = true

/-- When reopening undoes the resolution that left the row `u`: the winner is
still the one chosen, no linked claim pointed at it before, and no loser's source
has submitted since. -/
structure Undoable (s₀ s₁ s₂ : Db) (u : ClaimConflict) : Prop where
  winnerStays : ∀ d ∈ s₂.conflicts, d.id = u.id → d.winningClaimId = u.winningClaimId
  noEarlier : ∀ k ∈ s₀.claims, (u.id, k.id) ∈ s₀.conflictClaims →
    k.supersededBy ≠ u.winningClaimId
  silent : ∀ k ∈ s₀.claims, s₀.Loses u k → ¬ SubmittedSince s₁ s₂ k

instance (s₀ s₁ : Db) (id : Uuid) : Decidable (SupersededBetween s₀ s₁ id) := by
  unfold SupersededBetween
  infer_instance

instance (s₁ s₂ : Db) (k : Claim) : Decidable (SubmittedSince s₁ s₂ k) := by
  unfold SubmittedSince
  infer_instance

instance (s : Db) (u : ClaimConflict) (k : Claim) : Decidable (s.Loses u k) := by
  unfold Loses
  infer_instance

instance (s₀ s₁ s₂ : Db) (u : ClaimConflict) : Decidable (Undoable s₀ s₁ s₂ u) :=
  decidable_of_iff
    ((∀ d ∈ s₂.conflicts, d.id = u.id → d.winningClaimId = u.winningClaimId) ∧
      (∀ k ∈ s₀.claims, (u.id, k.id) ∈ s₀.conflictClaims → k.supersededBy ≠ u.winningClaimId) ∧
      ∀ k ∈ s₀.claims, s₀.Loses u k → ¬ SubmittedSince s₁ s₂ k)
    ⟨fun h => ⟨h.1, h.2.1, h.2.2⟩, fun h => ⟨h.1, h.2, h.3⟩⟩

section Undo

variable {s₀ s₁ s₂ s₃ : Db} {call : ResolveCall} {c u d : ClaimConflict} {winner : Uuid} {sw : Db}
  {reopening : ReopenCall}

theorem Resolved.supersededBetween_iff (hwf : s₀.WellFormed)
    (h : Resolved s₀ s₁ call c winner sw u) {id : Uuid} :
    SupersededBetween s₀ s₁ id ↔ ∃ k ∈ s₀.claims, k.id = id ∧ s₀.Loses u k := by
  have hwf' := h.wellFormed hwf
  constructor
  · intro hsup
    obtain ⟨k₀, hk₀, k₁, hk₁, hid₀, hid₁, hactive, hinactive⟩ := hsup
    refine ⟨k₀, hk₀, hid₀, ?_⟩
    by_contra hnot
    have hkept := h.claim_kept hwf (h.mem_chosen hk₀) (fun hl => hnot (h.isLoser_iff.mp hl))
    rw [hwf'.claimIds.eq_of_key hk₁ hkept (hid₁.trans hid₀.symm), hactive] at hinactive
    cases hinactive
  · intro hlose
    obtain ⟨k, hk, hid, hlose⟩ := hlose
    obtain ⟨hk', -, -⟩ := (h.points_iff hwf).mpr ⟨k, hk, Or.inl ⟨hlose, rfl⟩⟩
    exact ⟨k, hk, _, hk', hid, hid, hlose.2.1, rfl⟩

/-- What a reopening reactivates while the winner is the one that was chosen. -/
theorem reactivated_iff (hwf : s₀.WellFormed) (h : Resolved s₀ s₁ call c winner sw u)
    (hK : Kept s₁ s₂ u) (hd : d ∈ s₂.conflicts) (hid : d.id = u.id)
    (hwin : d.winningClaimId = u.winningClaimId) {k : Claim} (hk : k ∈ s₂.claims) :
    s₂.Reactivated d k ↔ ∃ k₀ ∈ s₀.claims, (s₀.Loses u k₀ ∧ k = supersedeRow winner k₀) ∨
      (k = k₀ ∧ k₀.supersededBy = some winner ∧ (u.id, k₀.id) ∈ s₀.conflictClaims) := by
  have hwf₁ := h.wellFormed hwf
  rw [← h.points_iff hwf]
  unfold Reactivated
  rw [hwin, h.row_winner, hid]
  constructor
  · intro hr
    obtain ⟨⟨b, hb, hkb⟩, hlink, -, -⟩ := hr
    rw [← Option.some.inj hb] at hkb
    obtain ⟨x, hx, hxid, -⟩ := h.winner_active hwf
    have hlt : winner < s₁.nextId := hxid ▸ hwf₁.claim_lt x hx
    have hk₁ := hK.pointers k hk winner hkb hlt
    have hinactive := (hwf₁.superseded k hk₁).mpr (by rw [hkb]; simp)
    exact ⟨hk₁, hkb, hK.newLinks k hk₁ hinactive hlink⟩
  · intro hr
    obtain ⟨hk₁, hkb, hlink⟩ := hr
    have hlink' := hK.links _ hlink
    rw [← hid] at hlink'
    obtain ⟨hke, hkf⟩ := hK.inv.wf.link hd hk hlink'
    exact ⟨⟨winner, rfl, hkb⟩, hid ▸ hlink', hke, hkf⟩

/-- A claim that was inactive becomes active by a reopening exactly when it is
reactivated. -/
theorem Reopened.active_iff (hwf : s₂.WellFormed) (h : Reopened s₂ s₃ reopening d) {k k' : Claim}
    (hk : k ∈ s₂.claims) (hk' : k' ∈ s₃.claims) (hid : k'.id = k.id)
    (hinactive : k.isActive = false) : k'.isActive = true ↔ s₂.Reactivated d k := by
  obtain ⟨x, hx, ⟨hr, rfl⟩ | ⟨hr, rfl⟩⟩ := (h.mem_claims hwf).mp hk'
  · rw [← hwf.claimIds.eq_of_key hx hk hid]
    exact ⟨fun _ => hr, fun _ => restoredType_isActive s₂ x.id⟩
  · rw [hwf.claimIds.eq_of_key hx hk hid] at hr ⊢
    simp [hinactive, hr]

theorem Reopened.ids (h : Reopened s₂ s₃ reopening d) :
    s₃.claims.map Claim.id = s₂.claims.map Claim.id := by
  rw [h.claims]
  exact map_updateWhere Claim.id (keepsClaim_unsupersedeRow s₂).id

/-- **Where the condition holds the resolution is undone.** -/
theorem Undoable.undone (hwf : s₀.WellFormed) (h : Resolved s₀ s₁ call c winner sw u)
    (hK : Kept s₁ s₂ u) (hre : Reopened s₂ s₃ reopening d) (hid : d.id = u.id)
    (hU : Undoable s₀ s₁ s₂ u) : ResolutionUndone s₀ s₁ s₂ s₃ := by
  have hwf₂ := hK.inv.wf
  -- only losers are reactivated
  have hreact : ∀ k ∈ s₂.claims, s₂.Reactivated d k ↔
      ∃ k₀ ∈ s₀.claims, s₀.Loses u k₀ ∧ k = supersedeRow winner k₀ := by
    intro k hk
    rw [reactivated_iff hwf h hK hre.mem hid (hU.winnerStays d hre.mem hid) hk]
    constructor
    · intro hex
      obtain ⟨k₀, hk₀, hlose | ⟨-, hkb, hlink⟩⟩ := hex
      · exact ⟨k₀, hk₀, hlose⟩
      · rw [← h.row_winner] at hkb
        exact absurd hkb (hU.noEarlier k₀ hk₀ hlink)
    · intro hex
      obtain ⟨k₀, hk₀, hlose⟩ := hex
      exact ⟨k₀, hk₀, Or.inl hlose⟩
  constructor
  case ids => exact hre.ids
  case revived =>
    intro k₂ hk₂ k₃ hk₃ hk hinactive
    rw [hre.active_iff hwf₂ hk₂ hk₃ hk hinactive, hreact k₂ hk₂, h.supersededBetween_iff hwf]
    constructor
    · intro hex
      obtain ⟨k₀, hk₀, hlose, rfl⟩ := hex
      exact ⟨⟨k₀, hk₀, rfl, hlose⟩, hU.silent k₀ hk₀ hlose⟩
    · intro hex
      obtain ⟨⟨k₀, hk₀, hid₀, hlose⟩, -⟩ := hex
      refine ⟨k₀, hk₀, hlose, ?_⟩
      -- the loser's row stayed as the resolution left it
      obtain ⟨hk₁, -, -⟩ := (h.points_iff hwf).mpr ⟨k₀, hk₀, Or.inl ⟨hlose, rfl⟩⟩
      obtain ⟨x, hx, hxid, -, hsame⟩ := hK.old _ hk₁
      rw [hsame rfl] at hx
      exact hwf₂.claimIds.eq_of_key hk₂ hx hid₀.symm
  case typed =>
    intro k₀ hk₀ k₂ hk₂ k₃ hk₃ hid₂ hid₃ hinactive hactive
    have hid₃₂ : k₃.id = k₂.id := hid₃.trans hid₂.symm
    have hr := (hre.active_iff hwf₂ hk₂ hk₃ hid₃₂ hinactive).mp hactive
    obtain ⟨x, hx, hlose, rfl⟩ := (hreact k₂ hk₂).mp hr
    have hxk := hwf.claimIds.eq_of_key hx hk₀ hid₂
    obtain ⟨hk₁, -, -⟩ := (h.points_iff hwf).mpr ⟨x, hx, Or.inl ⟨hlose, rfl⟩⟩
    have hrow : k₃ = s₂.unsupersedeRow (supersedeRow winner x) :=
      (hre.wellFormed hwf₂).claimIds.eq_of_key hk₃
        ((hre.mem_claims hwf₂).mpr ⟨_, hk₂, Or.inl ⟨hr, rfl⟩⟩) hid₃₂
    have hrestored : s₂.restoredType (supersedeRow winner x).id =
        s₁.restoredType (supersedeRow winner x).id := hK.restored _ hk₁ rfl
    calc k₃.claimType = s₂.restoredType x.id := by rw [hrow]; rfl
      _ = s₁.restoredType x.id := hrestored
      _ = k₀.claimType := by rw [h.restoredType hwf hx hlose, hxk]
  case kept =>
    intro k₂ hk₂ k₃ hk₃ hk hactive
    obtain ⟨x, hx, ⟨-, rfl⟩ | ⟨-, rfl⟩⟩ := (hre.mem_claims hwf₂).mp hk₃
    · exact restoredType_isActive s₂ x.id
    · rw [hwf₂.claimIds.eq_of_key hx hk₂ hk]
      exact hactive

/-- **Where the resolution is undone the condition holds.** -/
theorem ResolutionUndone.undoable (hwf : s₀.WellFormed) (h : Resolved s₀ s₁ call c winner sw u)
    (hK : Kept s₁ s₂ u) (hre : Reopened s₂ s₃ reopening d) (hid : d.id = u.id)
    (hQ : ResolutionUndone s₀ s₁ s₂ s₃) : Undoable s₀ s₁ s₂ u := by
  have hwf₂ := hK.inv.wf
  -- a reactivated claim lost the resolution and its source is silent
  have hrevived : ∀ k ∈ s₂.claims, s₂.Reactivated d k →
      SupersededBetween s₀ s₁ k.id ∧ ¬ SubmittedSince s₁ s₂ k := by
    intro k hk hr
    have hinactive : k.isActive = false := by
      obtain ⟨⟨b, -, hkb⟩, -⟩ := hr
      exact (hwf₂.superseded k hk).mpr (by rw [hkb]; simp)
    have hk₃ := (hre.mem_claims hwf₂).mpr ⟨k, hk, Or.inl ⟨hr, rfl⟩⟩
    exact (hQ.revived k hk _ hk₃ rfl hinactive).mp (restoredType_isActive s₂ k.id)
  have hstays : d.winningClaimId = u.winningClaimId := by
    rcases hK.winner d hre.mem hid with hstay | ⟨b, hb, k, hk, hkb, hlink, hnot⟩
    · exact hstay
    · -- the claim behind the moved winner would be revived
      exfalso
      have hlink' : (d.id, k.id) ∈ s₂.conflictClaims := hid ▸ hlink
      obtain ⟨hke, hkf⟩ := hwf₂.link hre.mem hk hlink'
      obtain ⟨⟨k₀, -, k₁, hk₁, -, hid₁, -, hinactive⟩, -⟩ :=
        hrevived k hk ⟨⟨b, hb, hkb⟩, hlink', hke, hkf⟩
      rw [hnot k₁ hk₁ hid₁] at hinactive
      cases hinactive
  have hreact := fun k hk => reactivated_iff hwf h hK hre.mem hid hstays (k := k) hk
  -- claims that point at the winner after the resolution are there unchanged
  have hstill : ∀ k ∈ s₁.claims, k.isActive = false → k ∈ s₂.claims := by
    intro k hk hinactive
    obtain ⟨x, hx, -, -, hsame⟩ := hK.old k hk
    rw [hsame hinactive] at hx
    exact hx
  constructor
  case winnerStays =>
    intro x hx hxid
    rw [hwf₂.conflictIds.eq_of_key hx hre.mem (hxid.trans hid.symm)]
    exact hstays
  case noEarlier =>
    intro k hk hlink hkb
    rw [h.row_winner] at hkb
    have hpast : (s₀.Loses u k ∧ k = supersedeRow winner k) ∨
        (k = k ∧ k.supersededBy = some winner ∧ (u.id, k.id) ∈ s₀.conflictClaims) :=
      Or.inr ⟨rfl, hkb, hlink⟩
    obtain ⟨hk₁, -, -⟩ := (h.points_iff hwf).mpr ⟨k, hk, hpast⟩
    have hinactive := (hwf.superseded k hk).mpr (by rw [hkb]; simp)
    have hk₂ := hstill k hk₁ hinactive
    obtain ⟨⟨k₀, hk₀, -, -, hid₀, -, hactive, -⟩, -⟩ :=
      hrevived k hk₂ ((hreact k hk₂).mpr ⟨k, hk, hpast⟩)
    rw [hwf.claimIds.eq_of_key hk₀ hk hid₀, hinactive] at hactive
    cases hactive
  case silent =>
    intro k hk hlose
    obtain ⟨hk₁, -, -⟩ := (h.points_iff hwf).mpr ⟨k, hk, Or.inl ⟨hlose, rfl⟩⟩
    have hk₂ := hstill _ hk₁ rfl
    exact (hrevived _ hk₂ ((hreact _ hk₂).mpr ⟨k, hk, Or.inl ⟨hlose, rfl⟩⟩)).2

end Undo

end Db

/-- **Reopening undoes the resolution exactly when** the winner is still the one
that the resolution chose, no linked claim pointed at it before, and no loser's
source has submitted since. -/
theorem reopening_undoes_resolution_iff [PyText] {s₀ s₁ s₃ : Db} (hs : Reachable s₀)
    {call : ResolveCall} {u : ClaimConflict} {p : ProjectedAccidentRecord}
    (hresolve : s₀.resolveConflict call = .ok (u, p, s₁)) (calls : List Db.IngestCall)
    (hkept : Runs.EveryState step (Db.IsResolved call.conflictId) s₁ (calls.map .ingest))
    {reopening : ReopenCall} (hid : reopening.conflictId = call.conflictId)
    {u' : ClaimConflict} {p' : ProjectedAccidentRecord}
    (hreopen : (Runs.run step s₁ (calls.map .ingest)).reopenConflict reopening = .ok (u', p', s₃)) :
    Db.ResolutionUndone s₀ s₁ (Runs.run step s₁ (calls.map .ingest)) s₃ ↔
      Db.Undoable s₀ s₁ (Runs.run step s₁ (calls.map .ingest)) u := by
  have hwf := hs.inv.wf
  have hs₁ : Reachable s₁ := by
    have hrun : (Op.resolve call).run s₀ = .ok s₁ := by
      simp only [Op.run, hresolve]
      rfl
    rw [← Op.run_step hrun]
    exact hs.step _
  obtain ⟨c, winner, sw, hres⟩ := Db.resolve_cases hwf hresolve
  have hcid : call.conflictId = u.id := hres.id.symm.trans hres.row_id.symm
  rw [hcid] at hkept
  have hK := Db.kept_run calls (hres.kept hs₁.inv hwf hs.mergedLinked) hkept
  obtain ⟨d, hre⟩ := Db.reopen_cases hK.inv.wf hreopen
  have hdid : d.id = u.id := (hre.id.trans hid).trans hcid
  exact ⟨fun hQ => hQ.undoable hwf hres hK hre hdid, fun hU => hU.undone hwf hres hK hre hdid⟩

/-- A third source repeats the winner's value. -/
def thirdSourceCall : Db.IngestCall :=
  ⟨2, 102, "", some 5, none, [⟨"operator", .num (.int 1)⟩], .new, 10, 4⟩

def firstReopening : ReopenCall := ⟨10, 2, 9, "", 5⟩

theorem reopening_undoes_resolution_third_source :
    ∃ r, (after fourSources twoSourcesDisagree).resolveConflict firstResolution = .ok r ∧
      ∃ r', (Runs.run step r.2.2 ([thirdSourceCall].map .ingest)).reopenConflict
        firstReopening = .ok r' ∧
      Db.ResolutionUndone (after fourSources twoSourcesDisagree) r.2.2
        (Runs.run step r.2.2 ([thirdSourceCall].map .ingest)) r'.2.2 := by
  obtain ⟨r, hr, hres₀, hres₁, hundo, hreopen⟩ := exists_ok_of_any
    (x := (after fourSources twoSourcesDisagree).resolveConflict firstResolution)
    (P := fun r => Db.IsResolved 10 r.2.2 ∧ Db.IsResolved 10 (step r.2.2 (.ingest thirdSourceCall)) ∧
      Db.Undoable (after fourSources twoSourcesDisagree) r.2.2
        (step r.2.2 (.ingest thirdSourceCall)) r.1 ∧
      ((step r.2.2 (.ingest thirdSourceCall)).reopenConflict firstReopening).toOption.any
        (fun _ => True) = true)
    (by decide +kernel)
  obtain ⟨r', hr', -⟩ := exists_ok_of_any (P := fun _ => True) hreopen
  refine ⟨r, hr, r', hr', ?_⟩
  have hkept : Runs.EveryState step (Db.IsResolved firstResolution.conflictId) r.2.2
      ([thirdSourceCall].map .ingest) := by
    refine Runs.EveryState.cons.mpr ⟨hres₀, ?_⟩
    intro pre hpre
    rw [List.prefix_nil.mp hpre]
    exact hres₁
  exact (reopening_undoes_resolution_iff ⟨fourSources, twoSourcesDisagree, rfl⟩ hr
    [thirdSourceCall] hkept rfl hr').mpr hundo

/-- A source corrects its record while the conflict is OPEN, then the correction
wins. -/
def correctedWhileOpen : List Op :=
  [operatorReport 0 100 none (some "r1") 1 1, operatorReport 1 101 (some 5) none 2 2,
    operatorReport 0 102 none (some "r1") 3 3]

/-- Reopening at once revives the corrected claim too, which the resolution had
not superseded. -/
theorem reopening_revives_earlier_claim :
    ¬ ∀ sources ops call u p s₁ reopening u' p' s₃,
      (after sources ops).resolveConflict call = .ok (u, p, s₁) →
      reopening.conflictId = call.conflictId →
      s₁.reopenConflict reopening = .ok (u', p', s₃) →
      Db.ResolutionUndone (after sources ops) s₁ s₁ s₃ := by
  intro h
  obtain ⟨r, hr, hreopen⟩ := exists_ok_of_any
    (x := (after fourSources correctedWhileOpen).resolveConflict
      ⟨10, 2, some 13, .null, false, some 9, "", 3, 4⟩)
    (P := fun r => (r.2.2.reopenConflict ⟨10, 3, 9, "", 5⟩).toOption.any (fun r' =>
      ∃ k₂ ∈ r.2.2.claims, ∃ k₃ ∈ r'.2.2.claims, k₃.id = k₂.id ∧ k₂.isActive = false ∧
        k₃.isActive = true ∧
        ¬ Db.SupersededBetween (after fourSources correctedWhileOpen) r.2.2 k₂.id) = true)
    (by decide +kernel)
  obtain ⟨r', hr', k₂, hk₂, k₃, hk₃, hid, hinactive, hactive, hnot⟩ := exists_ok_of_any hreopen
  have hundone := h _ _ _ _ _ _ _ _ _ _ hr rfl hr'
  exact hnot ((hundone.revived k₂ hk₂ k₃ hk₃ hid hinactive).mp hactive).1

end Atlas
