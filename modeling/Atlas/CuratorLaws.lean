import Atlas.CuratorActions
import Atlas.ReconcilerAlone

/-!
# What the curator actions do

Reprojection writes the projection tables and nothing else.  A successful
resolution rewrites one OPEN conflict row and supersedes the active claims linked
to it, the winner excepted; a successful reopening rewrites one RESOLVED row and
reactivates the claims of `toReactivate`.  Both keep the laws of the store.
-/

namespace Atlas

open Outcome Rows

namespace Db

/-! ## Reprojection -/

/-- The two stores differ at most in the projection tables. -/
def ProjectionsOnly (s s' : Db) : Prop :=
  ∃ ps hs, s' = { s with projections := ps, projectionHistory := hs }

theorem ProjectionsOnly.refl (s : Db) : ProjectionsOnly s s :=
  ⟨s.projections, s.projectionHistory, rfl⟩

theorem ProjectionsOnly.trans {s s' s'' : Db} (h : ProjectionsOnly s s')
    (h' : ProjectionsOnly s' s'') : ProjectionsOnly s s'' := by
  obtain ⟨ps, hs, rfl⟩ := h
  obtain ⟨ps', hs', rfl⟩ := h'
  exact ⟨ps', hs', rfl⟩

theorem ProjectionsOnly.wellFormed {s s' : Db} (h : ProjectionsOnly s s') (hwf : s.WellFormed) :
    s'.WellFormed := by
  obtain ⟨ps, hs, rfl⟩ := h
  exact hwf.of_sameTables ⟨rfl, rfl, rfl, rfl, rfl, rfl⟩

theorem upsertProjection_eq (s : Db) (p : ProjectedAccidentRecord) :
    ∃ ps, s.upsertProjection p = { s with projections := ps } := by
  unfold upsertProjection
  split
  · exact ⟨_, rfl⟩
  · exact ⟨_, rfl⟩

theorem addProjectionHistory_ok {s s' : Db} {h : AccidentProjectionHistory}
    (hok : s.addProjectionHistory h = .ok s') :
    s' = { s with projectionHistory := s.projectionHistory ++ [h] } := by
  unfold addProjectionHistory at hok
  split at hok
  · cases hok
  · split at hok
    · cases hok
    · cases hok
      rfl

theorem persistProjection_only {s s' : Db} {call : ReProjectCall}
    {cur : Option ProjectedAccidentRecord} {p r : ProjectedAccidentRecord}
    (h : s.persistProjection call cur p = .ok (r, s')) : ProjectionsOnly s s' := by
  unfold persistProjection at h
  simp only [bind_ok] at h
  obtain ⟨_, _, unchanged, _, h⟩ := h
  split at h
  · rw [pure_ok, Prod.mk.injEq] at h
    rw [← h.2]
    exact ProjectionsOnly.refl s
  · simp only [bind_ok, pure_ok, Prod.mk.injEq] at h
    obtain ⟨s₁, hadd, -, rfl⟩ := h
    obtain ⟨ps, hps⟩ := upsertProjection_eq s (storedRow p)
    rw [addProjectionHistory_ok hadd, hps]
    exact ⟨_, _, rfl⟩

section ReProject

variable [PyText]

theorem rebuildProjection_only {s s' : Db} {call : ReProjectCall} {p : ProjectedAccidentRecord}
    (h : s.rebuildProjection call = .ok (p, s')) : ProjectionsOnly s s' := by
  unfold rebuildProjection at h
  dsimp only at h
  split at h
  · exact persistProjection_only h
  · rw [bind_ok] at h
    obtain ⟨_, _, h⟩ := h
    exact persistProjection_only h

/-- Reprojection changes no evidence. -/
theorem reProjectEvent_only {s s' : Db} {call : ReProjectCall} {p : ProjectedAccidentRecord}
    (h : s.reProjectEvent call = .ok (p, s')) : ProjectionsOnly s s' := by
  unfold reProjectEvent at h
  dsimp only at h
  split at h
  · exact rebuildProjection_only h
  · split at h
    · exact rebuildProjection_only h
    · split at h
      · simp only [Except.ok.injEq, Prod.mk.injEq] at h
        rw [← h.2]
        exact ProjectionsOnly.refl s
      · unfold restoreProjectionFromHistory at h
        simp only [bind_ok, pure_ok, Prod.mk.injEq] at h
        obtain ⟨_, _, -, rfl⟩ := h
        obtain ⟨ps, hps⟩ := upsertProjection_eq s _
        rw [hps]
        exact ⟨ps, s.projectionHistory, rfl⟩

end ReProject

/-! ## Resolving -/

section Resolve

variable {s : Db} {call : ResolveCall} {c : ClaimConflict} {winner : Uuid}

/-- The store after the override claim of a resolution was written. -/
def withOverride (s : Db) (call : ResolveCall) (c : ClaimConflict) : Db :=
  { s with
    nextId := s.nextId + 1
    claims := s.claims ++ [overrideClaim call c s.nextId]
    claimHistory := s.claimHistory ++ [overrideHistory call (overrideClaim call c s.nextId)]
    conflictClaims := insertKey s.conflictClaims (c.id, s.nextId) }

/-- How a resolution chose its winner: an active linked claim, or an override it
wrote and linked first. -/
def WinnerChosen (s : Db) (call : ResolveCall) (c : ClaimConflict) (winner : Uuid) (sw : Db) :
    Prop :=
  (sw = s ∧ (c.id, winner) ∈ s.conflictClaims ∧
      ∃ k ∈ s.claims, k.id = winner ∧ k.isActive = true) ∨
    (winner = s.nextId ∧ sw = s.withOverride call c)

/-- The writes of a resolution that went through. -/
def resolveWrites (s : Db) (call : ResolveCall) (c : ClaimConflict) (winner : Uuid) : Db :=
  ((s.rewriteConflict c.id (resolvedByUser call winner)).supersedeLosers call c.id
    winner).logActivity ⟨.user, call.currentUserId, call.now⟩ c.id c.eventId (some .open) .resolved
    (reasonOr call.reason "Conflict resolved by user") (c.version + 1) (.winner winner)

theorem conflictToResolve_ok (h : s.conflictToResolve call = .ok c) :
    c ∈ s.conflicts ∧ c.id = call.conflictId ∧ c.status = .open ∧
      c.version = call.expectedVersion := by
  unfold conflictToResolve at h
  simp only [bind_ok, require_ok, fromOption_ok, pure_ok] at h
  obtain ⟨_, -, _, -, _, -, c', hget, _, hopen, _, hver, rfl⟩ := h
  obtain ⟨hmem, hid⟩ := getConflict_some hget
  exact ⟨hmem, hid, hopen, hver⟩

theorem winnerToApply_ok {sw : Db} (h : s.winnerToApply call c = .ok (winner, sw)) :
    WinnerChosen s call c winner sw := by
  unfold winnerToApply at h
  split at h
  · simp only [bind_ok, pure_ok, Prod.mk.injEq] at h
    obtain ⟨_, _, rfl, rfl⟩ := h
    exact Or.inr ⟨rfl, rfl⟩
  · rename_i winnerId _
    simp only [bind_ok, require_ok, fromOption_ok, pure_ok, Prod.mk.injEq] at h
    obtain ⟨_, hlinked, k, hget, _, hcan, rfl, rfl⟩ := h
    obtain ⟨hk, hid⟩ := getClaim_some hget
    rw [Claim.canWin_eq_isActive] at hcan
    exact Or.inl ⟨rfl, mem_getClaimIdsForConflict.mp hlinked, k, hk, hid, hcan⟩

/-- In the store a winner was chosen in, the winner is linked, active and about
the conflict's event and field; the laws hold and the conflict is there. -/
theorem WinnerChosen.spec (hwf : s.WellFormed) (hc : c ∈ s.conflicts)
    {sw : Db} (h : WinnerChosen s call c winner sw) :
    sw.WellFormed ∧ c ∈ sw.conflicts ∧ (c.id, winner) ∈ sw.conflictClaims ∧
      ∃ k ∈ sw.claims, k.id = winner ∧ k.isActive = true ∧ k.eventId = c.eventId ∧
        k.fieldName = c.fieldName := by
  rcases h with ⟨rfl, hlink, k, hk, rfl, hactive⟩ | ⟨rfl, rfl⟩
  · obtain ⟨hke, hkf⟩ := hwf.link hc hk hlink
    exact ⟨hwf, hc, hlink, k, hk, rfl, hactive, hke, hkf⟩
  · have hadd := hwf.uuid4.addClaim (k := overrideClaim call c s.nextId) (Nat.lt_succ_self _)
      (fun x hx => Nat.ne_of_lt (hwf.claim_lt x hx)) rfl rfl
      (hwf.conflictEvent c hc) (fun i hi => by simp [overrideClaim] at hi)
    have hlink := hadd.addClaimToConflict (c := c) (k := overrideClaim call c s.nextId) hc
      (by simp [Db.addClaim]) rfl rfl
    refine ⟨hlink.of_sameTables ⟨rfl, rfl, rfl, rfl, rfl, rfl⟩, hc, mem_insertKey.mpr (Or.inr rfl),
      overrideClaim call c s.nextId, ?_, rfl, rfl, rfl, rfl⟩
    simp [withOverride]

/-- The claims a resolution supersedes: the linked active ones but the winner. -/
def IsLoser (s : Db) (c : ClaimConflict) (winner : Uuid) (k : Claim) : Prop :=
  (c.id, k.id) ∈ s.conflictClaims ∧ k.id ≠ winner ∧ k.isActive = true

instance (s : Db) (c : ClaimConflict) (winner : Uuid) (k : Claim) :
    Decidable (s.IsLoser c winner k) := by
  unfold IsLoser
  infer_instance

/-- The identifiers a resolution supersedes, in the store with the conflict row
rewritten. -/
def activeLosingIds (s : Db) (call : ResolveCall) (c : ClaimConflict) (winner : Uuid) :
    List Uuid :=
  let t := s.rewriteConflict c.id (resolvedByUser call winner)
  ((t.getManyClaims ((t.getClaimIdsForConflict c.id).filter fun id => id ≠ winner)).filter
    Claim.canWin).map Claim.id

theorem mem_activeLosingIds (hwf : s.WellFormed) {k : Claim} (hk : k ∈ s.claims) :
    (k.id ∈ s.activeLosingIds call c winner ∧ k.isActive = true) ↔ s.IsLoser c winner k := by
  unfold activeLosingIds IsLoser
  rw [List.mem_map]
  constructor
  · intro h
    obtain ⟨⟨x, hx, hid⟩, hactive⟩ := h
    simp only [getManyClaims, List.mem_filter, decide_eq_true_eq] at hx
    obtain ⟨⟨hxmem, hxlink⟩, -⟩ := hx
    have hxk := hwf.claimIds.eq_of_key hxmem hk hid
    subst hxk
    exact ⟨mem_getClaimIdsForConflict.mp hxlink.1, hxlink.2, hactive⟩
  · intro h
    obtain ⟨hlink, hne, hactive⟩ := h
    refine ⟨⟨k, ?_, rfl⟩, hactive⟩
    simp only [getManyClaims, List.mem_filter, decide_eq_true_eq]
    exact ⟨⟨hk, mem_getClaimIdsForConflict.mpr hlink, hne⟩,
      (Claim.canWin_eq_isActive k).trans hactive⟩

/-- The claim table after the writes of a resolution. -/
theorem resolveWrites_claims (hwf : s.WellFormed) :
    (s.resolveWrites call c winner).claims =
      updateWhere (fun k => s.IsLoser c winner k) (supersedeRow winner) s.claims := by
  show updateWhere (fun k => decide (k.id ∈ s.activeLosingIds call c winner ∧
    k.isActive = true)) _ s.claims = _
  unfold updateWhere
  apply List.map_congr_left
  intro k hk
  simp only [decide_eq_true_eq, mem_activeLosingIds hwf hk]

/-- The history after the writes of a resolution: one row more for each loser. -/
theorem resolveWrites_history (hwf : s.WellFormed) :
    ∃ losing : List Claim, (s.resolveWrites call c winner).claimHistory =
        s.claimHistory ++ losing.map (losingHistory call) ∧
      ∀ k, k ∈ losing ↔ k ∈ s.claims ∧ s.IsLoser c winner k := by
  refine ⟨s.claims.filter fun k => k.id ∈ s.activeLosingIds call c winner ∧ k.isActive = true,
    rfl, ?_⟩
  intro k
  rw [List.mem_filter, decide_eq_true_eq]
  apply and_congr_right
  intro hk
  exact mem_activeLosingIds hwf hk

theorem keepsConflict_resolvedByUser : KeepsConflict (resolvedByUser call winner) :=
  ⟨fun _ => rfl, fun _ => rfl, fun _ => rfl⟩

theorem resolveWrites_wellFormed (hwf : s.WellFormed) (hc : c ∈ s.conflicts)
    (hlink : (c.id, winner) ∈ s.conflictClaims) :
    (s.resolveWrites call c winner).WellFormed := by
  have hrow : (s.rewriteConflict c.id (resolvedByUser call winner)).WellFormed := by
    apply hwf.updateConflicts keepsConflict_resolvedByUser.bumped
    · intro d hd hp w hw
      have hdc := hwf.conflictIds.eq_of_key hd hc (by simpa using hp)
      subst hdc
      simp only [bumped, resolvedByUser, Option.some.injEq] at hw
      exact hw ▸ hlink
    · intro d _ _ _ hw
      simp [bumped, resolvedByUser] at hw
  have hbulk := hrow.bulkSupersede (s.activeLosingIds call c winner) winner
  exact hbulk.of_sameTables ⟨rfl, rfl, rfl, rfl, rfl, rfl⟩

/-- **What a resolution did.**  The conflict it read, the winner it chose, the
store with the winner in it, and the row it returned. -/
structure Resolved (s s' : Db) (call : ResolveCall) (c : ClaimConflict) (winner : Uuid)
    (sw : Db) (u : ClaimConflict) : Prop where
  mem : c ∈ s.conflicts
  id : c.id = call.conflictId
  isOpen : c.status = .open
  chosen : WinnerChosen s call c winner sw
  row : u = bumped (resolvedByUser call winner) c
  written : ProjectionsOnly (sw.resolveWrites call c winner) s'

/-- The stages of a resolution, and the reprojection at its end. -/
theorem resolve_stages [PyText] {s s' : Db} {u : ClaimConflict} {p : ProjectedAccidentRecord}
    (hwf : s.WellFormed) (h : s.resolveConflict call = .ok (u, p, s')) :
    ∃ c winner sw, Resolved s s' call c winner sw u ∧
      (sw.resolveWrites call c winner).reprojectFor u call.now = .ok (p, s') := by
  unfold resolveConflict at h
  simp only [bind_ok] at h
  obtain ⟨c, hc, ⟨winner, sw⟩, hw, ⟨u', s₁⟩, happly, ⟨p', s₂⟩, hproj, hpure⟩ := h
  rw [pure_ok] at hpure
  simp only [Prod.mk.injEq] at hpure
  obtain ⟨rfl, rfl, rfl⟩ := hpure
  obtain ⟨hmem, hid, hopen, hver⟩ := conflictToResolve_ok hc
  have hchosen := winnerToApply_ok hw
  obtain ⟨hwf', hmem', -⟩ := hchosen.spec hwf hmem
  unfold applyResolution at happly
  simp only [bind_ok, fromOption_ok] at happly
  obtain ⟨⟨upd, s₃⟩, hupd, u'', hu, hpure⟩ := happly
  rw [← hver] at hupd
  obtain ⟨rfl, rfl⟩ := updateWithVersionCheck_ok hwf' hmem' hupd
  simp only [Option.some.injEq] at hu
  subst hu
  rw [pure_ok, Prod.mk.injEq] at hpure
  obtain ⟨rfl, rfl⟩ := hpure
  exact ⟨c, winner, sw, ⟨hmem, hid, hopen, hchosen, rfl, reProjectEvent_only hproj⟩, hproj⟩

/-- **Taking a resolution apart.** -/
theorem resolve_cases [PyText] {s s' : Db} {u : ClaimConflict} {p : ProjectedAccidentRecord}
    (hwf : s.WellFormed) (h : s.resolveConflict call = .ok (u, p, s')) :
    ∃ c winner sw, Resolved s s' call c winner sw u := by
  obtain ⟨c, winner, sw, hres, -⟩ := resolve_stages hwf h
  exact ⟨c, winner, sw, hres⟩

theorem Resolved.wellFormed {s' sw : Db} {u : ClaimConflict} (hwf : s.WellFormed)
    (h : Resolved s s' call c winner sw u) : s'.WellFormed := by
  obtain ⟨hwf', hmem', hlink, -⟩ := h.chosen.spec hwf h.mem
  exact h.written.wellFormed (resolveWrites_wellFormed hwf' hmem' hlink)

/-- The claim table a winner was chosen in: the old one, or one claim more. -/
theorem WinnerChosen.claims {sw : Db} (h : WinnerChosen s call c winner sw) :
    sw.claims = s.claims ∨ (winner = s.nextId ∧ sw.claims = s.claims ++
      [overrideClaim call c s.nextId]) := by
  rcases h with ⟨rfl, -⟩ | ⟨hid, rfl⟩
  · exact Or.inl rfl
  · exact Or.inr ⟨hid, rfl⟩

section Evidence

variable {s' sw : Db} {u : ClaimConflict}

theorem Resolved.wfWinner (hwf : s.WellFormed) (h : Resolved s s' call c winner sw u) :
    sw.WellFormed := (h.chosen.spec hwf h.mem).1

/-- The claims after a resolution: those the winner was chosen among, the losers
superseded. -/
theorem Resolved.claims (hwf : s.WellFormed) (h : Resolved s s' call c winner sw u) :
    s'.claims = updateWhere (fun k => sw.IsLoser c winner k) (supersedeRow winner) sw.claims := by
  obtain ⟨ps, hs, rfl⟩ := h.written
  exact resolveWrites_claims (h.wfWinner hwf)

theorem Resolved.history (hwf : s.WellFormed) (h : Resolved s s' call c winner sw u) :
    ∃ losing : List Claim,
      s'.claimHistory = sw.claimHistory ++ losing.map (losingHistory call) ∧
        ∀ k, k ∈ losing ↔ k ∈ sw.claims ∧ sw.IsLoser c winner k := by
  obtain ⟨ps, hs, rfl⟩ := h.written
  exact resolveWrites_history (h.wfWinner hwf)

theorem Resolved.events (h : Resolved s s' call c winner sw u) : s'.events = s.events := by
  obtain ⟨ps, hs, rfl⟩ := h.written
  rcases h.chosen with ⟨rfl, -⟩ | ⟨-, rfl⟩
  · rfl
  · rfl

theorem Resolved.snapshots (h : Resolved s s' call c winner sw u) :
    s'.snapshots = s.snapshots := by
  obtain ⟨ps, hs, rfl⟩ := h.written
  rcases h.chosen with ⟨rfl, -⟩ | ⟨-, rfl⟩
  · rfl
  · rfl

theorem Resolved.conflicts (h : Resolved s s' call c winner sw u) :
    s'.conflicts = updateWhere (fun d => d.id = c.id) (bumped (resolvedByUser call winner))
      s.conflicts := by
  obtain ⟨ps, hs, rfl⟩ := h.written
  rcases h.chosen with ⟨rfl, -⟩ | ⟨-, rfl⟩
  · rfl
  · rfl

/-- An active claim after a resolution was active before, or is the override. -/
theorem Resolved.active_origin (hwf : s.WellFormed) (h : Resolved s s' call c winner sw u)
    {k' : Claim} (hk' : k' ∈ s'.claims) (hactive : k'.isActive = true) :
    ¬ sw.IsLoser c winner k' ∧ (k' ∈ s.claims ∨
      (k' = overrideClaim call c s.nextId ∧ winner = s.nextId)) := by
  rw [h.claims hwf] at hk'
  obtain ⟨k, hk, rfl⟩ := mem_updateWhere.mp hk'
  by_cases hloser : sw.IsLoser c winner k
  · rw [if_pos (by simpa using hloser)] at hactive
    cases hactive
  · rw [if_neg (by simpa using hloser)]
    refine ⟨hloser, ?_⟩
    rcases h.chosen.claims with hsw | ⟨hid, hsw⟩
    · rw [hsw] at hk
      exact Or.inl hk
    · rw [hsw] at hk
      rcases List.mem_append.mp hk with hk | hk
      · exact Or.inl hk
      · exact Or.inr ⟨List.mem_singleton.mp hk, hid⟩

end Evidence

end Resolve

/-! ## Reopening -/

section Reopen

variable {s : Db} {call : ReopenCall} {c : ClaimConflict}

/-- The writes of a reopening that went through. -/
def reopenWrites (s : Db) (call : ReopenCall) (c : ClaimConflict) : Db :=
  let ids := (s.toReactivate c).map Claim.id
  ((((s.bulkUnsupersede ids).2).rewriteConflict c.id (reopenedByUser call)).addClaimHistories
    ((s.bulkUnsupersede ids).1.map (reactivatedHistory call))).logActivity
      ⟨.user, some call.currentUserId, call.now⟩ c.id c.eventId (some .resolved) .open
      (reasonOr call.reason "Conflict reopened by user") (c.version + 1)
      (.reopened c.winningClaimId ((s.bulkUnsupersede ids).1.map Claim.id))

theorem conflictToReopen_ok (h : s.conflictToReopen call = .ok c) :
    c ∈ s.conflicts ∧ c.id = call.conflictId ∧ c.status = .resolved ∧
      c.version = call.expectedVersion := by
  unfold conflictToReopen at h
  simp only [bind_ok, require_ok, fromOption_ok, pure_ok] at h
  obtain ⟨c', hget, _, hres, _, hver, rfl⟩ := h
  obtain ⟨hmem, hid⟩ := getConflict_some hget
  exact ⟨hmem, hid, hres, hver⟩

/-- A claim is reactivated when it is superseded by the previous winner, linked
to the conflict and about its event and field. -/
def Reactivated (s : Db) (c : ClaimConflict) (k : Claim) : Prop :=
  (∃ w, c.winningClaimId = some w ∧ k.supersededBy = some w) ∧
    (c.id, k.id) ∈ s.conflictClaims ∧ k.eventId = c.eventId ∧ k.fieldName = c.fieldName

theorem mem_toReactivate {k : Claim} :
    k ∈ s.toReactivate c ↔ k ∈ s.claims ∧ s.Reactivated c k := by
  unfold toReactivate Reactivated
  cases c.winningClaimId with
  | none => simp
  | some w =>
      simp only [findSupersededBy, List.mem_filter, decide_eq_true_eq, mem_getClaimIdsForConflict,
        Option.some.injEq, exists_eq_left']
      tauto

theorem mem_toReactivate_id (hwf : s.WellFormed) {k : Claim} (hk : k ∈ s.claims) :
    k.id ∈ (s.toReactivate c).map Claim.id ↔ s.Reactivated c k := by
  rw [List.mem_map]
  constructor
  · intro h
    obtain ⟨x, hx, hid⟩ := h
    obtain ⟨hxmem, hxr⟩ := mem_toReactivate.mp hx
    rw [← hwf.claimIds.eq_of_key hxmem hk hid]
    exact hxr
  · intro h
    exact ⟨k, mem_toReactivate.mpr ⟨hk, h⟩, rfl⟩

theorem keepsConflict_reopenedByUser (call : ReopenCall) : KeepsConflict (reopenedByUser call) :=
  ⟨fun _ => rfl, fun _ => rfl, fun _ => rfl⟩

theorem reopenWrites_wellFormed (hwf : s.WellFormed) :
    (s.reopenWrites call c).WellFormed := by
  have hun := hwf.bulkUnsupersede ((s.toReactivate c).map Claim.id)
  have hrow := hun.updateConflicts (p := fun d => decide (d.id = c.id))
    (keepsConflict_reopenedByUser call).bumped
    (by
      intro d _ _ w hw
      simp [bumped, reopenedByUser] at hw)
    (by
      intro d _ _ hres _
      simp [bumped, reopenedByUser] at hres)
  exact hrow.of_sameTables ⟨rfl, rfl, rfl, rfl, rfl, rfl⟩

/-- **What a reopening did.** -/
structure Reopened (s s' : Db) (call : ReopenCall) (c : ClaimConflict) : Prop where
  mem : c ∈ s.conflicts
  id : c.id = call.conflictId
  isResolved : c.status = .resolved
  written : ProjectionsOnly (s.reopenWrites call c) s'

/-- The stages of a reopening, and the reprojection at its end. -/
theorem reopen_stages [PyText] {s s' : Db} {u : ClaimConflict} {p : ProjectedAccidentRecord}
    (hwf : s.WellFormed) (h : s.reopenConflict call = .ok (u, p, s')) :
    ∃ c, Reopened s s' call c ∧ (s.reopenWrites call c).reprojectFor u call.now = .ok (p, s') := by
  unfold reopenConflict at h
  simp only [bind_ok] at h
  obtain ⟨c, hc, ⟨u', s₁⟩, happly, ⟨p', s₂⟩, hproj, hpure⟩ := h
  rw [pure_ok] at hpure
  simp only [Prod.mk.injEq] at hpure
  obtain ⟨rfl, rfl, rfl⟩ := hpure
  obtain ⟨hmem, hid, hres, hver⟩ := conflictToReopen_ok hc
  unfold applyReopening at happly
  simp only [bind_ok, fromOption_ok] at happly
  obtain ⟨⟨upd, s₃⟩, hupd, u'', hu, hpure⟩ := happly
  rw [← hver] at hupd
  have hun := hwf.bulkUnsupersede ((s.toReactivate c).map Claim.id)
  obtain ⟨rfl, rfl⟩ := updateWithVersionCheck_ok hun hmem hupd
  simp only [Option.some.injEq] at hu
  subst hu
  rw [pure_ok, Prod.mk.injEq] at hpure
  obtain ⟨rfl, rfl⟩ := hpure
  exact ⟨c, ⟨hmem, hid, hres, reProjectEvent_only hproj⟩, hproj⟩

/-- **Taking a reopening apart.** -/
theorem reopen_cases [PyText] {s s' : Db} {u : ClaimConflict} {p : ProjectedAccidentRecord}
    (hwf : s.WellFormed) (h : s.reopenConflict call = .ok (u, p, s')) :
    ∃ c, Reopened s s' call c := by
  obtain ⟨c, hre, -⟩ := reopen_stages hwf h
  exact ⟨c, hre⟩

theorem Reopened.wellFormed {s' : Db} (hwf : s.WellFormed) (h : Reopened s s' call c) :
    s'.WellFormed := h.written.wellFormed (reopenWrites_wellFormed hwf)

section Evidence

variable {s' : Db}

theorem Reopened.claims (h : Reopened s s' call c) : s'.claims =
    updateWhere (fun k => k.id ∈ (s.toReactivate c).map Claim.id) s.unsupersedeRow s.claims := by
  obtain ⟨ps, hs, rfl⟩ := h.written
  rfl

theorem Reopened.conflicts (h : Reopened s s' call c) : s'.conflicts =
    updateWhere (fun d => d.id = c.id) (bumped (reopenedByUser call)) s.conflicts := by
  obtain ⟨ps, hs, rfl⟩ := h.written
  rfl

theorem Reopened.events (h : Reopened s s' call c) : s'.events = s.events := by
  obtain ⟨ps, hs, rfl⟩ := h.written
  rfl

theorem Reopened.snapshots (h : Reopened s s' call c) : s'.snapshots = s.snapshots := by
  obtain ⟨ps, hs, rfl⟩ := h.written
  rfl

theorem Reopened.links (h : Reopened s s' call c) : s'.conflictClaims = s.conflictClaims := by
  obtain ⟨ps, hs, rfl⟩ := h.written
  rfl

/-- A claim after a reopening: reactivated, or as it was. -/
theorem Reopened.mem_claims (hwf : s.WellFormed) (h : Reopened s s' call c) {k' : Claim} :
    k' ∈ s'.claims ↔ ∃ k ∈ s.claims,
      (s.Reactivated c k ∧ k' = s.unsupersedeRow k) ∨ (¬ s.Reactivated c k ∧ k' = k) := by
  rw [h.claims, mem_updateWhere]
  apply exists_congr
  intro k
  apply and_congr_right
  intro hk
  by_cases hr : s.Reactivated c k
  · rw [if_pos (by simpa using (mem_toReactivate_id hwf hk).mpr hr)]
    simp [hr, eq_comm]
  · rw [if_neg (by simpa using fun h' => hr ((mem_toReactivate_id hwf hk).mp h'))]
    simp [hr, eq_comm]

end Evidence

end Reopen

end Db

end Atlas
