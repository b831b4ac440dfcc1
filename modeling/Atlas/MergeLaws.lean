import Atlas.Continuity
import Atlas.Merge
import Atlas.ReconcilerAlone

/-!
# What a merge does

A successful merge goes through five stages: the source event gets its merge
pointer, its active claims are transferred, its OPEN conflicts are closed,
conflicts are detected on the target, and the bookkeeping is done.  `merge_cases`
takes a merge apart into these stages; a duplicate review is a merge or changes
the review table only.
-/

namespace Atlas

open Outcome Rows

namespace Db

/-! ## Transferring the claims -/

section Transfer

variable {s : Db} {call : MergeCall}

/-- The claims paired with consecutive fresh identifiers. -/
def numbered : Nat → List Claim → List (Claim × Uuid)
  | _, [] => []
  | n, k :: ks => (k, n) :: numbered (n + 1) ks

theorem mem_numbered {n : Nat} {ks : List Claim} {p : Claim × Uuid} (h : p ∈ numbered n ks) :
    p.1 ∈ ks ∧ n ≤ p.2 ∧ p.2 < n + ks.length := by
  induction ks generalizing n with
  | nil => simp [numbered] at h
  | cons k ks ih =>
      rcases List.mem_cons.mp h with rfl | h
      · simp
      · obtain ⟨hmem, hle, hlt⟩ := ih h
        refine ⟨List.mem_cons_of_mem k hmem, Nat.le_of_succ_le hle, ?_⟩
        have hlen : n + 1 + ks.length = n + (k :: ks).length := by
          simp only [List.length_cons]
          omega
        exact hlen ▸ hlt

theorem map_fst_numbered (n : Nat) (ks : List Claim) : (numbered n ks).map Prod.fst = ks := by
  induction ks generalizing n with
  | nil => rfl
  | cons k ks ih => simp [numbered, ih]

theorem nodup_snd_numbered (n : Nat) (ks : List Claim) : ((numbered n ks).map Prod.snd).Nodup := by
  induction ks generalizing n with
  | nil => simp [numbered]
  | cons k ks ih =>
      simp only [numbered, List.map_cons, List.nodup_cons]
      refine ⟨?_, ih (n + 1)⟩
      intro hn
      obtain ⟨p, hp, hpn⟩ := List.mem_map.mp hn
      have hle := (mem_numbered hp).2.1
      rw [hpn] at hle
      exact Nat.not_succ_le_self n hle

/-- The first loop: copies are appended under fresh identifiers. -/
theorem transfer_foldl (ks : List Claim) (acc : List (Claim × Uuid) × Db) :
    ks.foldl (transferClaim call) acc =
      (acc.1 ++ numbered acc.2.nextId ks,
        { acc.2 with
          nextId := acc.2.nextId + ks.length
          claims := acc.2.claims ++
            (numbered acc.2.nextId ks).map fun p => mergedClaim call p.2 p.1
          claimHistory := acc.2.claimHistory ++
            (numbered acc.2.nextId ks).map fun p =>
              mergedHistory call (mergedClaim call p.2 p.1) }) := by
  induction ks generalizing acc with
  | nil => simp [numbered]
  | cons k ks ih =>
      rw [List.foldl_cons, ih]
      simp only [transferClaim, uuid4, addClaim, addClaimHistory, numbered, List.map_cons,
        List.append_assoc, List.singleton_append, List.length_cons, Nat.add_assoc,
        Nat.add_comm 1]

/-- Superseding claims by their copies. -/
def absorbed (pairs : List (Claim × Uuid)) (k : Claim) : Claim :=
  if k.isActive then
    match pairs.find? fun p => p.1.id = k.id with
    | some p => supersedeRow p.2 k
    | none => k
  else k

theorem absorbed_none {pairs : List (Claim × Uuid)} {k : Claim}
    (h : ∀ p ∈ pairs, p.1.id ≠ k.id) : absorbed pairs k = k := by
  have hnone : (pairs.find? fun p => p.1.id = k.id) = none := by
    simpa [List.find?_eq_none] using h
  unfold absorbed
  rw [hnone]
  simp

theorem keepsClaim_absorbed (pairs : List (Claim × Uuid)) : KeepsClaim (absorbed pairs) := by
  have h : ∀ k, absorbed pairs k = k ∨ ∃ n, absorbed pairs k = supersedeRow n k := by
    intro k
    unfold absorbed
    split
    · split
      · exact Or.inr ⟨_, rfl⟩
      · exact Or.inl rfl
    · exact Or.inl rfl
  constructor <;> intro k <;> rcases h k with h | ⟨n, h⟩ <;> rw [h] <;> rfl

/-- The second loop: each transferred claim is superseded by its copy. -/
theorem absorb_foldl (pairs : List (Claim × Uuid)) (s : Db) :
    pairs.foldl (absorbClaim call) s =
      { s with
        claims := s.claims.map (absorbed pairs)
        claimHistory := s.claimHistory ++ pairs.map fun p => absorbedHistory call p.1 } := by
  induction pairs generalizing s with
  | nil =>
      have hid : absorbed [] = id := by
        funext k
        simp [absorbed]
      simp [hid]
  | cons p pairs ih =>
      have hrow : ∀ k : Claim, absorbed pairs
          (if decide (k.id ∈ [p.1.id] ∧ k.isActive = true) = true then supersedeRow p.2 k else k) =
          absorbed (p :: pairs) k := by
        intro k
        by_cases hactive : k.isActive = true
        · by_cases hid : p.1.id = k.id
          · have hinactive : (supersedeRow p.2 k).isActive = false := rfl
            simp [absorbed, hactive, hid, hinactive]
          · have hne : ¬ k.id = p.1.id := fun h => hid h.symm
            simp [absorbed, hactive, hid, hne]
        · simp [absorbed, hactive]
      rw [List.foldl_cons, ih]
      simp only [absorbClaim, bulkSupersede, addClaimHistory, updateWhere, List.map_map,
        List.map_cons, List.append_assoc, List.singleton_append]
      congr 1
      apply List.map_congr_left
      intro k _
      exact hrow k

/-- The identifiers the transferred claims' copies get. -/
def transferPairs (s : Db) (call : MergeCall) : List (Claim × Uuid) :=
  numbered s.nextId (s.findActiveByEvent call.sourceEventId)

/-- The copies of the transferred claims. -/
def copies (s : Db) (call : MergeCall) : List Claim :=
  (s.transferPairs call).map fun p => mergedClaim call p.2 p.1

theorem mem_findActiveByEvent {e : Uuid} {k : Claim} :
    k ∈ s.findActiveByEvent e ↔ k ∈ s.claims ∧ k.eventId = e ∧ k.isActive = true := by
  simp [findActiveByEvent]

theorem mem_transferPairs {p : Claim × Uuid} (h : p ∈ s.transferPairs call) :
    p.1 ∈ s.claims ∧ p.1.eventId = call.sourceEventId ∧ p.1.isActive = true ∧ s.nextId ≤ p.2 := by
  obtain ⟨hmem, hle, -⟩ := mem_numbered h
  obtain ⟨hk, he, hactive⟩ := mem_findActiveByEvent.mp hmem
  exact ⟨hk, he, hactive, hle⟩

/-- **The transfer.**  The claim table after it: the old rows, the transferred
ones superseded by their copies, and the copies. -/
theorem transferClaims_eq (call : MergeCall) (hwf : s.WellFormed) :
    ∃ history, s.transferClaims call =
      { s with
        nextId := s.nextId + (s.findActiveByEvent call.sourceEventId).length
        claims := s.claims.map (absorbed (s.transferPairs call)) ++ s.copies call
        claimHistory := s.claimHistory ++ history } := by
  refine ⟨((s.transferPairs call).map fun p => mergedHistory call (mergedClaim call p.2 p.1)) ++
    (s.transferPairs call).map fun p => absorbedHistory call p.1, ?_⟩
  -- a copy has a fresh identifier, so no pair absorbs it
  have hcopies : (s.copies call).map (absorbed (s.transferPairs call)) = s.copies call := by
    apply (List.map_congr_left ?_).trans (List.map_id _)
    intro k hk
    obtain ⟨p, hp, rfl⟩ := List.mem_map.mp hk
    apply absorbed_none
    intro q hq hid
    have hlt := hwf.claim_lt q.1 (mem_transferPairs hq).1
    rw [hid] at hlt
    exact absurd (mem_transferPairs hp).2.2.2 (Nat.not_le_of_lt hlt)
  unfold transferClaims
  rw [transfer_foldl]
  dsimp only
  rw [List.nil_append, absorb_foldl]
  dsimp only
  rw [List.map_append, List.append_assoc]
  congr 2

/-- A claim the transfer leaves as it is. -/
theorem absorbed_other (hwf : s.WellFormed) {k : Claim} (hk : k ∈ s.claims)
    (h : ¬ (k.eventId = call.sourceEventId ∧ k.isActive = true)) :
    absorbed (s.transferPairs call) k = k := by
  apply absorbed_none
  intro p hp hid
  obtain ⟨hmem, he, hactive, -⟩ := mem_transferPairs hp
  rw [hwf.claimIds.eq_of_key hmem hk hid] at he hactive
  exact h ⟨he, hactive⟩

/-- A transferred claim is superseded by its copy. -/
theorem absorbed_transferred (call : MergeCall) (hwf : s.WellFormed) {k : Claim} (hk : k ∈ s.claims)
    (he : k.eventId = call.sourceEventId) (hactive : k.isActive = true) :
    ∃ n, (k, n) ∈ s.transferPairs call ∧ absorbed (s.transferPairs call) k = supersedeRow n k := by
  have hmem : k ∈ (s.transferPairs call).map Prod.fst := by
    unfold transferPairs
    rw [map_fst_numbered]
    exact mem_findActiveByEvent.mpr ⟨hk, he, hactive⟩
  cases hfind : (s.transferPairs call).find? fun p => p.1.id = k.id with
  | none =>
      obtain ⟨p, hp, rfl⟩ := List.mem_map.mp hmem
      have := List.find?_eq_none.mp hfind p hp
      simp at this
  | some p =>
      have hp := List.mem_of_find?_eq_some hfind
      have hid : p.1.id = k.id := by simpa using List.find?_some hfind
      have hpk := hwf.claimIds.eq_of_key (mem_transferPairs hp).1 hk hid
      refine ⟨p.2, hpk ▸ hp, ?_⟩
      unfold absorbed
      rw [if_pos hactive, hfind]

/-- Two copies of one claim are one copy. -/
theorem transferPairs_inj {p q : Claim × Uuid} (hwf : s.WellFormed) (hp : p ∈ s.transferPairs call)
    (hq : q ∈ s.transferPairs call) (h : p.1 = q.1) : p = q := by
  have hnodup : ((s.transferPairs call).map Prod.fst).Nodup := by
    unfold transferPairs
    rw [map_fst_numbered]
    exact (List.Nodup.of_map _ hwf.claimIds).filter _
  exact List.inj_on_of_nodup_map hnodup hp hq h

/-- The transfer keeps the laws of the store. -/
theorem transferClaims_wellFormed (hwf : s.WellFormed)
    (htarget : ∃ e ∈ s.events, e.id = call.targetEventId) :
    (s.transferClaims call).WellFormed := by
  have hsuperseded : ({ s with claims := s.claims.map (absorbed (s.transferPairs call)) } :
      Db).WellFormed := by
    have hmap : s.claims.map (absorbed (s.transferPairs call)) =
        updateWhere (fun _ => true) (absorbed (s.transferPairs call)) s.claims := by
      simp [updateWhere]
    rw [hmap]
    apply hwf.updateClaims (keepsClaim_absorbed _)
    intro k hk _
    by_cases h : k.eventId = call.sourceEventId ∧ k.isActive = true
    · obtain ⟨n, -, heq⟩ := absorbed_transferred call hwf hk h.1 h.2
      rw [heq]
      simp [supersedeRow, Claim.isActive, ClaimType.isActive]
    · rw [absorbed_other hwf hk h]
      exact hwf.superseded k hk
  obtain ⟨history, heq⟩ := transferClaims_eq call hwf
  rw [heq]
  have hraised := hsuperseded.raise (n := s.nextId + (s.findActiveByEvent
    call.sourceEventId).length) (Nat.le_add_right _ _)
  have hcopy : ∀ k ∈ s.copies call, ∃ p ∈ s.transferPairs call, k = mergedClaim call p.2 p.1 := by
    intro k hk
    obtain ⟨p, hp, rfl⟩ := List.mem_map.mp hk
    exact ⟨p, hp, rfl⟩
  refine WellFormed.of_sameTables (s := { s with
    nextId := s.nextId + (s.findActiveByEvent call.sourceEventId).length
    claims := s.claims.map (absorbed (s.transferPairs call)) ++ s.copies call }) ?_
    ⟨rfl, rfl, rfl, rfl, rfl, rfl⟩
  refine hraised.addClaims ?_ ?_ ?_ ?_ ?_ ?_
  · intro k hk
    obtain ⟨p, hp, rfl⟩ := hcopy k hk
    exact (mem_numbered hp).2.2
  · show ((s.claims.map (absorbed (s.transferPairs call)) ++ s.copies call).map Claim.id).Nodup
    rw [List.map_append, List.nodup_append]
    refine ⟨hsuperseded.claimIds, ?_, ?_⟩
    · have hids : (s.copies call).map Claim.id = (s.transferPairs call).map Prod.snd := by
        unfold copies
        rw [List.map_map]
        rfl
      rw [hids]
      exact nodup_snd_numbered _ _
    · intro a ha b hb hab
      obtain ⟨x, hx, rfl⟩ := List.mem_map.mp ha
      obtain ⟨k, hk, rfl⟩ := List.mem_map.mp hb
      obtain ⟨p, hp, rfl⟩ := hcopy k hk
      have hlt := hsuperseded.claim_lt x hx
      rw [hab] at hlt
      exact absurd (mem_transferPairs hp).2.2.2 (Nat.not_le_of_lt hlt)
  · intro k hk
    obtain ⟨p, hp, rfl⟩ := hcopy k hk
    exact (mem_transferPairs hp).2.2.1
  · intro k hk
    obtain ⟨p, hp, rfl⟩ := hcopy k hk
    rfl
  · intro k hk
    obtain ⟨p, hp, rfl⟩ := hcopy k hk
    exact htarget
  · intro k hk
    obtain ⟨p, hp, rfl⟩ := hcopy k hk
    exact hwf.claimSnapshot p.1 (mem_transferPairs hp).1

end Transfer

/-! ## The other stages -/

section Stages

variable {s : Db} {call : MergeCall}

/-- The store after the source event got its merge pointer. -/
def withPointer (s : Db) (call : MergeCall) : Db :=
  { s with
    events := updateWhere (fun e => e.id = call.sourceEventId ∧ e.mergedInto = none)
      (fun e => { e with mergedInto := some call.targetEventId }) s.events }

theorem tryAtomicMerge_true {s' : Db} (h : s.tryAtomicMerge call.sourceEventId
    call.targetEventId = (true, s')) : s' = s.withPointer call := by
  unfold tryAtomicMerge at h
  split at h
  · simp only [Prod.mk.injEq, true_and] at h
    exact h.symm
  · simp at h

theorem withPointer_wellFormed (call : MergeCall) (hwf : s.WellFormed) : (s.withPointer call).WellFormed := by
  apply hwf.updateEvents
  · intro e
    rfl
  · intro e _ h
    cases h

/-- The conflict table after the source event's conflicts were closed. -/
def closedConflicts (s : Db) (call : MergeCall) : List ClaimConflict :=
  updateWhere (fun c => c.eventId = call.sourceEventId ∧ c.status = .open)
    (closeAsMergedRow (mergeConflictNote call) call.now) s.conflicts

theorem closeSourceConflicts_eq (s : Db) (call : MergeCall) : ∃ activity, s.closeSourceConflicts call =
    { s with conflicts := s.closedConflicts call, conflictActivity := activity } := by
  have hlog : ∀ (cs : List ClaimConflict) (s : Db), ∃ activity, cs.foldl (logClosed call) s =
      { s with conflictActivity := activity } := by
    intro cs
    induction cs with
    | nil =>
        intro s
        exact ⟨s.conflictActivity, rfl⟩
    | cons c cs ih =>
        intro s
        obtain ⟨activity, h⟩ := ih (logClosed call s c)
        exact ⟨activity, h⟩
  obtain ⟨activity, h⟩ := hlog _ _
  exact ⟨activity, h⟩

theorem closeReview_eq (s : Db) (call : MergeCall) :
    ∃ reviews, (s.closeReview call).2 = { s with duplicateReviews := reviews } := by
  have hupd : ∀ id note, ∃ reviews, s.updateReviewStatus id .merged call.resolvedBy note =
      { s with duplicateReviews := reviews } := fun id note => ⟨_, rfl⟩
  unfold closeReview
  dsimp only
  split
  · exact hupd _ _
  · split
    · split
      · exact hupd _ _
      · exact ⟨s.duplicateReviews, rfl⟩
    · exact ⟨s.duplicateReviews, rfl⟩

/-- Closing the conflicts of a merged event keeps the laws. -/
theorem closeSourceConflicts_wellFormed (hwf : s.WellFormed)
    (hmerged : s.IsMerged call.sourceEventId) : (s.closeSourceConflicts call).WellFormed := by
  have hkeep : KeepsConflict (closeAsMergedRow (mergeConflictNote call) call.now) :=
    ⟨fun _ => rfl, fun _ => rfl, fun _ => rfl⟩
  have hclosed := hwf.updateConflicts
    (p := fun c => decide (c.eventId = call.sourceEventId ∧ c.status = .open)) hkeep
    (by
      intro c _ _ w hw
      simp [closeAsMergedRow] at hw)
    (by
      intro c _ hp _ _
      simp only [decide_eq_true_eq] at hp
      exact hp.1 ▸ hmerged)
  obtain ⟨activity, heq⟩ := closeSourceConflicts_eq s call
  rw [heq]
  exact hclosed.of_sameTables ⟨rfl, rfl, rfl, rfl, rfl, rfl⟩

theorem isLive_of_getEvent {id : Uuid} {e : AccidentEvent} (h : s.getEvent id = some e)
    (hm : e.isMerged = false) : s.IsLive id := by
  obtain ⟨hmem, hid⟩ := getEvent_some h
  refine ⟨e, hmem, hid, ?_⟩
  unfold AccidentEvent.isMerged at hm
  exact Option.isSome_eq_false_iff.mp hm |> Option.isNone_iff_eq_none.mp

theorem mergeable_ok {u : Unit} (h : s.mergeable call = .ok u) :
    call.sourceEventId ≠ call.targetEventId ∧ s.IsLive call.sourceEventId ∧
      s.IsLive call.targetEventId := by
  unfold mergeable at h
  simp only [bind_ok, require_ok, fromOption_ok] at h
  obtain ⟨_, hne, source, hsource, target, htarget, _, hms, hmt⟩ := h
  exact ⟨hne, isLive_of_getEvent hsource hms, isLive_of_getEvent htarget hmt⟩

/-- The source event is merged once it has its pointer. -/
theorem withPointer_isMerged (h : s.IsLive call.sourceEventId) :
    (s.withPointer call).IsMerged call.sourceEventId := by
  obtain ⟨e, he, hid, hnone⟩ := h
  refine ⟨{ e with mergedInto := some call.targetEventId }, mem_updateWhere.mpr ⟨e, he, ?_⟩, hid,
    by simp⟩
  rw [if_pos (by simp [hid, hnone])]

/-- Another event is merged exactly when it was. -/
theorem withPointer_isMerged_other {e : Uuid} (hne : e ≠ call.sourceEventId) :
    (s.withPointer call).IsMerged e ↔ s.IsMerged e := by
  constructor
  · intro h
    obtain ⟨x, hx, hid, hm⟩ := h
    obtain ⟨y, hy, rfl⟩ := mem_updateWhere.mp hx
    split at hid
    · rename_i hp
      simp only [decide_eq_true_eq] at hp
      exact absurd (hid.symm.trans hp.1) hne
    · rename_i hp
      rw [if_neg hp] at hm
      exact ⟨y, hy, hid, hm⟩
  · intro h
    obtain ⟨x, hx, hid, hm⟩ := h
    refine ⟨x, mem_updateWhere.mpr ⟨x, hx, if_neg ?_⟩, hid, hm⟩
    simp [hm]

variable [PyText]

/-- **The stages of a merge.** -/
structure Merged (s s' : Db) (call : MergeCall) (s₃ s₄ : Db) : Prop where
  distinct : call.sourceEventId ≠ call.targetEventId
  source : s.IsLive call.sourceEventId
  target : s.IsLive call.targetEventId
  closed : s₃ = ((s.withPointer call).transferClaims call).closeSourceConflicts call
  wf₃ : s₃.WellFormed
  detected : Opens s₃ s₄ call.targetEventId (Session.contestedFields s₃ call.targetEventId)
    (fun f => (s₃.findActiveByEventField call.targetEventId f).map Claim.id)
  finished : ∃ reviews, s' = { s₄ with
    nextId := s₄.nextId + 1
    outbox := s₄.outbox ++ [⟨s₄.nextId, call.targetEventId, none, .pending, 0, none, none⟩]
    projections := s₄.projections.filter fun p => p.eventId ≠ call.sourceEventId
    duplicateReviews := reviews }

omit [PyText] in
/-- Closing a review depends on the review table only. -/
theorem closeReview_reviews {s t : Db} (call : MergeCall)
    (h : t.duplicateReviews = s.duplicateReviews) :
    (t.closeReview call).1 = (s.closeReview call).1 ∧
      (t.closeReview call).2.duplicateReviews = (s.closeReview call).2.duplicateReviews := by
  unfold closeReview findExistingPair updateReviewStatus
  rw [h]
  cases call.reviewId with
  | some id => exact ⟨rfl, rfl⟩
  | none =>
      dsimp only
      split
      · split
        · exact ⟨rfl, rfl⟩
        · exact ⟨rfl, h⟩
      · exact ⟨rfl, h⟩

/-- The stages of a merge, and the review table at its end. -/
theorem merge_stages {s s' : Db} {result : MergeResult} (hwf : s.WellFormed)
    (h : s.mergeDuplicateEvents call = .ok (result, s')) :
    ∃ s₃ s₄, Merged s s' call s₃ s₄ ∧ result.reviewId = (s₄.closeReview call).1 ∧
      s'.duplicateReviews = (s₄.closeReview call).2.duplicateReviews := by
  unfold mergeDuplicateEvents at h
  simp only [bind_ok, require_ok] at h
  obtain ⟨_, hok, _, hclaimed, σ, hdetect, hpure⟩ := h
  obtain ⟨hne, hsource, htarget⟩ := mergeable_ok hok
  have hpointer : (s.tryAtomicMerge call.sourceEventId call.targetEventId).2 =
      s.withPointer call := tryAtomicMerge_true (Prod.ext hclaimed rfl)
  rw [hpointer] at hdetect
  have hwf₁ := withPointer_wellFormed call hwf
  have hmerged := withPointer_isMerged hsource
  have hwf₂ : ((s.withPointer call).transferClaims call).WellFormed := by
    apply transferClaims_wellFormed hwf₁
    obtain ⟨e, he, hid, hnone⟩ := htarget
    refine ⟨e, mem_updateWhere.mpr ⟨e, he, if_neg ?_⟩, hid⟩
    simp [hid, Ne.symm hne]
  have hevents₂ : ((s.withPointer call).transferClaims call).events =
      (s.withPointer call).events := by
    obtain ⟨_, heq⟩ := transferClaims_eq call hwf₁
    rw [heq]
  have hmerged₂ : ((s.withPointer call).transferClaims call).IsMerged call.sourceEventId := by
    unfold IsMerged
    rw [hevents₂]
    exact hmerged
  have hwf₃ := closeSourceConflicts_wellFormed hwf₂ hmerged₂
  have hlive : ¬ (((s.withPointer call).transferClaims call).closeSourceConflicts call).IsMerged
      call.targetEventId := by
    obtain ⟨_, heq⟩ := closeSourceConflicts_eq ((s.withPointer call).transferClaims call) call
    rw [heq]
    unfold IsMerged
    rw [hevents₂]
    intro hm
    exact htarget.not_isMerged hwf ((withPointer_isMerged_other (Ne.symm hne)).mp hm)
  obtain ⟨hopens, -⟩ := Session.detect_alone (Session.quiet_alone _) hwf₃ hlive hdetect
  rw [pure_ok, Prod.mk.injEq] at hpure
  obtain ⟨reviews, heq⟩ := closeReview_eq ((σ.db.addOutbox call.targetEventId
    none).deleteProjection call.sourceEventId) call
  refine ⟨_, σ.db, ⟨hne, hsource, htarget, rfl, hwf₃, hopens, reviews, hpure.2.symm.trans heq⟩, ?_⟩
  rw [← hpure.1, ← hpure.2]
  exact closeReview_reviews call rfl

/-- **Taking a merge apart.** -/
theorem merge_cases {s s' : Db} {result : MergeResult} (hwf : s.WellFormed)
    (h : s.mergeDuplicateEvents call = .ok (result, s')) :
    ∃ s₃ s₄, Merged s s' call s₃ s₄ := by
  obtain ⟨s₃, s₄, hm, -⟩ := merge_stages hwf h
  exact ⟨s₃, s₄, hm⟩

/-- A merge keeps the laws of the store. -/
theorem Merged.wellFormed {s s' s₃ s₄ : Db} (h : Merged s s' call s₃ s₄) : s'.WellFormed := by
  obtain ⟨reviews, rfl⟩ := h.finished
  exact h.detected.wf.uuid4.of_sameTables ⟨rfl, rfl, rfl, rfl, rfl, rfl⟩

/-- **Taking a duplicate review apart.**  It changes the review table, or it
merges. -/
theorem review_cases {s s' : Db} {review : ReviewCall} {result : Option MergeResult}
    (hwf : s.WellFormed) (h : s.reviewDuplicate review = .ok (result, s')) :
    (∃ reviews, s' = { s with duplicateReviews := reviews }) ∨
      ∃ call s₃ s₄, Merged s s' call s₃ s₄ := by
  unfold reviewDuplicate at h
  simp only [bind_ok, require_ok, fromOption_ok] at h
  obtain ⟨r, hget, _, hpending, h⟩ := h
  split at h
  · simp only [bind_ok] at h
    obtain ⟨⟨source, target⟩, hdir, ⟨res, s₁⟩, hmerge, hpure⟩ := h
    rw [pure_ok, Prod.mk.injEq] at hpure
    rw [← hpure.2]
    obtain ⟨s₃, s₄, hm⟩ := merge_cases hwf hmerge
    exact Or.inr ⟨_, s₃, s₄, hm⟩
  · rw [pure_ok, Prod.mk.injEq] at h
    exact Or.inl ⟨_, h.2.symm⟩
  · cases h

/-! ## The evidence after a merge -/

section Evidence

variable {s s' s₃ s₄ : Db}

theorem Merged.closed_eq (hwf : s.WellFormed) (h : Merged s s' call s₃ s₄) :
    ∃ n history activity, s₃ = { s with
      nextId := n
      events := (s.withPointer call).events
      claims := s.claims.map (absorbed (s.transferPairs call)) ++ s.copies call
      claimHistory := history
      conflicts := s.closedConflicts call
      conflictActivity := activity } := by
  obtain ⟨history, htransfer⟩ := transferClaims_eq call
    (withPointer_wellFormed call hwf)
  obtain ⟨activity, hclose⟩ := closeSourceConflicts_eq
    ((s.withPointer call).transferClaims call) call
  refine ⟨s.nextId + (s.findActiveByEvent call.sourceEventId).length, s.claimHistory ++ history,
    activity, ?_⟩
  rw [h.closed, hclose, htransfer]
  rfl

/-- Of the review table a merge changes what closing the review changes. -/
theorem merge_reviews {result : MergeResult} (hwf : s.WellFormed)
    (h : s.mergeDuplicateEvents call = .ok (result, s')) :
    result.reviewId = (s.closeReview call).1 ∧
      s'.duplicateReviews = (s.closeReview call).2.duplicateReviews := by
  obtain ⟨s₃, s₄, hm, hid, hreviews⟩ := merge_stages hwf h
  obtain ⟨n, history, activity, heq⟩ := hm.closed_eq hwf
  have hkept : s₄.duplicateReviews = s.duplicateReviews := by
    rw [hm.detected.only.rest, heq]
  obtain ⟨hid', hreviews'⟩ := closeReview_reviews call hkept
  exact ⟨hid.trans hid', hreviews.trans hreviews'⟩

theorem Merged.claims (hwf : s.WellFormed) (h : Merged s s' call s₃ s₄) :
    s'.claims = s.claims.map (absorbed (s.transferPairs call)) ++ s.copies call := by
  obtain ⟨reviews, rfl⟩ := h.finished
  obtain ⟨n, history, activity, heq⟩ := h.closed_eq hwf
  refine h.detected.only.claims.trans ?_
  rw [heq]

theorem Merged.events (hwf : s.WellFormed) (h : Merged s s' call s₃ s₄) :
    s'.events = (s.withPointer call).events := by
  obtain ⟨reviews, rfl⟩ := h.finished
  obtain ⟨n, history, activity, heq⟩ := h.closed_eq hwf
  refine h.detected.only.events.trans ?_
  rw [heq]

theorem Merged.snapshots (hwf : s.WellFormed) (h : Merged s s' call s₃ s₄) :
    s'.snapshots = s.snapshots := by
  obtain ⟨reviews, rfl⟩ := h.finished
  obtain ⟨n, history, activity, heq⟩ := h.closed_eq hwf
  refine h.detected.only.snapshots.trans ?_
  rw [heq]

/-- Where a claim after a merge comes from: it was there, it was transferred, or
it is the copy of a transferred claim. -/
theorem Merged.mem_claims (hwf : s.WellFormed) (h : Merged s s' call s₃ s₄) {k' : Claim} :
    k' ∈ s'.claims ↔
      (k' ∈ s.claims ∧ ¬ (k'.eventId = call.sourceEventId ∧ k'.isActive = true)) ∨
        (∃ p ∈ s.transferPairs call, k' = supersedeRow p.2 p.1) ∨
        ∃ p ∈ s.transferPairs call, k' = mergedClaim call p.2 p.1 := by
  have hold : k' ∈ s.claims.map (absorbed (s.transferPairs call)) ↔
      (k' ∈ s.claims ∧ ¬ (k'.eventId = call.sourceEventId ∧ k'.isActive = true)) ∨
        ∃ p ∈ s.transferPairs call, k' = supersedeRow p.2 p.1 := by
    rw [List.mem_map]
    constructor
    · intro hk
      obtain ⟨k, hk, rfl⟩ := hk
      by_cases htr : k.eventId = call.sourceEventId ∧ k.isActive = true
      · obtain ⟨n, hn, heq⟩ := absorbed_transferred call hwf hk htr.1 htr.2
        exact Or.inr ⟨(k, n), hn, heq⟩
      · rw [absorbed_other hwf hk htr]
        exact Or.inl ⟨hk, htr⟩
    · intro hk
      rcases hk with ⟨hk, htr⟩ | ⟨p, hp, rfl⟩
      · exact ⟨k', hk, absorbed_other hwf hk htr⟩
      · obtain ⟨hk, he, hactive, -⟩ := mem_transferPairs hp
        obtain ⟨n, hn, heq⟩ := absorbed_transferred call hwf hk he hactive
        rw [← transferPairs_inj hwf hn hp rfl]
        exact ⟨p.1, hk, heq⟩
  rw [h.claims hwf, List.mem_append, hold, copies, List.mem_map, or_assoc]
  simp only [eq_comm]

end Evidence

end Stages

end Db

end Atlas
