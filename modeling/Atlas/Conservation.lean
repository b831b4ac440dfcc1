import Atlas.SystemLaws

/-!
# A merge conserves the evidence

A merge moves the active claims of the source event to the target, one copy for
each, and closes the source's conflicts.  Nothing else happens to the evidence:
the target keeps what it had, and no row of a third event changes.  A merge that
raises changes nothing at all.
-/

namespace Atlas

open Rows

namespace Db

/-- The claim is a copy of the other on the given event: same source, snapshot
and hence record, same field and value. -/
structure IsCopyOn (target : Uuid) (old copy : Claim) : Prop where
  eventId : copy.eventId = target
  sourceId : copy.sourceId = old.sourceId
  rawSnapshotId : copy.rawSnapshotId = old.rawSnapshotId
  fieldName : copy.fieldName = old.fieldName
  fieldValue : copy.fieldValue = old.fieldValue
  claimType : copy.claimType = old.claimType

section Copies

variable {s : Db} {call : MergeCall}

theorem forall₂_numbered (n : Nat) (ks : List Claim) :
    List.Forall₂ (IsCopyOn call.targetEventId) ks
      ((numbered n ks).map fun p => mergedClaim call p.2 p.1) := by
  induction ks generalizing n with
  | nil => exact .nil
  | cons k ks ih => exact .cons ⟨rfl, rfl, rfl, rfl, rfl, rfl⟩ (ih (n + 1))

/-- One copy for each active claim of the source event. -/
theorem forall₂_copies (s : Db) (call : MergeCall) :
    List.Forall₂ (IsCopyOn call.targetEventId) (s.findActiveByEvent call.sourceEventId)
      (s.copies call) := forall₂_numbered s.nextId _

theorem copies_eventId {k : Claim} (hk : k ∈ s.copies call) : k.eventId = call.targetEventId := by
  obtain ⟨p, -, rfl⟩ := List.mem_map.mp hk
  rfl

theorem copies_isActive {k : Claim} (hk : k ∈ s.copies call) : k.isActive = true := by
  obtain ⟨p, hp, rfl⟩ := List.mem_map.mp hk
  exact (mem_transferPairs hp).2.2.1

/-- The copies get identifiers that were not in use. -/
theorem copies_fresh {k : Claim} (hk : k ∈ s.copies call) : s.nextId ≤ k.id := by
  obtain ⟨p, hp, rfl⟩ := List.mem_map.mp hk
  exact (mem_transferPairs hp).2.2.2

end Copies

section Merge

variable [PyText] {s s' s₃ s₄ : Db} {call : MergeCall}

omit [PyText] in
/-- Transferring claims that a selection does not see leaves the selection alone. -/
theorem filter_absorbed (hwf : s.WellFormed) {q : Claim → Bool}
    (hq : ∀ k ∈ s.claims, k.eventId = call.sourceEventId → k.isActive = true →
      q k = false ∧ q (absorbed (s.transferPairs call) k) = false) :
    ((s.claims.map (absorbed (s.transferPairs call))).filter q) = s.claims.filter q := by
  have hmap : ∀ k ∈ s.claims, (k.eventId = call.sourceEventId ∧ k.isActive = true) ∨
      absorbed (s.transferPairs call) k = k := by
    intro k hk
    by_cases htr : k.eventId = call.sourceEventId ∧ k.isActive = true
    · exact .inl htr
    · exact .inr (absorbed_other hwf hk htr)
  generalize s.claims = rows at hq hmap
  induction rows with
  | nil => rfl
  | cons k rows ih =>
      have ih := ih (fun x hx => hq x (List.mem_cons_of_mem k hx))
        (fun x hx => hmap x (List.mem_cons_of_mem k hx))
      rw [List.map_cons]
      rcases hmap k (by simp) with ⟨he, hactive⟩ | heq
      · obtain ⟨hqk, hqa⟩ := hq k (by simp) he hactive
        rw [List.filter_cons_of_neg (by simp [hqa]), List.filter_cons_of_neg (by simp [hqk]), ih]
      · rw [heq, List.filter_cons, List.filter_cons, ih]

/-- The claims of a third event stay as they are. -/
theorem Merged.claims_other (hwf : s.WellFormed) (h : Merged s s' call s₃ s₄) {x : Uuid}
    (hsource : x ≠ call.sourceEventId) (htarget : x ≠ call.targetEventId) :
    (s'.claims.filter fun k => k.eventId = x) = s.claims.filter fun k => k.eventId = x := by
  have hcopies : ((s.copies call).filter fun k => k.eventId = x) = [] := by
    rw [List.filter_eq_nil_iff]
    intro k hk hx
    exact htarget ((of_decide_eq_true hx).symm.trans (copies_eventId hk))
  rw [h.claims hwf, List.filter_append, hcopies, List.append_nil, filter_absorbed hwf]
  · intro k hk he _
    have hne : k.eventId ≠ x := fun hx => hsource (hx.symm.trans he)
    refine ⟨decide_eq_false hne, ?_⟩
    rw [(keepsClaim_absorbed (s.transferPairs call)).eventId]
    exact decide_eq_false hne

/-- The target has what it had, and the copies. -/
theorem Merged.active_target (hwf : s.WellFormed) (h : Merged s s' call s₃ s₄) :
    s'.findActiveByEvent call.targetEventId =
      s.findActiveByEvent call.targetEventId ++ s.copies call := by
  unfold findActiveByEvent
  rw [h.claims hwf, List.filter_append, filter_absorbed hwf]
  · congr 1
    rw [List.filter_eq_self]
    intro k hk
    simp [copies_eventId hk, copies_isActive hk]
  · intro k hk he _
    have hne : k.eventId ≠ call.targetEventId := by
      rw [he]
      exact h.distinct
    have hne' : (absorbed (s.transferPairs call) k).eventId ≠ call.targetEventId := by
      rw [(keepsClaim_absorbed (s.transferPairs call)).eventId]
      exact hne
    simp [hne, hne']

/-- The source has no active claim left. -/
theorem Merged.active_source (hwf : s.WellFormed) (h : Merged s s' call s₃ s₄) :
    s'.findActiveByEvent call.sourceEventId = [] := by
  unfold findActiveByEvent
  rw [List.filter_eq_nil_iff]
  intro k' hk' hcond
  simp only [decide_eq_true_eq] at hcond
  rcases (h.mem_claims hwf).mp hk' with ⟨-, hnot⟩ | ⟨p, -, rfl⟩ | ⟨p, -, rfl⟩
  · exact hnot hcond
  · cases hcond.2
  · exact h.distinct hcond.1.symm

/-- The conflict rows of a third event stay as they are. -/
theorem Merged.conflicts_other (hwf : s.WellFormed) (h : Merged s s' call s₃ s₄) {x : Uuid}
    (hsource : x ≠ call.sourceEventId) (htarget : x ≠ call.targetEventId) :
    (s'.conflicts.filter fun c => c.eventId = x) = s.conflicts.filter fun c => c.eventId = x := by
  have hdetected := (h.detected.logged.frame h.wf₃.rowIds).2 x htarget
  obtain ⟨reviews, rfl⟩ := h.finished
  obtain ⟨n, history, activity, heq⟩ := h.closed_eq hwf
  refine hdetected.trans ?_
  rw [heq]
  refine filter_updateWhere ?_
  intro c _ hclosed
  simp only [decide_eq_true_eq] at hclosed
  have hne : c.eventId ≠ x := fun hx => hsource (hx.symm.trans hclosed.1)
  exact ⟨decide_eq_false hne, decide_eq_false hne⟩

/-- The source has no OPEN conflict left. -/
theorem Merged.closed_source (hwf : s.WellFormed) (h : Merged s s' call s₃ s₄) {c : ClaimConflict}
    (hc : c ∈ s'.conflicts) (he : c.eventId = call.sourceEventId) : c.status ≠ .open := by
  obtain ⟨reviews, rfl⟩ := h.finished
  have hc₃ : c ∈ s₃.conflicts := by
    refine (h.detected.others c ?_).mp hc
    intro hx
    exact h.distinct (he.symm.trans hx.1)
  obtain ⟨n, history, activity, heq⟩ := h.closed_eq hwf
  rw [heq] at hc₃
  obtain ⟨d, hd, rfl⟩ := mem_updateWhere.mp hc₃
  split
  · intro hopen
    cases hopen
  · rename_i hnot
    intro hopen
    rw [if_neg hnot] at he
    exact hnot (decide_eq_true ⟨he, hopen⟩)

/-- The evidence links of a third event's conflicts stay as they are. -/
theorem Merged.links_other (hwf : s.WellFormed) (h : Merged s s' call s₃ s₄) {c : ClaimConflict}
    (hc : c ∈ s'.conflicts) (htarget : c.eventId ≠ call.targetEventId) (k : Uuid) :
    (c.id, k) ∈ s'.conflictClaims ↔ (c.id, k) ∈ s.conflictClaims := by
  obtain ⟨n, history, activity, heq⟩ := h.closed_eq hwf
  have hlinks : s₃.conflictClaims = s.conflictClaims := by rw [heq]
  obtain ⟨reviews, rfl⟩ := h.finished
  rw [← hlinks]
  constructor
  · intro hl
    rcases h.detected.newLinks _ hl with hl | ⟨d, hd, hid, hde, -⟩
    · exact hl
    · rw [h.detected.wf.conflictIds.eq_of_key hd hc hid] at hde
      exact absurd hde htarget
  · exact h.detected.links _

end Merge

end Db

section Runs

variable [PyText]

/-- **A merge conserves the evidence.**  When it goes through, the target's active
claims are those it had and one copy of each active claim of the source; the
source has no active claim and no OPEN conflict; claims, conflicts and evidence
links of every other event are unchanged.  When it raises, the store is
unchanged. -/
theorem merge_conserves_evidence {s : Db} (hs : Reachable s) (call : MergeCall) :
    (∀ s', (Op.merge call).run s = .ok s' →
      (∃ copies, s'.findActiveByEvent call.targetEventId =
            s.findActiveByEvent call.targetEventId ++ copies ∧
          List.Forall₂ (Db.IsCopyOn call.targetEventId) (s.findActiveByEvent call.sourceEventId)
            copies ∧
          (∀ k ∈ copies, ∀ old ∈ s.claims, old.id ≠ k.id) ∧
          ∀ k : Claim, s'.recordOf k = s.recordOf k) ∧
        s'.findActiveByEvent call.sourceEventId = [] ∧
        (∀ c ∈ s'.conflicts, c.eventId = call.sourceEventId → c.status ≠ .open) ∧
        ∀ x, x ≠ call.sourceEventId → x ≠ call.targetEventId →
          (s'.claims.filter fun k => k.eventId = x) = (s.claims.filter fun k => k.eventId = x) ∧
          (s'.conflicts.filter fun c => c.eventId = x) =
            (s.conflicts.filter fun c => c.eventId = x) ∧
          ∀ c ∈ s'.conflicts, c.eventId = x →
            ∀ k, (c.id, k) ∈ s'.conflictClaims ↔ (c.id, k) ∈ s.conflictClaims) ∧
      ((∀ s', (Op.merge call).run s ≠ .ok s') → step s (.merge call) = s) := by
  have hwf := hs.inv.wf
  constructor
  · intro s' hrun
    obtain ⟨⟨result, s''⟩, hmerge, hpure⟩ := Outcome.bind_ok.mp hrun
    rw [Outcome.pure_ok] at hpure
    subst hpure
    obtain ⟨s₃, s₄, h⟩ := Db.merge_cases hwf hmerge
    refine ⟨⟨s.copies call, h.active_target hwf, Db.forall₂_copies s call, ?_, ?_⟩,
      h.active_source hwf, fun c hc he => h.closed_source hwf hc he, ?_⟩
    · intro k hk old hold hid
      have hlt := hwf.claim_lt old hold
      have hle := Db.copies_fresh hk
      rw [hid] at hlt
      exact absurd hlt (Nat.not_lt.mpr hle)
    · intro k
      exact Db.recordOf_snapshots (h.snapshots hwf) k
    · intro x hsource htarget
      refine ⟨h.claims_other hwf hsource htarget, h.conflicts_other hwf hsource htarget, ?_⟩
      intro c hc he
      exact h.links_other hwf hc (fun ht => htarget (he.symm.trans ht))
  · intro hraises
    rcases step_cases s (.merge call) with hok | ⟨-, hsame⟩
    · exact absurd hok (hraises _)
    · exact hsame

end Runs

/-- A contested event, and another event. -/
def contestedAndOther : List Op :=
  [operatorReport 0 100 none none 1 1, operatorReport 1 101 (some 5) none 2 2,
    operatorReport 2 102 none none 1 3]

theorem merge_conserves_evidence_contested :
    ∃ s' copies, (Op.merge ⟨5, 13, 9, "", none, 4⟩).run (after fourSources contestedAndOther) =
        .ok s' ∧
      s'.findActiveByEvent 13 = (after fourSources contestedAndOther).findActiveByEvent 13 ++ copies ∧
      List.Forall₂ (Db.IsCopyOn 13) ((after fourSources contestedAndOther).findActiveByEvent 5)
        copies ∧
      s'.findActiveByEvent 5 = [] := by
  obtain ⟨s', hs', -⟩ := Outcome.exists_ok_of_any (P := fun _ => True)
    (x := (Op.merge ⟨5, 13, 9, "", none, 4⟩).run (after fourSources contestedAndOther))
    (by decide +kernel)
  obtain ⟨⟨copies, htarget, hcopies, -⟩, hsource, -⟩ :=
    (merge_conserves_evidence ⟨fourSources, contestedAndOther, rfl⟩ ⟨5, 13, 9, "", none, 4⟩).1 s' hs'
  exact ⟨s', copies, hs', htarget, hcopies, hsource⟩

end Atlas
