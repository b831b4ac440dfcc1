import Atlas.Disputes
import Mathlib

/-!
# What a resolution covers

Resolving a conflict supersedes the active claims that are linked to it.  A claim
that agreed with an earlier winner was never linked, so it can survive the next
resolution: the winner is the only active claim of the field exactly when every
active claim of the field was linked.
-/

namespace Atlas

open Outcome Rows

namespace Db

/-- Every active claim of the conflict's event and field is linked to it. -/
def EvidenceLinked (s : Db) (conflictId : Uuid) : Prop :=
  ∀ c ∈ s.conflicts, c.id = conflictId → ∀ k ∈ s.claims, k.eventId = c.eventId →
    k.fieldName = c.fieldName → k.isActive = true → (c.id, k.id) ∈ s.conflictClaims

instance (s : Db) (conflictId : Uuid) : Decidable (s.EvidenceLinked conflictId) := by
  unfold EvidenceLinked
  infer_instance

/-- The winner of the conflict is the only active claim of its event and field. -/
def WinnerOnly (s : Db) (c : ClaimConflict) : Prop :=
  (s.findActiveByEventField c.eventId c.fieldName).map (fun k => some k.id) = [c.winningClaimId]

instance (s : Db) (c : ClaimConflict) : Decidable (s.WinnerOnly c) := by
  unfold WinnerOnly
  infer_instance

/-- No two active claims of the event and field carry different values without
an OPEN conflict. -/
def NoHiddenDisagreement [PyText] (s : Db) (e : Uuid) (f : String) : Prop :=
  Disagree (s.findActiveByEventField e f) →
    ∃ c ∈ s.conflicts, c.eventId = e ∧ c.fieldName = f ∧ c.status = .open

section Resolve

variable {s s' : Db} {call : ResolveCall} {c u : ClaimConflict} {winner : Uuid} {sw : Db}

/-- The links a winner was chosen under: the old ones and the winner's. -/
theorem WinnerChosen.links (h : WinnerChosen s call c winner sw) {l : Uuid × Uuid} :
    l ∈ sw.conflictClaims ↔ l ∈ s.conflictClaims ∨ l = (c.id, winner) := by
  rcases h with ⟨rfl, hlink, -⟩ | ⟨rfl, rfl⟩
  · constructor
    · exact Or.inl
    · intro hl
      rcases hl with hl | rfl
      · exact hl
      · exact hlink
  · exact mem_insertKey

/-- An old active claim survives a resolution exactly when it is the winner or
not linked to the conflict. -/
theorem Resolved.survives_iff (hwf : s.WellFormed) (h : Resolved s s' call c winner sw u)
    {k : Claim} (hk : k ∈ s.claims) (hactive : k.isActive = true) :
    k ∈ s'.claims ↔ k.id = winner ∨ (c.id, k.id) ∉ s.conflictClaims := by
  constructor
  · intro hk'
    have hnot := (h.active_origin hwf hk' hactive).1
    by_contra hcon
    rw [not_or, not_not] at hcon
    exact hnot ⟨h.chosen.links.mpr (Or.inl hcon.2), hcon.1, hactive⟩
  · intro hor
    apply h.claim_kept hwf (h.mem_chosen hk)
    intro hloser
    rcases hor with hid | hlink
    · exact hloser.2.1 hid
    · rcases h.chosen.links.mp hloser.1 with hl | hl
      · exact hlink hl
      · exact hloser.2.1 (Prod.mk.inj hl).2

/-- **A resolution leaves its winner alone exactly when the evidence was
linked.** -/
theorem Resolved.winnerOnly_iff (hwf : s.WellFormed) (h : Resolved s s' call c winner sw u) :
    s'.WinnerOnly u ↔ s.EvidenceLinked call.conflictId := by
  have hu : u.eventId = c.eventId ∧ u.fieldName = c.fieldName ∧
      u.winningClaimId = some winner := by
    rw [h.row]
    exact ⟨rfl, rfl, rfl⟩
  unfold WinnerOnly
  rw [hu.1, hu.2.1, hu.2.2]
  constructor
  · intro honly d hd hid k hk hke hkf hactive
    rw [hwf.conflictIds.eq_of_key hd h.mem (hid.trans h.id.symm)] at hke hkf ⊢
    by_contra hlink
    have hk' := (h.survives_iff hwf hk hactive).mpr (Or.inr hlink)
    have hmem := List.mem_map_of_mem (f := fun k : Claim => some k.id)
      (mem_findActiveByEventField.mpr ⟨hk', hke, hkf, hactive⟩)
    rw [honly, List.mem_singleton, Option.some.injEq] at hmem
    rcases h.chosen with ⟨-, hwin, -⟩ | ⟨hfresh, -⟩
    · exact hlink (hmem ▸ hwin)
    · exact absurd (hmem.trans hfresh) (Nat.ne_of_lt (hwf.claim_lt k hk))
  · intro hlinked
    obtain ⟨-, -, -, x, hx, hxid, hxactive, hxe, hxf⟩ := h.chosen.spec hwf h.mem
    have hx' := h.claim_kept hwf hx (fun hl => hl.2.1 hxid)
    apply eq_singleton_of_nodup
    · have hnodup : ((s'.findActiveByEventField c.eventId c.fieldName).map Claim.id).Nodup :=
        (h.wellFormed hwf).claimIds.sublist (List.filter_sublist.map _)
      have hmap := hnodup.map (Option.some_injective Uuid)
      rwa [List.map_map] at hmap
    · rw [← hxid]
      exact List.mem_map_of_mem (mem_findActiveByEventField.mpr ⟨hx', hxe, hxf, hxactive⟩)
    · intro y hy
      obtain ⟨k, hk, rfl⟩ := List.mem_map.mp hy
      obtain ⟨hk, hke, hkf, hactive⟩ := mem_findActiveByEventField.mp hk
      rcases (h.active_origin hwf hk hactive).2 with hold | ⟨rfl, hid⟩
      · rcases (h.survives_iff hwf hold hactive).mp hk with hid | hlink
        · rw [hid]
        · exact absurd (hlinked c h.mem h.id k hold hke hkf hactive) hlink
      · rw [hid]
        rfl

/-- Where the winner is alone, nothing disagrees. -/
theorem WinnerOnly.noHiddenDisagreement [PyText] {s : Db} {c : ClaimConflict}
    (h : s.WinnerOnly c) : s.NoHiddenDisagreement c.eventId c.fieldName := by
  intro hdis
  exfalso
  unfold WinnerOnly at h
  obtain ⟨k, hk, -⟩ := List.map_eq_singleton_iff.mp h
  rw [hk, disagree_iff] at hdis
  exact hdis (List.pairwise_singleton _ _)

end Resolve

end Db

/-- **After a resolution the winner is the only active claim of its field**, and
no disagreement is left without an OPEN conflict, exactly when every active claim
of the field was linked to the conflict before. -/
theorem resolution_winner_only_iff [PyText] {s s' : Db} (hs : Reachable s) {call : ResolveCall}
    {u : ClaimConflict} {p : ProjectedAccidentRecord}
    (h : s.resolveConflict call = .ok (u, p, s')) :
    (s'.WinnerOnly u ∧ s'.NoHiddenDisagreement u.eventId u.fieldName) ↔
      s.EvidenceLinked call.conflictId := by
  obtain ⟨c, winner, sw, hres⟩ := Db.resolve_cases hs.inv.wf h
  rw [← hres.winnerOnly_iff hs.inv.wf]
  exact ⟨fun hboth => hboth.1, fun honly => ⟨honly, honly.noHiddenDisagreement⟩⟩

def firstResolution : ResolveCall := ⟨10, 1, some 6, .null, false, some 9, "", 3, 3⟩

theorem resolution_winner_only_two_sources :
    ∃ r, (after fourSources twoSourcesDisagree).resolveConflict firstResolution = .ok r ∧
      r.2.2.WinnerOnly r.1 := by
  obtain ⟨r, hr, -⟩ := exists_ok_of_any (P := fun _ => True)
    (x := (after fourSources twoSourcesDisagree).resolveConflict firstResolution)
    (by decide +kernel)
  refine ⟨r, hr, ?_⟩
  have hlinked : (after fourSources twoSourcesDisagree).EvidenceLinked
      firstResolution.conflictId := by
    decide +kernel
  exact ((resolution_winner_only_iff ⟨fourSources, twoSourcesDisagree, rfl⟩ hr).mpr hlinked).1

/-- The first source wins, a third source agrees with it, and the conflict is
reopened. -/
def thirdSourceAgrees : List Op :=
  twoSourcesDisagree ++ [.resolve firstResolution, operatorReport 2 102 (some 5) none 1 4,
    .reopen ⟨10, 2, 9, "", 5⟩]

/-- Resolving the reopened conflict for the second source leaves the third one's
claim active: it was never linked. -/
theorem resolution_leaves_unlinked_claim :
    ¬ ∀ sources ops call u p s',
      (after sources ops).resolveConflict call = .ok (u, p, s') → s'.WinnerOnly u := by
  intro h
  obtain ⟨r, hr, hfails⟩ := exists_ok_of_any (P := fun r => ¬ r.2.2.WinnerOnly r.1)
    (x := (after fourSources thirdSourceAgrees).resolveConflict
      ⟨10, 3, some 9, .null, false, some 9, "", 3, 6⟩) (by decide +kernel)
  exact hfails (h _ _ _ _ _ _ hr)

end Atlas
