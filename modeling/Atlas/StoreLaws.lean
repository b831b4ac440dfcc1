import Atlas.ClaimWriter
import Atlas.Reconciler

/-!
# Laws of the store

`WellFormed` collects what every committed operation keeps true of the tables,
also between its writes: identifiers are unique and below the counter, evidence
links and winners lie on the event and field of their conflict, a claim is
SUPERSEDED exactly when it points at the claim that superseded it, an event and
field has at most one conflict row, and only the merge of an event leaves a
RESOLVED conflict without a winner.

Each elementary write has one lemma here.  The laws of the use cases are chains
of these lemmas.
-/

namespace Atlas

open Rows

namespace Db

/-- The event is merged into another one. -/
def IsMerged (s : Db) (eventId : Uuid) : Prop :=
  ∃ e ∈ s.events, e.id = eventId ∧ e.mergedInto ≠ none

instance (s : Db) (e : Uuid) : Decidable (s.IsMerged e) := by
  unfold IsMerged
  infer_instance

/-- The event exists and is not merged. -/
def IsLive (s : Db) (eventId : Uuid) : Prop :=
  ∃ e ∈ s.events, e.id = eventId ∧ e.mergedInto = none

/-- The laws of the tables. -/
structure WellFormed (s : Db) : Prop where
  claimIds : Unique Claim.id s.claims
  conflictIds : Unique ClaimConflict.id s.conflicts
  eventIds : Unique AccidentEvent.id s.events
  snapshotIds : Unique RawSnapshot.id s.snapshots
  claim_lt : ∀ k ∈ s.claims, k.id < s.nextId
  conflict_lt : ∀ c ∈ s.conflicts, c.id < s.nextId
  event_lt : ∀ e ∈ s.events, e.id < s.nextId
  snapshot_lt : ∀ r ∈ s.snapshots, r.id < s.nextId
  /-- A link joins a conflict and a claim of one event and field. -/
  linkRef : ∀ l ∈ s.conflictClaims, ∃ c ∈ s.conflicts, c.id = l.1 ∧
    ∃ k ∈ s.claims, k.id = l.2 ∧ k.eventId = c.eventId ∧ k.fieldName = c.fieldName
  winnerLinked : ∀ c ∈ s.conflicts, ∀ w, c.winningClaimId = some w → (c.id, w) ∈ s.conflictClaims
  superseded : ∀ k ∈ s.claims, k.isActive = false ↔ k.supersededBy ≠ none
  oneRow : Unique (fun c : ClaimConflict => (c.eventId, c.fieldName)) s.conflicts
  winnerless : ∀ c ∈ s.conflicts, c.status = .resolved → c.winningClaimId = none →
    s.IsMerged c.eventId
  claimEvent : ∀ k ∈ s.claims, ∃ e ∈ s.events, e.id = k.eventId
  conflictEvent : ∀ c ∈ s.conflicts, ∃ e ∈ s.events, e.id = c.eventId
  claimSnapshot : ∀ k ∈ s.claims, ∀ i, k.rawSnapshotId = some i →
    ∃ r ∈ s.snapshots, r.id = i ∧ r.sourceId = k.sourceId

theorem wellFormed_empty (sources : List Source) : (Db.empty sources).WellFormed := by
  constructor <;> simp [Db.empty, unique_nil]

/-- Two stores with the same identifier counter and the same event, snapshot,
claim, conflict and link tables. -/
structure SameTables (s s' : Db) : Prop where
  nextId : s'.nextId = s.nextId
  events : s'.events = s.events
  snapshots : s'.snapshots = s.snapshots
  claims : s'.claims = s.claims
  conflicts : s'.conflicts = s.conflicts
  conflictClaims : s'.conflictClaims = s.conflictClaims

theorem WellFormed.of_sameTables {s s' : Db} (hwf : s.WellFormed) (h : SameTables s s') :
    s'.WellFormed := by
  obtain ⟨h₁, h₂, h₃, h₄, h₅, h₆⟩ := h
  constructor <;> simp only [h₁, h₂, h₃, h₄, h₅, h₆, IsMerged]
  all_goals first
    | exact hwf.claimIds
    | exact hwf.conflictIds
    | exact hwf.eventIds
    | exact hwf.snapshotIds
    | exact hwf.claim_lt
    | exact hwf.conflict_lt
    | exact hwf.event_lt
    | exact hwf.snapshot_lt
    | exact hwf.linkRef
    | exact hwf.winnerLinked
    | exact hwf.superseded
    | exact hwf.oneRow
    | exact hwf.winnerless
    | exact hwf.claimEvent
    | exact hwf.conflictEvent
    | exact hwf.claimSnapshot

/-! ## Reading a well-formed store -/

section Reads

variable {s : Db}

theorem getClaim_eq (hwf : s.WellFormed) {k : Claim} (hk : k ∈ s.claims) :
    s.getClaim k.id = some k := hwf.claimIds.lookup_eq hk

theorem getConflict_eq (hwf : s.WellFormed) {c : ClaimConflict} (hc : c ∈ s.conflicts) :
    s.getConflict c.id = some c := hwf.conflictIds.lookup_eq hc

theorem getConflict_some {id : Uuid} {c : ClaimConflict} (h : s.getConflict id = some c) :
    c ∈ s.conflicts ∧ c.id = id := lookup_some h

theorem mem_findConflictsByEvent {e : Uuid} {c : ClaimConflict} :
    c ∈ s.findConflictsByEvent e ↔ c ∈ s.conflicts ∧ c.eventId = e := by
  unfold findConflictsByEvent
  rw [(List.perm_insertionSort _ _).mem_iff]
  simp

theorem getClaim_some {id : Uuid} {k : Claim} (h : s.getClaim id = some k) :
    k ∈ s.claims ∧ k.id = id := lookup_some h

theorem getEvent_some {id : Uuid} {e : AccidentEvent} (h : s.getEvent id = some e) :
    e ∈ s.events ∧ e.id = id := lookup_some h

theorem mem_getClaimIdsForConflict {conflictId claimId : Uuid} :
    claimId ∈ s.getClaimIdsForConflict conflictId ↔ (conflictId, claimId) ∈ s.conflictClaims := by
  simp [getClaimIdsForConflict]

/-- An event is merged or live, never both. -/
theorem IsLive.not_isMerged (hwf : s.WellFormed) {e : Uuid} (h : s.IsLive e) : ¬ s.IsMerged e := by
  obtain ⟨a, ha, rfl, hnone⟩ := h
  intro hm
  obtain ⟨b, hb, hid, hsome⟩ := hm
  rw [hwf.eventIds.eq_of_key hb ha hid] at hsome
  exact hsome hnone

/-- A linked claim lies on the event and field of the conflict. -/
theorem WellFormed.link (hwf : s.WellFormed) {c : ClaimConflict} {k : Claim}
    (hc : c ∈ s.conflicts) (hk : k ∈ s.claims) (hl : (c.id, k.id) ∈ s.conflictClaims) :
    k.eventId = c.eventId ∧ k.fieldName = c.fieldName := by
  obtain ⟨c', hc', hcid, k', hk', hkid, hev, hf⟩ := hwf.linkRef _ hl
  rw [hwf.conflictIds.eq_of_key hc' hc hcid, hwf.claimIds.eq_of_key hk' hk hkid] at *
  exact ⟨hev, hf⟩

/-- The winner of a conflict is a claim of its event and field. -/
theorem WellFormed.winner (hwf : s.WellFormed) {c : ClaimConflict} (hc : c ∈ s.conflicts) {w : Uuid}
    (hw : c.winningClaimId = some w) :
    ∃ k ∈ s.claims, k.id = w ∧ k.eventId = c.eventId ∧ k.fieldName = c.fieldName := by
  obtain ⟨c', hc', hcid, hk⟩ := hwf.linkRef _ (hwf.winnerLinked c hc w hw)
  rwa [hwf.conflictIds.eq_of_key hc' hc hcid] at hk

theorem WellFormed.row_eq (hwf : s.WellFormed) {c d : ClaimConflict} (hc : c ∈ s.conflicts)
    (hd : d ∈ s.conflicts) (he : c.eventId = d.eventId) (hf : c.fieldName = d.fieldName) : c = d :=
  hwf.oneRow.eq_of_key hc hd (by simp [he, hf])

end Reads

/-! ## Elementary writes -/

section Writes

variable {s : Db}

theorem WellFormed.raise (hwf : s.WellFormed) {n : Nat} (h : s.nextId ≤ n) :
    ({ s with nextId := n } : Db).WellFormed :=
  { hwf with
    claim_lt := fun k hk => lt_of_lt_of_le (hwf.claim_lt k hk) h
    conflict_lt := fun c hc => lt_of_lt_of_le (hwf.conflict_lt c hc) h
    event_lt := fun e he => lt_of_lt_of_le (hwf.event_lt e he) h
    snapshot_lt := fun r hr => lt_of_lt_of_le (hwf.snapshot_lt r hr) h }

theorem WellFormed.uuid4 (hwf : s.WellFormed) :
    ({ s with nextId := s.nextId + 1 } : Db).WellFormed := hwf.raise (Nat.le_succ s.nextId)

theorem WellFormed.addClaims (hwf : s.WellFormed) {news : List Claim}
    (hid : ∀ k ∈ news, k.id < s.nextId) (hunique : Unique Claim.id (s.claims ++ news))
    (hactive : ∀ k ∈ news, k.isActive = true) (hsup : ∀ k ∈ news, k.supersededBy = none)
    (hevent : ∀ k ∈ news, ∃ e ∈ s.events, e.id = k.eventId)
    (hsnap : ∀ k ∈ news, ∀ i, k.rawSnapshotId = some i →
      ∃ r ∈ s.snapshots, r.id = i ∧ r.sourceId = k.sourceId) :
    ({ s with claims := s.claims ++ news } : Db).WellFormed := by
  refine { hwf with
    claimIds := hunique, claim_lt := ?_, linkRef := ?_
    superseded := ?_, claimEvent := ?_, claimSnapshot := ?_ }
  · intro x hx
    rcases List.mem_append.mp hx with hx | hx
    · exact hwf.claim_lt x hx
    · exact hid x hx
  · intro l hl
    obtain ⟨c, hc, hcid, x, hx, hrest⟩ := hwf.linkRef l hl
    exact ⟨c, hc, hcid, x, List.mem_append_left _ hx, hrest⟩
  · intro x hx
    rcases List.mem_append.mp hx with hx | hx
    · exact hwf.superseded x hx
    · simp [hactive x hx, hsup x hx]
  · intro x hx
    rcases List.mem_append.mp hx with hx | hx
    · exact hwf.claimEvent x hx
    · exact hevent x hx
  · intro x hx
    rcases List.mem_append.mp hx with hx | hx
    · exact hwf.claimSnapshot x hx
    · exact hsnap x hx

theorem WellFormed.addClaim (hwf : s.WellFormed) {k : Claim} (hid : k.id < s.nextId)
    (hfresh : ∀ x ∈ s.claims, x.id ≠ k.id) (hactive : k.isActive = true)
    (hsup : k.supersededBy = none) (hevent : ∃ e ∈ s.events, e.id = k.eventId)
    (hsnap : ∀ i, k.rawSnapshotId = some i → ∃ r ∈ s.snapshots, r.id = i ∧ r.sourceId = k.sourceId) :
    (s.addClaim k).WellFormed := by
  have hmem : ∀ {P : Claim → Prop}, P k → ∀ x ∈ [k], P x := by
    intro P hk x hx
    rw [List.mem_singleton.mp hx]
    exact hk
  exact hwf.addClaims (hmem hid) (hwf.claimIds.append_single hfresh) (hmem hactive) (hmem hsup)
    (hmem hevent) (hmem hsnap)

/-- Only the type and the supersession pointer of a claim change. -/
structure KeepsClaim (f : Claim → Claim) : Prop where
  id : ∀ k, (f k).id = k.id
  eventId : ∀ k, (f k).eventId = k.eventId
  sourceId : ∀ k, (f k).sourceId = k.sourceId
  rawSnapshotId : ∀ k, (f k).rawSnapshotId = k.rawSnapshotId
  fieldName : ∀ k, (f k).fieldName = k.fieldName
  fieldValue : ∀ k, (f k).fieldValue = k.fieldValue
  createdAt : ∀ k, (f k).createdAt = k.createdAt

/-- A change of some of the claims. -/
theorem KeepsClaim.ite {f : Claim → Claim} (hf : KeepsClaim f) (p : Claim → Prop) [DecidablePred p] :
    KeepsClaim fun k => if p k then f k else k := by
  constructor
  · intro k
    split
    · exact hf.id k
    · rfl
  · intro k
    split
    · exact hf.eventId k
    · rfl
  · intro k
    split
    · exact hf.sourceId k
    · rfl
  · intro k
    split
    · exact hf.rawSnapshotId k
    · rfl
  · intro k
    split
    · exact hf.fieldName k
    · rfl
  · intro k
    split
    · exact hf.fieldValue k
    · rfl
  · intro k
    split
    · exact hf.createdAt k
    · rfl

theorem keepsClaim_supersedeRow (by' : Uuid) : KeepsClaim (supersedeRow by') := by
  constructor <;> intro k <;> rfl

theorem keepsClaim_unsupersedeRow (s : Db) : KeepsClaim s.unsupersedeRow := by
  constructor <;> intro k <;> rfl

theorem WellFormed.updateClaims (hwf : s.WellFormed) {p : Claim → Bool} {f : Claim → Claim}
    (hf : KeepsClaim f)
    (hsup : ∀ k ∈ s.claims, p k = true → ((f k).isActive = false ↔ (f k).supersededBy ≠ none)) :
    ({ s with claims := updateWhere p f s.claims } : Db).WellFormed := by
  have hrow : ∀ k' ∈ updateWhere p f s.claims, ∃ k ∈ s.claims,
      k'.id = k.id ∧ k'.eventId = k.eventId ∧ k'.fieldName = k.fieldName ∧
        k'.sourceId = k.sourceId ∧ k'.rawSnapshotId = k.rawSnapshotId ∧
        (k'.isActive = false ↔ k'.supersededBy ≠ none) := by
    intro k' hk'
    obtain ⟨k, hk, rfl⟩ := mem_updateWhere.mp hk'
    refine ⟨k, hk, ?_⟩
    by_cases hp : p k = true
    · rw [if_pos hp]
      exact ⟨hf.id k, hf.eventId k, hf.fieldName k, hf.sourceId k, hf.rawSnapshotId k, hsup k hk hp⟩
    · rw [if_neg hp]
      exact ⟨rfl, rfl, rfl, rfl, rfl, hwf.superseded k hk⟩
  refine { hwf with
    claimIds := hwf.claimIds.updateWhere hf.id, claim_lt := ?_, linkRef := ?_
    superseded := ?_, claimEvent := ?_, claimSnapshot := ?_ }
  · intro k' hk'
    obtain ⟨k, hk, hid, -⟩ := hrow k' hk'
    rw [hid]
    exact hwf.claim_lt k hk
  · intro l hl
    obtain ⟨c, hc, hcid, k, hk, hkid, hev, hfn⟩ := hwf.linkRef l hl
    refine ⟨c, hc, hcid, if p k = true then f k else k, mem_updateWhere.mpr ⟨k, hk, rfl⟩, ?_⟩
    by_cases hp : p k = true
    · rw [if_pos hp, hf.id, hf.eventId, hf.fieldName]
      exact ⟨hkid, hev, hfn⟩
    · rw [if_neg hp]
      exact ⟨hkid, hev, hfn⟩
  · intro k' hk'
    obtain ⟨k, -, -, -, -, -, -, h⟩ := hrow k' hk'
    exact h
  · intro k' hk'
    obtain ⟨k, hk, -, hev, -⟩ := hrow k' hk'
    rw [hev]
    exact hwf.claimEvent k hk
  · intro k' hk' i hi
    obtain ⟨k, hk, -, -, -, hsrc, hraw, -⟩ := hrow k' hk'
    rw [hsrc]
    exact hwf.claimSnapshot k hk i (hraw ▸ hi)

theorem WellFormed.bulkSupersede (hwf : s.WellFormed) (ids : List Uuid) (by' : Uuid) :
    (s.bulkSupersede ids by').2.WellFormed := by
  apply hwf.updateClaims (keepsClaim_supersedeRow by')
  intro k _ _
  simp [supersedeRow, Claim.isActive, ClaimType.isActive]

/-- What `bulk_unsupersede` restores is an active type. -/
theorem restoredType_isActive (s : Db) (id : Uuid) : (s.restoredType id).isActive = true := by
  unfold restoredType
  split
  · rfl
  · split
    · rfl
    · rfl
    · rename_i t hne _
      cases t <;> simp_all [ClaimType.isActive]

theorem WellFormed.bulkUnsupersede (hwf : s.WellFormed) (ids : List Uuid) :
    (s.bulkUnsupersede ids).2.WellFormed := by
  apply hwf.updateClaims (keepsClaim_unsupersedeRow s)
  intro k _ _
  simp [unsupersedeRow, Claim.isActive, restoredType_isActive]

/-- Only status, winner, version and bookkeeping of a conflict row change. -/
structure KeepsConflict (g : ClaimConflict → ClaimConflict) : Prop where
  id : ∀ c, (g c).id = c.id
  eventId : ∀ c, (g c).eventId = c.eventId
  fieldName : ∀ c, (g c).fieldName = c.fieldName

theorem KeepsConflict.key {g : ClaimConflict → ClaimConflict} (hg : KeepsConflict g)
    (c : ClaimConflict) : ((g c).eventId, (g c).fieldName) = (c.eventId, c.fieldName) := by
  rw [hg.eventId, hg.fieldName]

theorem WellFormed.updateConflicts (hwf : s.WellFormed) {p : ClaimConflict → Bool}
    {g : ClaimConflict → ClaimConflict} (hg : KeepsConflict g)
    (hwinner : ∀ c ∈ s.conflicts, p c = true → ∀ w, (g c).winningClaimId = some w →
      (c.id, w) ∈ s.conflictClaims)
    (hnone : ∀ c ∈ s.conflicts, p c = true → (g c).status = .resolved →
      (g c).winningClaimId = none → s.IsMerged c.eventId) :
    ({ s with conflicts := updateWhere p g s.conflicts } : Db).WellFormed := by
  refine { hwf with
    conflictIds := hwf.conflictIds.updateWhere hg.id, conflict_lt := ?_, linkRef := ?_
    winnerLinked := ?_, oneRow := hwf.oneRow.updateWhere hg.key, winnerless := ?_
    conflictEvent := ?_ }
  · intro c' hc'
    obtain ⟨c, hc, rfl⟩ := mem_updateWhere.mp hc'
    by_cases hp : p c = true
    · rw [if_pos hp, hg.id]
      exact hwf.conflict_lt c hc
    · rw [if_neg hp]
      exact hwf.conflict_lt c hc
  · intro l hl
    obtain ⟨c, hc, hcid, k, hk, hkid, hev, hfn⟩ := hwf.linkRef l hl
    refine ⟨if p c = true then g c else c, mem_updateWhere.mpr ⟨c, hc, rfl⟩, ?_⟩
    by_cases hp : p c = true
    · rw [if_pos hp, hg.id, hg.eventId, hg.fieldName]
      exact ⟨hcid, k, hk, hkid, hev, hfn⟩
    · rw [if_neg hp]
      exact ⟨hcid, k, hk, hkid, hev, hfn⟩
  · intro c' hc' w hw
    obtain ⟨c, hc, rfl⟩ := mem_updateWhere.mp hc'
    by_cases hp : p c = true
    · rw [if_pos hp] at hw ⊢
      rw [hg.id]
      exact hwinner c hc hp w hw
    · rw [if_neg hp] at hw ⊢
      exact hwf.winnerLinked c hc w hw
  · intro c' hc' hres hw
    obtain ⟨c, hc, rfl⟩ := mem_updateWhere.mp hc'
    by_cases hp : p c = true
    · rw [if_pos hp] at hres hw ⊢
      rw [hg.eventId]
      exact hnone c hc hp hres hw
    · rw [if_neg hp] at hres hw ⊢
      exact hwf.winnerless c hc hres hw
  · intro c' hc'
    obtain ⟨c, hc, rfl⟩ := mem_updateWhere.mp hc'
    by_cases hp : p c = true
    · rw [if_pos hp, hg.eventId]
      exact hwf.conflictEvent c hc
    · rw [if_neg hp]
      exact hwf.conflictEvent c hc

theorem WellFormed.addConflict (hwf : s.WellFormed) {c : ClaimConflict} (hid : c.id < s.nextId)
    (hfresh : ∀ d ∈ s.conflicts, d.id ≠ c.id)
    (hrow : ∀ d ∈ s.conflicts, (d.eventId, d.fieldName) ≠ (c.eventId, c.fieldName))
    (hopen : c.status = .open) (hwinner : c.winningClaimId = none)
    (hevent : ∃ e ∈ s.events, e.id = c.eventId) :
    ({ s with conflicts := s.conflicts ++ [c] } : Db).WellFormed := by
  refine { hwf with
    conflictIds := hwf.conflictIds.append_single hfresh, conflict_lt := ?_, linkRef := ?_
    winnerLinked := ?_, oneRow := hwf.oneRow.append_single hrow, winnerless := ?_
    conflictEvent := ?_ }
  · intro d hd
    rcases List.mem_append.mp hd with hd | hd
    · exact hwf.conflict_lt d hd
    · rw [List.mem_singleton.mp hd]
      exact hid
  · intro l hl
    obtain ⟨d, hd, hrest⟩ := hwf.linkRef l hl
    exact ⟨d, List.mem_append_left _ hd, hrest⟩
  · intro d hd w hw
    rcases List.mem_append.mp hd with hd | hd
    · exact hwf.winnerLinked d hd w hw
    · rw [List.mem_singleton.mp hd, hwinner] at hw
      cases hw
  · intro d hd hres hw
    rcases List.mem_append.mp hd with hd | hd
    · exact hwf.winnerless d hd hres hw
    · rw [List.mem_singleton.mp hd, hopen] at hres
      cases hres
  · intro d hd
    rcases List.mem_append.mp hd with hd | hd
    · exact hwf.conflictEvent d hd
    · rw [List.mem_singleton.mp hd]
      exact hevent

theorem mem_addClaimToConflict {conflictId claimId : Uuid} {l : Uuid × Uuid} :
    l ∈ (s.addClaimToConflict conflictId claimId).conflictClaims ↔
      l ∈ s.conflictClaims ∨ l = (conflictId, claimId) := mem_insertKey

theorem WellFormed.addClaimToConflict (hwf : s.WellFormed) {c : ClaimConflict} {k : Claim}
    (hc : c ∈ s.conflicts) (hk : k ∈ s.claims) (he : k.eventId = c.eventId)
    (hf : k.fieldName = c.fieldName) : (s.addClaimToConflict c.id k.id).WellFormed := by
  refine { hwf with linkRef := ?_, winnerLinked := ?_ }
  · intro l hl
    rcases mem_addClaimToConflict.mp hl with hl | rfl
    · exact hwf.linkRef l hl
    · exact ⟨c, hc, rfl, k, hk, rfl, he, hf⟩
  · intro d hd w hw
    exact mem_addClaimToConflict.mpr (Or.inl (hwf.winnerLinked d hd w hw))

theorem mem_addClaimsToConflict {conflictId : Uuid} {ids : List Uuid} {l : Uuid × Uuid} :
    l ∈ (s.addClaimsToConflict conflictId ids).conflictClaims ↔
      l ∈ s.conflictClaims ∨ (l.1 = conflictId ∧ l.2 ∈ ids) := by
  obtain ⟨a, b⟩ := l
  unfold addClaimsToConflict
  rw [mem_foldl_insertKey]
  simp only [List.mem_map, Prod.mk.injEq]
  grind

theorem WellFormed.addClaimsToConflict (hwf : s.WellFormed) {c : ClaimConflict} {ids : List Uuid}
    (hc : c ∈ s.conflicts)
    (hids : ∀ id ∈ ids, ∃ k ∈ s.claims, k.id = id ∧ k.eventId = c.eventId ∧
      k.fieldName = c.fieldName) :
    (s.addClaimsToConflict c.id ids).WellFormed := by
  refine { hwf with linkRef := ?_, winnerLinked := ?_ }
  · intro l hl
    rcases mem_addClaimsToConflict.mp hl with hl | ⟨hl₁, hl₂⟩
    · exact hwf.linkRef l hl
    · obtain ⟨k, hk, hkid, he, hf⟩ := hids _ hl₂
      exact ⟨c, hc, hl₁.symm, k, hk, hkid, he, hf⟩
  · intro d hd w hw
    exact mem_addClaimsToConflict.mpr (Or.inl (hwf.winnerLinked d hd w hw))

theorem WellFormed.addEvent (hwf : s.WellFormed) {e : AccidentEvent} (hid : e.id < s.nextId)
    (hfresh : ∀ x ∈ s.events, x.id ≠ e.id) : (s.addEvent e).WellFormed := by
  refine { hwf with
    eventIds := hwf.eventIds.append_single hfresh, event_lt := ?_, winnerless := ?_
    claimEvent := ?_, conflictEvent := ?_ }
  · intro x hx
    rcases List.mem_append.mp hx with hx | hx
    · exact hwf.event_lt x hx
    · rw [List.mem_singleton.mp hx]
      exact hid
  · intro c hc hres hw
    obtain ⟨x, hx, hrest⟩ := hwf.winnerless c hc hres hw
    exact ⟨x, List.mem_append_left _ hx, hrest⟩
  · intro k hk
    obtain ⟨x, hx, hrest⟩ := hwf.claimEvent k hk
    exact ⟨x, List.mem_append_left _ hx, hrest⟩
  · intro c hc
    obtain ⟨x, hx, hrest⟩ := hwf.conflictEvent c hc
    exact ⟨x, List.mem_append_left _ hx, hrest⟩

/-- Events may be given a merge pointer. -/
theorem WellFormed.updateEvents (hwf : s.WellFormed) {p : AccidentEvent → Bool}
    {f : AccidentEvent → AccidentEvent} (hid : ∀ e, (f e).id = e.id)
    (hmerged : ∀ e, e.mergedInto ≠ none → (f e).mergedInto ≠ none) :
    ({ s with events := updateWhere p f s.events } : Db).WellFormed := by
  have hexists : ∀ i, (∃ e ∈ s.events, e.id = i) → ∃ e ∈ updateWhere p f s.events, e.id = i := by
    intro i h
    obtain ⟨e, he, rfl⟩ := h
    refine ⟨if p e = true then f e else e, mem_updateWhere.mpr ⟨e, he, rfl⟩, ?_⟩
    split
    · exact hid e
    · rfl
  refine { hwf with
    eventIds := hwf.eventIds.updateWhere hid, event_lt := ?_, winnerless := ?_
    claimEvent := fun k hk => hexists _ (hwf.claimEvent k hk)
    conflictEvent := fun c hc => hexists _ (hwf.conflictEvent c hc) }
  · intro x hx
    obtain ⟨e, he, rfl⟩ := mem_updateWhere.mp hx
    split
    · rw [hid]
      exact hwf.event_lt e he
    · exact hwf.event_lt e he
  · intro c hc hres hw
    obtain ⟨e, he, heid, hem⟩ := hwf.winnerless c hc hres hw
    refine ⟨if p e = true then f e else e, mem_updateWhere.mpr ⟨e, he, rfl⟩, ?_⟩
    split
    · exact ⟨(hid e).trans heid, hmerged e hem⟩
    · exact ⟨heid, hem⟩

theorem WellFormed.addSnapshot (hwf : s.WellFormed) {r : RawSnapshot} (hid : r.id < s.nextId)
    (hfresh : ∀ x ∈ s.snapshots, x.id ≠ r.id) :
    ({ s with snapshots := s.snapshots ++ [r] } : Db).WellFormed := by
  refine { hwf with
    snapshotIds := hwf.snapshotIds.append_single hfresh, snapshot_lt := ?_, claimSnapshot := ?_ }
  · intro x hx
    rcases List.mem_append.mp hx with hx | hx
    · exact hwf.snapshot_lt x hx
    · rw [List.mem_singleton.mp hx]
      exact hid
  · intro k hk i hi
    obtain ⟨x, hx, hrest⟩ := hwf.claimSnapshot k hk i hi
    exact ⟨x, List.mem_append_left _ hx, hrest⟩

end Writes

end Db

end Atlas
