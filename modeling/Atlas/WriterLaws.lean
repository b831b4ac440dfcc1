import Atlas.StoreLaws

/-!
# What a batch of claims does to the claim table

After `write_normalised` the claim table is the old one, with each active claim
that the submission replaces superseded by the new claim of its field, followed
by the new claims.  `writeNormalised_spec` states this as an equation, together
with the list of superseded claims and the history rows that record them.
-/

namespace Atlas

open Outcome Rows

namespace Db

/-- The submission replaces the claim, when it has one of the same field: the
claim comes from the same source record or, for a submission without a record
id, from the same source on the same event. -/
def Replaces (s : Db) (sub : Submission) (k : Claim) : Prop :=
  match sub.sourceRecordId with
  | some record => k.sourceId = sub.sourceId ∧ s.recordOf k = some (sub.sourceId, record)
  | none => k.eventId = sub.eventId ∧ k.sourceId = sub.sourceId

instance (s : Db) (sub : Submission) (k : Claim) : Decidable (s.Replaces sub k) := by
  unfold Replaces
  split <;> infer_instance

theorem mem_priorClaims {s : Db} {sub : Submission} {f : String} {k : Claim} :
    k ∈ s.priorClaims sub f ↔
      k ∈ s.claims ∧ k.isActive = true ∧ k.fieldName = f ∧ s.Replaces sub k := by
  unfold priorClaims Replaces
  cases sub.sourceRecordId with
  | none =>
      simp only [findActiveByEventField, List.mem_filter, decide_eq_true_eq]
      tauto
  | some record =>
      simp only [findActiveBySourceRecord, List.mem_filter, decide_eq_true_eq]
      tauto

/-- The new claim of a field. -/
def newClaimOf (news : List Claim) (f : String) : Option Claim :=
  news.find? fun n => n.fieldName = f

/-- A claim of the old table after the new claims were written. -/
def rewritten (s : Db) (sub : Submission) (news : List Claim) (k : Claim) : Claim :=
  if k.isActive ∧ s.Replaces sub k then
    match newClaimOf news k.fieldName with
    | some n => supersedeRow n.id k
    | none => k
  else k

theorem keepsClaim_rewritten (s : Db) (sub : Submission) (news : List Claim) :
    KeepsClaim (s.rewritten sub news) := by
  have hsame : ∀ k, s.rewritten sub news k = k ∨ ∃ n, s.rewritten sub news k = supersedeRow n k := by
    intro k
    unfold rewritten
    split
    · split
      · exact .inr ⟨_, rfl⟩
      · exact .inl rfl
    · exact .inl rfl
  constructor <;>
    · intro k
      rcases hsame k with heq | ⟨n, heq⟩
      · rw [heq]
      · rw [heq]
        rfl

/-- The claims of the old table that the new ones supersede. -/
def supersededBySubmission (s : Db) (sub : Submission) (news : List Claim) (k : Claim) : Prop :=
  k ∈ s.claims ∧ k.isActive = true ∧ s.Replaces sub k ∧ (newClaimOf news k.fieldName).isSome

/-- The state of the writer after some of the submitted fields. -/
structure Written (s : Db) (sub : Submission) (pre : List NormalisedClaim)
    (acc : ClaimWriteResult) : Prop where
  rest : acc.db = { s with
    nextId := acc.db.nextId, claims := acc.db.claims, claimHistory := acc.db.claimHistory }
  wf : acc.db.WellFormed
  nextId : s.nextId ≤ acc.db.nextId
  claims : acc.db.claims = s.claims.map (s.rewritten sub acc.newClaims) ++ acc.newClaims
  news : ∀ n ∈ acc.newClaims, s.nextId ≤ n.id ∧ ∃ item ∈ pre, n = newClaim sub n.id item
  fields : acc.newClaims.map Claim.fieldName = pre.map NormalisedClaim.fieldName
  superseded : ∀ k, k ∈ acc.supersededClaims ↔ s.supersededBySubmission sub acc.newClaims k
  supersededNodup : (acc.supersededClaims.map Claim.id).Nodup
  history : ∃ hs, acc.db.claimHistory = s.claimHistory ++ hs ∧
    ∀ h ∈ hs, h.toClaimType = .superseded → ∃ k ∈ acc.supersededClaims, k.id = h.claimId

section Written

variable {s : Db} {sub : Submission} {pre : List NormalisedClaim} {acc : ClaimWriteResult}

theorem newClaimOf_isSome {news : List Claim} {f : String} :
    (newClaimOf news f).isSome ↔ f ∈ news.map Claim.fieldName := by
  simp [newClaimOf]

theorem newClaimOf_some {news : List Claim} {f : String} {n : Claim}
    (h : newClaimOf news f = some n) : n ∈ news ∧ n.fieldName = f :=
  ⟨List.mem_of_find?_eq_some h, by simpa using List.find?_some h⟩

/-- A new claim is not among the prior ones: its id is fresh. -/
theorem new_not_prior (hwf : s.WellFormed) {n : Claim} (hn : s.nextId ≤ n.id) {f : String} :
    n.id ∉ (s.priorClaims sub f).map Claim.id := by
  intro hmem
  obtain ⟨k, hk, hid⟩ := List.mem_map.mp hmem
  have hlt := hwf.claim_lt k (mem_priorClaims.mp hk).1
  rw [hid] at hlt
  exact absurd hlt (Nat.not_lt.mpr hn)

/-- Superseding by one more new claim, on a row of the old table. -/
theorem rewritten_append (hwf : s.WellFormed) {news : List Claim} {n : Claim} {k : Claim}
    (hk : k ∈ s.claims) :
    (if (s.rewritten sub news k).id ∈ (s.priorClaims sub n.fieldName).map Claim.id ∧
        (s.rewritten sub news k).isActive = true then
      supersedeRow n.id (s.rewritten sub news k) else s.rewritten sub news k) =
      s.rewritten sub (news ++ [n]) k := by
  have hprior : k.id ∈ (s.priorClaims sub n.fieldName).map Claim.id ↔
      k ∈ s.priorClaims sub n.fieldName := by
    constructor
    · intro hmem
      obtain ⟨x, hx, hid⟩ := List.mem_map.mp hmem
      rw [← hwf.claimIds.eq_of_key (mem_priorClaims.mp hx).1 hk hid]
      exact hx
    · exact List.mem_map_of_mem
  have happ : newClaimOf (news ++ [n]) k.fieldName =
      (newClaimOf news k.fieldName).or (if n.fieldName = k.fieldName then some n else none) := by
    unfold newClaimOf
    rw [List.find?_append, List.find?_singleton]
    simp
  unfold rewritten
  rw [happ]
  by_cases hcond : k.isActive = true ∧ s.Replaces sub k
  · rw [if_pos hcond, if_pos hcond]
    cases hnew : newClaimOf news k.fieldName with
    | some m =>
        -- already superseded by an earlier field of the batch
        simp [supersedeRow, Claim.isActive, ClaimType.isActive]
    | none =>
        simp only [hprior, mem_priorClaims, Option.none_or]
        by_cases hf : n.fieldName = k.fieldName
        · simp [hf, hk, hcond.1, hcond.2]
        · have hf' : ¬ k.fieldName = n.fieldName := fun h => hf h.symm
          simp [hf, hf']
  · rw [if_neg hcond, if_neg hcond]
    simp only [hprior, mem_priorClaims]
    have : ¬ ((k ∈ s.claims ∧ k.isActive = true ∧ k.fieldName = n.fieldName ∧
        s.Replaces sub k) ∧ k.isActive = true) := by
      intro h
      exact hcond ⟨h.2, h.1.2.2.2⟩
    rw [if_neg this]

/-- The rows one more field supersedes: the prior claims of the field, as they
were. -/
theorem filter_prior (hwf : s.WellFormed) {news : List Claim}
    (hnews : ∀ n ∈ news, s.nextId ≤ n.id) {n : Claim} (hn : s.nextId ≤ n.id)
    (hfield : newClaimOf news n.fieldName = none) {k : Claim} :
    k ∈ ((s.claims.map (s.rewritten sub news) ++ news ++ [n]).filter fun c =>
        c.id ∈ (s.priorClaims sub n.fieldName).map Claim.id ∧ c.isActive) ↔
      k ∈ s.claims ∧ k.isActive = true ∧ s.Replaces sub k ∧ k.fieldName = n.fieldName := by
  have hkeep : ∀ x ∈ s.priorClaims sub n.fieldName, s.rewritten sub news x = x := by
    intro x hx
    unfold rewritten
    rw [(mem_priorClaims.mp hx).2.2.1, hfield]
    split <;> rfl
  have hid : ∀ x, (s.rewritten sub news x).id = x.id := by
    intro x
    unfold rewritten
    split
    · split <;> rfl
    · rfl
  rw [List.mem_filter, decide_eq_true_eq]
  constructor
  · intro h
    obtain ⟨hmem, hprior, hactive⟩ := h
    obtain ⟨x, hx, hxid⟩ := List.mem_map.mp hprior
    have hx' := mem_priorClaims.mp hx
    have hkx : k = x := by
      rcases List.mem_append.mp hmem with hmem | hmem
      · rcases List.mem_append.mp hmem with hmem | hmem
        · obtain ⟨y, hy, rfl⟩ := List.mem_map.mp hmem
          rw [hid] at hxid
          have hyx := hwf.claimIds.eq_of_key hy hx'.1 hxid.symm
          rw [hyx]
          exact hkeep x hx
        · exact absurd (List.mem_map.mpr ⟨x, hx, hxid⟩) (new_not_prior hwf (hnews k hmem))
      · rw [List.mem_singleton.mp hmem] at hxid
        exact absurd (List.mem_map.mpr ⟨x, hx, hxid⟩) (new_not_prior hwf hn)
    rw [hkx]
    exact ⟨hx'.1, hx'.2.1, hx'.2.2.2, hx'.2.2.1⟩
  · intro h
    obtain ⟨hk, hactive, hrep, hf⟩ := h
    have hk' : k ∈ s.priorClaims sub n.fieldName := mem_priorClaims.mpr ⟨hk, hactive, hf, hrep⟩
    refine ⟨?_, List.mem_map_of_mem hk', hactive⟩
    apply List.mem_append_left
    apply List.mem_append_left
    rw [← hkeep k hk']
    exact List.mem_map_of_mem hk

theorem mem_newClaims_id (h : Written s sub pre acc) :
    ∀ n ∈ acc.newClaims, s.nextId ≤ n.id := fun n hn => (h.news n hn).1

/-- One more submitted field. -/
theorem Written.step (hwf : s.WellFormed) (hevent : ∃ e ∈ s.events, e.id = sub.eventId)
    (hsnap : ∃ r ∈ s.snapshots, r.id = sub.snapshotId ∧ r.sourceId = sub.sourceId)
    (h : Written s sub pre acc) {item : NormalisedClaim}
    (hfield : item.fieldName ∉ pre.map NormalisedClaim.fieldName) :
    Written s sub (pre ++ [item]) (writeClaim sub (s.priorClaims sub) acc item) := by
  have hnone : newClaimOf acc.newClaims item.fieldName = none := by
    rw [← Option.not_isSome_iff_eq_none, newClaimOf_isSome, h.fields]
    exact hfield
  let n := newClaim sub acc.db.nextId item
  have hn : s.nextId ≤ n.id := h.nextId
  have hnews := mem_newClaims_id h
  let s₁ : Db := { acc.db with
    nextId := acc.db.nextId + 1
    claims := acc.db.claims ++ [n]
    claimHistory := acc.db.claimHistory ++ [ingestedHistory sub n] }
  have hwf₁ : s₁.WellFormed := by
    have hadd := h.wf.uuid4.addClaim (k := n) (Nat.lt_succ_self _)
      (fun x hx => Nat.ne_of_lt (h.wf.claim_lt x hx)) rfl rfl
      (by rw [h.rest]; exact hevent)
      (by
        intro i hi
        simp only [n, newClaim, Option.some.injEq] at hi
        subst hi
        rw [h.rest]
        exact hsnap)
    exact hadd.of_sameTables ⟨rfl, rfl, rfl, rfl, rfl, rfl⟩
  let old := acc.db.claims ++ [n]
  let losers := old.filter fun c =>
    c.id ∈ (s.priorClaims sub item.fieldName).map Claim.id ∧ c.isActive
  have hold : old = s.claims.map (s.rewritten sub acc.newClaims) ++ acc.newClaims ++ [n] := by
    simp only [old, h.claims]
  have hlosers : ∀ k, k ∈ losers ↔
      k ∈ s.claims ∧ k.isActive = true ∧ s.Replaces sub k ∧ k.fieldName = item.fieldName := by
    intro k
    simp only [losers, hold]
    exact filter_prior (n := n) hwf hnews hn hnone
  have hdb : (writeClaim sub (s.priorClaims sub) acc item).db =
      { s₁ with
        claims := updateWhere (fun c => c.id ∈ (s.priorClaims sub item.fieldName).map Claim.id ∧
          c.isActive) (supersedeRow n.id) old
        claimHistory := acc.db.claimHistory ++ [ingestedHistory sub n] ++
          losers.map (reingestedHistory sub) } := rfl
  have hnewClaims : (writeClaim sub (s.priorClaims sub) acc item).newClaims =
      acc.newClaims ++ [n] := rfl
  have hsup : (writeClaim sub (s.priorClaims sub) acc item).supersededClaims =
      acc.supersededClaims ++ losers := rfl
  have hsome : ∀ f, (newClaimOf (acc.newClaims ++ [n]) f).isSome ↔
      (newClaimOf acc.newClaims f).isSome ∨ f = item.fieldName := by
    intro f
    rw [newClaimOf_isSome, newClaimOf_isSome]
    simp [n, newClaim]
  refine ⟨?_, ?_, ?_, ?_, ?_, ?_, ?_, ?_, ?_⟩
  · rw [hdb]
    simp only [s₁]
    rw [h.rest]
  · rw [hdb]
    have hbulk := hwf₁.bulkSupersede ((s.priorClaims sub item.fieldName).map Claim.id) n.id
    exact hbulk.of_sameTables ⟨rfl, rfl, rfl, rfl, rfl, rfl⟩
  · rw [hdb]
    exact Nat.le_succ_of_le h.nextId
  · rw [hdb, hnewClaims]
    simp only [hold]
    unfold updateWhere
    rw [List.map_append, List.map_append, List.map_map, List.append_assoc]
    congr 1
    · apply List.map_congr_left
      intro k hk
      simp only [Function.comp_apply, decide_eq_true_eq]
      exact rewritten_append (n := n) hwf hk
    · rw [← List.map_append]
      conv_rhs => rw [← List.map_id (acc.newClaims ++ [n])]
      apply List.map_congr_left
      intro x hx
      have hx' : s.nextId ≤ x.id := by
        rcases List.mem_append.mp hx with hx | hx
        · exact hnews x hx
        · rw [List.mem_singleton.mp hx]
          exact hn
      simp [new_not_prior hwf hx']
  · rw [hnewClaims]
    intro x hx
    rcases List.mem_append.mp hx with hx | hx
    · obtain ⟨hid, item', hitem', heq⟩ := h.news x hx
      exact ⟨hid, item', List.mem_append_left _ hitem', heq⟩
    · rw [List.mem_singleton.mp hx]
      exact ⟨hn, item, by simp, rfl⟩
  · rw [hnewClaims, List.map_append, List.map_append, h.fields]
    rfl
  · intro k
    rw [hsup, hnewClaims, List.mem_append, h.superseded, hlosers]
    unfold supersededBySubmission
    rw [hsome]
    tauto
  · rw [hsup, List.map_append, List.nodup_append]
    refine ⟨h.supersededNodup, ?_, ?_⟩
    · have hsub : (losers.map Claim.id).Sublist (old.map Claim.id) :=
        (List.filter_sublist).map Claim.id
      exact hwf₁.claimIds.sublist hsub
    · intro a ha b hb hab
      obtain ⟨x, hx, rfl⟩ := List.mem_map.mp ha
      obtain ⟨y, hy, rfl⟩ := List.mem_map.mp hb
      obtain ⟨hxs, -, -, hxn⟩ := (h.superseded x).mp hx
      obtain ⟨hys, -, -, hyf⟩ := (hlosers y).mp hy
      rw [hwf.claimIds.eq_of_key hxs hys hab, hyf, hnone] at hxn
      cases hxn
  · obtain ⟨hs, hhist, hrows⟩ := h.history
    refine ⟨hs ++ [ingestedHistory sub n] ++ losers.map (reingestedHistory sub), ?_, ?_⟩
    · rw [hdb]
      simp [hhist]
    · rw [hsup]
      intro r hr hto
      rcases List.mem_append.mp hr with hr | hr
      · rcases List.mem_append.mp hr with hr | hr
        · obtain ⟨k, hk, hid⟩ := hrows r hr hto
          exact ⟨k, List.mem_append_left _ hk, hid⟩
        · rw [List.mem_singleton.mp hr] at hto
          cases hto
      · obtain ⟨k, hk, rfl⟩ := List.mem_map.mp hr
        exact ⟨k, List.mem_append_right _ hk, rfl⟩

theorem written_nil (hwf : s.WellFormed) : Written s sub [] ⟨s, [], [], [], []⟩ := by
  refine ⟨rfl, hwf, le_refl _, ?_, ?_, rfl, ?_, ?_, ⟨[], by simp, by simp⟩⟩
  · have hid : s.rewritten sub [] = id := by
      funext k
      simp [rewritten, newClaimOf]
    simp [hid]
  · simp
  · intro k
    simp [supersededBySubmission, newClaimOf]
  · simp

/-- **The writer's loop.** -/
theorem written_foldl (hwf : s.WellFormed) (hevent : ∃ e ∈ s.events, e.id = sub.eventId)
    (hsnap : ∃ r ∈ s.snapshots, r.id = sub.snapshotId ∧ r.sourceId = sub.sourceId)
    (items : List NormalisedClaim) (h : Written s sub pre acc)
    (hnodup : ((pre ++ items).map NormalisedClaim.fieldName).Nodup) :
    Written s sub (pre ++ items) (items.foldl (writeClaim sub (s.priorClaims sub)) acc) := by
  induction items generalizing pre acc with
  | nil => simpa using h
  | cons item items ih =>
      have hsplit : pre ++ item :: items = (pre ++ [item]) ++ items := by simp
      rw [hsplit] at hnodup ⊢
      apply ih
      · apply h.step hwf hevent hsnap
        intro hmem
        simp only [List.map_append, List.map_cons, List.append_assoc] at hnodup
        rw [List.nodup_append] at hnodup
        exact hnodup.2.2 _ hmem item.fieldName (by simp) rfl
      · exact hnodup

/-- No duplicate field means distinct fields. -/
theorem nodup_of_duplicateFields {items : List NormalisedClaim} (h : duplicateFields items = []) :
    (items.map NormalisedClaim.fieldName).Nodup := by
  rw [List.nodup_iff_count_le_one]
  intro f
  by_contra hlt
  have hmem : f ∈ duplicateFields items := by
    unfold duplicateFields
    dsimp only
    rw [(List.perm_insertionSort _ _).mem_iff, Rows.mem_distinct, List.mem_filter]
    have hcount : 1 < (items.map NormalisedClaim.fieldName).count f := by omega
    exact ⟨List.count_pos_iff.mp (by omega), by simpa using hcount⟩
  rw [h] at hmem
  cases hmem

theorem duplicateFields_of_nodup {items : List NormalisedClaim}
    (h : (items.map NormalisedClaim.fieldName).Nodup) : duplicateFields items = [] := by
  have hnone : (items.map NormalisedClaim.fieldName).filter
      (fun f => decide (1 < (items.map NormalisedClaim.fieldName).count f)) = [] := by
    rw [List.filter_eq_nil_iff]
    intro f _
    have hle := List.nodup_iff_count_le_one.mp h f
    simpa using hle
  unfold duplicateFields
  dsimp only
  rw [hnone]
  rfl

/-- **What writing a batch of claims does.** -/
theorem writeNormalised_spec (hwf : s.WellFormed) (hevent : ∃ e ∈ s.events, e.id = sub.eventId)
    (hsnap : ∃ r ∈ s.snapshots, r.id = sub.snapshotId ∧ r.sourceId = sub.sourceId)
    {items : List NormalisedClaim} {w : ClaimWriteResult}
    (h : s.writeNormalised sub items = .ok w) :
    Written s sub items w ∧ (items.map NormalisedClaim.fieldName).Nodup ∧
      w.resolvedConflictsToReconcile =
        w.supersededClaims.filterMap (w.db.toReconcile w.newClaims) := by
  unfold writeNormalised at h
  rw [bind_ok] at h
  obtain ⟨u, hdup, hrest⟩ := h
  rw [assertNoDuplicateFields, require_ok] at hdup
  rw [pure_ok] at hrest
  subst hrest
  have hnodup := nodup_of_duplicateFields hdup
  have hw := written_foldl hwf hevent hsnap items (written_nil hwf) (by simpa using hnodup)
  rw [List.nil_append] at hw
  exact ⟨⟨hw.rest, hw.wf, hw.nextId, hw.claims, hw.news, hw.fields, hw.superseded,
    hw.supersededNodup, hw.history⟩, hnodup, rfl⟩

end Written

end Db

end Atlas
