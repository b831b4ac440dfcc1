import Atlas.SystemLaws
import Mathlib

/-!
# One live statement per source record

A source record makes at most one active claim about a field of an event.
Re-ingestion keeps this because it supersedes the record's previous claims,
resolution because it only supersedes, merging because the claims of one record
have one root.  A reopening does not look at records: it keeps the property
exactly when the claims it reactivates are of different records, none of which
has an active claim.
-/

namespace Atlas

open Rows

namespace Db

/-- The statement a claim makes: its event, source, source record and field.  A
claim without a record makes none. -/
def statementOf (s : Db) (k : Claim) : Option (Uuid × Uuid × String × String) :=
  (s.recordOf k).map fun rec => (k.eventId, k.sourceId, rec.2, k.fieldName)

/-- No two active claims make one statement. -/
def OneLive (s : Db) : Prop :=
  ∀ k₁ ∈ s.claims, ∀ k₂ ∈ s.claims, k₁.isActive = true → k₂.isActive = true →
    (s.statementOf k₁).isSome = true → s.statementOf k₁ = s.statementOf k₂ → k₁ = k₂

instance (s : Db) : Decidable s.OneLive := by
  unfold OneLive
  infer_instance

theorem oneLive_statements {s : Db} : s.OneLive ↔
    ∀ k₁ ∈ s.claims, ∀ k₂ ∈ s.claims, k₁.isActive = true → k₂.isActive = true →
      ∀ st, s.statementOf k₁ = some st → s.statementOf k₂ = some st → k₁ = k₂ := by
  constructor
  · intro h k₁ hk₁ k₂ hk₂ ha₁ ha₂ st hst₁ hst₂
    exact h k₁ hk₁ k₂ hk₂ ha₁ ha₂ (by simp [hst₁]) (hst₁.trans hst₂.symm)
  · intro h k₁ hk₁ k₂ hk₂ ha₁ ha₂ hsome heq
    obtain ⟨st, hst⟩ := Option.isSome_iff_exists.mp hsome
    exact h k₁ hk₁ k₂ hk₂ ha₁ ha₂ st hst (heq ▸ hst)

theorem oneLive_empty (sources : List Source) : (Db.empty sources).OneLive := by
  intro k hk
  simp [Db.empty] at hk

/-- A statement is an event, a record and a field: the record names the source. -/
theorem statementOf_eq_some {s : Db} (hwf : s.WellFormed) {k : Claim} (hk : k ∈ s.claims)
    {e src : Uuid} {r f : String} :
    s.statementOf k = some (e, src, r, f) ↔
      k.eventId = e ∧ k.fieldName = f ∧ s.recordOf k = some (src, r) := by
  unfold statementOf
  rw [Option.map_eq_some_iff]
  constructor
  · intro h
    obtain ⟨rec, hrec, heq⟩ := h
    simp only [Prod.mk.injEq] at heq
    obtain ⟨he, hsrc, hr, hf⟩ := heq
    have hrec₁ := recordOf_source hwf hk hrec
    refine ⟨he, hf, ?_⟩
    rw [hrec, ← hr, ← hsrc, ← hrec₁]
  · intro h
    obtain ⟨he, hf, hrec⟩ := h
    refine ⟨(src, r), hrec, ?_⟩
    rw [he, hf, ← recordOf_source hwf hk hrec]

theorem statementOf_snapshots {s s' : Db} (h : s'.snapshots = s.snapshots) (k : Claim) :
    s'.statementOf k = s.statementOf k := by
  unfold statementOf
  rw [recordOf_snapshots h]

/-- A reactivated claim makes the statement it made. -/
theorem statementOf_unsupersedeRow (s t : Db) (k : Claim) :
    s.statementOf (t.unsupersedeRow k) = s.statementOf k := rfl

/-! ## The steps that keep it -/

theorem UpkeepOnly.oneLive {s s' : Db} (h : UpkeepOnly s s') (hP : s.OneLive) : s'.OneLive := by
  obtain ⟨ps, hs, os, rs, rfl⟩ := h
  exact hP

theorem Resolved.oneLive {s s' : Db} (hwf : s.WellFormed) {call : ResolveCall}
    {c u : ClaimConflict} {winner : Uuid} {sw : Db} (h : Resolved s s' call c winner sw u)
    (hP : s.OneLive) : s'.OneLive := by
  rw [oneLive_statements] at hP ⊢
  -- the override has no record, so a claim with a statement was there
  have hold : ∀ k ∈ s'.claims, k.isActive = true → ∀ st, s'.statementOf k = some st →
      k ∈ s.claims ∧ s.statementOf k = some st := by
    intro k hk hactive st hst
    rw [statementOf_snapshots h.snapshots] at hst
    rcases (h.active_origin hwf hk hactive).2 with hk | ⟨rfl, -⟩
    · exact ⟨hk, hst⟩
    · simp [statementOf, recordOf, overrideClaim] at hst
  intro k₁ hk₁ k₂ hk₂ ha₁ ha₂ st hst₁ hst₂
  obtain ⟨hk₁, hst₁⟩ := hold k₁ hk₁ ha₁ st hst₁
  obtain ⟨hk₂, hst₂⟩ := hold k₂ hk₂ ha₂ st hst₂
  exact hP k₁ hk₁ k₂ hk₂ ha₁ ha₂ st hst₁ hst₂

section Detect

variable [PyText]

theorem Ingested.oneLive {s s' : Db} (hwf : s.WellFormed) {call : IngestCall} {sub : Submission}
    {s₀ s₁ s₂ s₃ : Db} {w : ClaimWriteResult} (h : Ingested s s' call sub s₀ w s₁ s₂ s₃)
    (hP : s.OneLive) : s'.OneLive := by
  rw [oneLive_statements] at hP ⊢
  have hwf' := h.wellFormed
  have hold : ∀ k ∈ s.claims, s'.statementOf k = s.statementOf k := by
    intro k hk
    unfold statementOf
    rw [(h.recordOf_old (claimSnapshot_exists hwf hk)).1]
  -- a claim of the submitted record and field that was there is replaced
  have hclash : ∀ k ∈ s.claims, ¬ (s.Replaces sub k ∧
      k.fieldName ∈ call.claims.map NormalisedClaim.fieldName) → ∀ n ∈ w.newClaims,
      ∀ e src r f, s'.statementOf k = some (e, src, r, f) → n ∈ s'.claims →
        s'.statementOf n = some (e, src, r, f) → False := by
    intro k hk hnot n hn e src r f hst hn' hstn
    rw [hold k hk, statementOf_eq_some hwf hk] at hst
    rw [statementOf_eq_some hwf' hn'] at hstn
    obtain ⟨-, hkf, hkrec⟩ := hst
    obtain ⟨-, hnf, hnrec⟩ := hstn
    rw [h.recordOf_new hn, Option.map_eq_some_iff] at hnrec
    obtain ⟨r', hr', heq⟩ := hnrec
    rw [← heq] at hkrec
    apply hnot
    refine ⟨?_, ?_⟩
    · unfold Replaces
      rw [hr']
      exact ⟨(recordOf_source hwf hk hkrec).symm, hkrec⟩
    · rw [hkf, ← hnf, ← h.written.fields]
      exact List.mem_map_of_mem hn
  intro k₁ hk₁ k₂ hk₂ ha₁ ha₂ st hst₁ hst₂
  obtain ⟨e, src, r, f⟩ := st
  rcases h.active_origin hwf hk₁ ha₁ with ⟨ho₁, hn₁⟩ | ho₁ <;>
  rcases h.active_origin hwf hk₂ ha₂ with ⟨ho₂, hn₂⟩ | ho₂
  · rw [hold k₁ ho₁] at hst₁
    rw [hold k₂ ho₂] at hst₂
    exact hP k₁ ho₁ k₂ ho₂ ha₁ ha₂ _ hst₁ hst₂
  · exact (hclash k₁ ho₁ hn₁ k₂ ho₂ e src r f hst₁ hk₂ hst₂).elim
  · exact (hclash k₂ ho₂ hn₂ k₁ ho₁ e src r f hst₂ hk₁ hst₁).elim
  · -- two new claims of one field are one claim
    have hf₁ := ((statementOf_eq_some hwf' hk₁).mp hst₁).2.1
    have hf₂ := ((statementOf_eq_some hwf' hk₂).mp hst₂).2.1
    have hnodup : (w.newClaims.map Claim.fieldName).Nodup := by
      rw [h.written.fields]
      exact h.fieldsNodup
    exact List.inj_on_of_nodup_map hnodup ho₁ ho₂ (hf₁.trans hf₂.symm)

theorem Merged.oneLive {s s' s₃ s₄ : Db} (hI : s.Inv) {call : MergeCall}
    (h : Merged s s' call s₃ s₄) (hP : s.OneLive) : s'.OneLive := by
  rw [oneLive_statements] at hP ⊢
  have hwf := hI.wf
  -- an active claim was there, or is the copy of a claim of the source event
  have horigin : ∀ k ∈ s'.claims, k.isActive = true →
      k ∈ s.claims ∨ ∃ p ∈ s.transferPairs call, k = mergedClaim call p.2 p.1 := by
    intro k hk hactive
    rcases (h.mem_claims hwf).mp hk with ⟨hk, -⟩ | ⟨p, -, rfl⟩ | hcopy
    · exact Or.inl hk
    · cases hactive
    · exact Or.inr hcopy
  -- a claim of the target and one of the source event are of different records
  have hclash : ∀ k ∈ s.claims, ∀ p ∈ s.transferPairs call, k.eventId = call.targetEventId →
      ∀ rec, s.recordOf k = some rec → s.recordOf p.1 = some rec → False := by
    intro k hk p hp hke rec hrec hprec
    obtain ⟨hpk, hpe, -, -⟩ := mem_transferPairs hp
    have hkroot : s.Root k.eventId call.targetEventId := by
      rw [hke]
      exact root_of_isLive h.target
    have hproot : s.Root p.1.eventId call.sourceEventId := by
      rw [hpe]
      exact root_of_isLive h.source
    exact h.distinct (hI.rooted.record k hk p.1 hpk rec hrec hprec _ _ hkroot hproot).symm
  intro k₁ hk₁ k₂ hk₂ ha₁ ha₂ st hst₁ hst₂
  obtain ⟨e, src, r, f⟩ := st
  rw [statementOf_eq_some h.wellFormed hk₁, recordOf_snapshots (h.snapshots hwf)] at hst₁
  rw [statementOf_eq_some h.wellFormed hk₂, recordOf_snapshots (h.snapshots hwf)] at hst₂
  obtain ⟨he₁, hf₁, hr₁⟩ := hst₁
  obtain ⟨he₂, hf₂, hr₂⟩ := hst₂
  rcases horigin k₁ hk₁ ha₁ with ho₁ | ⟨p₁, hp₁, rfl⟩ <;>
  rcases horigin k₂ hk₂ ha₂ with ho₂ | ⟨p₂, hp₂, rfl⟩
  · exact hP k₁ ho₁ k₂ ho₂ ha₁ ha₂ (e, src, r, f)
      ((statementOf_eq_some hwf ho₁).mpr ⟨he₁, hf₁, hr₁⟩)
      ((statementOf_eq_some hwf ho₂).mpr ⟨he₂, hf₂, hr₂⟩)
  · exact (hclash k₁ ho₁ p₂ hp₂ (he₁.trans he₂.symm) _ hr₁ hr₂).elim
  · exact (hclash k₂ ho₂ p₁ hp₁ (he₂.trans he₁.symm) _ hr₂ hr₁).elim
  · obtain ⟨hk₁, hke₁, hka₁, -⟩ := mem_transferPairs hp₁
    obtain ⟨hk₂, hke₂, hka₂, -⟩ := mem_transferPairs hp₂
    have hsame := hP p₁.1 hk₁ p₂.1 hk₂ hka₁ hka₂ (call.sourceEventId, src, r, f)
      ((statementOf_eq_some hwf hk₁).mpr ⟨hke₁, hf₁, hr₁⟩)
      ((statementOf_eq_some hwf hk₂).mpr ⟨hke₂, hf₂, hr₂⟩)
    rw [transferPairs_inj hwf hp₁ hp₂ hsame]

theorem Change.oneLive {s s' : Db} (hI : s.Inv) (h : Change s s') (hP : s.OneLive) :
    s'.OneLive := by
  cases h with
  | upkeep h => exact h.oneLive hP
  | ingested h => exact h.oneLive hI.wf hP
  | resolved h => exact h.oneLive hI.wf hP
  | merged h => exact h.oneLive hI hP

end Detect

/-! ## Reopening -/

/-- Reopening the conflict revives no statement that is alive, and none twice. -/
def RevivesApart (s : Db) (c : ClaimConflict) : Prop :=
  ∀ k₁ ∈ s.claims, ∀ k₂ ∈ s.claims, s.Reactivated c k₁ →
    (s.Reactivated c k₂ ∨ k₂.isActive = true) →
    ∀ st, s.statementOf k₁ = some st → s.statementOf k₂ = some st → k₁ = k₂

/-- **Reopening keeps one live statement per record exactly when it revives
apart.** -/
theorem Reopened.oneLive_iff {s s' : Db} (hwf : s.WellFormed) {call : ReopenCall}
    {c : ClaimConflict} (h : Reopened s s' call c) (hP : s.OneLive) :
    s'.OneLive ↔ s.RevivesApart c := by
  rw [oneLive_statements] at hP ⊢
  have hst := statementOf_snapshots h.snapshots
  have hactive : ∀ k, (s.unsupersedeRow k).isActive = true := fun k => restoredType_isActive s k.id
  constructor
  · intro hP' k₁ hk₁ k₂ hk₂ hr₁ hr₂ st hst₁ hst₂
    have hm₁ := (h.mem_claims hwf).mpr ⟨k₁, hk₁, Or.inl ⟨hr₁, rfl⟩⟩
    by_cases hre : s.Reactivated c k₂
    · have hm₂ := (h.mem_claims hwf).mpr ⟨k₂, hk₂, Or.inl ⟨hre, rfl⟩⟩
      have heq := hP' _ hm₁ _ hm₂ (hactive k₁) (hactive k₂) st ((hst _).trans hst₁)
        ((hst _).trans hst₂)
      have hid : (s.unsupersedeRow k₁).id = (s.unsupersedeRow k₂).id := by rw [heq]
      exact hwf.claimIds.eq_of_key hk₁ hk₂ hid
    · have hm₂ := (h.mem_claims hwf).mpr ⟨k₂, hk₂, Or.inr ⟨hre, rfl⟩⟩
      have ha₂ := hr₂.resolve_left hre
      have heq := hP' _ hm₁ _ hm₂ (hactive k₁) ha₂ st ((hst _).trans hst₁) ((hst _).trans hst₂)
      have hid : (s.unsupersedeRow k₁).id = k₂.id := by rw [heq]
      exact hwf.claimIds.eq_of_key hk₁ hk₂ hid
  · intro hC k₁' hk₁' k₂' hk₂' ha₁ ha₂ st hst₁ hst₂
    rw [hst] at hst₁ hst₂
    obtain ⟨k₁, hk₁, ⟨hr₁, rfl⟩ | ⟨hr₁, rfl⟩⟩ := (h.mem_claims hwf).mp hk₁' <;>
    obtain ⟨k₂, hk₂, ⟨hr₂, rfl⟩ | ⟨hr₂, rfl⟩⟩ := (h.mem_claims hwf).mp hk₂'
    · rw [hC k₁ hk₁ k₂ hk₂ hr₁ (Or.inl hr₂) st hst₁ hst₂]
    · have heq := hC k₁ hk₁ k₂' hk₂ hr₁ (Or.inr ha₂) st hst₁ hst₂
      exact absurd (heq ▸ hr₁) hr₂
    · have heq := hC k₂ hk₂ k₁' hk₁ hr₂ (Or.inr ha₁) st hst₂ hst₁
      exact absurd (heq ▸ hr₂) hr₁
    · exact hP k₁' hk₁ k₂' hk₂ ha₁ ha₂ st hst₁ hst₂

end Db

section Runs

variable [PyText]

/-- **One live statement per source record.**  It holds all along a run exactly
when every reopening the run commits revives apart. -/
theorem one_live_statement_iff (sources : List Source) (ops : List Op) :
    Runs.EveryState step Db.OneLive (Db.empty sources) ops ↔
      Runs.EveryStep step (Db.AtReopening Db.RevivesApart) (Db.empty sources) ops :=
  Runs.everyState_iff_everyStep (I := Db.Inv) (fun _ o hI => Db.step_inv hI o)
    (fun _ o hI hP => Db.step_iff_atReopening hI.wf hP (fun _ h => h.oneLive hI hP)
      (fun _ _ _ h => h.oneLive_iff hI.wf hP) o)
    (Db.inv_empty sources) (Db.oneLive_empty sources) ops

end Runs

/-- The record `r1` is corrected, the correction wins the conflict, and the
conflict is reopened. -/
def correctedThenReopened : List Op :=
  [operatorReport 0 100 none (some "r1") 1 1, operatorReport 1 101 (some 5) none 2 2,
    operatorReport 0 102 none (some "r1") 3 3,
    .resolve ⟨10, 2, some 13, .null, false, some 9, "", 3, 4⟩, .reopen ⟨10, 3, 9, "", 5⟩]

/-- Reopening revives the statement that the correction had replaced. -/
theorem reopen_revives_corrected_statement :
    ¬ ∀ sources ops, (after sources ops).OneLive := by
  intro h
  have hfails : ¬ (after fourSources correctedThenReopened).OneLive := by decide +kernel
  exact hfails (h fourSources correctedThenReopened)

end Atlas
