import Atlas.CuratorLaws
import Atlas.IngestLaws
import Atlas.MergeLaws
import Atlas.System

/-!
# What a committed operation does

Every operation but a reopening is one of four changes of the evidence: upkeep
of read models and queues, an ingestion, a resolution or a merge.  A reopening is
kept apart, because most laws that fail fail there.  Each law of the system is
then one case analysis over these changes, and holds in every reachable store by
the invariant rule.
-/

namespace Atlas

open Outcome Rows

namespace Db

/-- The two stores differ at most in projections, outbox and reviews. -/
def UpkeepOnly (s s' : Db) : Prop :=
  ∃ ps hs os rs, s' = { s with
    projections := ps, projectionHistory := hs, outbox := os, duplicateReviews := rs }

theorem UpkeepOnly.refl (s : Db) : UpkeepOnly s s :=
  ⟨s.projections, s.projectionHistory, s.outbox, s.duplicateReviews, rfl⟩

theorem UpkeepOnly.trans {s s' s'' : Db} (h : UpkeepOnly s s') (h' : UpkeepOnly s' s'') :
    UpkeepOnly s s'' := by
  obtain ⟨ps, hs, os, rs, rfl⟩ := h
  obtain ⟨ps', hs', os', rs', rfl⟩ := h'
  exact ⟨ps', hs', os', rs', rfl⟩

theorem ProjectionsOnly.upkeep {s s' : Db} (h : ProjectionsOnly s s') : UpkeepOnly s s' := by
  obtain ⟨ps, hs, rfl⟩ := h
  exact ⟨ps, hs, s.outbox, s.duplicateReviews, rfl⟩

theorem UpkeepOnly.wellFormed {s s' : Db} (h : UpkeepOnly s s') (hwf : s.WellFormed) :
    s'.WellFormed := by
  obtain ⟨ps, hs, os, rs, rfl⟩ := h
  exact hwf.of_sameTables ⟨rfl, rfl, rfl, rfl, rfl, rfl⟩

/-! ## Roots after upkeep and curator actions -/

theorem UpkeepOnly.rooted {s s' : Db} (hwf : s.WellFormed) (hr : s.Rooted)
    (h : UpkeepOnly s s') : s'.Rooted := by
  have hwf' := h.wellFormed hwf
  obtain ⟨ps, hs, os, rs, rfl⟩ := h
  exact hr.of_origins hwf hwf' rfl (fun k hk rec hrec => ⟨k, hk, rfl, hrec⟩)

theorem Reopened.rooted {s s' : Db} (hwf : s.WellFormed) (hr : s.Rooted) {call : ReopenCall}
    {c : ClaimConflict} (h : Reopened s s' call c) : s'.Rooted := by
  apply hr.of_origins hwf (h.wellFormed hwf) h.events
  intro k' hk' rec hrec
  obtain ⟨k, hk, he, hk'rec⟩ :=
    origin_updateWhere (keepsClaim_unsupersedeRow s) h.snapshots h.claims hk'
  exact ⟨k, hk, he, hk'rec.trans hrec⟩

theorem Resolved.rooted {s s' : Db} (hwf : s.WellFormed) (hr : s.Rooted) {call : ResolveCall}
    {c u : ClaimConflict} {winner : Uuid} {sw : Db} (h : Resolved s s' call c winner sw u) :
    s'.Rooted := by
  apply hr.of_origins hwf (h.wellFormed hwf) h.events
  intro k' hk' rec hrec
  obtain ⟨k, hk, he, hk'rec⟩ :=
    origin_updateWhere (keepsClaim_supersedeRow winner) h.snapshots (h.claims hwf) hk'
  rcases h.chosen.claims with hsw | ⟨-, hsw⟩
  · rw [hsw] at hk
    exact ⟨k, hk, he, hk'rec.trans hrec⟩
  · rw [hsw] at hk
    rcases List.mem_append.mp hk with hk | hk
    · exact ⟨k, hk, he, hk'rec.trans hrec⟩
    · -- an override claim has no snapshot, so no record
      rw [List.mem_singleton.mp hk, hrec] at hk'rec
      simp [recordOf, overrideClaim] at hk'rec

/-- **The standing invariant.** -/
structure Inv (s : Db) : Prop where
  wf : s.WellFormed
  rooted : s.Rooted

theorem inv_empty (sources : List Source) : (Db.empty sources).Inv :=
  ⟨wellFormed_empty sources, rooted_empty sources⟩

section Change

variable [PyText]

/-- What a committed operation other than a reopening does. -/
inductive Change (s s' : Db) : Prop where
  | upkeep (h : UpkeepOnly s s')
  | ingested {call : IngestCall} {sub : Submission} {s₀ s₁ s₂ s₃ : Db} {w : ClaimWriteResult}
      (h : Ingested s s' call sub s₀ w s₁ s₂ s₃)
  | resolved {call : ResolveCall} {c u : ClaimConflict} {winner : Uuid} {sw : Db}
      (h : Resolved s s' call c winner sw u)
  | merged {call : MergeCall} {s₃ s₄ : Db} (h : Merged s s' call s₃ s₄)

/-- A rebuild keeps what each of its projections keeps. -/
theorem rebuildAllProjections_induct {P : Db → Prop} {now : Time}
    (hstep : ∀ s s' id p, s.reProjectEvent ⟨id, none, none, none, false, now⟩ = .ok (p, s') →
      P s → P s') {s : Db} (h : P s) (maxEvents : Option Nat) :
    P (s.rebuildAllProjections maxEvents now) := by
  unfold rebuildAllProjections
  refine List.foldlRecOn _ _ h ?_
  intro s hs id _
  split
  · rename_i hok
    exact hstep _ _ _ _ hok hs
  · exact hs

theorem rebuildAll_upkeep (s : Db) (maxEvents : Option Nat) (now : Time) :
    UpkeepOnly s (s.rebuildAllProjections maxEvents now) := by
  refine rebuildAllProjections_induct ?_ (UpkeepOnly.refl s) maxEvents
  intro s₁ s₂ id p hok hkept
  exact hkept.trans (reProjectEvent_only hok).upkeep

theorem projectOutboxEvent_only {s s' : Db} {o : OutboxEvent} {now : Time}
    (h : s.projectOutboxEvent o now = .ok s') : ProjectionsOnly s s' := by
  unfold projectOutboxEvent at h
  dsimp only at h
  split at h
  · rw [pure_ok] at h
    exact h ▸ ProjectionsOnly.refl s
  · simp only [bind_ok, pure_ok] at h
    obtain ⟨⟨p, s₁⟩, hproj, rfl⟩ := h
    exact reProjectEvent_only hproj

theorem processEvent_upkeep {s s' : Db} {outboxId : Uuid} {now : Time}
    (h : s.processEvent outboxId now = .ok s') : UpkeepOnly s s' := by
  have houtbox : ∀ (t : Db) os, UpkeepOnly t { t with outbox := os } := fun t os =>
    ⟨t.projections, t.projectionHistory, os, t.duplicateReviews, rfl⟩
  unfold processEvent at h
  simp only [bind_ok, pure_ok] at h
  obtain ⟨o, -, _, -, s₁, hproj, rfl⟩ := h
  exact ((houtbox s _).trans (projectOutboxEvent_only hproj).upkeep).trans (houtbox s₁ _)

/-- **Taking an operation apart**, reopenings aside. -/
theorem run_change {s s' : Db} (hwf : s.WellFormed) {op : Op} (hop : ∀ call, op ≠ .reopen call)
    (h : op.run s = .ok s') : Change s s' := by
  cases op with
  | ingest call =>
      simp only [Op.run, bind_ok, pure_ok] at h
      obtain ⟨⟨result, s₁⟩, hrun, rfl⟩ := h
      rcases ingest_cases hwf hrun with rfl | ⟨sub, s₀, w, s₁, s₂, s₃, hing⟩
      · exact .upkeep (UpkeepOnly.refl _)
      · exact .ingested hing
  | resolve call =>
      simp only [Op.run, bind_ok, pure_ok] at h
      obtain ⟨⟨u, p, s₁⟩, hrun, rfl⟩ := h
      obtain ⟨c, winner, sw, hres⟩ := resolve_cases hwf hrun
      exact .resolved hres
  | reopen call => exact absurd rfl (hop call)
  | merge call =>
      simp only [Op.run, bind_ok, pure_ok] at h
      obtain ⟨⟨result, s₁⟩, hrun, rfl⟩ := h
      obtain ⟨s₃, s₄, hm⟩ := merge_cases hwf hrun
      exact .merged hm
  | review call =>
      simp only [Op.run, bind_ok, pure_ok] at h
      obtain ⟨⟨result, s₁⟩, hrun, rfl⟩ := h
      rcases review_cases hwf hrun with ⟨reviews, rfl⟩ | ⟨merge, s₃, s₄, hm⟩
      · exact .upkeep ⟨s.projections, s.projectionHistory, s.outbox, reviews, rfl⟩
      · exact .merged hm
  | reproject eventId now =>
      simp only [Op.run, bind_ok, pure_ok] at h
      obtain ⟨⟨p, s₁⟩, hrun, rfl⟩ := h
      exact .upkeep (reProjectEvent_only hrun).upkeep
  | rebuild maxEvents now =>
      simp only [Op.run, pure_ok] at h
      exact .upkeep (h ▸ rebuildAll_upkeep s maxEvents now)
  | process outboxId now => exact .upkeep (processEvent_upkeep h)

theorem run_reopen {s s' : Db} (hwf : s.WellFormed) {call : ReopenCall}
    (h : (Op.reopen call).run s = .ok s') : ∃ c, Reopened s s' call c := by
  simp only [Op.run, bind_ok, pure_ok] at h
  obtain ⟨⟨u, p, s₁⟩, hrun, rfl⟩ := h
  exact reopen_cases hwf hrun

/-- **Case rule for steps.**  What rollbacks, the four changes and reopenings
keep, every step keeps. -/
theorem step_rule {P : Db → Prop} {s : Db} (hwf : s.WellFormed) (hs : P s)
    (hchange : ∀ s', Change s s' → P s') (hreopen : ∀ s' call c, Reopened s s' call c → P s')
    (op : Op) : P (step s op) := by
  rcases step_cases s op with h | ⟨-, h⟩
  · by_cases hop : ∃ call, op = .reopen call
    · obtain ⟨call, rfl⟩ := hop
      obtain ⟨c, hre⟩ := run_reopen hwf h
      exact hreopen _ call c hre
    · exact hchange _ (run_change hwf (fun call hcall => hop ⟨call, hcall⟩) h)
  · rw [h]
    exact hs

/-- If the operation is a reopening that commits, `Q` holds of the conflict it
reopens. -/
def AtReopening (Q : Db → ClaimConflict → Prop) (s : Db) (op : Op) : Prop :=
  ∀ call s', op = .reopen call → op.run s = .ok s' →
    ∀ c ∈ s.conflicts, c.id = call.conflictId → Q s c

/-- **Exact case rule.**  When the four changes keep `P` and a reopening keeps it
exactly when `Q` holds of its conflict, a step keeps it exactly when `Q` holds
at a committed reopening. -/
theorem step_iff_atReopening {P : Db → Prop} {Q : Db → ClaimConflict → Prop} {s : Db}
    (hwf : s.WellFormed) (hs : P s) (hchange : ∀ s', Change s s' → P s')
    (hreopen : ∀ s' call c, Reopened s s' call c → (P s' ↔ Q s c)) (op : Op) :
    P (step s op) ↔ AtReopening Q s op := by
  rcases step_cases s op with h | ⟨hraise, h⟩
  · by_cases hop : ∃ call, op = .reopen call
    · obtain ⟨call, rfl⟩ := hop
      obtain ⟨c, hre⟩ := run_reopen hwf h
      rw [hreopen _ call c hre]
      constructor
      · intro hQ call' s' hcall _ d hd hid
        cases hcall
        rw [hwf.conflictIds.eq_of_key hd hre.mem (hid.trans hre.id.symm)]
        exact hQ
      · intro hQ
        exact hQ call _ rfl h c hre.mem hre.id
    · have hP' := hchange _ (run_change hwf (fun call hcall => hop ⟨call, hcall⟩) h)
      exact ⟨fun _ call s' hcall => absurd ⟨call, hcall⟩ hop, fun _ => hP'⟩
  · rw [h]
    exact ⟨fun _ call s' _ hok => absurd hok (hraise s'), fun _ => hs⟩

/-! ## The laws of the tables -/

theorem Change.wellFormed {s s' : Db} (hwf : s.WellFormed) (h : Change s s') : s'.WellFormed := by
  cases h with
  | upkeep h => exact h.wellFormed hwf
  | ingested h => exact h.wellFormed
  | resolved h => exact h.wellFormed hwf
  | merged h => exact h.wellFormed

theorem step_wellFormed {s : Db} (hwf : s.WellFormed) (op : Op) : (step s op).WellFormed :=
  step_rule hwf hwf (fun _ h => h.wellFormed hwf) (fun _ _ _ h => h.wellFormed hwf) op

/-! ## Roots after ingestions and merges -/

/-- An old claim of the submitted record has the submission's event as its root. -/
theorem Ingested.root_of_record {s s' : Db} (hwf : s.WellFormed) (hr : s.Rooted)
    {call : IngestCall} {sub : Submission} {s₀ s₁ s₂ s₃ : Db} {w : ClaimWriteResult}
    (h : Ingested s s' call sub s₀ w s₁ s₂ s₃) {k : Claim} (hk : k ∈ s.claims) {r : String}
    (hsub : sub.sourceRecordId = some r) (hrec : s.recordOf k = some (sub.sourceId, r)) :
    s.Root k.eventId sub.eventId := by
  obtain ⟨x, hx, hxrec, hroot⟩ := h.prepared.owner r hsub k hk hrec
  obtain ⟨r', hr₁, hr₂⟩ := hr.common hwf hk hx hrec hxrec
  rw [hr₂.unique hwf hroot] at hr₁
  exact hr₁

theorem Ingested.rooted {s s' : Db} (hwf : s.WellFormed) (hr : s.Rooted) {call : IngestCall}
    {sub : Submission} {s₀ s₁ s₂ s₃ : Db} {w : ClaimWriteResult}
    (h : Ingested s s' call sub s₀ w s₁ s₂ s₃) : s'.Rooted := by
  obtain ⟨extra, hev, hextra⟩ := h.events
  have hlive : s'.IsLive sub.eventId := by
    unfold IsLive
    rw [h.events_eq]
    exact h.prepared.live
  -- a claim with a record is an old one, or a new one on the submission's event
  have horigin : ∀ k' ∈ s'.claims, ∀ rec, s'.recordOf k' = some rec →
      (∃ k ∈ s.claims, k.eventId = k'.eventId ∧ s.recordOf k = some rec) ∨
        (k'.eventId = sub.eventId ∧ ∃ r, sub.sourceRecordId = some r ∧ rec = (sub.sourceId, r)) := by
    intro k' hk' rec hrec
    rw [h.claims] at hk'
    rcases List.mem_append.mp hk' with hk' | hk'
    · left
      obtain ⟨k, hk, rfl⟩ := List.mem_map.mp hk'
      have hkeep : (s₀.rewritten sub w.newClaims k).eventId = k.eventId ∧
          (s₀.rewritten sub w.newClaims k).rawSnapshotId = k.rawSnapshotId := by
        rcases h.rewritten_eq hwf hk with ⟨heq, -⟩ | ⟨-, n, -, -, heq⟩
        · rw [heq]
          exact ⟨rfl, rfl⟩
        · rw [heq]
          exact ⟨rfl, rfl⟩
      rw [recordOf_congr hkeep.2, (h.recordOf_old (claimSnapshot_exists hwf hk)).1] at hrec
      exact ⟨k, hk, hkeep.1.symm, hrec⟩
    · right
      obtain ⟨-, item, -, heq⟩ := h.written.news k' hk'
      rw [h.recordOf_new hk'] at hrec
      refine ⟨by rw [heq]; rfl, ?_⟩
      rw [Option.map_eq_some_iff] at hrec
      obtain ⟨r, hr, hrec⟩ := hrec
      exact ⟨r, hr, hrec.symm⟩
  have hmixed : ∀ k ∈ s.claims, ∀ r, sub.sourceRecordId = some r →
      s.recordOf k = some (sub.sourceId, r) → s'.Root k.eventId sub.eventId := by
    intro k hk r hsub hrec
    exact (h.root_of_record hwf hr hk hsub hrec).of_append extra hev
  apply rooted_of_common h.wellFormed
  · intro e he
    rw [hev] at he
    rcases List.mem_append.mp he with he | he
    · obtain ⟨r, hroot⟩ := hr.total e he
      exact ⟨r, hroot.of_append extra hev⟩
    · rw [(hextra e he).1]
      exact ⟨sub.eventId, root_of_isLive hlive⟩
  · intro k₁ hk₁ k₂ hk₂ rec h₁ h₂
    rcases horigin k₁ hk₁ rec h₁ with ⟨x₁, hx₁, he₁, hr₁⟩ | ⟨he₁, r₁, hs₁, hr₁⟩ <;>
    rcases horigin k₂ hk₂ rec h₂ with ⟨x₂, hx₂, he₂, hr₂⟩ | ⟨he₂, r₂, hs₂, hr₂⟩
    · obtain ⟨r, hroot₁, hroot₂⟩ := hr.common hwf hx₁ hx₂ hr₁ hr₂
      rw [← he₁, ← he₂]
      exact ⟨r, hroot₁.of_append extra hev, hroot₂.of_append extra hev⟩
    · rw [← he₁, he₂]
      exact ⟨sub.eventId, hmixed x₁ hx₁ r₂ hs₂ (hr₂ ▸ hr₁), root_of_isLive hlive⟩
    · rw [he₁, ← he₂]
      exact ⟨sub.eventId, root_of_isLive hlive, hmixed x₂ hx₂ r₁ hs₁ (hr₁ ▸ hr₂)⟩
    · rw [he₁, he₂]
      exact ⟨sub.eventId, root_of_isLive hlive, root_of_isLive hlive⟩

section Merge

variable {s s' s₃ s₄ : Db} {call : MergeCall}

theorem Merged.isLive_target (hwf : s.WellFormed) (h : Merged s s' call s₃ s₄) :
    s'.IsLive call.targetEventId := by
  obtain ⟨e, he, hid, hnone⟩ := h.target
  unfold IsLive
  rw [h.events hwf]
  refine ⟨e, mem_updateWhere.mpr ⟨e, he, if_neg ?_⟩, hid, hnone⟩
  simp [hid, Ne.symm h.distinct]

/-- Where an event's root is after a merge. -/
theorem Merged.root (hwf : s.WellFormed) (h : Merged s s' call s₃ s₄) {e r : Uuid}
    (hroot : s.Root e r) :
    s'.Root e (if r = call.sourceEventId then call.targetEventId else r) :=
  Pointed.root (h.events hwf) (h.isLive_target hwf) hroot

/-- Every claim after a merge continues one from before, with its record; its
root is where the old one's root went. -/
theorem Merged.origin (hwf : s.WellFormed) (h : Merged s s' call s₃ s₄) {k' : Claim}
    (hk' : k' ∈ s'.claims) :
    ∃ k ∈ s.claims, s.recordOf k = s'.recordOf k' ∧ ∀ r, s.Root k.eventId r →
      s'.Root k'.eventId (if r = call.sourceEventId then call.targetEventId else r) := by
  rcases (h.mem_claims hwf).mp hk' with ⟨hk, -⟩ | ⟨p, hp, rfl⟩ | ⟨p, hp, rfl⟩
  · exact ⟨k', hk, (recordOf_snapshots (h.snapshots hwf) k').symm, fun r hr => h.root hwf hr⟩
  · refine ⟨p.1, (mem_transferPairs hp).1, ?_, fun r hr => h.root hwf hr⟩
    rw [recordOf_snapshots (h.snapshots hwf)]
    rfl
  · obtain ⟨hk, he, -, -⟩ := mem_transferPairs hp
    refine ⟨p.1, hk, ?_, ?_⟩
    · rw [recordOf_snapshots (h.snapshots hwf)]
      rfl
    · intro r hr
      rw [he] at hr
      rw [hr.unique hwf (root_of_isLive h.source), if_pos rfl]
      exact root_of_isLive (h.isLive_target hwf)

theorem Merged.rooted (hwf : s.WellFormed) (hr : s.Rooted) (h : Merged s s' call s₃ s₄) :
    s'.Rooted := by
  apply rooted_of_common h.wellFormed
  · intro e he
    rw [h.events hwf] at he
    obtain ⟨x, hx, rfl⟩ := mem_updateWhere.mp he
    obtain ⟨r, hroot⟩ := hr.total x hx
    have hid : (if decide (x.id = call.sourceEventId ∧ x.mergedInto = none) = true then
        { x with mergedInto := some call.targetEventId } else x).id = x.id := by
      split <;> rfl
    rw [hid]
    exact ⟨_, h.root hwf hroot⟩
  · intro k₁ hk₁ k₂ hk₂ rec h₁ h₂
    obtain ⟨x₁, hx₁, hr₁, hroot₁⟩ := h.origin hwf hk₁
    obtain ⟨x₂, hx₂, hr₂, hroot₂⟩ := h.origin hwf hk₂
    obtain ⟨r, hx₁r, hx₂r⟩ := hr.common hwf hx₁ hx₂ (hr₁.trans h₁) (hr₂.trans h₂)
    exact ⟨_, hroot₁ r hx₁r, hroot₂ r hx₂r⟩

end Merge

theorem Change.rooted {s s' : Db} (hI : s.Inv) (h : Change s s') : s'.Rooted := by
  cases h with
  | upkeep h => exact h.rooted hI.wf hI.rooted
  | ingested h => exact h.rooted hI.wf hI.rooted
  | resolved h => exact h.rooted hI.wf hI.rooted
  | merged h => exact h.rooted hI.wf hI.rooted

theorem step_inv {s : Db} (hI : s.Inv) (op : Op) : (step s op).Inv :=
  ⟨step_wellFormed hI.wf op, step_rule hI.wf hI.rooted (fun _ h => h.rooted hI)
    (fun _ _ _ h => h.rooted hI.wf hI.rooted) op⟩

end Change

end Db

section Reachable

variable [PyText]

/-- **Invariant rule for reachable stores.**  What holds of a store with nothing
ingested and is kept by the four changes and by reopenings, under the standing
invariant, holds of every reachable store. -/
theorem reachable_rule {P : Db → Prop} (hempty : ∀ sources, P (Db.empty sources))
    (hchange : ∀ s s', s.Inv → P s → Db.Change s s' → P s')
    (hreopen : ∀ s s' call c, s.Inv → P s → Db.Reopened s s' call c → P s')
    {s : Db} (h : Reachable s) : s.Inv ∧ P s := by
  obtain ⟨sources, ops, rfl⟩ := h
  have hstep : ∀ s o, (s.Inv ∧ P s) → ((step s o).Inv ∧ P (step s o)) := by
    intro s o hs
    exact ⟨Db.step_inv hs.1 o, Db.step_rule hs.1.wf hs.2 (fun s' => hchange s s' hs.1 hs.2)
      (fun s' call c => hreopen s s' call c hs.1 hs.2) o⟩
  exact Runs.invariant hstep ⟨Db.inv_empty sources, hempty sources⟩ ops

theorem Reachable.inv {s : Db} (h : Reachable s) : s.Inv :=
  (reachable_rule (P := fun _ => True) (fun _ => trivial) (fun _ _ _ _ _ => trivial)
    (fun _ _ _ _ _ _ _ => trivial) h).1

/-- A step leads from a reachable store to a reachable one. -/
theorem Reachable.step {s : Db} (h : Reachable s) (op : Op) : Reachable (Atlas.step s op) := by
  obtain ⟨sources, ops, rfl⟩ := h
  refine ⟨sources, ops ++ [op], ?_⟩
  unfold after
  rw [Runs.run_append]
  rfl

end Reachable

end Atlas
