import Atlas.ChangedFields
import Atlas.Freshness
import Atlas.ProjectionRows

/-!
# The consistency checker and the writer

The checker builds the projection again and compares it with the stored row.  The writer
serialises what it builds and the checker does not: the store has the text of the marker
where the checker has the sentinel, and the two are never equal.

So a row that was just written, or that is fresh, is found consistent exactly when nothing is
disputed; and what the report names are the disputed fields, no others.
-/

namespace Atlas

open Outcome Rows

/-! ## A stored map and the map it was made of -/

section Maps

variable {r st : List (String × Projected)}

/-- The two maps have one text. -/
def SameText (r st : List (String × Projected)) : Prop :=
  sortFields (Json.canonicalFields (serialiseFields st)) =
    sortFields (Json.canonicalFields (serialiseFields r))

theorem keys_serialiseFields (fields : List (String × Projected)) :
    (serialiseFields fields).map Prod.fst = fields.map Prod.fst := by
  unfold serialiseFields
  rw [List.map_map]
  rfl

theorem keys_canonicalFields (fields : List (String × Json)) :
    (Json.canonicalFields fields).map Prod.fst = fields.map Prod.fst := by
  induction fields with
  | nil => rfl
  | cons kv fields ih =>
      rw [Json.canonicalFields, List.map_cons, List.map_cons, ih]

theorem SameText.perm (h : SameText r st) (hkeys : (r.map Prod.fst).Nodup) :
    (Json.canonicalFields (serialiseFields r)).Perm (Json.canonicalFields (serialiseFields st)) := by
  apply (Json.sortFields_eq_iff ?_).mp h.symm
  rw [keys_canonicalFields, keys_serialiseFields]
  exact hkeys

theorem SameText.keys (h : SameText r st) (hkeys : (r.map Prod.fst).Nodup) :
    (r.map Prod.fst).Perm (st.map Prod.fst) := by
  have hperm := (h.perm hkeys).map Prod.fst
  rw [keys_canonicalFields, keys_canonicalFields, keys_serialiseFields, keys_serialiseFields] at hperm
  exact hperm

theorem mem_canonical_serialise {fields : List (String × Projected)} {f : String} {t : Json} :
    (f, t) ∈ Json.canonicalFields (serialiseFields fields) ↔
      ∃ v, (f, v) ∈ fields ∧ v.serialise.canonical = t := by
  rw [Json.mem_canonicalFields]
  unfold serialiseFields
  constructor
  · intro h
    obtain ⟨x, hx, ht⟩ := h
    obtain ⟨kv, hkv, heq⟩ := List.mem_map.mp hx
    cases heq
    exact ⟨kv.2, hkv, ht⟩
  · intro h
    obtain ⟨v, hv, ht⟩ := h
    exact ⟨v.serialise, List.mem_map_of_mem hv, ht⟩

/-- A field of one map is in the other, with the same text. -/
theorem SameText.lookup (h : SameText r st) (hkeys : (r.map Prod.fst).Nodup) {f : String}
    {v : Projected} (hv : (f, v) ∈ r) :
    ∃ u, st.lookup f = some u ∧ (f, u) ∈ st ∧ u.serialise.canonical = v.serialise.canonical := by
  have hmem := (h.perm hkeys).mem_iff.mp (mem_canonical_serialise.mpr ⟨v, hv, rfl⟩)
  obtain ⟨u, hu, htext⟩ := mem_canonical_serialise.mp hmem
  exact ⟨u, (lookup_eq_some_iff_mem ((h.keys hkeys).nodup_iff.mp hkeys) f u).mpr hu, hu, htext⟩

/-- **One field.**  A stored value equals the value it is the text of exactly when that is
not the sentinel. -/
theorem pyEq_stored_iff {u v : Projected} (hu : u ≠ .disputed) (hproper : u.serialise.Proper)
    (hproper' : v.serialise.Proper) (htext : u.serialise.canonical = v.serialise.canonical) :
    (v.pyEq u = true ↔ v ≠ .disputed) ∧ (u.pyEq v = true ↔ v ≠ .disputed) := by
  cases u with
  | disputed => exact absurd rfl hu
  | value a =>
      cases v with
      | disputed => exact ⟨by simp [Projected.pyEq], by simp [Projected.pyEq]⟩
      | value b =>
          have hab := ((Json.canonical_eq_iff hproper hproper').mp htext).1
          have hba := ((Json.canonical_eq_iff hproper' hproper).mp htext.symm).1
          exact ⟨⟨fun _ => by simp, fun _ => hba⟩, ⟨fun _ => by simp, fun _ => hab⟩⟩

variable (hstored : ∀ kv ∈ st, kv.2 ≠ .disputed ∧ kv.2.serialise.Proper)
  (hbuilt : ∀ kv ∈ r, kv.2.serialise.Proper)

include hstored hbuilt

/-- The maps are equal exactly when nothing is disputed. -/
theorem SameText.fieldsPyEq_iff (h : SameText r st) (hkeys : (r.map Prod.fst).Nodup) :
    fieldsPyEq r st = true ↔ ∀ kv ∈ r, kv.2 ≠ .disputed := by
  have hlength : r.length = st.length := by
    have hperm := (h.keys hkeys).length_eq
    rwa [List.length_map, List.length_map] at hperm
  unfold fieldsPyEq
  rw [Bool.and_eq_true, beq_iff_eq, List.all_eq_true]
  constructor
  · intro heq kv hkv
    obtain ⟨u, hlookup, hmem, htext⟩ := h.lookup hkeys (v := kv.2) hkv
    have hone := heq.2 kv hkv
    rw [hlookup] at hone
    exact (pyEq_stored_iff (hstored _ hmem).1 (hstored _ hmem).2 (hbuilt kv hkv) htext).1.mp hone
  · intro hnone
    refine ⟨hlength, ?_⟩
    intro kv hkv
    obtain ⟨u, hlookup, hmem, htext⟩ := h.lookup hkeys (v := kv.2) hkv
    rw [hlookup]
    exact (pyEq_stored_iff (hstored _ hmem).1 (hstored _ hmem).2 (hbuilt kv hkv) htext).1.mpr
      (hnone kv hkv)

/-- The comparison of one key. -/
theorem SameText.getPyEq_iff (h : SameText r st) (hkeys : (r.map Prod.fst).Nodup) (f : String) :
    getPyEq (st.lookup f) (r.lookup f) = true ↔ r.lookup f ≠ some .disputed := by
  cases hr : r.lookup f with
  | some v =>
      obtain ⟨u, hlookup, hmem, htext⟩ := h.lookup hkeys (mem_of_lookup_fields hr)
      rw [hlookup]
      have hone := (pyEq_stored_iff (hstored _ hmem).1 (hstored _ hmem).2
        (hbuilt _ (mem_of_lookup_fields hr)) htext).2
      simpa [getPyEq] using hone
  | none =>
      have hst : st.lookup f = none := by
        by_contra hsome
        obtain ⟨u, hu⟩ := Option.ne_none_iff_exists'.mp hsome
        have hmem := List.mem_map_of_mem (f := Prod.fst) (mem_of_lookup_fields hu)
        obtain ⟨kv, hkv, hkey⟩ := List.mem_map.mp ((h.keys hkeys).mem_iff.mpr hmem)
        have hin := (lookup_eq_some_iff_mem hkeys kv.1 kv.2).mpr hkv
        have hfirst : kv.1 = f := hkey
        rw [hfirst, hr] at hin
        cases hin
      rw [hst]
      simp [getPyEq, Projected.pyEq, Json.pyEq]

end Maps

/-! ## The report -/

section Compare

variable {r st : ProjectedAccidentRecord}

/-- The stored row is the text of the rebuilt record. -/
structure Matches (r st : ProjectedAccidentRecord) : Prop where
  content : st.content = r.content
  keys : (r.fields.map Prod.fst).Nodup
  stored : ∀ kv ∈ st.fields, kv.2 ≠ .disputed ∧ kv.2.serialise.Proper
  built : ∀ kv ∈ r.fields, kv.2.serialise.Proper

theorem Matches.sameText (h : Matches r st) : SameText r.fields st.fields :=
  congrArg ProjectionContent.fields h.content

theorem Matches.consistent_iff (h : Matches r st) (e : Uuid) :
    (Db.compareProjections e r st).consistent = true ↔ ∀ kv ∈ r.fields, kv.2 ≠ .disputed := by
  have hunresolved : st.unresolvedConflictFields = r.unresolvedConflictFields :=
    congrArg ProjectionContent.unresolvedConflictFields h.content
  have hscore : st.completenessScore = r.completenessScore :=
    congrArg ProjectionContent.completenessScore h.content
  unfold Db.compareProjections
  dsimp only
  rw [hunresolved, hscore, sub_self, abs_zero]
  simp only [beq_self_eq_true, Bool.and_true]
  have hsmall : decide ((0 : ℚ) < 1 / 1000000000) = true := by norm_num
  rw [hsmall, Bool.and_true]
  exact h.sameText.fieldsPyEq_iff h.stored h.built h.keys

theorem Matches.diff_iff (h : Matches r st) (e : Uuid) (f : String) :
    f ∈ (Db.compareProjections e r st).fieldDiff.map (fun d => d.1) ↔
      r.fields.lookup f = some .disputed := by
  have hall := h.sameText.fieldsPyEq_iff h.stored h.built h.keys
  unfold Db.compareProjections
  dsimp only
  by_cases hmatch : fieldsPyEq r.fields st.fields = true
  · rw [if_pos hmatch]
    refine ⟨fun hf => (List.not_mem_nil hf).elim, ?_⟩
    intro hf
    exact absurd rfl (hall.mp hmatch (f, .disputed) (mem_of_lookup_fields hf))
  · rw [if_neg hmatch, List.map_map]
    have hname : ((fun d : String × Option Projected × Option Projected => d.1) ∘ fun f =>
        (f, st.fields.lookup f, r.fields.lookup f)) = id := rfl
    rw [hname, List.map_id, List.mem_filter, Bool.not_eq_true', ← Bool.not_eq_true,
      h.sameText.getPyEq_iff h.stored h.built h.keys f, not_not]
    refine ⟨fun hf => hf.2, fun hf => ⟨?_, hf⟩⟩
    unfold unionKeys
    rw [List.mem_insertionSort, mem_distinct, List.mem_append]
    exact .inr (List.mem_map_of_mem (f := Prod.fst) (mem_of_lookup_fields hf))

end Compare

/-! ## What is recomputed -/

namespace Db

section Recompute

variable [PyText] {s s' : Db} {e : Uuid}

/-- The list of unresolved fields is that of the disputed ones. -/
theorem mem_unresolved_buildFrom {version : Nat} {now : Time} {f : String} :
    f ∈ (s.buildFrom e version now).unresolvedConflictFields ↔
      (s.buildFrom e version now).fields.lookup f = some .disputed := by
  unfold buildFrom
  dsimp only
  rw [lookup_build]
  constructor
  · exact mem_unresolvedConflictFields
  · intro hf
    refine List.mem_filter.mpr ⟨?_, decide_eq_true hf⟩
    by_contra hnot
    rw [projectField_of_notMem hnot] at hf
    cases hf

theorem nodup_buildFrom (s : Db) (e : Uuid) (version : Nat) (now : Time) :
    ((s.buildFrom e version now).fields.map Prod.fst).Nodup := nodup_build_fields e _ _ _ version now

/-- What a reprojection writes and what the checker makes of it list the disputed fields in the
same way. -/
theorem Writes.unresolved {p : ProjectedAccidentRecord} (h : s.Writes e p) (f : String) :
    f ∈ p.unresolvedConflictFields ↔ p.fields.lookup f = some .disputed := by
  rcases h with ⟨target, v, now, rfl⟩ | ⟨v, now, rfl⟩
  · refine ⟨fun hf => (List.not_mem_nil hf).elim, ?_⟩
    intro hf
    rcases List.mem_pair.mp (mem_of_lookup_fields hf) with heq | heq
    · cases heq
    · cases heq
  · exact mem_unresolved_buildFrom

theorem Writes.keys {p : ProjectedAccidentRecord} (h : s.Writes e p) :
    (p.fields.map Prod.fst).Nodup := by
  rcases h with ⟨target, v, now, rfl⟩ | ⟨v, now, rfl⟩
  · exact List.nodup_cons.mpr ⟨by simp, List.nodup_singleton _⟩
  · exact nodup_buildFrom s e v now

/-- What the checker rebuilds is what a reprojection would write. -/
theorem writes_recompute (s : Db) (e : Uuid) (st : ProjectedAccidentRecord) :
    s.Writes e (s.recompute e st) := by
  unfold recompute
  split
  · exact .inl ⟨_, _, _, rfl⟩
  · exact .inr ⟨_, _, rfl⟩

/-- **The verdict on a row that is the text of the rebuilt record.** -/
theorem verify_of_content {st : ProjectedAccidentRecord} (hcolumns : s.JsonColumns)
    (hstored : s.getProjection e = some st) (hcontent : st.content = (s.recompute e st).content) :
    ∃ report, s.verifyProjectionConsistency e = some report ∧
      (report.consistent = true ↔ st.unresolvedConflictFields = []) ∧
      ∀ f, f ∈ report.fieldDiff.map (fun d => d.1) ↔ f ∈ st.unresolvedConflictFields := by
  have hwrites := writes_recompute s e st
  have hmatches : Matches (s.recompute e st) st :=
    ⟨hcontent, hwrites.keys, hcolumns.projections st (lookup_some hstored).1, hwrites.proper hcolumns⟩
  have hunresolved : st.unresolvedConflictFields = (s.recompute e st).unresolvedConflictFields :=
    congrArg ProjectionContent.unresolvedConflictFields hcontent
  have hdiff : ∀ f, f ∈ (compareProjections e (s.recompute e st) st).fieldDiff.map (fun d => d.1) ↔
      f ∈ st.unresolvedConflictFields := by
    intro f
    rw [hmatches.diff_iff e f, hunresolved, hwrites.unresolved]
  refine ⟨compareProjections e (s.recompute e st) st, ?_, ?_, hdiff⟩
  · unfold verifyProjectionConsistency
    rw [hstored]
  · rw [hmatches.consistent_iff e, List.eq_nil_iff_forall_not_mem]
    constructor
    · intro hnone f hf
      rw [hunresolved, hwrites.unresolved] at hf
      exact hnone _ (mem_of_lookup_fields hf) rfl
    · intro hnone kv hkv hdisputed
      have hlookup := (lookup_eq_some_iff_mem hwrites.keys kv.1 kv.2).mpr hkv
      rw [hdisputed, ← hwrites.unresolved, ← hunresolved] at hlookup
      exact hnone kv.1 hlookup

/-! ## After a reprojection -/

omit [PyText] in
/-- What persisting a projection does: the row of the same content stands as it is, or the new
one is stored and a history row is appended. -/
theorem persistProjection_cases {call : ReProjectCall} {cur : Option ProjectedAccidentRecord}
    {p r : ProjectedAccidentRecord} (h : s.persistProjection call cur p = .ok (r, s')) :
    ∃ c, projectionContentHash p = .ok c ∧
      ((s' = s ∧ cur = some r ∧ projectionContentHash r = .ok c) ∨
        (r = p ∧
          (s.upsertProjection (storedRow p)).addProjectionHistory (historyRow call cur p) =
            .ok s')) := by
  unfold persistProjection at h
  simp only [bind_ok] at h
  obtain ⟨c, hc, unchanged, hunchanged, h⟩ := h
  refine ⟨c, hc, ?_⟩
  split at h
  · rw [pure_ok, Prod.mk.injEq] at h
    obtain ⟨rfl, rfl⟩ := h
    left
    unfold unchangedRow at hunchanged
    split at hunchanged
    · split at hunchanged
      · simp [pure_ok] at hunchanged
      · simp only [bind_ok, pure_ok] at hunchanged
        obtain ⟨c', hc', hif⟩ := hunchanged
        split at hif
        · rename_i heq
          cases hif
          exact ⟨rfl, rfl, heq ▸ hc'⟩
        · cases hif
    · simp [pure_ok] at hunchanged
  · simp only [bind_ok, pure_ok, Prod.mk.injEq] at h
    obtain ⟨s₁, hadd, rfl, rfl⟩ := h
    exact .inr ⟨rfl, hadd⟩

omit [PyText] in
/-- A projection that is persisted stands with its content, whether the write was skipped or
not, and the columns stay JSON. -/
theorem persistProjection_stored {call : ReProjectCall} {p r : ProjectedAccidentRecord}
    (hcolumns : s.JsonColumns) (hp : ∀ kv ∈ p.fields, kv.2.serialise.Proper)
    (h : s.persistProjection call (s.getProjection p.eventId) p = .ok (r, s')) :
    s'.JsonColumns ∧ r.unresolvedConflictFields = p.unresolvedConflictFields ∧
      ∃ st, s'.getProjection p.eventId = some st ∧ st.content = p.content := by
  obtain ⟨c, hc, ⟨rfl, hcur, hr⟩ | ⟨rfl, hadd⟩⟩ := persistProjection_cases h
  · have hsame : r.content = p.content := by
      rw [← projectionContentHash_ok hr, ← projectionContentHash_ok hc]
    exact ⟨hcolumns, congrArg ProjectionContent.unresolvedConflictFields hsame, r, hcur, hsame⟩
  · obtain ⟨ps, hps⟩ := upsertProjection_eq s (storedRow r)
    rw [addProjectionHistory_ok hadd]
    refine ⟨⟨?_, ?_⟩, rfl, storedRow r, ?_, content_storedRow r⟩
    · rw [hps]
      exact hcolumns.claims
    · intro q hq
      rcases mem_upsertProjection hq with hnew | hold
      · rw [hnew]
        intro kv hkv
        obtain ⟨x, hx, rfl⟩ := List.mem_map.mp hkv
        obtain ⟨y, hy, rfl⟩ := List.mem_map.mp hx
        exact ⟨by simp, hp y hy⟩
      · exact hcolumns.projections q hold
    · exact (getProjection_upsert s (storedRow r) r.eventId).trans (if_pos rfl)

/-- The row that a reprojection leaves is the text of what the checker rebuilds. -/
theorem stored_of_reProjectEvent {call : ReProjectCall} {p : ProjectedAccidentRecord}
    (hcolumns : s.JsonColumns)
    (hfirst : call.causedByOutboxEventId.bind s.findHistoryByOutboxEvent = none)
    (hrun : s.reProjectEvent call = .ok (p, s')) :
    s'.JsonColumns ∧ ∃ st, s'.getProjection call.eventId = some st ∧
      st.unresolvedConflictFields = p.unresolvedConflictFields ∧
      ∀ st', st.content = (s'.recompute call.eventId st').content := by
  have honly := reProjectEvent_only hrun
  unfold reProjectEvent at hrun
  dsimp only at hrun
  rw [hfirst] at hrun
  obtain ⟨ps, hs, hdb⟩ := honly
  -- The checker rebuilds what was written, up to the version and the time.
  have hrebuilt : ∃ q, s.persistProjection call (s.getProjection q.eventId) q = .ok (p, s') ∧
      q.eventId = call.eventId ∧ s.Writes call.eventId q ∧
      ∀ st, (s'.recompute call.eventId st).content = q.content := by
    unfold rebuildProjection at hrun
    dsimp only at hrun
    split at hrun
    · rename_i target htarget
      refine ⟨_, hrun, rfl, .inl ⟨_, _, _, rfl⟩, ?_⟩
      intro st
      have hevent : (s'.getEvent call.eventId).bind AccidentEvent.mergedInto = some target := by
        rw [hdb]
        exact htarget
      unfold recompute
      rw [hevent]
      rfl
    · rename_i hnone
      rw [bind_ok] at hrun
      obtain ⟨_, _, hrun⟩ := hrun
      refine ⟨_, hrun, rfl, .inr ⟨_, _, rfl⟩, ?_⟩
      intro st
      have hevent : (s'.getEvent call.eventId).bind AccidentEvent.mergedInto = none := by
        rw [hdb]
        exact hnone
      unfold recompute
      rw [hevent, hdb]
      rfl
  obtain ⟨q, hok, heq, hwrites, hrecompute⟩ := hrebuilt
  obtain ⟨hcolumns', hunresolved, st, hst, hcontent⟩ :=
    persistProjection_stored hcolumns (hwrites.proper hcolumns) hok
  rw [heq] at hst
  refine ⟨hcolumns', st, hst, ?_, fun st' => hcontent.trans (hrecompute st').symm⟩
  rw [hunresolved]
  exact congrArg ProjectionContent.unresolvedConflictFields hcontent

/-- **The checker and the writer.**  After a reprojection of an event, whether it was merged or
not and whether the write was skipped or not, the checker finds the row consistent exactly when
the projection has no unresolved field, and the fields it reports are the unresolved ones.  The
reprojection must not be one that an outbox row asked for before. -/
theorem verification_after_reprojection {call : ReProjectCall} {p : ProjectedAccidentRecord}
    (hcolumns : s.JsonColumns)
    (hfirst : call.causedByOutboxEventId.bind s.findHistoryByOutboxEvent = none)
    (hrun : s.reProjectEvent call = .ok (p, s')) :
    ∃ report, s'.verifyProjectionConsistency call.eventId = some report ∧
      (report.consistent = true ↔ p.unresolvedConflictFields = []) ∧
      ∀ f, f ∈ report.fieldDiff.map (fun d => d.1) ↔ f ∈ p.unresolvedConflictFields := by
  obtain ⟨hcolumns', st, hst, hunresolved, hcontent⟩ := stored_of_reProjectEvent hcolumns hfirst hrun
  rw [← hunresolved]
  exact verify_of_content hcolumns' hst (hcontent st)

end Recompute

end Db

/-- The operator is disputed, so the checker finds fault with the row that was just written. -/
theorem verification_after_reprojection_disputed :
    ∃ p s' report, disputedThenLocation.reProjectEvent locationCall = .ok (p, s') ∧
      p.unresolvedConflictFields = ["operator"] ∧
      s'.verifyProjectionConsistency 5 = some report ∧ ¬ report.consistent = true := by
  obtain ⟨r, hrun, hunresolved⟩ : ∃ r, disputedThenLocation.reProjectEvent locationCall = .ok r ∧
      r.1.unresolvedConflictFields = ["operator"] := exists_ok_of_any (by decide +kernel)
  obtain ⟨report, hreport, hconsistent, -⟩ :=
    Db.verification_after_reprojection jsonColumns_disputedThenLocation rfl hrun
  refine ⟨r.1, r.2, report, hrun, hunresolved, hreport, ?_⟩
  rw [hconsistent, hunresolved]
  exact List.cons_ne_nil _ _

/-! ## At quiescence -/

section Quiescence

variable [PyText]

/-- **False alarms of the checker.**  In every world the transactions can reach, and for every
live event with claims whose outbox rows are all PROCESSED: the checker finds the stored
projection consistent exactly when it has no unresolved field, and reports the unresolved
fields, no others. -/
theorem World.verification_at_quiescence {sources : List Source} {w : World}
    (hrun : Relation.ReflTransGen World.Step (World.idle (Db.empty sources)) w) {e : Uuid}
    (hlive : w.db.IsLive e) (hclaims : w.db.HasClaims e)
    (hprocessed : ∀ o ∈ w.db.outbox, o.eventId = e → o.status = .processed)
    (hcolumns : w.db.JsonColumns) :
    ∃ st report, w.db.getProjection e = some st ∧
      w.db.verifyProjectionConsistency e = some report ∧
      (report.consistent = true ↔ st.unresolvedConflictFields = []) ∧
      ∀ f, f ∈ report.fieldDiff.map (fun d => d.1) ↔ f ∈ st.unresolvedConflictFields := by
  have hsettled := World.settled_of_run hrun
  obtain ⟨st, hst, hshows⟩ := hsettled.fresh hlive hclaims hprocessed
  have hmerged := hsettled.inv.tables.not_isMerged hlive
  have hevent : (w.db.getEvent e).bind AccidentEvent.mergedInto = none := by
    cases hget : w.db.getEvent e with
    | none => rfl
    | some ev =>
        by_contra hsome
        obtain ⟨hmem, hid⟩ := lookup_some hget
        exact hmerged ⟨ev, hmem, hid, hsome⟩
  have hcontent : st.content = (w.db.recompute e st).content := by
    unfold Db.recompute
    rw [hevent]
    exact hshows _ _
  obtain ⟨report, hreport, hconsistent, hdiff⟩ := Db.verify_of_content hcolumns hst hcontent
  exact ⟨st, report, hst, hreport, hconsistent, hdiff⟩

end Quiescence

theorem jsonColumns_deliveredStore : deliveredStore.JsonColumns := by
  have hclaims : deliveredStore.claims.map Claim.fieldValue = [.str "Acme"] := rfl
  have hprojections : deliveredStore.projections.map ProjectedAccidentRecord.fields =
      [[("operator", Json.str "Acme")]].map storedFields := rfl
  refine Db.jsonColumns_of hclaims hprojections ?_ ?_
  · intro v hv
    rw [List.mem_singleton.mp hv]
    exact .str _
  · intro kvs hkvs kv hkv
    rw [List.mem_singleton.mp hkvs] at hkv
    rw [List.mem_singleton.mp hkv]
    exact .str _

theorem verification_at_quiescence_delivered :
    ∃ st report, deliveredStore.getProjection 5 = some st ∧
      deliveredStore.verifyProjectionConsistency 5 = some report ∧
      (report.consistent = true ↔ st.unresolvedConflictFields = []) ∧
      ∀ f, f ∈ report.fieldDiff.map (fun d => d.1) ↔ f ∈ st.unresolvedConflictFields := by
  refine World.verification_at_quiescence (run_ingests.trans run_delivers) ?_ ?_ ?_
    jsonColumns_deliveredStore
  · exact ⟨⟨5, none⟩, List.mem_singleton_self _, rfl, rfl⟩
  · exact ⟨_, List.mem_singleton_self _, rfl⟩
  · intro o ho _
    rw [List.mem_singleton.mp ho]
    rfl

end Atlas
