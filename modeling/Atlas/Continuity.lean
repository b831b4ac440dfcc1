import Atlas.Ingest
import Atlas.StoreLaws

/-!
# Merge pointers and source records

Following `merged_into_event_id` from an event leads to its *root*, a live
event.  The two laws of this module tie source records to roots: every event has
a root, and all claims of one source record have the same one.  They are why a
merge never brings two active claims of one record onto one event.
-/

namespace Atlas

open Rows

namespace Db

/-- The merge pointers lead from an event to a live event in so many steps. -/
inductive Leads (s : Db) : Nat → Uuid → Uuid → Prop where
  | root {e : Uuid} (h : s.IsLive e) : Leads s 0 e e
  | step {n : Nat} {e t r : Uuid} (h : ∃ x ∈ s.events, x.id = e ∧ x.mergedInto = some t)
      (rest : Leads s n t r) : Leads s (n + 1) e r

/-- The live event an event was merged into, directly or in steps; a live event
is its own root. -/
def Root (s : Db) (e r : Uuid) : Prop := ∃ n, s.Leads n e r

theorem root_of_isLive {s : Db} {e : Uuid} (h : s.IsLive e) : s.Root e e := ⟨0, .root h⟩

theorem Root.isLive {s : Db} {e r : Uuid} (h : s.Root e r) : s.IsLive r := by
  obtain ⟨n, h⟩ := h
  induction h with
  | root h => exact h
  | step _ _ ih => exact ih

theorem Leads.unique {s : Db} (hids : Unique AccidentEvent.id s.events) {n m : Nat}
    {e r r' : Uuid} (h : s.Leads n e r) (h' : s.Leads m e r') : n = m ∧ r = r' := by
  induction h generalizing m r' with
  | root hlive =>
      obtain ⟨a, ha, rfl, hnone⟩ := hlive
      cases h' with
      | root _ => exact ⟨rfl, rfl⟩
      | step hx _ =>
          obtain ⟨b, hb, hid, hsome⟩ := hx
          rw [hids.eq_of_key hb ha hid, hnone] at hsome
          cases hsome
  | step hx hrest ih =>
      obtain ⟨a, ha, rfl, hsome⟩ := hx
      cases h' with
      | root hlive =>
          obtain ⟨b, hb, hid, hnone⟩ := hlive
          rw [hids.eq_of_key hb ha hid, hsome] at hnone
          cases hnone
      | step hy hrest' =>
          obtain ⟨b, hb, hid, hsome'⟩ := hy
          rw [hids.eq_of_key hb ha hid, hsome, Option.some.injEq] at hsome'
          subst hsome'
          obtain ⟨hn, hr⟩ := ih hrest'
          exact ⟨by omega, hr⟩

theorem Root.unique {s : Db} (hwf : s.WellFormed) {e r r' : Uuid} (h : s.Root e r)
    (h' : s.Root e r') : r = r' := by
  obtain ⟨n, h⟩ := h
  obtain ⟨m, h'⟩ := h'
  exact (h.unique hwf.eventIds h').2

/-- New live events change no root. -/
theorem Root.of_append {s s' : Db} (extra : List AccidentEvent)
    (hev : s'.events = s.events ++ extra) {e r : Uuid} (h : s.Root e r) : s'.Root e r := by
  obtain ⟨n, h⟩ := h
  refine ⟨n, ?_⟩
  induction h with
  | root hlive =>
      obtain ⟨a, ha, hid, hnone⟩ := hlive
      exact .root ⟨a, by rw [hev]; exact List.mem_append_left _ ha, hid, hnone⟩
  | step hx _ ih =>
      obtain ⟨a, ha, hid, hsome⟩ := hx
      exact .step ⟨a, by rw [hev]; exact List.mem_append_left _ ha, hid, hsome⟩ ih

/-- The event table after a merge: the source event points at the target. -/
def Pointed (s s' : Db) (source target : Uuid) : Prop :=
  s'.events = updateWhere (fun x => x.id = source ∧ x.mergedInto = none)
    (fun x => { x with mergedInto := some target }) s.events

/-- An event other than the source is live after a merge when it was. -/
theorem Pointed.isLive {s s' : Db} {source target e : Uuid} (h : Pointed s s' source target)
    (hlive : s.IsLive e) (hne : e ≠ source) : s'.IsLive e := by
  obtain ⟨x, hx, rfl, hnone⟩ := hlive
  refine ⟨x, ?_, rfl, hnone⟩
  rw [h]
  refine mem_updateWhere.mpr ⟨x, hx, if_neg ?_⟩
  simp [hne]

/-- **Roots after a merge.**  What led to the source event leads to the target,
and other roots stay. -/
theorem Pointed.root {s s' : Db} {source target : Uuid} (h : Pointed s s' source target)
    (htarget : s'.IsLive target) {e r : Uuid} (hroot : s.Root e r) :
    s'.Root e (if r = source then target else r) := by
  obtain ⟨n, hn⟩ := hroot
  induction hn with
  | @root e hlive =>
      by_cases he : e = source
      · rw [if_pos he]
        obtain ⟨x, hx, rfl, hnone⟩ := hlive
        refine ⟨1, .step ⟨{ x with mergedInto := some target }, ?_, rfl, rfl⟩ (.root htarget)⟩
        rw [h]
        refine mem_updateWhere.mpr ⟨x, hx, if_pos ?_⟩
        simp [he, hnone]
      · rw [if_neg he]
        exact root_of_isLive (h.isLive hlive he)
  | @step n e t r hx _ ih =>
      obtain ⟨x, hx, rfl, ht⟩ := hx
      obtain ⟨m, hm⟩ := ih
      refine ⟨m + 1, .step ⟨x, ?_, rfl, ht⟩ hm⟩
      rw [h]
      refine mem_updateWhere.mpr ⟨x, hx, if_neg ?_⟩
      simp [ht]

/-- Roots depend on the event table only. -/
theorem root_congr {s s' : Db} (hev : s'.events = s.events) {e r : Uuid} :
    s'.Root e r ↔ s.Root e r :=
  ⟨Root.of_append [] (by simp [hev]), Root.of_append [] (by simp [hev])⟩

/-- The walk of `_canonical_event_for` ends at the root. -/
theorem canonicalLoop_found {s : Db} {fuel : Nat} {seen : List Uuid} {id : Uuid}
    {e : AccidentEvent} (h : s.canonicalLoop fuel seen id = .found e) : s.Root id e.id := by
  induction fuel generalizing seen id with
  | zero => cases h
  | succ n ih =>
      unfold canonicalLoop at h
      split at h
      · cases h
      · rename_i x hx
        obtain ⟨hxmem, hxid⟩ := getEvent_some hx
        split at h
        · rename_i hnone
          simp only [Canonical.found.injEq] at h
          subst h
          rw [hxid]
          exact root_of_isLive ⟨x, hxmem, hxid, hnone⟩
        · rename_i t ht
          split at h
          · cases h
          · obtain ⟨m, hm⟩ := ih h
            exact ⟨m + 1, .step ⟨x, hxmem, hxid, ht⟩ hm⟩

theorem canonicalEventFor_found {s : Db} {id : Uuid} {e : AccidentEvent}
    (h : s.canonicalEventFor id = .found e) : s.Root id e.id := canonicalLoop_found h

theorem requireCanonical_ok {s : Db} {id : Uuid} {e : AccidentEvent}
    (h : s.requireCanonical id = .ok e) : s.Root id e.id := by
  unfold requireCanonical at h
  split at h
  · rename_i x hx
    cases h
    exact canonicalEventFor_found hx
  · cases h
  · cases h

/-! ## Source records -/

/-- The claims of one source record have one root. -/
structure Rooted (s : Db) : Prop where
  total : ∀ e ∈ s.events, ∃ r, s.Root e.id r
  record : ∀ k₁ ∈ s.claims, ∀ k₂ ∈ s.claims, ∀ rec, s.recordOf k₁ = some rec →
    s.recordOf k₂ = some rec → ∀ r₁ r₂, s.Root k₁.eventId r₁ → s.Root k₂.eventId r₂ → r₁ = r₂

theorem rooted_empty (sources : List Source) : (Db.empty sources).Rooted := by
  constructor <;> simp [Db.empty]

/-- The record of a claim depends on its snapshot only. -/
theorem recordOf_congr {s : Db} {k k' : Claim} (h : k'.rawSnapshotId = k.rawSnapshotId) :
    s.recordOf k' = s.recordOf k := by
  unfold recordOf
  rw [h]

theorem claimSnapshot_exists {s : Db} (hwf : s.WellFormed) {k : Claim} (hk : k ∈ s.claims) (i : Uuid)
    (hi : k.rawSnapshotId = some i) : ∃ x ∈ s.snapshots, x.id = i := by
  obtain ⟨x, hx, hid, -⟩ := hwf.claimSnapshot k hk i hi
  exact ⟨x, hx, hid⟩

/-- A further snapshot changes no claim's record. -/
theorem recordOf_append {s s' : Db} {r : RawSnapshot}
    (hsnap : s'.snapshots = s.snapshots ++ [r]) {k : Claim}
    (hk : ∀ i, k.rawSnapshotId = some i → ∃ x ∈ s.snapshots, x.id = i) :
    s'.recordOf k = s.recordOf k := by
  unfold recordOf
  cases hraw : k.rawSnapshotId with
  | none => rfl
  | some i =>
      obtain ⟨x, hx, hxi⟩ := hk i hraw
      have hlookup : s'.getSnapshot i = s.getSnapshot i := by
        unfold getSnapshot lookup
        rw [hsnap, List.find?_append]
        have hsome : (s.snapshots.find? fun r => r.id = i).isSome := by
          rw [List.find?_isSome]
          exact ⟨x, hx, by simp [hxi]⟩
        rw [Option.or_of_isSome hsome]
      simp [hlookup]

/-- Two stores whose snapshots carry the same records. -/
theorem recordOf_updateWhere {s s' : Db} {p : RawSnapshot → Bool} {f : RawSnapshot → RawSnapshot}
    (hsnap : s'.snapshots = updateWhere p f s.snapshots) (hid : ∀ r, (f r).id = r.id)
    (hsrc : ∀ r, (f r).sourceId = r.sourceId)
    (hrec : ∀ r, (f r).sourceRecordId = r.sourceRecordId) (k : Claim) :
    s'.recordOf k = s.recordOf k := by
  unfold recordOf
  cases k.rawSnapshotId with
  | none => rfl
  | some i =>
      have hlookup : s'.getSnapshot i =
          (s.getSnapshot i).map fun r => if p r = true then f r else r := by
        unfold getSnapshot lookup
        rw [hsnap, updateWhere, List.find?_map]
        congr 1
        apply congrArg (fun q => List.find? q s.snapshots)
        funext r
        by_cases hp : p r = true <;> simp [hp, hid]
      simp only [Option.bind_some, hlookup]
      cases s.getSnapshot i with
      | none => rfl
      | some r => by_cases hp : p r = true <;> simp [hp, hsrc, hrec]

/-- Claims of one record with a common root have one root. -/
theorem rooted_of_common {s : Db} (hwf : s.WellFormed)
    (htotal : ∀ e ∈ s.events, ∃ r, s.Root e.id r)
    (hcommon : ∀ k₁ ∈ s.claims, ∀ k₂ ∈ s.claims, ∀ rec, s.recordOf k₁ = some rec →
      s.recordOf k₂ = some rec → ∃ r, s.Root k₁.eventId r ∧ s.Root k₂.eventId r) : s.Rooted := by
  refine ⟨htotal, ?_⟩
  intro k₁ hk₁ k₂ hk₂ rec h₁ h₂ r₁ r₂ hr₁ hr₂
  obtain ⟨r, hr, hr'⟩ := hcommon k₁ hk₁ k₂ hk₂ rec h₁ h₂
  exact (hr₁.unique hwf hr).trans (hr'.unique hwf hr₂)

/-- The claims of one record have a common root. -/
theorem Rooted.common {s : Db} (h : s.Rooted) (hwf : s.WellFormed) {k₁ k₂ : Claim}
    (hk₁ : k₁ ∈ s.claims) (hk₂ : k₂ ∈ s.claims) {rec : Uuid × String}
    (h₁ : s.recordOf k₁ = some rec) (h₂ : s.recordOf k₂ = some rec) :
    ∃ r, s.Root k₁.eventId r ∧ s.Root k₂.eventId r := by
  obtain ⟨e₁, he₁, hid₁⟩ := hwf.claimEvent k₁ hk₁
  obtain ⟨e₂, he₂, hid₂⟩ := hwf.claimEvent k₂ hk₂
  obtain ⟨r₁, hr₁⟩ := h.total e₁ he₁
  obtain ⟨r₂, hr₂⟩ := h.total e₂ he₂
  rw [hid₁] at hr₁
  rw [hid₂] at hr₂
  rw [← h.record k₁ hk₁ k₂ hk₂ rec h₁ h₂ r₁ r₂ hr₁ hr₂] at hr₂
  exact ⟨r₁, hr₁, hr₂⟩

/-- Roots stay when the events do and every claim with a record has a
predecessor on its event. -/
theorem Rooted.of_origins {s s' : Db} (h : s.Rooted) (hwf : s.WellFormed) (hwf' : s'.WellFormed)
    (hev : s'.events = s.events)
    (horigin : ∀ k' ∈ s'.claims, ∀ rec, s'.recordOf k' = some rec →
      ∃ k ∈ s.claims, k.eventId = k'.eventId ∧ s.recordOf k = some rec) : s'.Rooted := by
  apply rooted_of_common hwf'
  · intro e he
    rw [hev] at he
    obtain ⟨r, hr⟩ := h.total e he
    exact ⟨r, (root_congr hev).mpr hr⟩
  · intro k₁ hk₁ k₂ hk₂ rec h₁ h₂
    obtain ⟨x₁, hx₁, he₁, hr₁⟩ := horigin k₁ hk₁ rec h₁
    obtain ⟨x₂, hx₂, he₂, hr₂⟩ := horigin k₂ hk₂ rec h₂
    obtain ⟨r, hroot₁, hroot₂⟩ := h.common hwf hx₁ hx₂ hr₁ hr₂
    rw [← he₁, ← he₂]
    exact ⟨r, (root_congr hev).mpr hroot₁, (root_congr hev).mpr hroot₂⟩

/-- Records depend on the snapshot table only. -/
theorem recordOf_snapshots {s s' : Db} (h : s'.snapshots = s.snapshots) (k : Claim) :
    s'.recordOf k = s.recordOf k := by
  unfold recordOf getSnapshot
  rw [h]

/-- Updates that keep the snapshot and event of every claim keep the roots. -/
theorem origin_updateWhere {s s' : Db} {rows : List Claim} {p : Claim → Bool} {f : Claim → Claim}
    (hf : KeepsClaim f) (hsnap : s'.snapshots = s.snapshots)
    (hclaims : s'.claims = updateWhere p f rows) {k' : Claim} (hk' : k' ∈ s'.claims) :
    ∃ k ∈ rows, k.eventId = k'.eventId ∧ s.recordOf k = s'.recordOf k' := by
  rw [hclaims] at hk'
  obtain ⟨k, hk, rfl⟩ := mem_updateWhere.mp hk'
  refine ⟨k, hk, ?_⟩
  rw [recordOf_snapshots hsnap]
  by_cases hp : p k = true
  · rw [if_pos hp]
    exact ⟨(hf.eventId k).symm, (recordOf_congr (hf.rawSnapshotId k)).symm⟩
  · rw [if_neg hp]
    exact ⟨rfl, rfl⟩

/-- The record of a claim, when it has one, is of the claim's own source. -/
theorem recordOf_source {s : Db} (hwf : s.WellFormed) {k : Claim} (hk : k ∈ s.claims)
    {rec : Uuid × String} (h : s.recordOf k = some rec) : rec.1 = k.sourceId := by
  unfold recordOf at h
  split at h
  · rename_i snap hsnap
    rw [Option.bind_eq_some_iff] at hsnap
    obtain ⟨i, hi, hget⟩ := hsnap
    obtain ⟨hmem, hid⟩ := lookup_some hget
    obtain ⟨r, hr, hrid, hrsrc⟩ := hwf.claimSnapshot k hk i hi
    rw [hwf.snapshotIds.eq_of_key hr hmem (hrid.trans hid.symm)] at hrsrc
    cases hrec : snap.sourceRecordId with
    | none => rw [hrec] at h; cases h
    | some r' =>
        rw [hrec] at h
        simp only [Option.map_some, Option.some.injEq] at h
        rw [← h]
        exact hrsrc
  · cases h

end Db

end Atlas
