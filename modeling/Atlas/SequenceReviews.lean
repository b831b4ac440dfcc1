import Atlas.Timelines
import Mathlib.Data.Int.ConditionallyCompleteOrder

/-!
# Reviews of the order of a timeline

The rows of an extraction stand in the default order of their kinds.  Each pair of
neighbours that both have a time is put up for review when the time of the first is the
later one.

A recorded time stands for all the instants that its precision leaves open: a day, an hour, a
minute or the instant itself.  The comparison is of the recorded times, the starts of these
intervals, and it is made between neighbours.  What it says about the intervals is settled
here: where the starts are aligned a review means that the intervals are the wrong way round,
and without a review no stretch of dated rows holds two that are.
-/

namespace Atlas

open Rows Outcome

/-- How long a time of the precision lasts, in microseconds. -/
def ChronosTimestampPrecision.width : ChronosTimestampPrecision → Nat
  | .exact => 1
  | .minute => 60000000
  | .hour => 3600000000
  | .day => 86400000000
  | .approximate | .relative | .unknown => 0

namespace ChronosTimelineEvent

/-- The instants that the time and the precision of a dated row leave open. -/
def interval (r : ChronosTimelineEvent) : Option (Set Int) :=
  r.occurredAt.map fun t => Set.Ico t (t + r.timestampPrecision.width)

/-- The whole interval of the first row lies after that of the second. -/
def WhollyAfter (a b : ChronosTimelineEvent) : Prop :=
  ∃ I J, a.interval = some I ∧ b.interval = some J ∧ ∀ x ∈ I, ∀ y ∈ J, y < x

/-- The recorded time of the first row is the later one. -/
def Later (a b : ChronosTimelineEvent) : Prop :=
  ∃ t u, a.occurredAt = some t ∧ b.occurredAt = some u ∧ u < t

theorem outOfOrder_iff {a b : ChronosTimelineEvent} :
    ChronosDb.outOfOrder (a, b) = true ↔ a.Later b := by
  unfold ChronosDb.outOfOrder Later
  cases a.occurredAt <;> cases b.occurredAt <;> simp

/-- A dated row stands for a time that lasts. -/
def Lasting (r : ChronosTimelineEvent) : Prop := r.occurredAt.isSome → 0 < r.timestampPrecision.width

/-- Of two rows that last, the first lies wholly after the second when it starts where the
second is over. -/
theorem whollyAfter_iff {a b : ChronosTimelineEvent} (ha : a.Lasting) (hb : b.Lasting) :
    a.WhollyAfter b ↔ ∃ t u, a.occurredAt = some t ∧ b.occurredAt = some u ∧
      u + b.timestampPrecision.width ≤ t := by
  unfold WhollyAfter interval
  constructor
  · rintro ⟨I, J, hI, hJ, hafter⟩
    obtain ⟨t, ht, rfl⟩ := Option.map_eq_some_iff.mp hI
    obtain ⟨u, hu, rfl⟩ := Option.map_eq_some_iff.mp hJ
    have hwa : 0 < a.timestampPrecision.width := ha (by rw [ht]; rfl)
    have hwb : 0 < b.timestampPrecision.width := hb (by rw [hu]; rfl)
    have hfirst : t ∈ Set.Ico t (t + a.timestampPrecision.width) := ⟨le_rfl, by omega⟩
    have hlast : u + b.timestampPrecision.width - 1 ∈
        Set.Ico u (u + b.timestampPrecision.width) := ⟨by omega, by omega⟩
    have hlt := hafter _ hfirst _ hlast
    exact ⟨t, u, ht, hu, by omega⟩
  · rintro ⟨t, u, ht, hu, hle⟩
    refine ⟨_, _, by rw [ht]; rfl, by rw [hu]; rfl, ?_⟩
    intro x hx y hy
    obtain ⟨hx, -⟩ := hx
    obtain ⟨-, hy⟩ := hy
    omega

/-- What lies wholly after a row has the later time. -/
theorem WhollyAfter.later {a b : ChronosTimelineEvent} (ha : a.Lasting) (hb : b.Lasting)
    (h : a.WhollyAfter b) : a.Later b := by
  obtain ⟨t, u, ht, hu, hle⟩ := (whollyAfter_iff ha hb).mp h
  have hwb : 0 < b.timestampPrecision.width := hb (by rw [hu]; rfl)
  exact ⟨t, u, ht, hu, by omega⟩

/-- Both times are whole multiples of what the second row lasts. -/
def OnGrid (a b : ChronosTimelineEvent) : Prop :=
  ∀ t u, a.occurredAt = some t → b.occurredAt = some u →
    (b.timestampPrecision.width : Int) ∣ t ∧ (b.timestampPrecision.width : Int) ∣ u

/-- The interval of the second row cannot hold the start of the first without starting
there: the second is an instant, or both start on the hour or on the day that the second
lasts by their precisions; or, as two whole minutes do, by their times. -/
def Aligned (a b : ChronosTimelineEvent) : Prop :=
  b.timestampPrecision = .exact ∨ b.timestampPrecision = .day ∧ a.timestampPrecision = .day ∨
    b.timestampPrecision = .hour ∧
      (a.timestampPrecision = .hour ∨ a.timestampPrecision = .day) ∨ a.OnGrid b

end ChronosTimelineEvent

open ChronosTimelineEvent

/-! ## What the parser leaves -/

/-- A time with its precision as the parser gives them: it lasts, and days and hours start
on the day and on the hour. -/
def Regular (r : Option Int × ChronosTimestampPrecision) : Prop :=
  ∀ t, r.1 = some t → 0 < r.2.width ∧ ((r.2 = .hour ∨ r.2 = .day) → (r.2.width : Int) ∣ t)

theorem regular_none (p : ChronosTimestampPrecision) : Regular (none, p) := by
  intro t ht
  cases ht

theorem regular_some {t : Int} {p : ChronosTimestampPrecision} (hwidth : 0 < p.width)
    (hstart : (p = .hour ∨ p = .day) → (p.width : Int) ∣ t) : Regular (some t, p) := by
  intro u hu
  obtain rfl := Option.some.inj hu
  exact ⟨hwidth, hstart⟩

theorem utcInstant_dvd {year month day hour minute : Nat} {t : Int}
    (h : utcInstant year month day hour minute = some t) :
    (minute = 0 → (3600000000 : Int) ∣ t) ∧
      (hour = 0 → minute = 0 → (86400000000 : Int) ∣ t) := by
  unfold utcInstant at h
  obtain ⟨d, -, h⟩ := Option.bind_eq_some_iff.mp h
  split at h
  · obtain rfl := Option.some.inj h
    constructor
    · rintro rfl
      omega
    · rintro rfl rfl
      omega
  · cases h

section Parser

variable [PyText]

theorem regular_parseShortForms (cs : List Char) : Regular (parseShortForms cs) := by
  unfold parseShortForms dateDigits
  split
  · exact regular_some (by decide) (by simp)
  · split
    · rename_i t ht
      obtain ⟨ds, -, hinstant⟩ := Option.bind_eq_some_iff.mp ht
      exact regular_some (by decide) fun _ => (utcInstant_dvd hinstant).1 rfl
    · split
      · rename_i t ht
        obtain ⟨ds, -, hinstant⟩ := Option.bind_eq_some_iff.mp ht
        exact regular_some (by decide) fun _ => (utcInstant_dvd hinstant).2 rfl rfl
      · exact regular_none _

theorem regular_parseChronosTimestamp [PyIsoDatetime] (value : String) :
    Regular (parseChronosTimestamp value) := by
  unfold parseChronosTimestamp
  dsimp only
  generalize hparsed : (if (readPattern "dddd-dd-ddsdd:dd:dd".toList
    (strip value).toList).isSome = true then _ else none : Option PyDatetime) = parsed
  split_ifs
  · exact regular_none _
  · exact regular_none _
  · exact regular_none _
  · exact regular_none _
  · cases parsed with
    | none => exact regular_parseShortForms _
    | some dt =>
        dsimp only
        split
        · exact regular_some (by decide) (by simp)
        · exact regular_some (by decide) (by simp)

end Parser

namespace ChronosDb

section Runs

variable [PyText] [PyRepr] [PyCasefold] [PyIsoDatetime]

/-! ## The rows of an extraction -/

/-- The rows of the loop over the kinds, with the store it leaves. -/
def kindRows (s : ChronosDb) (eventId : Uuid) (fields : List (String × Json)) :
    List ChronosTimelineEvent × ChronosDb :=
  upsertKinds eventId fields (s.site.store.selectProjectedClaimsByField eventId fields chronosSafeStr)
    s sequenceOrder

/-- The dated and undated rows of an extraction of the event, in the default order; without a
projection there is none. -/
def timeline (s : ChronosDb) (eventId : Uuid) : List ChronosTimelineEvent :=
  match s.site.store.getProjection eventId with
  | none => []
  | some projection =>
      (s.kindRows eventId projection.readFields).1.insertionSort fun a b =>
        a.sequenceIndex ≤ b.sequenceIndex

/-- The keys that the projection of the event holds. -/
def projectedKeys (s : ChronosDb) (eventId : Uuid) :
    List (Uuid × ChronosTimelineEventType × String) :=
  match s.site.store.getProjection eventId with
  | none => []
  | some projection => readKinds eventId projection.readFields sequenceOrder

omit [PyText] [PyRepr] [PyCasefold] [PyIsoDatetime] in
/-- The row that an insertion returns: one of the store, under the key of the candidate. -/
theorem upsertEvent_row (s : ChronosDb) (c : ChronosTimelineEvent) :
    (s.upsertEvent c).1 ∈ (s.upsertEvent c).2.timelineEvents ∧ (s.upsertEvent c).1.key = c.key := by
  have hfound : ∃ r, lookup ChronosTimelineEvent.key c.key
      (insertAbsent ChronosTimelineEvent.key c s.timelineEvents) = some r := by
    rw [lookup_insertAbsent, if_pos rfl]
    cases lookup ChronosTimelineEvent.key c.key s.timelineEvents with
    | none => exact ⟨c, rfl⟩
    | some r => exact ⟨r, rfl⟩
  obtain ⟨r, hr⟩ := hfound
  have hrow : (s.upsertEvent c).1 = r := by
    unfold upsertEvent
    dsimp only
    rw [hr]
    rfl
  rw [hrow]
  exact lookup_some hr

omit [PyCasefold] in
/-- Rows stay. -/
theorem mem_upsertKinds {eventId : Uuid} {fields : List (String × Json)}
    {claims : List (String × Claim)} {r : ChronosTimelineEvent} (ts : List ChronosTimelineEventType)
    {s : ChronosDb} (h : r ∈ s.timelineEvents) :
    r ∈ (upsertKinds eventId fields claims s ts).2.timelineEvents := by
  induction ts generalizing s with
  | nil => exact h
  | cons t ts ih =>
      unfold upsertKinds
      cases matchedField fields t with
      | none => exact ih h
      | some m =>
          refine ih ?_
          change r ∈ insertAbsent ChronosTimelineEvent.key _ s.timelineEvents
          unfold insertAbsent
          split
          · exact h
          · exact List.mem_append_left _ h

omit [PyCasefold] in
/-- **The rows of the loop** are rows of the store, and their keys are those that the fields
hold, in the order of the kinds. -/
theorem upsertKinds_rows (eventId : Uuid) (fields : List (String × Json))
    (claims : List (String × Claim)) (ts : List ChronosTimelineEventType) (s : ChronosDb) :
    (∀ r ∈ (upsertKinds eventId fields claims s ts).1,
        r ∈ (upsertKinds eventId fields claims s ts).2.timelineEvents) ∧
      (upsertKinds eventId fields claims s ts).1.map ChronosTimelineEvent.key =
        readKinds eventId fields ts := by
  induction ts generalizing s with
  | nil => exact ⟨fun r hr => absurd hr List.not_mem_nil, rfl⟩
  | cons t ts ih =>
      unfold upsertKinds
      cases ht : matchedField fields t with
      | none =>
          have hnone : ((matchedField fields t).map fun m => (eventId, t, m.2)) = none := by simp [ht]
          refine ⟨(ih s).1, (ih s).2.trans ?_⟩
          simp only [readKinds, List.filterMap_cons, hnone]
      | some m =>
          have hsome : ((matchedField fields t).map fun m => (eventId, t, m.2)) =
              some (eventId, t, m.2) := by simp [ht]
          dsimp only
          obtain ⟨hrow, hkey⟩ := upsertEvent_row s (s.candidate eventId claims t m.1 m.2)
          obtain ⟨hrows, hkeys⟩ := ih (s.upsertEvent (s.candidate eventId claims t m.1 m.2)).2
          constructor
          · intro r hr
            rcases List.mem_cons.mp hr with rfl | hr
            · exact mem_upsertKinds ts hrow
            · exact hrows r hr
          · simp only [readKinds, List.filterMap_cons, hsome, List.map_cons]
            rw [hkey]
            exact congrArg _ hkeys

omit [PyCasefold] in
/-- The loop over the kinds leaves the reviews alone. -/
theorem reviews_upsertKinds (eventId : Uuid) (fields : List (String × Json))
    (claims : List (String × Claim)) (ts : List ChronosTimelineEventType) (s : ChronosDb) :
    (upsertKinds eventId fields claims s ts).2.sequenceReviews = s.sequenceReviews := by
  induction ts generalizing s with
  | nil => rfl
  | cons t ts ih =>
      unfold upsertKinds
      cases matchedField fields t with
      | none => exact ih s
      | some m => exact ih _

/-- The rows of the kinds are those of the fields, and rows of the store. -/
theorem kindRows_spec (s : ChronosDb) (eventId : Uuid) (fields : List (String × Json)) :
    (∀ r ∈ (s.kindRows eventId fields).1, r ∈ (s.kindRows eventId fields).2.timelineEvents) ∧
      (s.kindRows eventId fields).1.map ChronosTimelineEvent.key =
        readKinds eventId fields sequenceOrder ∧
      (s.kindRows eventId fields).2.sequenceReviews = s.sequenceReviews := by
  unfold kindRows
  generalize s.site.store.selectProjectedClaimsByField eventId fields chronosSafeStr = claims
  obtain ⟨hrows, hkeys⟩ := upsertKinds_rows eventId fields claims sequenceOrder s
  exact ⟨hrows, hkeys, reviews_upsertKinds eventId fields claims sequenceOrder s⟩

/-- The rows that an extraction leaves. -/
theorem timelineEvents_extractTimeline (s : ChronosDb) (eventId : Uuid) {projection}
    (h : s.site.store.getProjection eventId = some projection) :
    (s.extractTimeline eventId).timelineEvents =
      (s.kindRows eventId projection.readFields).2.timelineEvents := by
  unfold extractTimeline kindRows
  rw [h]
  exact timelineEvents_extractFrom s eventId projection.readFields

/-- The timeline is made of rows of the store after the extraction. -/
theorem mem_of_mem_timeline {s : ChronosDb} {eventId : Uuid} {r : ChronosTimelineEvent}
    (h : r ∈ s.timeline eventId) : r ∈ (s.extractTimeline eventId).timelineEvents := by
  unfold timeline at h
  cases hp : s.site.store.getProjection eventId with
  | none =>
      rw [hp] at h
      exact absurd h List.not_mem_nil
  | some projection =>
      simp only [hp, List.mem_insertionSort] at h
      rw [timelineEvents_extractTimeline s eventId hp]
      exact (s.kindRows_spec eventId projection.readFields).1 r h

omit [PyText] [PyRepr] [PyCasefold] [PyIsoDatetime] in
theorem sequenceIndex_order :
    sequenceOrder.Pairwise fun t u => t.sequenceIndex ≤ u.sequenceIndex := by decide

/-- **The timeline in the default order** has the keys that the projection holds. -/
theorem timeline_keys {s : ChronosDb} {eventId : Uuid}
    (h : ∀ r ∈ (s.extractTimeline eventId).timelineEvents, Derived r) :
    (s.timeline eventId).map ChronosTimelineEvent.key = s.projectedKeys eventId := by
  unfold timeline projectedKeys
  cases hp : s.site.store.getProjection eventId with
  | none => rfl
  | some projection =>
      rw [timelineEvents_extractTimeline s eventId hp] at h
      obtain ⟨hrows, hkeys, -⟩ := s.kindRows_spec eventId projection.readFields
      have hindex : ∀ r ∈ (s.kindRows eventId projection.readFields).1,
          r.sequenceIndex = r.key.2.1.sequenceIndex :=
        fun r hr => congrArg PublicTimelineEvent.sequenceIndex (h r (hrows r hr))
      have hsorted : (readKinds eventId projection.readFields sequenceOrder).Pairwise
          fun k l => k.2.1.sequenceIndex ≤ l.2.1.sequenceIndex := by
        unfold readKinds
        rw [List.pairwise_filterMap]
        refine sequenceIndex_order.imp ?_
        intro t u htu k hk l hl
        obtain ⟨m, -, rfl⟩ := Option.map_eq_some_iff.mp hk
        obtain ⟨n, -, rfl⟩ := Option.map_eq_some_iff.mp hl
        exact htu
      rw [← hkeys, List.pairwise_map] at hsorted
      have hordered := hsorted.imp_of_mem fun {a b} ha hb hab =>
        show a.sequenceIndex ≤ b.sequenceIndex by rw [hindex a ha, hindex b hb]; exact hab
      simp only [List.Pairwise.insertionSort_eq hordered]
      exact hkeys

/-! ## The reviews -/

omit [PyText] [PyRepr] [PyCasefold] [PyIsoDatetime] in
theorem mem_pairwise {a b : ChronosTimelineEvent} :
    ∀ {rows : List ChronosTimelineEvent}, (a, b) ∈ pairwise rows ↔ [a, b] <:+: rows
  | [] => by simp [pairwise]
  | [x] => by
      simp only [pairwise, List.not_mem_nil, false_iff]
      intro h
      simpa using h.length_le
  | x :: y :: rest => by
      simp only [pairwise, List.mem_cons, Prod.mk.injEq, List.infix_cons_iff, mem_pairwise,
        List.cons_prefix_cons, List.nil_prefix, and_true]

/-- A review of the pair is on file. -/
def OnFile (s : ChronosDb) (a b : ChronosTimelineEvent) : Prop :=
  ∃ r ∈ s.sequenceReviews, r.key = (min a.id b.id, max a.id b.id)

omit [PyText] [PyRepr] [PyCasefold] [PyIsoDatetime] in
/-- The reviews after one pair. -/
theorem mem_reviewPair {eventId : Uuid} {s : ChronosDb}
    {p : ChronosTimelineEvent × ChronosTimelineEvent} {r : ChronosSequenceReview}
    (h : r ∈ (reviewPair eventId s p).sequenceReviews) :
    r ∈ s.sequenceReviews ∨ p.1.Later p.2 ∧ r.timelineEventIdA = p.1.id ∧
      r.timelineEventIdB = p.2.id := by
  unfold reviewPair at h
  split at h
  · rename_i hout
    rcases mem_insertAbsent h with hold | rfl
    · exact .inl hold
    · exact .inr ⟨outOfOrder_iff.mp hout, rfl, rfl⟩
  · exact .inl h

omit [PyText] [PyRepr] [PyCasefold] [PyIsoDatetime] in
/-- Reviews stay. -/
theorem subset_reviewPair (eventId : Uuid) (s : ChronosDb)
    (p : ChronosTimelineEvent × ChronosTimelineEvent) :
    s.sequenceReviews ⊆ (reviewPair eventId s p).sequenceReviews := by
  unfold reviewPair
  split
  · intro r hr
    change r ∈ insertAbsent _ _ _
    unfold insertAbsent
    split
    · exact hr
    · exact List.mem_append_left _ hr
  · exact fun r hr => hr

omit [PyText] [PyRepr] [PyCasefold] [PyIsoDatetime] in
theorem onFile_reviewPair {eventId : Uuid} {s : ChronosDb}
    {p : ChronosTimelineEvent × ChronosTimelineEvent} (h : p.1.Later p.2) :
    (reviewPair eventId s p).OnFile p.1 p.2 := by
  unfold reviewPair
  rw [if_pos (outOfOrder_iff.mpr h)]
  change ∃ r ∈ insertAbsent _ _ _, _
  unfold insertAbsent
  split
  · rename_i hthere
    exact hthere
  · exact ⟨_, List.mem_append_right _ (List.mem_singleton_self _), rfl⟩

omit [PyText] [PyRepr] [PyCasefold] [PyIsoDatetime] in
/-- **The reviews of a run over the pairs**: those before it, and one of each pair whose first
row is the later one. -/
theorem foldl_reviewPair (eventId : Uuid)
    (ps : List (ChronosTimelineEvent × ChronosTimelineEvent)) (s : ChronosDb) :
    (∀ r ∈ (ps.foldl (reviewPair eventId) s).sequenceReviews, r ∈ s.sequenceReviews ∨
        ∃ p ∈ ps, p.1.Later p.2 ∧ r.timelineEventIdA = p.1.id ∧ r.timelineEventIdB = p.2.id) ∧
      (∀ r ∈ s.sequenceReviews, r ∈ (ps.foldl (reviewPair eventId) s).sequenceReviews) ∧
      ∀ p ∈ ps, p.1.Later p.2 → (ps.foldl (reviewPair eventId) s).OnFile p.1 p.2 := by
  induction ps generalizing s with
  | nil => exact ⟨fun r hr => .inl hr, fun r hr => hr, fun p hp => absurd hp List.not_mem_nil⟩
  | cons p ps ih =>
      obtain ⟨hsound, hstay, hcomplete⟩ := ih (reviewPair eventId s p)
      rw [List.foldl_cons]
      refine ⟨?_, fun r hr => hstay r (subset_reviewPair eventId s p hr), ?_⟩
      · intro r hr
        rcases hsound r hr with hr | ⟨q, hq, hlater, hids⟩
        · rcases mem_reviewPair hr with hr | hpair
          · exact .inl hr
          · exact .inr ⟨p, List.mem_cons_self, hpair⟩
        · exact .inr ⟨q, List.mem_cons_of_mem _ hq, hlater, hids⟩
      · intro q hq hlater
        rcases List.mem_cons.mp hq with rfl | hq
        · obtain ⟨r, hr, hkey⟩ := @onFile_reviewPair eventId s q hlater
          exact ⟨r, hstay r hr, hkey⟩
        · exact hcomplete q hq hlater

omit [PyText] [PyRepr] [PyCasefold] [PyIsoDatetime] in
/-- Links leave the reviews alone. -/
theorem reviews_foldl_linkPair (eventId : Uuid)
    (ps : List (ChronosTimelineEvent × ChronosTimelineEvent)) (s : ChronosDb) :
    (ps.foldl (linkPair eventId) s).sequenceReviews = s.sequenceReviews := by
  induction ps generalizing s with
  | nil => rfl
  | cons p ps ih => exact ih _

/-- **The reviews after an extraction**: those before it, and one of each pair of neighbours
whose first row is the later one. -/
theorem extractTimeline_reviews (s : ChronosDb) (eventId : Uuid) :
    (∀ r ∈ (s.extractTimeline eventId).sequenceReviews, r ∈ s.sequenceReviews ∨
        ∃ a b, [a, b] <:+: s.timeline eventId ∧ a.Later b ∧ r.timelineEventIdA = a.id ∧
          r.timelineEventIdB = b.id) ∧
      ∀ a b, [a, b] <:+: s.timeline eventId → a.Later b →
        (s.extractTimeline eventId).OnFile a b := by
  unfold timeline extractTimeline
  cases s.site.store.getProjection eventId with
  | none =>
      refine ⟨fun r hr => .inl hr, ?_⟩
      intro a b hab
      exact absurd hab.length_le (by simp)
  | some projection =>
      let rows := (s.kindRows eventId projection.readFields).1.insertionSort fun a b =>
        a.sequenceIndex ≤ b.sequenceIndex
      let linked := (pairwise rows).foldl (linkPair eventId)
        (s.kindRows eventId projection.readFields).2
      have hlinked : linked.sequenceReviews = s.sequenceReviews :=
        (reviews_foldl_linkPair _ _ _).trans (s.kindRows_spec eventId projection.readFields).2.2
      have hextract : s.extractFrom eventId projection.readFields =
          (pairwise rows).foldl (reviewPair eventId) linked := rfl
      obtain ⟨hsound, -, hcomplete⟩ := foldl_reviewPair eventId (pairwise rows) linked
      rw [hlinked] at hsound
      simp only [hextract]
      constructor
      · intro r hr
        rcases hsound r hr with hold | ⟨⟨a, b⟩, hp, hlater, hids⟩
        · exact .inl hold
        · exact .inr ⟨a, b, mem_pairwise.mp hp, hlater, hids⟩
      · intro a b hab hlater
        exact hcomplete (a, b) (mem_pairwise.mpr hab) hlater

/-! ## What a review says -/

omit [PyRepr] [PyCasefold] in
/-- A row that is made of its value has a regular time. -/
theorem regular_of_derived {r : ChronosTimelineEvent} (h : Derived r) :
    Regular (r.occurredAt, r.timestampPrecision) := by
  unfold Derived timelineToPublic entryOf at h
  rw [PublicTimelineEvent.mk.injEq] at h
  obtain ⟨-, htime, hprecision, -⟩ := h
  rw [htime, hprecision, Prod.mk.eta]
  exact regular_parseChronosTimestamp r.rawValue

omit [PyRepr] [PyCasefold] in
theorem lasting_of_derived {r : ChronosTimelineEvent} (h : Derived r) : r.Lasting := by
  intro hdated
  obtain ⟨t, ht⟩ := Option.isSome_iff_exists.mp hdated
  exact (regular_of_derived h t ht).1

omit [PyText] [PyRepr] [PyCasefold] [PyIsoDatetime] in
/-- Of two times on the grid of the second row, the later one leaves room for all of it. -/
theorem whollyAfter_of_onGrid {a b : ChronosTimelineEvent} (ha : a.Lasting) (hb : b.Lasting)
    (hlater : a.Later b) (hgrid : a.OnGrid b) : a.WhollyAfter b := by
  rw [whollyAfter_iff ha hb]
  obtain ⟨t, u, ht, hu, hlt⟩ := hlater
  obtain ⟨hdt, hdu⟩ := hgrid t u ht hu
  have hroom : (b.timestampPrecision.width : Int) ≤ t - u :=
    Int.le_of_dvd (by omega) (Int.dvd_sub hdt hdu)
  exact ⟨t, u, ht, hu, by omega⟩

omit [PyRepr] [PyCasefold] in
/-- Precisions alone put two rows on the grid of the second. -/
theorem onGrid_of_aligned {a b : ChronosTimelineEvent} (ha : Derived a) (hb : Derived b)
    (haligned : a.Aligned b) : a.OnGrid b := by
  rcases haligned with hexact | ⟨hbday, haday⟩ | ⟨hbhour, hahour⟩ | hgrid
  · intro t u _ _
    rw [hexact]
    exact ⟨one_dvd t, one_dvd u⟩
  · intro t u ht hu
    have hdt := (regular_of_derived ha t ht).2 (.inr haday)
    have hdu := (regular_of_derived hb u hu).2 (.inr hbday)
    dsimp only at hdt hdu
    rw [haday] at hdt
    rw [hbday] at hdu ⊢
    exact ⟨hdt, hdu⟩
  · intro t u ht hu
    have hdt := (regular_of_derived ha t ht).2 hahour
    have hdu := (regular_of_derived hb u hu).2 (.inl hbhour)
    dsimp only at hdt hdu
    rw [hbhour] at hdu ⊢
    refine ⟨?_, hdu⟩
    rcases hahour with hahour | haday
    · rw [hahour] at hdt
      exact hdt
    · rw [haday] at hdt
      -- a day is made of hours
      exact Int.dvd_trans (by decide) hdt
  · exact hgrid

omit [PyRepr] [PyCasefold] in
theorem whollyAfter_of_aligned {a b : ChronosTimelineEvent} (ha : Derived a) (hb : Derived b)
    (hlater : a.Later b) (haligned : a.Aligned b) : a.WhollyAfter b :=
  whollyAfter_of_onGrid (lasting_of_derived ha) (lasting_of_derived hb) hlater
    (onGrid_of_aligned ha hb haligned)

omit [PyText] [PyRepr] [PyCasefold] [PyIsoDatetime] in
/-- Along dated rows of which no neighbour is later than the next, none is later than the
last. -/
theorem not_later_of_stretch {a b : ChronosTimelineEvent} {between : List ChronosTimelineEvent}
    (hdated : ∀ r ∈ between, r.occurredAt.isSome)
    (hpairs : ∀ x y, [x, y] <:+: a :: (between ++ [b]) → ¬ x.Later y) : ¬ a.Later b := by
  induction between generalizing a with
  | nil => exact hpairs a b (List.infix_refl _)
  | cons c rest ih =>
      rintro ⟨t, u, ht, hu, hlt⟩
      obtain ⟨v, hv⟩ := Option.isSome_iff_exists.mp (hdated c List.mem_cons_self)
      have hfirst : ¬ a.Later c := hpairs a c ⟨[], rest ++ [b], by simp⟩
      have hrest : ¬ c.Later b := by
        refine ih (fun r hr => hdated r (List.mem_cons_of_mem _ hr)) ?_
        intro x y hxy
        exact hpairs x y (hxy.trans (List.suffix_cons _ _).isInfix)
      have hac : t ≤ v := not_lt.mp fun h => hfirst ⟨t, v, ht, hv, h⟩
      have hcb : v ≤ u := not_lt.mp fun h => hrest ⟨v, u, hv, hu, h⟩
      omega

/-- The check of intervals: a new review means that the rows of the pair are the wrong way
round, and without a new review no two rows are. -/
structure ExactCheck (s : ChronosDb) (eventId : Uuid) : Prop where
  sound : ∀ r ∈ (s.extractTimeline eventId).sequenceReviews, r ∉ s.sequenceReviews →
    ∃ a b, [a, b].Sublist (s.timeline eventId) ∧ r.timelineEventIdA = a.id ∧
      r.timelineEventIdB = b.id ∧ a.WhollyAfter b
  complete : (s.extractTimeline eventId).sequenceReviews = s.sequenceReviews →
    ∀ a b, [a, b].Sublist (s.timeline eventId) → ¬ a.WhollyAfter b

/-- The check that is made: of neighbours, by their recorded times. -/
structure NeighbourCheck (s : ChronosDb) (eventId : Uuid) : Prop where
  /-- a new review is of neighbours, the first of them later, and where they are aligned wholly
  after the second -/
  sound : ∀ r ∈ (s.extractTimeline eventId).sequenceReviews, r ∉ s.sequenceReviews →
    ∃ a b, [a, b] <:+: s.timeline eventId ∧ r.timelineEventIdA = a.id ∧
      r.timelineEventIdB = b.id ∧ a.Later b ∧ (a.Aligned b → a.WhollyAfter b)
  /-- neighbours of which the first lies wholly after the second are on file -/
  recorded : ∀ a b, [a, b] <:+: s.timeline eventId → a.WhollyAfter b →
    (s.extractTimeline eventId).OnFile a b
  /-- where no two neighbours are on file, no two dated rows with only dated rows between them
  are the wrong way round -/
  complete : (∀ a b, [a, b] <:+: s.timeline eventId → ¬ (s.extractTimeline eventId).OnFile a b) →
    ∀ a b between, a :: (between ++ [b]) <:+: s.timeline eventId →
      (∀ r ∈ between, r.occurredAt.isSome) → ¬ a.WhollyAfter b

/-- **The check of the order of a timeline.**  After any run, an extraction orders the values
of the projection, puts up for review only neighbours whose recorded times are the wrong way
round, and misses no pair of a stretch of dated rows. -/
theorem sequence_reviews_of_neighbours [PyIsoDate] (sources : List Source) (ops : List ChronosOp)
    (eventId : Uuid) :
    ((after sources ops).timeline eventId).map ChronosTimelineEvent.key =
        (after sources ops).projectedKeys eventId ∧
      NeighbourCheck (after sources ops) eventId := by
  have hderived : ∀ r ∈ ((after sources ops).extractTimeline eventId).timelineEvents, Derived r := by
    have hrun : (after sources ops).extractTimeline eventId =
        after sources (ops ++ [.extract eventId]) := by
      unfold after
      rw [Runs.run_append]
      rfl
    rw [hrun]
    exact derived_after sources _
  have hrow : ∀ {r}, r ∈ (after sources ops).timeline eventId → Derived r :=
    fun hr => hderived _ (mem_of_mem_timeline hr)
  have hpair : ∀ {a b}, [a, b] <:+: (after sources ops).timeline eventId →
      Derived a ∧ Derived b := by
    intro a b hab
    exact ⟨hrow (hab.subset (by simp)), hrow (hab.subset (by simp))⟩
  obtain ⟨hsound, hcomplete⟩ := extractTimeline_reviews (after sources ops) eventId
  refine ⟨timeline_keys hderived, ?_, ?_, ?_⟩
  · intro r hr hnew
    rcases hsound r hr with hold | ⟨a, b, hab, hlater, hida, hidb⟩
    · exact absurd hold hnew
    · exact ⟨a, b, hab, hida, hidb, hlater,
        whollyAfter_of_aligned (hpair hab).1 (hpair hab).2 hlater⟩
  · intro a b hab hafter
    obtain ⟨ha, hb⟩ := hpair hab
    exact hcomplete a b hab (hafter.later (lasting_of_derived ha) (lasting_of_derived hb))
  · intro hnone a b between hstretch hdated hafter
    have ha : Derived a := hrow (hstretch.subset (by simp))
    have hb : Derived b := hrow (hstretch.subset (by simp))
    have hpairs : ∀ x y, [x, y] <:+: a :: (between ++ [b]) → ¬ x.Later y := by
      intro x y hxy hlater
      have hthere := hxy.trans hstretch
      exact hnone x y hthere (hcomplete x y hthere hlater)
    exact not_later_of_stretch hdated hpairs
      (hafter.later (lasting_of_derived ha) (lasting_of_derived hb))

end Runs

/-! ## Days and undated rows -/

/-- One source reports the times of an accident, and the projection is built. -/
def reportedTimes (times : List (String × String)) : List ChronosOp :=
  [.site (.accident (.ingest ⟨0, 100, "", none, some "r1",
      times.map fun t => ⟨t.1, .str t.2⟩, .new, 10, 1⟩)),
    .site (.accident (.rebuild none 2))]

/-- A takeoff in the morning of the day of the landing. -/
def landedThatDay : List ChronosOp :=
  reportedTimes [("takeoff", "2020-01-02 10:30"), ("landing", "2020-01-02")]

/-- A landing on the day before the takeoff, with a last contact that has no time. -/
def landedBefore : List ChronosOp :=
  reportedTimes [("takeoff", "2020-01-02"), ("last_contact", "noon"), ("landing", "2020-01-01")]

/-- The takeoff and the landing of one day are put up for review, though the landing may have
been later that day; and where a row without a time stands between them, a landing on the day
before the takeoff is not. -/
theorem exact_check_fails : ¬ ExactCheck (after fourSources landedThatDay) 5 ∧
    ¬ ExactCheck (after fourSources landedBefore) 5 := by
  have hsameDay : ((after fourSources landedThatDay).timeline 5).map (fun r =>
        (r.occurredAt, r.timestampPrecision)) =
        [(some 1577961000000000, .minute), (some 1577923200000000, .day)] ∧
      ((after fourSources landedThatDay).extractTimeline 5).sequenceReviews = [⟨3, 5, 0, 1⟩] ∧
      (after fourSources landedThatDay).sequenceReviews = [] := by decide +kernel
  have hdayBefore : ((after fourSources landedBefore).timeline 5).map (fun r =>
        (r.occurredAt, r.timestampPrecision)) =
        [(some 1577923200000000, .day), (none, .unknown), (some 1577836800000000, .day)] ∧
      ((after fourSources landedBefore).extractTimeline 5).sequenceReviews =
        (after fourSources landedBefore).sequenceReviews := by decide +kernel
  constructor
  · intro hcheck
    obtain ⟨htimes, hreviews, hnone⟩ := hsameDay
    have hnew : (⟨3, 5, 0, 1⟩ : ChronosSequenceReview) ∉
        (after fourSources landedThatDay).sequenceReviews := by
      rw [hnone]
      exact List.not_mem_nil
    obtain ⟨a, b, hab, -, -, hafter⟩ := hcheck.sound _ (by rw [hreviews]; simp) hnew
    have hmap := hab.map fun r : ChronosTimelineEvent => (r.occurredAt, r.timestampPrecision)
    rw [htimes] at hmap
    have hboth := hmap.eq_of_length rfl
    simp only [List.map_cons, List.map_nil, List.cons.injEq, Prod.mk.injEq, and_true] at hboth
    obtain ⟨⟨hta, hpa⟩, htb, hpb⟩ := hboth
    have ha : a.Lasting := fun _ => by rw [hpa]; decide
    have hb : b.Lasting := fun _ => by rw [hpb]; decide
    obtain ⟨t, u, ht, hu, hle⟩ := (whollyAfter_iff ha hb).mp hafter
    rw [hta, Option.some.injEq] at ht
    rw [htb, Option.some.injEq] at hu
    rw [hpb, ← ht, ← hu] at hle
    exact absurd hle (by decide)
  · intro hcheck
    obtain ⟨htimes, hreviews⟩ := hdayBefore
    obtain ⟨a, rest, htimeline, ha, hrest⟩ := List.map_eq_cons_iff.mp htimes
    obtain ⟨m, rest, rfl, -, hrest⟩ := List.map_eq_cons_iff.mp hrest
    obtain ⟨b, rest, rfl, hb, -⟩ := List.map_eq_cons_iff.mp hrest
    obtain ⟨hta, hpa⟩ := Prod.mk.inj ha
    obtain ⟨htb, hpb⟩ := Prod.mk.inj hb
    have hab : [a, b].Sublist ((after fourSources landedBefore).timeline 5) := by
      rw [htimeline]
      exact ((List.nil_sublist rest).cons_cons b |>.cons m).cons_cons a
    have hla : a.Lasting := fun _ => by rw [hpa]; decide
    have hlb : b.Lasting := fun _ => by rw [hpb]; decide
    have hafter : a.WhollyAfter b := by
      refine (whollyAfter_iff hla hlb).mpr ⟨_, _, hta, htb, ?_⟩
      rw [hpb]
      decide
    exact hcheck.complete hreviews a b hab hafter

end ChronosDb

end Atlas
