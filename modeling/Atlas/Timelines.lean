import Atlas.Chronos

/-!
# What the public timeline shows

Over any run of the site and of extractions, the rows of the timeline are keyed by
exactly the values that the extractions read, each once, and every row is made of its
key.  The public timeline of an event therefore shows one entry for every value that
some extraction of the event read, and keeps the entries of values that the
projection no longer has.
-/

namespace Atlas

open Rows Outcome

inductive ChronosOp where
  | site (op : SiteOp)
  | extract (eventId : Uuid)

namespace ChronosDb

section Runs

variable [PyText] [PyRepr] [PyIsoDate] [PyCasefold] [PyIsoDatetime]

def step (s : ChronosDb) : ChronosOp → ChronosDb
  | .site op => { s with site := s.site.siteStep op }
  | .extract eventId => s.extractTimeline eventId

/-- The system after a run. -/
def after (sources : List Source) (ops : List ChronosOp) : ChronosDb :=
  Runs.run step (empty sources) ops

/-! ## What an extraction reads -/

/-- The keys an extraction makes of the fields, for some kinds. -/
def readKinds (eventId : Uuid) (fields : List (String × Json))
    (ts : List ChronosTimelineEventType) : List (Uuid × ChronosTimelineEventType × String) :=
  ts.filterMap fun t => (matchedField fields t).map fun m => (eventId, t, m.2)

/-- The keys that a step reads. -/
def readings (s : ChronosDb) : ChronosOp → List (Uuid × ChronosTimelineEventType × String)
  | .site _ => []
  | .extract eventId =>
      match s.site.store.getProjection eventId with
      | none => []
      | some projection => readKinds eventId projection.readFields sequenceOrder

/-- The keys of the timeline rows. -/
def keys (s : ChronosDb) : List (Uuid × ChronosTimelineEventType × String) :=
  s.timelineEvents.map ChronosTimelineEvent.key

omit [PyIsoDate] [PyCasefold] in
theorem keys_upsertKinds (eventId : Uuid) (fields : List (String × Json))
    (claims : List (String × Claim)) (ts : List ChronosTimelineEventType) (s : ChronosDb) :
    (upsertKinds eventId fields claims s ts).2.keys =
      (readKinds eventId fields ts).foldl insertKey s.keys := by
  induction ts generalizing s with
  | nil => rfl
  | cons t ts ih =>
      unfold upsertKinds
      cases ht : matchedField fields t with
      | none =>
          have hnone : ((matchedField fields t).map fun m => (eventId, t, m.2)) = none := by simp [ht]
          rw [ih]
          simp only [readKinds, List.filterMap_cons, hnone]
      | some m =>
          have hsome : ((matchedField fields t).map fun m => (eventId, t, m.2)) =
              some (eventId, t, m.2) := by simp [ht]
          dsimp only
          rw [ih]
          simp only [readKinds, List.filterMap_cons, hsome, List.foldl_cons]
          congr 1
          exact map_insertAbsent ChronosTimelineEvent.key _ _

omit [PyText] [PyRepr] [PyIsoDate] [PyCasefold] [PyIsoDatetime] in
/-- Linking and reviewing leave the rows alone. -/
theorem foldl_timelineEvents {f : ChronosDb → ChronosTimelineEvent × ChronosTimelineEvent → ChronosDb}
    (hf : ∀ s p, (f s p).timelineEvents = s.timelineEvents)
    (ps : List (ChronosTimelineEvent × ChronosTimelineEvent)) (s : ChronosDb) :
    (ps.foldl f s).timelineEvents = s.timelineEvents := by
  induction ps generalizing s with
  | nil => rfl
  | cons p ps ih => rw [List.foldl_cons, ih, hf]

omit [PyIsoDate] in
/-- The rows after an extraction are those of the loop over the kinds. -/
theorem timelineEvents_extractFrom (s : ChronosDb) (eventId : Uuid) (fields : List (String × Json)) :
    (s.extractFrom eventId fields).timelineEvents =
      (upsertKinds eventId fields
        (s.site.store.selectProjectedClaimsByField eventId fields chronosSafeStr) s
        sequenceOrder).2.timelineEvents := by
  have hreview : ∀ (s : ChronosDb) p, (reviewPair eventId s p).timelineEvents = s.timelineEvents := by
    intro s p
    unfold reviewPair
    split <;> rfl
  have hlink : ∀ (s : ChronosDb) p, (linkPair eventId s p).timelineEvents = s.timelineEvents :=
    fun _ _ => rfl
  unfold extractFrom
  dsimp only
  rw [foldl_timelineEvents hreview, foldl_timelineEvents hlink]

/-- **The keys after a step** are those before it and those it reads. -/
theorem keys_step (s : ChronosDb) (op : ChronosOp) :
    (s.step op).keys = (s.readings op).foldl insertKey s.keys := by
  cases op with
  | site op => rfl
  | extract eventId =>
      simp only [step, extractTimeline, readings]
      cases s.site.store.getProjection eventId with
      | none => rfl
      | some projection =>
          have hrows := timelineEvents_extractFrom s eventId projection.readFields
          have hkeys : (s.extractFrom eventId projection.readFields).keys =
              (upsertKinds eventId projection.readFields
                (s.site.store.selectProjectedClaimsByField eventId projection.readFields
                  chronosSafeStr) s sequenceOrder).2.keys :=
            congrArg (List.map ChronosTimelineEvent.key) hrows
          exact hkeys.trans (keys_upsertKinds _ _ _ _ _)

/-- The keys after a run: the values that its extractions read, each once. -/
theorem keys_after (sources : List Source) (ops : List ChronosOp) :
    (after sources ops).keys = distinct (Runs.collect step readings (empty sources) ops) :=
  Runs.view_run keys insertKey keys_step (empty sources) ops

/-! ## Rows are made of their keys -/

omit [PyRepr] [PyIsoDate] [PyCasefold] in
/-- The entry of a value. -/
def entryOf (k : ChronosTimelineEventType × String) : PublicTimelineEvent :=
  ⟨k.1, (parseChronosTimestamp k.2).1, (parseChronosTimestamp k.2).2, k.1.sequenceIndex, none⟩

omit [PyRepr] [PyIsoDate] [PyCasefold] in
/-- A row shows the entry of its value. -/
def Derived (r : ChronosTimelineEvent) : Prop := timelineToPublic r = entryOf (r.eventType, r.rawValue)

omit [PyIsoDate] [PyCasefold] in
theorem derived_upsertKinds {eventId : Uuid} {fields : List (String × Json)}
    {claims : List (String × Claim)} (ts : List ChronosTimelineEventType) {s : ChronosDb}
    (h : ∀ r ∈ s.timelineEvents, Derived r) :
    ∀ r ∈ (upsertKinds eventId fields claims s ts).2.timelineEvents, Derived r := by
  induction ts generalizing s with
  | nil => exact h
  | cons t ts ih =>
      unfold upsertKinds
      cases matchedField fields t with
      | none => exact ih h
      | some m =>
          refine ih ?_
          intro r hr
          rcases mem_insertAbsent hr with hold | rfl
          · exact h r hold
          · rfl

/-- Every row shows the entry of its value. -/
theorem derived_after (sources : List Source) (ops : List ChronosOp) :
    ∀ r ∈ (after sources ops).timelineEvents, Derived r := by
  refine Runs.invariant (I := fun s : ChronosDb => ∀ r ∈ s.timelineEvents, Derived r) ?_ ?_ ops
  · intro s op h
    cases op with
    | site op => exact h
    | extract eventId =>
        change ∀ r ∈ (s.extractTimeline eventId).timelineEvents, Derived r
        unfold extractTimeline
        cases s.site.store.getProjection eventId with
        | none => exact h
        | some projection =>
            dsimp only
            rw [timelineEvents_extractFrom]
            exact derived_upsertKinds _ h
  · intro r hr
    exact absurd hr List.not_mem_nil

/-! ## The public timeline -/

/-- Some extraction of the event in the run read the value. -/
def ReadIn (sources : List Source) (ops : List ChronosOp) (e : Uuid)
    (k : ChronosTimelineEventType × String) : Prop :=
  ∃ before rest projection field, ops = before ++ .extract e :: rest ∧
    (after sources before).site.store.getProjection e = some projection ∧
    matchedField projection.readFields k.1 = some (field, k.2)

/-- The values that the extractions of the event read, each once. -/
def valuesRead (sources : List Source) (ops : List ChronosOp) (e : Uuid) :
    List (ChronosTimelineEventType × String) :=
  ((distinct (Runs.collect step readings (empty sources) ops)).filter fun k => k.1 = e).map Prod.snd

omit [PyText] [PyIsoDate] [PyCasefold] [PyIsoDatetime] in
theorem mem_readKinds {eventId e : Uuid} {fields : List (String × Json)}
    {k : ChronosTimelineEventType × String} :
    (e, k) ∈ readKinds eventId fields sequenceOrder ↔
      eventId = e ∧ ∃ field, matchedField fields k.1 = some (field, k.2) := by
  have hall : ∀ t : ChronosTimelineEventType, t ∈ sequenceOrder := by
    intro t
    cases t <;> decide
  unfold readKinds
  rw [List.mem_filterMap]
  constructor
  · rintro ⟨t, -, ht⟩
    rw [Option.map_eq_some_iff] at ht
    obtain ⟨m, hm, heq⟩ := ht
    obtain ⟨rfl, rfl⟩ := Prod.mk.inj heq
    exact ⟨rfl, m.1, hm⟩
  · rintro ⟨rfl, field, hfield⟩
    exact ⟨k.1, hall k.1, by rw [hfield]; rfl⟩

theorem mem_valuesRead {sources : List Source} {ops : List ChronosOp} {e : Uuid}
    {k : ChronosTimelineEventType × String} :
    k ∈ valuesRead sources ops e ↔ ReadIn sources ops e k := by
  have hmem : k ∈ valuesRead sources ops e ↔
      (e, k) ∈ Runs.collect step readings (empty sources) ops := by
    unfold valuesRead
    rw [List.mem_map]
    constructor
    · rintro ⟨x, hx, rfl⟩
      obtain ⟨hmem, hevent⟩ := List.mem_filter.mp hx
      rw [← of_decide_eq_true hevent]
      exact mem_distinct.mp hmem
    · intro h
      exact ⟨(e, k), List.mem_filter.mpr ⟨mem_distinct.mpr h, by simp⟩, rfl⟩
  rw [hmem, Runs.mem_collect]
  constructor
  · rintro ⟨before, op, rest, rfl, hread⟩
    cases op with
    | site op => exact absurd hread List.not_mem_nil
    | extract eventId =>
        unfold readings at hread
        dsimp only at hread
        cases hp : (Runs.run step (empty sources) before).site.store.getProjection eventId with
        | none =>
            rw [hp] at hread
            exact absurd hread List.not_mem_nil
        | some projection =>
            rw [hp] at hread
            obtain ⟨rfl, field, hfield⟩ := mem_readKinds.mp hread
            exact ⟨before, rest, projection, field, rfl, hp, hfield⟩
  · rintro ⟨before, rest, projection, field, rfl, hp, hfield⟩
    refine ⟨before, .extract e, rest, rfl, ?_⟩
    unfold readings
    dsimp only
    rw [show (Runs.run step (empty sources) before).site.store.getProjection e =
      some projection from hp]
    exact mem_readKinds.mpr ⟨rfl, field, hfield⟩

theorem nodup_valuesRead (sources : List Source) (ops : List ChronosOp) (e : Uuid) :
    (valuesRead sources ops e).Nodup := by
  unfold valuesRead
  refine List.Nodup.map_on ?_ ((nodup_distinct _).filter _)
  intro a ha b hb hab
  have hae : a.1 = e := of_decide_eq_true (List.mem_filter.mp ha).2
  have hbe : b.1 = e := of_decide_eq_true (List.mem_filter.mp hb).2
  exact Prod.ext (hae.trans hbe.symm) hab

/-- The rows of an event show the entries of the values read. -/
theorem rows_of_event (sources : List Source) (ops : List ChronosOp) (e : Uuid) :
    ((after sources ops).listForAccidentEvent e).map timelineToPublic =
      (valuesRead sources ops e).map entryOf := by
  have hentries : ((after sources ops).listForAccidentEvent e).map timelineToPublic =
      ((after sources ops).listForAccidentEvent e).map fun r => entryOf r.key.2 := by
    apply List.map_congr_left
    intro r hr
    exact derived_after sources ops r (List.mem_filter.mp hr).1
  have hkeys : ((after sources ops).listForAccidentEvent e).map ChronosTimelineEvent.key =
      (after sources ops).keys.filter fun k => k.1 = e := by
    unfold keys listForAccidentEvent
    rw [List.filter_map]
    rfl
  have hvalues : valuesRead sources ops e =
      (((after sources ops).listForAccidentEvent e).map ChronosTimelineEvent.key).map Prod.snd := by
    rw [hkeys, keys_after]
    rfl
  rw [hentries, hvalues, List.map_map, List.map_map]
  rfl

/-- **The public timeline shows every value that was read.**  After any run, the
timeline of a page shows entries of values that some extraction of its canonical event
read, each at most once, and all of them up to the limit. -/
theorem timeline_shows_values_read (sources : List Source) (ops : List ChronosOp) (e : Uuid) :
    ∃ values : List (ChronosTimelineEventType × String), values.Nodup ∧
      (∀ k, k ∈ values ↔ ReadIn sources ops e k) ∧
      ∀ slug page, (after sources ops).site.loadPageAndCheckVisibility slug = .ok (page, e) →
        ∃ events, (after sources ops).getPublicEventTimeline slug = .ok ⟨page.slug, e, events⟩ ∧
          events.Subperm (values.map entryOf) ∧
          events.length = min publicTimelineLimit values.length := by
  refine ⟨valuesRead sources ops e, nodup_valuesRead sources ops e, fun k => mem_valuesRead, ?_⟩
  intro slug page hpage
  let rows := ((after sources ops).listForAccidentEvent e).insertionSort fun a b =>
    timelineKey a ≤ timelineKey b
  have hperm : rows.Perm ((after sources ops).listForAccidentEvent e) := List.perm_insertionSort _ _
  have hlength : rows.length = (valuesRead sources ops e).length := by
    rw [hperm.length_eq, ← List.length_map timelineToPublic, rows_of_event, List.length_map]
  refine ⟨(rows.take publicTimelineLimit).map timelineToPublic, ?_, ?_, ?_⟩
  · unfold getPublicEventTimeline
    simp only [bind_ok, pure_ok]
    exact ⟨_, hpage, rfl⟩
  · rw [← rows_of_event]
    exact ((List.take_sublist _ _).map _).subperm.trans (hperm.map _).subperm
  · rw [List.length_map, List.length_take, hlength]

/-- The entries are those of the current projection: for each kind the entry of its
value, and no other. -/
def MatchesProjection (s : ChronosDb) (e : Uuid) (events : List PublicTimelineEvent) : Prop :=
  ∀ t, (events.filter fun x => x.eventType = t) =
    (((s.site.store.getProjection e).bind fun p => matchedField p.readFields t).map fun m =>
      entryOf (t, m.2)).toList

end Runs

/-- A source reports the day of the takeoff. -/
def takeoffReport (run : Uuid) (day : String) (now : Time) : ChronosOp :=
  .site (.accident (.ingest ⟨0, run, "", none, some "r1", [⟨"takeoff", .str day⟩], .new, 10, now⟩))

/-- The source corrects the day, with an extraction after each change, and the event
gets a page. -/
def correctedTakeoff : List ChronosOp :=
  [takeoffReport 100 "2020-01-01" 1, .site (.accident (.rebuild none 2)), .extract 5,
    takeoffReport 101 "2020-01-02" 3, .site (.accident (.rebuild none 4)), .extract 5,
    .site (.create { eventId := 5, slug := "n12345", title := "Report" } 5),
    .site (.transition .submit ⟨0, 1, 7, none, none⟩ 6),
    .site (.transition .approve ⟨0, 2, 8, none, none⟩ 7),
    .site (.transition .publish ⟨0, 3, 8, none, none⟩ 8)]

/-- The page shows both days, and the projection has the second only. -/
theorem corrected_takeoff_shown_twice : ∃ response,
    (after fourSources correctedTakeoff).getPublicEventTimeline "n12345" = .ok response ∧
      response.canonicalEventId = 5 ∧
      ¬ MatchesProjection (after fourSources correctedTakeoff) 5 response.events := by
  have hshown : ∃ response,
      (after fourSources correctedTakeoff).getPublicEventTimeline "n12345" = .ok response ∧
        response.canonicalEventId = 5 ∧
        response.events = [entryOf (.takeoff, "2020-01-01"), entryOf (.takeoff, "2020-01-02")] :=
    exists_ok_of_any (by decide +kernel)
  obtain ⟨response, hok, hevent, hevents⟩ := hshown
  refine ⟨response, hok, hevent, ?_⟩
  intro hmatches
  have htakeoff := congrArg List.length (hmatches .takeoff)
  rw [hevents] at htakeoff
  have htwo : ([entryOf (.takeoff, "2020-01-01"), entryOf (.takeoff, "2020-01-02")].filter fun x =>
      x.eventType = .takeoff).length = 2 := by decide +kernel
  rw [htwo] at htakeoff
  generalize (((after fourSources correctedTakeoff).site.store.getProjection 5).bind fun p =>
      matchedField p.readFields .takeoff) = matched at htakeoff
  cases matched with
  | none => exact absurd htakeoff (by simp)
  | some m => exact absurd htakeoff (by simp)

end ChronosDb

end Atlas
