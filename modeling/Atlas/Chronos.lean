import Atlas.IndexFacets
import Atlas.Normalizer
import Atlas.Precedents
import Atlas.Provenance
import Atlas.PublicEvents

/-!
# The timeline of an event

`ExtractChronosTimelineFromEvent` reads ten kinds of times from the fields of a
projection and inserts a row for each kind that has a text.  A row is keyed by its
event, its kind and its text, and an insertion that meets its key does nothing: rows
are never changed or removed.  Rows that follow each other are linked, and a pair
whose times run against the order of the kinds is put up for review.

The public timeline shows the rows of the canonical event, those with a time first.
-/

namespace Atlas

open Rows Outcome

inductive ChronosTimelineEventType where
  | scheduledDeparture | actualDeparture | takeoff | lastContact | emergencyDeclared
  | impact | landing | rescueStarted | investigationOpened | reportPublished
deriving DecidableEq, Repr

inductive ChronosTimestampPrecision where
  | exact | minute | hour | day | approximate | relative | unknown
deriving DecidableEq, Repr

/-- `_FIELD_MAPPINGS`. -/
def ChronosTimelineEventType.fields : ChronosTimelineEventType → List String
  | scheduledDeparture => ["scheduled_departure", "scheduled_departure_time"]
  | actualDeparture => ["actual_departure", "departure_time"]
  | takeoff => ["takeoff", "takeoff_time"]
  | lastContact => ["last_contact", "last_contact_time"]
  | emergencyDeclared => ["emergency_declared", "emergency_time", "mayday_time"]
  | impact => ["impact", "impact_time", "accident_time", "crash_time"]
  | landing => ["landing", "landing_time"]
  | rescueStarted => ["rescue_started", "rescue_time"]
  | investigationOpened => ["investigation_opened", "investigation_start_date"]
  | reportPublished => ["report_published", "final_report_date", "report_date"]

/-- `_SEQUENCE_ORDER`. -/
def sequenceOrder : List ChronosTimelineEventType :=
  [.scheduledDeparture, .actualDeparture, .takeoff, .lastContact, .emergencyDeclared, .impact,
    .landing, .rescueStarted, .investigationOpened, .reportPublished]

/-- `_SEQUENCE_INDEX`. -/
def ChronosTimelineEventType.sequenceIndex (t : ChronosTimelineEventType) : Nat :=
  sequenceOrder.idxOf t

/-! ## Timestamps -/

/-- A time in microseconds, with the seconds and microseconds it is written with. -/
structure PyDatetime where
  instant : Int
  second : Nat
  microsecond : Nat
deriving DecidableEq, Repr

/-- `datetime.fromisoformat`, a time without a zone being read as UTC; `none` is the
`ValueError`.  Every result holds for any such reader. -/
class PyIsoDatetime where
  fromisoformat : String → Option PyDatetime

/-- A reader of nothing, enough to run the model on dates. -/
instance (priority := low) noDatetime : PyIsoDatetime where
  fromisoformat _ := none

/-- `_APPROXIMATE_PHRASES`. -/
def approximatePhrases : List String :=
  ["approximately", "about", "around", "circa", "shortly after", "shortly before", "just after",
    "just before", "during approach", "during climb", "during descent", "during cruise",
    "during takeoff", "after takeoff", "before landing", "on approach"]

/-- `_UNKNOWN_PHRASES`. -/
def unknownPhrases : List String :=
  ["unknown", "n/a", "not known", "not available", "unavailable", "tbd", ""]

/-- `datetime(year, month, day, hour, minute, tzinfo=UTC)`; `none` is the
`ValueError`. -/
def utcInstant (year month day hour minute : Nat) : Option Int :=
  (PyDate.mk? year month day).bind fun d =>
    if hour ≤ 23 ∧ minute ≤ 59 then
      some (((((d.toOrdinal : Int) - 719163) * 24 + hour) * 60 + minute) * 60000000)
    else none

section Parser

variable [PyText]

/-- Read a pattern of digits, of `[T ]`, written `s`, and of other characters: the
digits and what is left. -/
def readPattern : List Char → List Char → Option (List Nat × List Char)
  | [], cs => some ([], cs)
  | _ :: _, [] => none
  | p :: ps, c :: cs =>
      if p = 'd' then
        (PyText.decimal c).bind fun d => (readPattern ps cs).map fun r => (d :: r.1, r.2)
      else if p = 's' then if c = 'T' ∨ c = ' ' then readPattern ps cs else none
      else if c = p then readPattern ps cs
      else none

/-- The digits of a text that is the whole pattern. -/
def wholePattern (pattern : String) (cs : List Char) : Option (List Nat) :=
  match readPattern pattern.toList cs with
  | some (ds, []) => some ds
  | _ => none

/-- The date at the head of the digits. -/
def dateDigits (ds : List Nat) (hour minute : Nat) : Option Int :=
  utcInstant (digitsValue (ds.take 4)) (digitsValue ((ds.drop 4).take 2))
    (digitsValue ((ds.drop 6).take 2)) hour minute

/-- The forms without seconds. -/
def parseShortForms (cs : List Char) : Option Int × ChronosTimestampPrecision :=
  match (wholePattern "dddd-dd-ddsdd:dd" cs).bind fun ds =>
      dateDigits ds (digitsValue ((ds.drop 8).take 2)) (digitsValue (ds.drop 10)) with
  | some t => (some t, .minute)
  | none =>
      match (wholePattern "dddd-dd-ddsdd" cs).bind fun ds =>
          dateDigits ds (digitsValue (ds.drop 8)) 0 with
      | some t => (some t, .hour)
      | none =>
          match (wholePattern "dddd-dd-dd" cs).bind fun ds => dateDigits ds 0 0 with
          | some t => (some t, .day)
          | none => (none, .unknown)

/-- `parse_chronos_timestamp`. -/
def parseChronosTimestamp [PyIsoDatetime] (value : String) :
    Option Int × ChronosTimestampPrecision :=
  let stripped := strip value
  let lower := PyText.lower stripped
  if stripped = "" then (none, .unknown)
  else if lower ∈ unknownPhrases then (none, .unknown)
  else if approximatePhrases.any fun p => containsText p.toList lower.toList then
    (none, .approximate)
  else if (wholePattern "dd:dd" stripped.toList).isSome then (none, .relative)
  else
    let parsed :=
      if (readPattern "dddd-dd-ddsdd:dd:dd".toList stripped.toList).isSome then
        let normalised := stripped.replace " " "T"
        PyIsoDatetime.fromisoformat
          (if normalised.toList.getLast? = some 'Z' then
            String.ofList (normalised.toList.dropLast ++ "+00:00".toList)
          else normalised)
      else none
    match parsed with
    | some dt =>
        (some dt.instant, if dt.second ≠ 0 ∨ dt.microsecond ≠ 0 then .exact else .minute)
    | none => parseShortForms stripped.toList

end Parser

example : parseChronosTimestamp "2020-09-25 18:05" = (some 1601057100000000, .minute) := by
  decide +kernel

example : parseChronosTimestamp "2020-09-25" = (some 1600992000000000, .day) := by decide +kernel

example : parseChronosTimestamp "2020-09-25s18:05" = (none, .unknown) := by decide +kernel

/-! ## Rows -/

structure ChronosTimelineEvent where
  id : Uuid
  accidentEventId : Uuid
  eventType : ChronosTimelineEventType
  occurredAt : Option Int
  timestampPrecision : ChronosTimestampPrecision
  sequenceIndex : Nat
  description : Option String
  rawValue : String
  sourceClaimId : Option Uuid
  rawSnapshotId : Option Uuid
deriving DecidableEq, Repr

/-- The columns of `uq_chronos_timeline_events_idempotent`. -/
def ChronosTimelineEvent.key (r : ChronosTimelineEvent) :
    Uuid × ChronosTimelineEventType × String := (r.accidentEventId, r.eventType, r.rawValue)

/-- An `ORDERED_BEFORE` link. -/
structure ChronosEventLink where
  id : Uuid
  accidentEventId : Uuid
  predecessorEventId : Uuid
  successorEventId : Uuid
deriving DecidableEq, Repr

/-- The columns of `uq_chronos_event_links_pair`. -/
def ChronosEventLink.key (l : ChronosEventLink) : Uuid × Uuid × Uuid :=
  (l.accidentEventId, l.predecessorEventId, l.successorEventId)

/-- A pending review of two rows.  No use case resolves one. -/
structure ChronosSequenceReview where
  id : Uuid
  accidentEventId : Uuid
  timelineEventIdA : Uuid
  timelineEventIdB : Uuid
deriving DecidableEq, Repr

/-- The columns of `uq_chronos_sequence_reviews_pending_pair`. -/
def ChronosSequenceReview.key (r : ChronosSequenceReview) : Uuid × Uuid :=
  (min r.timelineEventIdA r.timelineEventIdB, max r.timelineEventIdA r.timelineEventIdB)

/-- The site with its timelines.  Timeline rows, links and reviews draw their
identifiers from a counter of their own. -/
structure ChronosDb where
  site : EditorialDb
  timelineEvents : List ChronosTimelineEvent
  eventLinks : List ChronosEventLink
  sequenceReviews : List ChronosSequenceReview
  nextId : Uuid

namespace ChronosDb

def empty (sources : List Source) : ChronosDb := ⟨EditorialDb.empty (Db.empty sources), [], [], [], 0⟩

/-- `upsert_event`: the row under the key of the candidate. -/
def upsertEvent (s : ChronosDb) (event : ChronosTimelineEvent) :
    ChronosTimelineEvent × ChronosDb :=
  let rows := insertAbsent ChronosTimelineEvent.key event s.timelineEvents
  ((lookup ChronosTimelineEvent.key event.key rows).getD event,
    { s with timelineEvents := rows, nextId := s.nextId + 1 })

/-- `upsert_link`. -/
def upsertLink (s : ChronosDb) (link : ChronosEventLink) : ChronosDb :=
  { s with
    eventLinks := insertAbsent ChronosEventLink.key link s.eventLinks
    nextId := s.nextId + 1 }

/-- `chronos_sequence_reviews.add`. -/
def addReview (s : ChronosDb) (review : ChronosSequenceReview) : ChronosDb :=
  { s with
    sequenceReviews := insertAbsent ChronosSequenceReview.key review s.sequenceReviews
    nextId := s.nextId + 1 }

/-! ## The extraction -/

section Extract

variable [PyText] [PyRepr] [PyCasefold] [PyIsoDatetime]

/-- The first field of a kind that has a text, and the text. -/
def matchedField (fields : List (String × Json)) (t : ChronosTimelineEventType) :
    Option (String × String) :=
  t.fields.findSome? fun name =>
    (chronosSafeStr ((fields.lookup name).getD .null)).map fun raw => (name, raw)

/-- The candidate row of a kind. -/
def candidate (s : ChronosDb) (eventId : Uuid) (claims : List (String × Claim))
    (t : ChronosTimelineEventType) (field raw : String) : ChronosTimelineEvent where
  id := s.nextId
  accidentEventId := eventId
  eventType := t
  occurredAt := (parseChronosTimestamp raw).1
  timestampPrecision := (parseChronosTimestamp raw).2
  sequenceIndex := t.sequenceIndex
  description := none
  rawValue := raw
  sourceClaimId := (claims.lookup field).map Claim.id
  rawSnapshotId := (claims.lookup field).bind Claim.rawSnapshotId

/-- The loop over the kinds: the rows, in order, and the store. -/
def upsertKinds (eventId : Uuid) (fields : List (String × Json)) (claims : List (String × Claim)) :
    ChronosDb → List ChronosTimelineEventType → List ChronosTimelineEvent × ChronosDb
  | s, [] => ([], s)
  | s, t :: ts =>
      match matchedField fields t with
      | none => upsertKinds eventId fields claims s ts
      | some (field, raw) =>
          let (event, s₁) := s.upsertEvent (s.candidate eventId claims t field raw)
          let (events, s₂) := upsertKinds eventId fields claims s₁ ts
          (event :: events, s₂)

/-- `pairwise`. -/
def pairwise : List ChronosTimelineEvent → List (ChronosTimelineEvent × ChronosTimelineEvent)
  | a :: b :: rest => (a, b) :: pairwise (b :: rest)
  | _ => []

def linkPair (eventId : Uuid) (s : ChronosDb) (p : ChronosTimelineEvent × ChronosTimelineEvent) :
    ChronosDb :=
  s.upsertLink ⟨s.nextId, eventId, p.1.id, p.2.id⟩

/-- The times of a pair run against the order of their kinds. -/
def outOfOrder (p : ChronosTimelineEvent × ChronosTimelineEvent) : Bool :=
  match p.1.occurredAt, p.2.occurredAt with
  | some a, some b => b < a
  | _, _ => false

def reviewPair (eventId : Uuid) (s : ChronosDb) (p : ChronosTimelineEvent × ChronosTimelineEvent) :
    ChronosDb :=
  if outOfOrder p then s.addReview ⟨s.nextId, eventId, p.1.id, p.2.id⟩ else s

/-- The extraction from the fields of a projection. -/
def extractFrom (s : ChronosDb) (eventId : Uuid) (fields : List (String × Json)) : ChronosDb :=
  let claims := s.site.store.selectProjectedClaimsByField eventId fields chronosSafeStr
  let (events, s₁) := upsertKinds eventId fields claims s sequenceOrder
  let ordered := events.insertionSort fun a b => a.sequenceIndex ≤ b.sequenceIndex
  let s₂ := (pairwise ordered).foldl (linkPair eventId) s₁
  (pairwise ordered).foldl (reviewPair eventId) s₂

/-- `ExtractChronosTimelineFromEvent.execute`; an event without a projection is left
alone. -/
def extractTimeline (s : ChronosDb) (eventId : Uuid) : ChronosDb :=
  match s.site.store.getProjection eventId with
  | none => s
  | some projection => s.extractFrom eventId projection.readFields

end Extract

/-! ## The public timeline -/

structure PublicTimelineEvent where
  eventType : ChronosTimelineEventType
  occurredAt : Option Int
  timestampPrecision : ChronosTimestampPrecision
  sequenceIndex : Nat
  description : Option String
deriving DecidableEq, Repr

structure PublicTimelineResponse where
  slug : String
  canonicalEventId : Uuid
  events : List PublicTimelineEvent
deriving DecidableEq, Repr

def publicTimelineLimit : Nat := 200

/-- `_sort_key_for_timeline`, and the identifier. -/
def timelineKey (r : ChronosTimelineEvent) : List Int :=
  match r.occurredAt with
  | none => [1, r.sequenceIndex, r.id]
  | some t => [0, t, r.id]

/-- `_timeline_to_public`. -/
def timelineToPublic (r : ChronosTimelineEvent) : PublicTimelineEvent :=
  ⟨r.eventType, r.occurredAt, r.timestampPrecision, r.sequenceIndex, r.description⟩

def listForAccidentEvent (s : ChronosDb) (eventId : Uuid) : List ChronosTimelineEvent :=
  s.timelineEvents.filter fun r => r.accidentEventId = eventId

/-- `GetPublicEventTimeline.execute`. -/
def getPublicEventTimeline (s : ChronosDb) (slug : String) :
    Except PublicReadError PublicTimelineResponse := do
  let (page, canonicalId) ← s.site.loadPageAndCheckVisibility slug
  let timeline := (s.listForAccidentEvent canonicalId).insertionSort fun a b =>
    timelineKey a ≤ timelineKey b
  pure ⟨page.slug, canonicalId, (timeline.take publicTimelineLimit).map timelineToPublic⟩

end ChronosDb

end Atlas
