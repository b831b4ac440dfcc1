import Atlas.EventMatching
import Atlas.Ingest

/-!
# The identity index

The synchronous index that event resolution reads: one row for each event, written
in the transaction of the ingestion.  Merges leave the row of the absorbed event in
place as an alias.

`IdentityStore` is the store with this index beside it, and `resolveWithReviews`
is event resolution with the matcher in it.
-/

namespace Atlas

open Rows Outcome

/-! ## Rows -/

/-- `MAX_REGISTRATION_ALIASES`. -/
def maxRegistrationAliases : Nat := 5

/-- The most recent distinct aliases within the cap: the last places of the last
occurrences.  `cap_registration_norms` of the entity and the capped union of the
repository both compute it. -/
def capAliases (aliases : List Text) : List Text :=
  aliases.dedup.drop (aliases.dedup.length - maxRegistrationAliases)

/-- The values of `aircraft_registration_numbers`. -/
def registrationAliasValues : Json → List Json
  | .str s => [.str s]
  | .arr xs => xs
  | _ => []

section Entry

variable [PyText] [PyRepr]

/-- `_registration_norm_aliases`. -/
def registrationNormAliases (fields : ClaimFields) : List Text :=
  distinct ((fields "registration" ::
    registrationAliasValues (fields "aircraft_registration_numbers")).filterMap normReg)

/-- The text of a field, `None` when it is empty. -/
def normOrNone (v : Json) : Option Text := if norm v = [] then none else some (norm v)

/-- `_build_identity_entry`. -/
def buildIdentityEntry (eventId : Uuid) (fields : ClaimFields) (now : Time) : EventIdentityIndex where
  eventId := eventId
  eventDateNorm :=
    if (fields "event_date").truthy then some (normDate (pyStr (fields "event_date"))) else none
  registrationNorm := normReg (fields "registration")
  operatorNorm := normOrNone (fields "operator")
  locationNorm := normOrNone (fields "location")
  aircraftTypeNorm := normOrNone (fields "aircraft_type")
  registrationNorms := capAliases (registrationNormAliases fields)
  updatedAt := now

end Entry

namespace EventIdentityIndex

/-- The text columns of the table are bounded; a longer value is refused. -/
def fits (entry : EventIdentityIndex) : Bool :=
  entry.registrationNorm.all (·.length ≤ 50) && entry.operatorNorm.all (·.length ≤ 255) &&
    entry.locationNorm.all (·.length ≤ 255) && entry.aircraftTypeNorm.all (·.length ≤ 255)

/-- The row after `upsert` of an entry: incoming values win over stored ones. -/
def updatedBy (entry row : EventIdentityIndex) : EventIdentityIndex where
  eventId := row.eventId
  eventDateNorm := entry.eventDateNorm.or row.eventDateNorm
  registrationNorm := entry.registrationNorm.or row.registrationNorm
  operatorNorm := entry.operatorNorm.or row.operatorNorm
  locationNorm := entry.locationNorm.or row.locationNorm
  aircraftTypeNorm := entry.aircraftTypeNorm.or row.aircraftTypeNorm
  registrationNorms := capAliases (row.registrationNorms ++ entry.registrationNorms)
  updatedAt := entry.updatedAt

/-- The row after an entry that came through an alias: stored values win, and the
registration of the entry becomes an alias. -/
def enrichedBy (entry row : EventIdentityIndex) : EventIdentityIndex where
  eventId := row.eventId
  eventDateNorm := row.eventDateNorm.or entry.eventDateNorm
  registrationNorm := row.registrationNorm.or entry.registrationNorm
  operatorNorm := row.operatorNorm.or entry.operatorNorm
  locationNorm := row.locationNorm.or entry.locationNorm
  aircraftTypeNorm := row.aircraftTypeNorm.or entry.aircraftTypeNorm
  registrationNorms := capAliases
    (row.registrationNorms ++ entry.registrationNorms ++ entry.registrationNorm.toList)
  updatedAt := entry.updatedAt

end EventIdentityIndex

/-- Insert the entry, or change the row its event has. -/
def putIdentity (change : EventIdentityIndex → EventIdentityIndex → EventIdentityIndex)
    (index : List EventIdentityIndex) (entry : EventIdentityIndex) : List EventIdentityIndex :=
  if index.any fun row => row.eventId = entry.eventId then
    updateWhere (fun row => row.eventId = entry.eventId) (change entry) index
  else index ++ [entry]

/-- `identity_index.upsert`. -/
def upsertIdentity (index : List EventIdentityIndex) (entry : EventIdentityIndex) :
    List EventIdentityIndex :=
  putIdentity EventIdentityIndex.updatedBy index entry

/-- `enrich_identity_index_from_alias`. -/
def enrichIdentityIndexFromAlias (index : List EventIdentityIndex) (entry : EventIdentityIndex) :
    List EventIdentityIndex :=
  putIdentity EventIdentityIndex.enrichedBy index entry

/-- `merge_identity_index`: the row of the source enriches the row of the target
and stays. -/
def mergeIdentityIndex (index : List EventIdentityIndex) (source target : Uuid) (now : Time) :
    List EventIdentityIndex :=
  match lookup EventIdentityIndex.eventId source index with
  | none => index
  | some row =>
      putIdentity EventIdentityIndex.enrichedBy index
        { row with
          eventId := target
          registrationNorms := capAliases (row.registrationNorms ++ row.registrationNorm.toList)
          updatedAt := now }

/-! ## Candidates -/

/-- The store with the identity index beside it. -/
structure IdentityStore where
  db : Db
  index : List EventIdentityIndex

namespace IdentityStore

/-- The rows whose event exists, under a condition, in the order of the queries:
events that are not merged first, then the latest row, then the order given. -/
def selectRows (S : IdentityStore) (cond : EventIdentityIndex → Bool) (limit : Nat)
    (tieBreak : EventIdentityIndex → EventIdentityIndex → Bool) : List EventIdentityIndex :=
  let merged (row : EventIdentityIndex) : Nat :=
    if ((S.db.getEvent row.eventId).map AccidentEvent.isMerged).getD false then 1 else 0
  let rows := S.index.filter fun row => (S.db.getEvent row.eventId).isSome && cond row
  (rows.insertionSort fun a b =>
    merged a < merged b ∨ (merged a = merged b ∧
      (b.updatedAt < a.updatedAt ∨ (a.updatedAt = b.updatedAt ∧ tieBreak a b)))).take limit

/-- The date of the row lies between two days. -/
def dateBetween (lo hi : Nat) (row : EventIdentityIndex) : Bool :=
  match row.eventDateNorm with
  | some (some d) => lo ≤ d.toOrdinal ∧ d.toOrdinal ≤ hi
  | _ => false

/-- `find_candidates`: at most fifty rows within a day of the date.  An empty date
is no date. -/
def findCandidates (S : IdentityStore) (date : Option PyDate) :
    Except AtlasError (List EventIdentityIndex) :=
  match date with
  | none => pure []
  | some d => do
      let (lo, hi) ← d.around
      pure (S.selectRows (dateBetween lo hi) 50 fun _ _ => true)

variable [PyText] [PyRepr]

/-- `_normalise_registration_lookup`. -/
def normaliseRegistrationLookup (cs : Text) : Text :=
  dropSeparators (stripChars (PyText.lower (String.ofList cs)).toList)

/-- The row has the registration, as its primary one or as an alias. -/
def carriesRegistration (registration : Text) (row : EventIdentityIndex) : Bool :=
  row.registrationNorm = some registration ∨ registration ∈ row.registrationNorms

/-- `find_by_registration`: at most twenty rows with the registration, within a
day of the date when there is one. -/
def findByRegistration (S : IdentityStore) (registration : Text) (date : Option PyDate) :
    Except AtlasError (List EventIdentityIndex) :=
  let carries := carriesRegistration (normaliseRegistrationLookup registration)
  let byEventId (a b : EventIdentityIndex) : Bool := a.eventId ≤ b.eventId
  match date with
  | none => pure (S.selectRows carries 20 byEventId)
  | some d => do
      let (lo, hi) ← d.around
      pure (S.selectRows (fun row => carries row && dateBetween lo hi row) 20 byEventId)

/-- The normalised date of a submission. -/
def eventDateOf (fields : ClaimFields) : Option PyDate := normDate (pyStr (fields "event_date"))

/-- The normalised registration of a submission, which may be the empty text. -/
def registrationOf (fields : ClaimFields) : Option Text :=
  if (fields "registration").truthy then some (dropSeparators (norm (fields "registration")))
  else none

/-- Add the rows of events that are not among the candidates yet. -/
def addUnseen (candidates rows : List EventIdentityIndex) : List EventIdentityIndex :=
  rows.foldl (fun acc row =>
    if row.eventId ∈ acc.map EventIdentityIndex.eventId then acc else acc ++ [row]) candidates

/-- Extend the candidates by the rows of the registration.  They are looked up on
their own because the rows of a date are capped. -/
def addByRegistration (S : IdentityStore) (fields : ClaimFields) (byDate : List EventIdentityIndex) :
    Except AtlasError (List EventIdentityIndex) :=
  match registrationOf fields with
  | none => pure byDate
  | some registration =>
      if registration = [] then pure byDate
      else do
        let byRegistration ← S.findByRegistration registration (eventDateOf fields)
        pure (addUnseen byDate byRegistration)

/-- The candidates `resolve_with_reviews` collects.  A submission without a date has
none. -/
def candidates (S : IdentityStore) (fields : ClaimFields) :
    Except AtlasError (List EventIdentityIndex) :=
  if fields "event_date" = .null then pure []
  else do
    let byDate ← S.findCandidates (eventDateOf fields)
    S.addByRegistration fields byDate

end IdentityStore

/-! ## Resolution -/

section Resolve

variable [PyText] [PyRepr]

/-- `EventMatcher.decide`. -/
def EventMatcher.decide (m : EventMatcher) (incoming : ClaimFields)
    (candidates : List EventIdentityIndex) : Db.MatchDecision :=
  let best := m.bestMatch incoming candidates
  if m.high ≤ best.score ∧ best.ambiguousTie = false then
    match best.candidateEventId with
    | some candidate => .attach candidate
    | none => .new
  else if m.uncertain ≤ best.score then
    .review (if best.tiedCandidateEventIds = [] then best.candidateEventId.toList
      else best.tiedCandidateEventIds)
  else .new

namespace IdentityStore

/-- The index after a resolution.  An event found through the row of a merged
event is enriched; any other event takes the incoming values. -/
def recordIdentity (index : List EventIdentityIndex) (decision : Db.MatchDecision)
    (created : Bool) (entry : EventIdentityIndex) : List EventIdentityIndex :=
  match decision with
  | .attach candidate =>
      if created ∨ candidate = entry.eventId then upsertIdentity index entry
      else enrichIdentityIndexFromAlias index entry
  | _ => upsertIdentity index entry

/-- The submission with the decision of the matcher about these candidates. -/
def withDecision (call : Db.IngestCall) (rows : List EventIdentityIndex) : Db.IngestCall :=
  { call with decision := ({} : EventMatcher).decide (claimsDataFields call.claims) rows }

/-- The entry a submission leaves in the index for its event. -/
def entryOf (call : Db.IngestCall) (eventId : Uuid) : EventIdentityIndex :=
  buildIdentityEntry eventId (claimsDataFields call.claims) call.now

@[simp] theorem entryOf_eventId (call : Db.IngestCall) (eventId : Uuid) :
    (entryOf call eventId).eventId = eventId := rfl

/-- Resolution among the candidates: the event, and the check of the entry against
the columns of the index. -/
def resolveAmong (S : IdentityStore) (call : Db.IngestCall) (rows : List EventIdentityIndex) :
    Except AtlasError Db.ResolvedEvent := do
  let resolved ← S.db.resolveWithReviews (withDecision call rows)
  require ((entryOf call resolved.eventId).fits = true)
    (.runtime "value too long for type character varying")
  pure resolved

/-- `EventResolutionService.resolve_with_reviews`. -/
def resolveWithReviews (S : IdentityStore) (call : Db.IngestCall) :
    Except AtlasError (Db.ResolvedEvent × List EventIdentityIndex) := do
  require (0 < call.maxDuplicateReviews)
    (.domainValidation "max_duplicate_reviews must be greater than zero")
  let rows ← S.candidates (claimsDataFields call.claims)
  let resolved ← S.resolveAmong call rows
  pure (resolved, recordIdentity S.index (withDecision call rows).decision resolved.eventCreated
    (entryOf call resolved.eventId))

end IdentityStore

end Resolve

end Atlas
