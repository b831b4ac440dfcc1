import Atlas.EventMatching
import Atlas.Lib.Keyset
import Atlas.Publication
import Atlas.ReProject

/-!
# The editorial store and the discovery indexes

Public event pages live beside the accident store.  Publishing a page writes a
row of the search index and, when the projection has coordinates, a row of the
map index; archiving and retracting remove both; a full reindex walks the
published pages in batches and rebuilds both indexes.
-/

namespace Atlas

open Outcome Rows

/-! ## Index rows -/

/-- `datetime.fromisoformat(text).date()`, or else `date.fromisoformat(text)`;
`none` when both raise.  Every result holds for any such reader. -/
class PyIsoDate where
  fromisoformat : String → Option PyDate

/-- `YYYY-MM-DD`, enough to run the model. -/
instance (priority := low) plainIsoDate : PyIsoDate where
  fromisoformat s := parseIsoDate s.toList

inductive ConfidenceBand where
  | high
  | medium
  | low
  | unknown
deriving DecidableEq, Repr

structure SearchIndexEntry where
  pageId : Uuid
  slug : String
  title : String
  shortSummary : Option String
  operator : Option String
  aircraftType : Option String
  country : Option String
  eventDate : Option PyDate
  fatalitiesTotal : Option Int
  confidenceBand : ConfidenceBand
  lastPublishedAt : Time
deriving DecidableEq, Repr

structure MapIndexEntry where
  pageId : Uuid
  slug : String
  title : String
  latitude : PyFloat
  longitude : PyFloat
  operator : Option String
  aircraftType : Option String
  country : Option String
  eventDate : Option PyDate
  fatalitiesTotal : Option Int
  confidenceBand : ConfidenceBand
  lastPublishedAt : Time
deriving DecidableEq, Repr

/-- The `fields` of a projection that may be missing.  They come from JSONB,
where the sentinel is its marker text. -/
def projectionFields (projection : Option ProjectedAccidentRecord) : List (String × Json) :=
  match projection with
  | some p => serialiseFields p.fields
  | none => []

/-- `_confidence_band`. -/
def confidenceBand (projection : Option ProjectedAccidentRecord) : ConfidenceBand :=
  match projection with
  | none => .unknown
  | some p =>
      if 85 / 100 ≤ p.completenessScore then .high
      else if 1 / 2 ≤ p.completenessScore then .medium
      else if 0 < p.completenessScore then .low
      else .unknown

/-- `_str_or_none` of a value found under a key, or of nothing. -/
def strOrNone [PyRepr] : Option Json → Option String
  | none => none
  | some .null => none
  | some (.str s) => if s = "" then none else some s
  | some j => some (pyStr j)

/-- `_parse_event_date`. -/
def parseEventDate [PyIsoDate] : Option Json → Option PyDate
  | some (.str s) => PyIsoDate.fromisoformat s
  | _ => none

/-- A blank that `int` and `float` skip; the separators `\x1c` to `\x1f` are none to them. -/
def isNumberBlank (c : Char) : Bool := isSpace c && !(0x1c ≤ c.toNat && c.toNat ≤ 0x1f)

/-- What `int` and `float` read of a text. -/
def numberChars (s : String) : List Char :=
  ((s.toList.dropWhile isNumberBlank).reverse.dropWhile isNumberBlank).reverse

/-- `_coerce_int`.  `int` of an infinity raises an `OverflowError`, which is not
caught. -/
def coerceInt [PyText] : Option Json → Except EditorialError (Option Int)
  | some (.num (.int n)) => .ok (some n)
  | some (.num (.float (.finite q))) => .ok (some (if 0 ≤ q then ⌊q⌋ else ⌈q⌉))
  | some (.num (.float (.inf _))) => .error .overflow
  | some (.bool b) => .ok (some (if b then 1 else 0))
  | some (.str s) => .ok (pyInt (numberChars s))
  | _ => .ok none

/-- `_coerce_float`.  `float` of an integer beyond the doubles raises an
`OverflowError`, which is not caught. -/
def coerceFloat [PyText] : Json → Except EditorialError (Option PyFloat)
  | .num (.int n) =>
      match roundDouble n with
      | .inf _ => .error .overflow
      | f => .ok (some f)
  | .num (.float f) => .ok (some f)
  | .str s => .ok (pyFloat ((numberChars s).map Char.toLower))
  | _ => .ok none

def latKeys : List String := ["latitude", "lat"]
def lngKeys : List String := ["longitude", "lng", "lon"]

/-- The loop over the keys: the first that is there and has a number. -/
def firstFloat [PyText] (fields : List (String × Json)) :
    List String → Except EditorialError (Option PyFloat)
  | [] => .ok none
  | key :: keys =>
      match fields.lookup key with
      | none => firstFloat fields keys
      | some value => do
          match ← coerceFloat value with
          | some f => pure (some f)
          | none => firstFloat fields keys

/-- `-bound <= x <= bound`; false of a NaN. -/
def PyFloat.within (bound : ℚ) : PyFloat → Bool
  | finite q => -bound ≤ q ∧ q ≤ bound
  | _ => false

/-- `_extract_coords`. -/
def extractCoords [PyText] (fields : List (String × Json)) :
    Except EditorialError (Option (PyFloat × PyFloat)) := do
  let lat ← firstFloat fields latKeys
  let lng ← firstFloat fields lngKeys
  match lat, lng with
  | some lat, some lng =>
      if lat.within 90 && lng.within 180 then pure (some (lat, lng)) else pure none
  | _, _ => pure none

section

variable [PyText] [PyRepr] [PyIsoDate]

/-- `_entry_from`. -/
def entryFrom (page : PublicEventPage) (projection : Option ProjectedAccidentRecord) :
    Except EditorialError SearchIndexEntry := do
  let fields := projectionFields projection
  let fatalitiesTotal ← coerceInt (fields.lookup "fatalities_total")
  pure { pageId := page.id
         slug := page.slug
         title := page.title
         shortSummary := page.shortSummary
         operator := strOrNone (fields.lookup "operator")
         aircraftType := strOrNone (fields.lookup "aircraft_type")
         country := strOrNone (fields.lookup "country")
         eventDate := parseEventDate (fields.lookup "event_date")
         fatalitiesTotal := fatalitiesTotal
         confidenceBand := confidenceBand projection
         lastPublishedAt := page.lastPublishedAt.getD page.updatedAt }

/-- The row of a page with coordinates. -/
def mapEntryAt (page : PublicEventPage) (projection : Option ProjectedAccidentRecord)
    (coords : PyFloat × PyFloat) : Except EditorialError MapIndexEntry := do
  let fields := projectionFields projection
  let fatalitiesTotal ← coerceInt (fields.lookup "fatalities_total")
  pure { pageId := page.id
         slug := page.slug
         title := page.title
         latitude := coords.1
         longitude := coords.2
         operator := strOrNone (fields.lookup "operator")
         aircraftType := strOrNone (fields.lookup "aircraft_type")
         country := strOrNone (fields.lookup "country")
         eventDate := parseEventDate (fields.lookup "event_date")
         fatalitiesTotal := fatalitiesTotal
         confidenceBand := confidenceBand projection
         lastPublishedAt := page.lastPublishedAt.getD page.updatedAt }

/-- `_map_entry_from`: `none` when the projection has no valid coordinates. -/
def mapEntryFrom (page : PublicEventPage) (projection : Option ProjectedAccidentRecord) :
    Except EditorialError (Option MapIndexEntry) := do
  match ← extractCoords (projectionFields projection) with
  | some coords => some <$> mapEntryAt page projection coords
  | none => pure none

end

/-! ## The store -/

/-- The editorial tables beside the accident store. -/
structure EditorialDb where
  store : Db
  nextId : Nat
  pages : List PublicEventPage
  revisions : List PublicEventPageRevision
  search : List SearchIndexEntry
  maps : List MapIndexEntry

/-- Insert or replace the row with the key of the one given. -/
def upsertRow {α : Type} (key : α → Uuid) (entry : α) (rows : List α) : List α :=
  if rows.any fun r => key r = key entry then
    updateWhere (fun r => key r = key entry) (fun _ => entry) rows
  else rows ++ [entry]

/-- The order of the editorial list: `(updated_at, id)`. -/
def PublicEventPage.editorialKey (page : PublicEventPage) : Time ×ₗ Uuid :=
  toLex (page.updatedAt, page.id)

namespace EditorialDb

/-- An accident store without pages. -/
def empty (store : Db) : EditorialDb := ⟨store, 0, [], [], [], []⟩

/-! ### Pages -/

def getById (s : EditorialDb) (id : Uuid) : Option PublicEventPage :=
  lookup PublicEventPage.id id s.pages

def getBySlug (s : EditorialDb) (slug : String) : Option PublicEventPage :=
  lookup PublicEventPage.slug slug s.pages

/-- `add`, under the two unique indexes and the foreign key. -/
def addPage (s : EditorialDb) (page : PublicEventPage) : Except EditorialError EditorialDb := do
  require (∀ p ∈ s.pages, p.slug ≠ page.slug) (.slugAlreadyTaken page.slug)
  require (∀ p ∈ s.pages, p.eventId ≠ page.eventId) (.pageAlreadyExists page.eventId)
  require ((s.store.getEvent page.eventId).isSome) (.integrity "accident_events")
  pure { s with pages := s.pages ++ [page] }

/-- The SET list of the update statement. -/
def setColumns (new old : PublicEventPage) : PublicEventPage :=
  { new with id := old.id, eventId := old.eventId, createdAt := old.createdAt }

/-- `update`: `WHERE id = … AND version = expected`, under the unique slug. -/
def updatePage (s : EditorialDb) (page : PublicEventPage) (expectedVersion : Int) :
    Except EditorialError EditorialDb := do
  let current ← fromOption (s.getById page.id) (.pageNotFound page.id)
  require ((current.version : Int) = expectedVersion) (.pageModified expectedVersion current.version)
  require (∀ p ∈ s.pages, p.id ≠ page.id → p.slug ≠ page.slug) (.slugAlreadyTaken page.slug)
  pure { s with pages := updateWhere (fun p => p.id = page.id) (setColumns page) s.pages }

/-- The rows of `list_editorial` behind the cursor.  A cursor that names no row, or
a row of another status, is ignored. -/
def editorialRows (s : EditorialDb) (statuses : List PublicationStatus) (afterId : Option Uuid) :
    List PublicEventPage :=
  let rows := Keyset.listing PublicEventPage.editorialKey (s.pages.filter (·.status ∈ statuses))
  match afterId.bind s.getById with
  | some cursor =>
      if cursor.status ∈ statuses then
        Keyset.below PublicEventPage.editorialKey cursor.editorialKey rows
      else rows
  | none => rows

/-- `list_editorial`. -/
def listEditorial (s : EditorialDb) (statuses : List PublicationStatus) (limit : Nat)
    (afterId : Option Uuid) : List PublicEventPage × Option Uuid :=
  let found := Keyset.batch limit (s.editorialRows statuses afterId)
  (found.1, found.2.map PublicEventPage.id)

/-- `_write_revision`. -/
def writeRevision (s : EditorialDb) (page : PublicEventPage)
    (fromStatus : Option PublicationStatus) (editorUserId : Uuid) (transitionReason : Option String)
    (correctionNote : Option String) : EditorialDb :=
  { s with revisions := s.revisions ++
      [{ pageId := page.id
         versionAtMoment := page.version
         fromStatus := fromStatus
         toStatus := page.status
         title := page.title
         shortSummary := page.shortSummary
         narrativeMarkdown := page.narrativeMarkdown
         editorUserId := editorUserId
         transitionReason := transitionReason
         correctionNote := correctionNote }] }

/-! ### Indexes -/

/-- Taken to compile and to run, as all statements are: this one names some of its parameters
twice. -/
def upsertSearch (s : EditorialDb) (entry : SearchIndexEntry) : EditorialDb :=
  { s with search := upsertRow SearchIndexEntry.pageId entry s.search }

def deleteSearch (s : EditorialDb) (pageId : Uuid) : EditorialDb :=
  { s with search := s.search.filter fun e => e.pageId ≠ pageId }

def upsertMap (s : EditorialDb) (entry : MapIndexEntry) : EditorialDb :=
  { s with maps := upsertRow MapIndexEntry.pageId entry s.maps }

def deleteMap (s : EditorialDb) (pageId : Uuid) : EditorialDb :=
  { s with maps := s.maps.filter fun e => e.pageId ≠ pageId }

section

variable [PyText] [PyRepr] [PyIsoDate]

/-- `index_published_page`. -/
def indexPublishedPage (s : EditorialDb) (page : PublicEventPage) :
    Except EditorialError EditorialDb := do
  let entry ← entryFrom page (s.store.getProjection page.eventId)
  pure (s.upsertSearch entry)

/-- `index_published_page_in_map`. -/
def indexPublishedPageInMap (s : EditorialDb) (page : PublicEventPage) :
    Except EditorialError EditorialDb := do
  match ← mapEntryFrom page (s.store.getProjection page.eventId) with
  | some entry => pure (s.upsertMap entry)
  | none => pure (s.deleteMap page.id)

/-! ### Use cases -/

/-- `CreatePublicEventPage.execute`. -/
def createPage (s : EditorialDb) (input : CreatePublicEventPageInput) (now : Time) :
    Except EditorialError EditorialDb := do
  let slug ← normalizeSlug input.slug
  let page : PublicEventPage :=
    { id := s.nextId
      eventId := input.eventId
      slug := slug
      title := input.title
      shortSummary := input.shortSummary
      narrativeMarkdown := input.narrativeMarkdown
      status := .draft
      version := 1
      firstPublishedAt := none
      lastPublishedAt := none
      retractedAt := none
      retractionNote := none
      createdAt := now
      updatedAt := now }
  let s ← addPage { s with nextId := s.nextId + 1 } page
  pure (s.writeRevision page none input.editorUserId (some "created") none)

/-- `_load_page`. -/
def loadPage (s : EditorialDb) (id : Uuid) : Except EditorialError PublicEventPage :=
  fromOption (s.getById id) (.pageNotFound id)

/-- `UpdatePublicEventPage.execute`. -/
def updatePublicEventPage (s : EditorialDb) (input : UpdatePublicEventPageInput) (now : Time) :
    Except EditorialError EditorialDb := do
  let page ← s.loadPage input.pageId
  let updated ← input.edit now page
  let s ← s.updatePage updated input.expectedVersion
  let reason := match input.transitionReason with
    | some "" => "edited"
    | some reason => reason
    | none => "edited"
  pure (s.writeRevision updated (some .draft) input.editorUserId (some reason) input.correctionNote)

/-- `_post_transition_hook`. -/
def postTransitionHook (s : EditorialDb) (t : Transition) (page : PublicEventPage) :
    Except EditorialError EditorialDb :=
  match t with
  | .publish => do
      let s ← s.indexPublishedPage page
      s.indexPublishedPageInMap page
  | .archive => pure ((s.deleteSearch page.id).deleteMap page.id)
  | .retract => pure ((s.deleteSearch page.id).deleteMap page.id)
  | _ => pure s

/-- `_TransitionUseCase.execute`. -/
def transitionPage (s : EditorialDb) (t : Transition) (input : TransitionPublicEventPageInput)
    (now : Time) : Except EditorialError EditorialDb := do
  let page ← s.loadPage input.pageId
  let updated ← input.edit t now page
  let s ← s.updatePage updated input.expectedVersion
  let s := s.writeRevision updated (some page.status) input.editorUserId input.transitionReason
    (if t.target = .retracted then input.retractionNote else none)
  s.postTransitionHook t updated

/-! ### The full reindex -/

def maxReindexPages : Nat := 50000
def reindexBatchSize : Nat := 100

/-- The body of the loop over a batch: the two entries of a page, and the
ceiling. -/
def reindexRow (s : EditorialDb) (acc : List SearchIndexEntry × List MapIndexEntry)
    (page : PublicEventPage) : Except EditorialError (List SearchIndexEntry × List MapIndexEntry) := do
  let projection := s.store.getProjection page.eventId
  let entry ← entryFrom page projection
  let mapEntry ← mapEntryFrom page projection
  let searchEntries := acc.1 ++ [entry]
  require (searchEntries.length < maxReindexPages) .reindexCeiling
  pure (searchEntries, acc.2 ++ mapEntry.toList)

/-- The `while True` loop.  `reindexLoop_eq` shows that it ends with one turn more
than there are pages, so that the first case is not met. -/
def reindexLoop (s : EditorialDb) : Nat → Option Uuid → List SearchIndexEntry × List MapIndexEntry →
    Except EditorialError (List SearchIndexEntry × List MapIndexEntry)
  | 0, _, _ => .error .reindexCeiling
  | turns + 1, afterId, acc => do
      let (items, nextCursor) := s.listEditorial [.published] reindexBatchSize afterId
      let acc ← items.foldlM (reindexRow s) acc
      match nextCursor with
      | none => pure acc
      | some cursor => reindexLoop s turns (some cursor) acc

/-- `ReindexPublicEvents.execute`; `rebuild_all_from` clears an index and upserts
every entry. -/
def reindexPublicEvents (s : EditorialDb) : Except EditorialError EditorialDb := do
  let (searchEntries, mapEntries) ← s.reindexLoop (s.pages.length + 1) none ([], [])
  pure { s with
    search := searchEntries.foldl (fun rows e => upsertRow SearchIndexEntry.pageId e rows) []
    maps := mapEntries.foldl (fun rows e => upsertRow MapIndexEntry.pageId e rows) [] }

end

end EditorialDb

end Atlas
