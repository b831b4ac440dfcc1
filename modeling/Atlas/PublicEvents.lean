import Atlas.Editorial
import Atlas.Forest

/-!
# Public reads of event pages

The slug-keyed reads load the page through one visibility gate and then follow
the merge pointers to the canonical event, whose projection they show.  The list
of public events does the same for each published page.
-/

namespace Atlas

open Outcome Rows

/-- The exceptions of the public reads, rendered as 404, 404 and 410. -/
inductive PublicReadError where
  | notFound (slug : String)
  | notPublished (slug : String)
  | retracted (slug : String) (retractionNote : Option String)
  /-- the page's event is missing or its merge pointers form a circle -/
  | unresolvable (slug : String)
  | noProjection (slug : String)
deriving DecidableEq, Repr

structure PublicEventListItem where
  slug : String
  title : String
  shortSummary : Option String
  eventDate : Option String
  location : Option String
  operator : Option String
  aircraftType : Option String
  fatalitiesTotal : Option Json
  confidence : ConfidenceBand
  hasUnresolvedConflicts : Bool
  lastPublishedAt : Option Time
deriving DecidableEq, Repr

structure PublicEventListResult where
  items : List PublicEventListItem
  nextCursor : Option Uuid
  limit : Nat
deriving DecidableEq, Repr

structure PublicEventDetail where
  slug : String
  canonicalEventId : Uuid
  title : String
  shortSummary : Option String
  narrativeMarkdown : Option String
  fields : List (String × Json)
  completenessScore : ℚ
  confidence : ConfidenceBand
  unresolvedConflictFields : List String
  projectionVersion : Nat
  firstPublishedAt : Option Time
  lastPublishedAt : Option Time
  lastUpdatedAt : Time
deriving DecidableEq, Repr

/-- `_str_or_none` of the public reads; unlike the index, it keeps the empty
text. -/
def publicStrOrNone [PyRepr] : Option Json → Option String
  | none => none
  | some .null => none
  | some (.str s) => some s
  | some j => some (pyStr j)

/-- `_summary_from`. -/
def summaryFrom [PyRepr] (row : PublicEventPage) (projection : Option ProjectedAccidentRecord) :
    PublicEventListItem :=
  let fields := projectionFields projection
  { slug := row.slug
    title := row.title
    shortSummary := row.shortSummary
    eventDate := publicStrOrNone (fields.lookup "event_date")
    location := publicStrOrNone (fields.lookup "location")
    operator := publicStrOrNone (fields.lookup "operator")
    aircraftType := publicStrOrNone (fields.lookup "aircraft_type")
    fatalitiesTotal := fields.lookup "fatalities_total"
    confidence := confidenceBand projection
    hasUnresolvedConflicts := projection.any fun p => !p.unresolvedConflictFields.isEmpty
    lastPublishedAt := row.lastPublishedAt }

/-- The order of the public list: `(last_published_at, id)`. -/
def PublicEventPage.publicKey (page : PublicEventPage) : Time ×ₗ Uuid :=
  toLex (page.lastPublishedAt.getD 0, page.id)

def maxPublicListLimit : Nat := 100

namespace EditorialDb

variable (s : EditorialDb)

/-- The projection that the public reads show for a page: that of the canonical
event. -/
def shownProjection (page : PublicEventPage) : Option ProjectedAccidentRecord :=
  (s.store.publicCanonicalId page.eventId).bind s.store.getProjection

/-- `_load_page_and_check_visibility`. -/
def loadPageAndCheckVisibility (slug : String) : Except PublicReadError (PublicEventPage × Uuid) := do
  let page ← fromOption (s.getBySlug slug) (.notFound slug)
  require (page.status ≠ .draft) (.notPublished slug)
  require (page.status ≠ .retracted) (.retracted slug page.retractionNote)
  let canonicalId ← fromOption (s.store.publicCanonicalId page.eventId) (.unresolvable slug)
  pure (page, canonicalId)

/-- `GetPublicEventPage.execute`. -/
def getPublicEventPage (slug : String) : Except PublicReadError PublicEventDetail := do
  let (page, canonicalId) ← s.loadPageAndCheckVisibility slug
  let projection ← fromOption (s.store.getProjection canonicalId) (.noProjection slug)
  pure { slug := page.slug
         canonicalEventId := canonicalId
         title := page.title
         shortSummary := page.shortSummary
         narrativeMarkdown := page.narrativeMarkdown
         fields := serialiseFields projection.fields
         completenessScore := projection.completenessScore
         confidence := confidenceBand (some projection)
         unresolvedConflictFields := projection.unresolvedConflictFields
         projectionVersion := projection.projectionVersion
         firstPublishedAt := page.firstPublishedAt
         lastPublishedAt := page.lastPublishedAt
         lastUpdatedAt := projection.updatedAt }

/-- The rows of `list_published` behind the cursor. -/
def publishedRows (afterId : Option Uuid) : List PublicEventPage :=
  let rows := Keyset.listing PublicEventPage.publicKey (s.pages.filter (·.status = .published))
  match afterId.bind s.getById with
  | some cursor =>
      if cursor.lastPublishedAt.isSome ∧ cursor.status = .published then
        Keyset.below PublicEventPage.publicKey cursor.publicKey rows
      else rows
  | none => rows

/-- `ListPublicEvents.execute`. -/
def listPublicEvents [PyRepr] (limit : Int) (afterId : Option Uuid) : PublicEventListResult :=
  let boundedLimit := (max 1 (min limit maxPublicListLimit)).toNat
  let found := Keyset.batch boundedLimit (s.publishedRows afterId)
  { items := found.1.map fun row => summaryFrom row (s.shownProjection row)
    nextCursor := found.2.map PublicEventPage.id
    limit := boundedLimit }

end EditorialDb

end Atlas
