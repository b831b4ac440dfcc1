import Atlas.Argus
import Atlas.Lib.Walks
import Atlas.PublicEvents
import Atlas.SearchPages

/-!
# Lists with a cursor

The lists of Atlas are handed out by keyset pagination.  Each pairs an order with a predicate for
the rows behind the cursor; most of them take both from one helper.  Where the order ends in the
primary key and the predicate compares the same columns, ties in the leading column do not matter.
Some lists fetch a row more than the page and trim it themselves, the others leave that to the use
case that calls them; both are a batch of the rows behind the cursor.
-/

namespace Atlas

open Rows Keyset

/-! ## The cursor helpers -/

section Helpers

variable {α : Type} (id : α → Uuid) (stamp : α → Time)

/-- `ORDER BY stamp DESC, id DESC`. -/
def newestFirst (row : α) : Time ×ₗ Uuid := toLex (stamp row, id row)

/-- `ORDER BY stamp, id`. -/
def oldestFirst (row : α) : (Time ×ₗ Uuid)ᵒᵈ := OrderDual.toDual (toLex (stamp row, id row))

theorem newestFirst_inj : ∀ a b : α, newestFirst id stamp a = newestFirst id stamp b → id a = id b :=
  fun _ _ h => congrArg (fun k => (ofLex k).2) h

theorem oldestFirst_inj : ∀ a b : α, oldestFirst id stamp a = oldestFirst id stamp b → id a = id b :=
  fun _ _ h => congrArg (fun k => (ofLex (OrderDual.ofDual k)).2) h

variable {κ : Type} [LinearOrder κ] (key : α → κ)

/-- `_apply_created_at_uuid_cursor` and `_apply_last_detected_at_uuid_cursor`, on the rows that the
statement selects in its order.  The cursor is looked up in the whole table; one that names no row
is ignored. -/
def applyCursor (table : List α) (wanted : α → Bool) (afterId : Option Uuid) : List α :=
  let rows := listing key (table.filter wanted)
  match afterId.bind fun afterId => lookup id afterId table with
  | some cursor => below key (key cursor) rows
  | none => rows

omit [LinearOrder κ] in
theorem nodup_keys {id : α → Uuid} {key : α → κ} {table : List α} (hids : Unique id table)
    (hinj : ∀ a b, key a = key b → id a = id b) (wanted : α → Bool) :
    ((table.filter wanted).map key).Nodup := by
  have hnodup : ((table.filter wanted).map id).Nodup := hids.sublist (List.filter_sublist.map id)
  rw [List.Nodup, List.pairwise_map] at hnodup ⊢
  exact hnodup.imp fun hne heq => hne (hinj _ _ heq)

/-- **A list that uses a helper is complete.** -/
theorem complete_applyCursor {id : α → Uuid} {key : α → κ} {table : List α} (hids : Unique id table)
    (hinj : ∀ a b, key a = key b → id a = id b) (wanted : α → Bool) :
    Complete key (table.filter wanted) (servePage id (applyCursor id key table wanted)) := by
  refine complete_of_behind (nodup_keys hids hinj wanted) rfl fun r hr => ?_
  unfold applyCursor
  have hfound : (some (id r)).bind (fun afterId => lookup id afterId table) = some r :=
    hids.lookup_eq (List.mem_of_mem_filter hr)
  rw [hfound]

end Helpers

/-! ## The tables -/

/-- A row with the columns that its entity leaves to the database. -/
structure Stamped (α : Type) where
  id : Uuid
  createdAt : Time
  row : α

/-- The tables that are listed, with their constraints. -/
structure ListingStore where
  editorial : EditorialDb
  textSearch : TextSearch
  reviews : List (Stamped PendingDuplicateReview)
  conflicts : List ClaimConflict
  activity : List (Stamped ConflictActivityLogEntry)
  claims : List Claim
  histories : List (Stamped ClaimHistory)
  signals : List ArgusSignal
  pageIds : Unique PublicEventPage.id editorial.pages
  /-- `status <> 'PUBLISHED' OR last_published_at IS NOT NULL` -/
  published : ∀ p ∈ editorial.pages, p.status = .published → p.lastPublishedAt.isSome
  entryIds : Unique SearchIndexEntry.pageId editorial.search
  reviewIds : Unique Stamped.id reviews
  conflictIds : Unique ClaimConflict.id conflicts
  activityIds : Unique Stamped.id activity
  claimIds : Unique Claim.id claims
  historyIds : Unique Stamped.id histories
  signalIds : Unique ArgusSignal.id signals

namespace ListingStore

variable (store : ListingStore)

/-! ## The lists -/

/-- `list_published`. -/
def listPublished : Nat → Option Uuid → List PublicEventPage × Option Uuid :=
  servePage PublicEventPage.id store.editorial.publishedRows

/-- The statuses that `list_editorial` lists; by default all but RETRACTED. -/
def activeStatuses (statuses : Option (List PublicationStatus)) : List PublicationStatus :=
  statuses.getD [.draft, .inReview, .approved, .published, .archived]

/-- `list_editorial`. -/
def listEditorial (statuses : Option (List PublicationStatus)) :
    Nat → Option Uuid → List PublicEventPage × Option Uuid :=
  servePage PublicEventPage.id (store.editorial.editorialRows (activeStatuses statuses))

/-- The query for the page behind a cursor. -/
def pageQuery (query : SearchQuery) (limit : Nat) (cursor : Option (ℚ × Uuid)) : SearchQuery :=
  { query with
    limit := limit
    afterRank := cursor.map Prod.fst
    afterId := cursor.map Prod.snd }

/-- `search`, fed with both halves of the cursor. -/
def searchPage (query : SearchQuery) (limit : Nat) (cursor : Option (ℚ × Uuid)) :
    List SearchHit × Option (ℚ × Uuid) :=
  let result := store.textSearch.search store.editorial.search (pageQuery query limit cursor)
  (result.items, result.nextCursorRank.bind fun rank => result.nextCursorId.map fun id => (rank, id))

/-- `list_pending` of the duplicate reviews. -/
def listPending : Nat → Option Uuid → List (Stamped PendingDuplicateReview) × Option Uuid :=
  servePage Stamped.id (applyCursor Stamped.id (newestFirst Stamped.id Stamped.createdAt) store.reviews
    fun r => r.row.status = .pending)

/-- `find_by_event` of the conflicts. -/
def conflictsByEvent (eventId : Uuid) : Nat → Option Uuid → List ClaimConflict × Option Uuid :=
  servePage ClaimConflict.id (applyCursor ClaimConflict.id
    (newestFirst ClaimConflict.id ClaimConflict.createdAt) store.conflicts fun c => c.eventId = eventId)

/-- `find_by_event` of the activity log. -/
def activityByEvent (eventId : Uuid) :
    Nat → Option Uuid → List (Stamped ConflictActivityLogEntry) × Option Uuid :=
  servePage Stamped.id (applyCursor Stamped.id (oldestFirst Stamped.id Stamped.createdAt) store.activity
    fun r => r.row.eventId = eventId)

/-- `find_all_by_event` of the claims. -/
def claimsByEvent (eventId : Uuid) : Nat → Option Uuid → List Claim × Option Uuid :=
  servePage Claim.id (applyCursor Claim.id (oldestFirst Claim.id Claim.createdAt) store.claims
    fun c => c.eventId = eventId)

/-- `find_by_event` of the claim histories. -/
def historyByEvent (eventId : Uuid) : Nat → Option Uuid → List (Stamped ClaimHistory) × Option Uuid :=
  servePage Stamped.id (applyCursor Stamped.id (oldestFirst Stamped.id Stamped.createdAt) store.histories
    fun r => r.row.eventId = eventId)

/-- The filters of the signal list. -/
structure SignalFilter where
  status : Option ArgusSignalStatus
  signalType : Option ArgusSignalType
  severity : Option ArgusSeverity

def SignalFilter.accepts (f : SignalFilter) (signal : ArgusSignal) : Bool :=
  (f.status.all fun x => decide (signal.status = x)) &&
    (f.signalType.all fun x => decide (signal.signalType = x)) &&
    f.severity.all fun x => decide (signal.severity = x)

/-- `list_page` of the Argus signals. -/
def signalPage (filter : SignalFilter) : Nat → Option Uuid → List ArgusSignal × Option Uuid :=
  servePage ArgusSignal.id (applyCursor ArgusSignal.id
    (newestFirst ArgusSignal.id ArgusSignal.lastDetectedAt) store.signals filter.accepts)

/-! ## Their walks -/

theorem getById_of_mem {r : PublicEventPage} (hr : r ∈ store.editorial.pages) :
    (some r.id).bind store.editorial.getById = some r :=
  store.pageIds.lookup_eq hr

theorem complete_listPublished : Complete PublicEventPage.publicKey
    (store.editorial.pages.filter fun p => p.status = .published) store.listPublished := by
  refine complete_of_behind ?_ rfl fun r hr => ?_
  · refine nodup_keys store.pageIds ?_ _
    exact fun a b h => congrArg (fun k => (ofLex k).2) h
  · obtain ⟨hmem, hstatus⟩ := List.mem_filter.mp hr
    have hstatus := of_decide_eq_true hstatus
    unfold EditorialDb.publishedRows
    rw [store.getById_of_mem hmem]
    exact if_pos ⟨store.published r hmem hstatus, hstatus⟩

theorem complete_listEditorial (statuses : Option (List PublicationStatus)) :
    Complete PublicEventPage.editorialKey
      (store.editorial.pages.filter fun p => p.status ∈ activeStatuses statuses)
      (store.listEditorial statuses) := by
  refine complete_of_behind ?_ rfl fun r hr => ?_
  · refine nodup_keys store.pageIds ?_ _
    exact fun a b h => congrArg (fun k => (ofLex k).2) h
  · obtain ⟨hmem, hstatus⟩ := List.mem_filter.mp hr
    have hstatus := of_decide_eq_true hstatus
    unfold EditorialDb.editorialRows
    rw [store.getById_of_mem hmem]
    exact if_pos hstatus

/-- The rows of the page that `search` returns for a cursor. -/
def entriesAfter (query : SearchQuery) (cursor : Option (ℚ × Uuid)) : List SearchIndexEntry :=
  store.textSearch.resultsAfter (pageQuery query 0 cursor) store.editorial.search

/-- The cursor behind a row. -/
def entryCursor (query : SearchQuery) (e : SearchIndexEntry) : ℚ × Uuid :=
  (store.textSearch.rankOf query e, e.pageId)

/-- The row as it is returned. -/
def hitOf (query : SearchQuery) (e : SearchIndexEntry) : SearchHit := ⟨e, store.textSearch.rankOf query e⟩

/-- The order of the hits. -/
def hitKey (hit : SearchHit) : ℚ ×ₗ Uuid := toLex (hit.rank, hit.entry.pageId)

theorem searchPage_eq (query : SearchQuery) :
    store.searchPage query = fun limit cursor =>
      ((servePage (store.entryCursor query) (store.entriesAfter query) limit cursor).1.map
        (store.hitOf query),
      (servePage (store.entryCursor query) (store.entriesAfter query) limit cursor).2) := by
  funext limit cursor
  unfold searchPage TextSearch.search servePage
  have hrows : store.textSearch.resultsAfter (pageQuery query limit cursor) store.editorial.search =
      store.entriesAfter query cursor := rfl
  have hlimit : (pageQuery query limit cursor).limit.toNat = limit := rfl
  dsimp only
  rw [hrows, hlimit]
  refine Prod.ext rfl ?_
  cases (batch limit (store.entriesAfter query cursor)).2 with
  | none => rfl
  | some e => rfl

theorem complete_searchPage (query : SearchQuery) :
    Complete hitKey ((store.editorial.search.filter fun e => store.textSearch.accepts query e).map
      (store.hitOf query)) (store.searchPage query) := by
  rw [searchPage_eq]
  refine Complete.map (store.hitOf query) (fun _ => rfl) ?_
  refine complete_of_behind ?_ rfl fun r _ => rfl
  exact nodup_keys store.entryIds (fun a b h => congrArg (fun k => (ofLex k).2) h) _

/-- **Every list is complete**: for every page size, the walk from no cursor to no cursor ends, and
returns every matching row exactly once, in the order of the list. -/
theorem keyset_walks_complete :
    Complete PublicEventPage.publicKey
        (store.editorial.pages.filter fun p => p.status = .published) store.listPublished ∧
      (∀ statuses, Complete PublicEventPage.editorialKey
        (store.editorial.pages.filter fun p => p.status ∈ activeStatuses statuses)
        (store.listEditorial statuses)) ∧
      (∀ query, Complete hitKey
        ((store.editorial.search.filter fun e => store.textSearch.accepts query e).map
          (store.hitOf query)) (store.searchPage query)) ∧
      Complete (newestFirst Stamped.id Stamped.createdAt)
        (store.reviews.filter fun r => r.row.status = .pending) store.listPending ∧
      (∀ eventId, Complete (newestFirst ClaimConflict.id ClaimConflict.createdAt)
        (store.conflicts.filter fun c => c.eventId = eventId) (store.conflictsByEvent eventId)) ∧
      (∀ eventId, Complete (oldestFirst Stamped.id Stamped.createdAt)
        (store.activity.filter fun r => r.row.eventId = eventId) (store.activityByEvent eventId)) ∧
      (∀ eventId, Complete (oldestFirst Claim.id Claim.createdAt)
        (store.claims.filter fun c => c.eventId = eventId) (store.claimsByEvent eventId)) ∧
      (∀ eventId, Complete (oldestFirst Stamped.id Stamped.createdAt)
        (store.histories.filter fun r => r.row.eventId = eventId) (store.historyByEvent eventId)) ∧
      ∀ filter, Complete (newestFirst ArgusSignal.id ArgusSignal.lastDetectedAt)
        (store.signals.filter (SignalFilter.accepts filter)) (store.signalPage filter) := by
  refine ⟨store.complete_listPublished, store.complete_listEditorial, store.complete_searchPage, ?_, ?_,
    ?_, ?_, ?_, ?_⟩
  · exact complete_applyCursor store.reviewIds (newestFirst_inj _ _) _
  · exact fun _ => complete_applyCursor store.conflictIds (newestFirst_inj _ _) _
  · exact fun _ => complete_applyCursor store.activityIds (oldestFirst_inj _ _) _
  · exact fun _ => complete_applyCursor store.claimIds (oldestFirst_inj _ _) _
  · exact fun _ => complete_applyCursor store.historyIds (oldestFirst_inj _ _) _
  · exact fun _ => complete_applyCursor store.signalIds (newestFirst_inj _ _) _

/-! ### Ties at the end of a page -/

/-- A page that was published at the time `8`. -/
def publishedPage (id : Uuid) : PublicEventPage :=
  ⟨id, id, toString id, "Report", none, none, .published, 1, some 8, some 8, none, none, 5, 8⟩

/-- Three conflicts of one moment, and three pages of another with entries of one rank. -/
def tiedStore : ListingStore where
  editorial :=
    { store := .empty []
      nextId := 4
      pages := [1, 2, 3].map publishedPage
      revisions := []
      search := [1, 2, 3].map fun id =>
        ⟨id, toString id, "Report", none, none, none, none, none, none, .unknown, 8⟩
      maps := [] }
  textSearch := ⟨fun _ _ => true, fun _ _ => 1⟩
  reviews := []
  conflicts := [1, 2, 3].map fun id =>
    ⟨id, 5, toString id, .open, 1, .initial, none, none, none, none, 7, 7⟩
  activity := []
  claims := []
  histories := []
  signals := []
  pageIds := by unfold Rows.Unique; decide
  published := by decide
  entryIds := by unfold Rows.Unique; decide
  reviewIds := unique_nil _
  conflictIds := by unfold Rows.Unique; decide
  activityIds := unique_nil _
  claimIds := unique_nil _
  historyIds := unique_nil _
  signalIds := unique_nil _

/-- The first page of two ends between rows of one moment, and the walks return all three. -/
theorem tied_rows_walked :
    ((tiedStore.conflictsByEvent 5 2 none).1.map ClaimConflict.id = [3, 2] ∧
        ∃ rows, Walk (tiedStore.conflictsByEvent 5 2) none rows ∧ rows.Perm tiedStore.conflicts) ∧
      (tiedStore.listPublished 2 none).1.map PublicEventPage.id = [3, 2] ∧
        ∃ rows, Walk (tiedStore.listPublished 2) none rows ∧ rows.Perm tiedStore.editorial.pages := by
  obtain ⟨hpages, -, -, -, hconflicts, -⟩ := tiedStore.keyset_walks_complete
  obtain ⟨conflicts, hwalk, hperm, -⟩ := hconflicts 5 2 (by decide)
  obtain ⟨pages, hwalk', hperm', -⟩ := hpages 2 (by decide)
  exact ⟨⟨by decide +kernel, conflicts, hwalk, hperm⟩, by decide +kernel, pages, hwalk', hperm'⟩

end ListingStore

end Atlas
