import Atlas.Editorial
import Atlas.NlSearch

/-!
# Pages of search results

`search` lists the index rows that meet the filters of a query by rank and page, in descending
order, one page at a time.  Without a text the rank of a row is the time of its publication.  What
the full text search of the database finds, and how it ranks it, is left open.

`ExecuteNlSearch` takes the first page and then drops the rows without an attribution to a wanted
category.  So a wanted row behind the page is not seen, whatever room the dropped rows leave.
-/

namespace Atlas

open Outcome Rows

/-- The full text search: whether a row matches a text, and its rank. -/
structure TextSearch where
  hit : String → SearchIndexEntry → Bool
  rank : String → SearchIndexEntry → ℚ

def ConfidenceBand.value : ConfidenceBand → String
  | high => "high"
  | medium => "medium"
  | low => "low"
  | unknown => "unknown"

/-- A facet filters unless it is missing or empty. -/
def facetAccepts (facet value : Option String) : Bool :=
  facet.all fun text => text = "" || value = some text

/-- `has_text_query`: the text, unless it is blank. -/
def SearchQuery.textQuery (query : SearchQuery) : Option String := query.q.filter fun q => strip q ≠ ""

namespace TextSearch

variable (ts : TextSearch) (query : SearchQuery)

/-- `rank_expr`. -/
def rankOf (e : SearchIndexEntry) : ℚ :=
  match query.textQuery with
  | some q => ts.rank q e
  | none => e.lastPublishedAt

/-- The predicates of the query. -/
def accepts (e : SearchIndexEntry) : Bool :=
  (query.textQuery.all fun q => ts.hit q e) &&
    facetAccepts query.operator e.operator &&
    facetAccepts query.aircraftType e.aircraftType &&
    facetAccepts query.country e.country &&
    (query.eventDateFrom.all fun d => e.eventDate.any fun x => decide (d ≤ x)) &&
    (query.eventDateTo.all fun d => e.eventDate.any fun x => decide (x ≤ d)) &&
    (query.fatalitiesMin.all fun n => e.fatalitiesTotal.any fun x => decide (n ≤ x)) &&
    (query.fatalitiesMax.all fun n => e.fatalitiesTotal.any fun x => decide (x ≤ n)) &&
    query.confidenceBands.all fun bands => bands.contains e.confidenceBand.value

/-- The order of the results: `(rank DESC, page_id DESC)`. -/
def resultKey (e : SearchIndexEntry) : ℚ ×ₗ Uuid := toLex (ts.rankOf query e, e.pageId)

/-- All rows of the query, in the order of the results. -/
def results (index : List SearchIndexEntry) : List SearchIndexEntry :=
  Keyset.listing (ts.resultKey query) (index.filter fun e => ts.accepts query e)

/-- The rows behind the cursor. -/
def resultsAfter (index : List SearchIndexEntry) : List SearchIndexEntry :=
  match query.afterRank, query.afterId with
  | some rank, some id => Keyset.below (ts.resultKey query) (toLex (rank, id)) (ts.results query index)
  | _, _ => ts.results query index

end TextSearch

/-- `SearchHit`: the columns of the row, and its rank. -/
structure SearchHit where
  entry : SearchIndexEntry
  rank : ℚ
deriving DecidableEq, Repr

structure SearchResult where
  items : List SearchHit
  nextCursorRank : Option ℚ
  nextCursorId : Option Uuid
  limit : Int
deriving DecidableEq, Repr

/-- `SearchRepository.search`. -/
def TextSearch.search (ts : TextSearch) (index : List SearchIndexEntry) (query : SearchQuery) :
    SearchResult :=
  let found := Keyset.batch query.limit.toNat (ts.resultsAfter query index)
  { items := found.1.map fun e => ⟨e, ts.rankOf query e⟩
    nextCursorRank := found.2.map (ts.rankOf query)
    nextCursorId := found.2.map SearchIndexEntry.pageId
    limit := query.limit }

/-! ## Searching in natural language -/

/-- A row of `event_hfacs_attributions`. -/
structure HfacsAttributionRow where
  eventId : Uuid
  categoryId : Uuid
deriving DecidableEq, Repr

/-- What `ExecuteNlSearch` reads. -/
structure NlStore where
  categories : List NamedHfacsCategory
  textSearch : TextSearch
  index : List SearchIndexEntry
  pages : List PublicEventPage
  attributions : List HfacsAttributionRow
  sha256 : String → String
  sha256_length : ∀ s, (sha256 s).length = 64

namespace NlStore

/-- The reads of an execution. -/
def reads (w : NlStore) : NlIndex where
  categories := w.categories
  search query := (w.textSearch.search w.index query).items.map fun hit => hit.entry.pageId
  eventOf pageId := (w.pages.find? fun p => p.id = pageId).map PublicEventPage.eventId
  attributions eventId :=
    (w.attributions.filter fun a => a.eventId = eventId).map HfacsAttributionRow.categoryId
  sha256 := w.sha256
  sha256_length := w.sha256_length

/-- The event of the row's page has an attribution to one of the categories. -/
def Attributed (w : NlStore) (codes : List String) (e : SearchIndexEntry) : Prop :=
  ∃ page ∈ w.pages.find? fun p => p.id = e.pageId, ∃ a ∈ w.attributions, a.eventId = page.eventId ∧
    ∃ c ∈ w.categories, c.code ∈ codes ∧ a.categoryId = c.id

instance (w : NlStore) (codes : List String) (e : SearchIndexEntry) :
    Decidable (w.Attributed codes e) :=
  inferInstanceAs (Decidable (∃ page ∈ _, _))

/-- The rows that the composed query matches, in the order of the search. -/
def matching (w : NlStore) (parsed : ParsedQuery) (limit : Int) : List SearchIndexEntry :=
  w.textSearch.results (composeSearchQuery parsed limit) w.index

/-- The first rows that match and are attributed to one of the categories. -/
def wanted (w : NlStore) (parsed : ParsedQuery) (limit : Int) : List SearchIndexEntry :=
  ((w.matching parsed limit).filter fun e => w.Attributed parsed.hfacsCategoryCodes e).take limit.toNat

/-- `_intersect_with_hfacs` keeps the attributed rows of a page. -/
theorem intersect_reads (w : NlStore) (codes : List String) (rows : List SearchIndexEntry) :
    w.reads.intersectWithHfacs (rows.map SearchIndexEntry.pageId) codes =
      (rows.filter fun e => w.Attributed codes e).map SearchIndexEntry.pageId := by
  unfold NlIndex.intersectWithHfacs
  rw [List.filter_map]
  congr 1
  refine List.filter_congr fun e _ => ?_
  rw [Bool.eq_iff_iff]
  unfold Attributed reads
  simp only [Function.comp_apply, Option.any_eq_true, List.any_eq_true, decide_eq_true_eq,
    Option.map_eq_some_iff, List.mem_map, List.mem_filter, Option.mem_def]
  constructor
  · rintro ⟨event, ⟨page, hpage, rfl⟩, id, ⟨a, ⟨ha, haevent⟩, rfl⟩, c, ⟨hc, hcode⟩, hid⟩
    exact ⟨page, hpage, a, ha, haevent, c, hc, hcode, hid.symm⟩
  · rintro ⟨page, hpage, a, ha, haevent, c, hc, hcode, hid⟩
    exact ⟨page.eventId, ⟨page, hpage, rfl⟩, a.categoryId, ⟨a, ⟨ha, haevent⟩, rfl⟩, c, ⟨hc, hcode⟩,
      hid.symm⟩

/-- The page of the composed query. -/
theorem search_compose (w : NlStore) (parsed : ParsedQuery) (limit : Int) :
    w.reads.search (composeSearchQuery parsed limit) =
      ((w.matching parsed limit).take limit.toNat).map SearchIndexEntry.pageId := by
  unfold reads TextSearch.search Keyset.batch
  have hrows : w.textSearch.resultsAfter (composeSearchQuery parsed limit) w.index =
      w.matching parsed limit := rfl
  have hlimit : (composeSearchQuery parsed limit).limit = limit := rfl
  dsimp only
  rw [hrows, hlimit]
  split
  · rw [List.map_map]
    rfl
  · rename_i hshort
    rw [List.map_map, List.take_of_length_le (Nat.le_of_not_lt hshort)]
    rfl

/-- Filtering the first rows is taking the first of the filtered ones exactly when no row is kept
behind them or all of them are kept. -/
theorem filter_take_eq_iff {α β : Type} {p : α → Bool} {f : α → β} {rows : List α} {n : Nat} :
    ((rows.take n).filter p).map f = ((rows.filter p).take n).map f ↔
      (∀ e ∈ rows.drop n, p e = false) ∨ n ≤ ((rows.take n).filter p).length := by
  have hsplit : rows.filter p = (rows.take n).filter p ++ (rows.drop n).filter p := by
    rw [← List.filter_append, List.take_append_drop]
  have hle : ((rows.take n).filter p).length ≤ n :=
    (List.length_filter_le _ _).trans (List.length_take_le n rows)
  have htake : (rows.filter p).take n =
      (rows.take n).filter p ++ ((rows.drop n).filter p).take (n - ((rows.take n).filter p).length) := by
    rw [hsplit, List.take_append, List.take_of_length_le hle]
  have hbehind : (∀ e ∈ rows.drop n, p e = false) ↔ (rows.drop n).filter p = [] := by
    simp [List.filter_eq_nil_iff]
  rw [htake, List.map_append, eq_comm, List.append_right_eq_self, List.map_eq_nil_iff,
    List.take_eq_nil_iff, hbehind, Nat.sub_eq_zero_iff_le]
  exact or_comm

/-- **Filtering by categories**: the result is the attributed rows of the first page.  It is all
that was wanted exactly when no attributed row is behind that page, or all rows of the page are
attributed. -/
theorem nl_search_filters_page [PyText] [PyRegex] (w : NlStore) (log log' : List NlQueryLogEntry) (input : NlSearchInput)
    (result : NlSearchResult) (h : executeNlSearch w.reads log input = .ok (result, log'))
    (hcodes : result.parsed.hfacsCategoryCodes ≠ []) :
    let page := (w.matching result.parsed input.limit).take input.limit.toNat
    let kept := page.filter fun e => w.Attributed result.parsed.hfacsCategoryCodes e
    result.items = kept.map SearchIndexEntry.pageId ∧
      (result.items = (w.wanted result.parsed input.limit).map SearchIndexEntry.pageId ↔
        (∀ e ∈ (w.matching result.parsed input.limit).drop input.limit.toNat,
          ¬ w.Attributed result.parsed.hfacsCategoryCodes e) ∨ input.limit.toNat ≤ kept.length) := by
  intro page kept
  simp only [executeNlSearch, bind_ok, pure_ok, Prod.mk.injEq] at h
  obtain ⟨parsed, -, -, -, -, -, rfl, -⟩ := h
  dsimp only at hcodes page kept ⊢
  have hitems : (if parsed.hfacsCategoryCodes = [] then
        w.reads.search (composeSearchQuery parsed input.limit)
      else w.reads.intersectWithHfacs (w.reads.search (composeSearchQuery parsed input.limit))
        parsed.hfacsCategoryCodes) = kept.map SearchIndexEntry.pageId := by
    rw [if_neg hcodes, search_compose, intersect_reads]
  rw [hitems]
  refine ⟨rfl, ?_⟩
  have hiff : kept.map SearchIndexEntry.pageId =
      (w.wanted parsed input.limit).map SearchIndexEntry.pageId ↔ _ := filter_take_eq_iff
  rw [hiff]
  simp only [decide_eq_false_iff_not]
  exact Iff.rfl

end NlStore

/-! ## Two pages about one category -/

/-- A row of the index and its page. -/
def supervisionEntry (pageId : Uuid) (publishedAt : Time) : SearchIndexEntry where
  pageId := pageId
  slug := "accident"
  title := "Accident"
  shortSummary := none
  operator := none
  aircraftType := none
  country := none
  eventDate := none
  fatalitiesTotal := none
  confidenceBand := .high
  lastPublishedAt := publishedAt

def supervisionPage (id eventId : Uuid) : PublicEventPage where
  id := id
  eventId := eventId
  slug := "accident"
  title := "Accident"
  shortSummary := none
  narrativeMarkdown := none
  status := .published
  version := 1
  firstPublishedAt := some 0
  lastPublishedAt := some 0
  retractedAt := none
  retractionNote := none
  createdAt := 0
  updatedAt := 0

/-- Two accidents.  The older one is attributed to a failure of supervision. -/
def supervisionStore : NlStore where
  categories := [⟨9, "SUP", "Supervision", by decide⟩]
  textSearch := ⟨fun _ _ => false, fun _ _ => 0⟩
  index := [supervisionEntry 1 10, supervisionEntry 2 20]
  pages := [supervisionPage 1 11, supervisionPage 2 12]
  attributions := [⟨11, 9⟩]
  sha256 _ := String.ofList (List.replicate 64 '0')
  sha256_length := length_zeroDigest

theorem supervision_found (limit : Int) (hlimit : limit = 1 ∨ limit = 2) : ∃ r,
    executeNlSearch supervisionStore.reads [] ⟨"supervision", limit⟩ = .ok r ∧
      r.1.parsed.hfacsCategoryCodes = ["SUP"] ∧
      (supervisionStore.wanted r.1.parsed limit).map SearchIndexEntry.pageId = [1] ∧
      r.1.items = if limit = 1 then [] else [1] := by
  rcases hlimit with rfl | rfl
  · exact exists_ok_of_any (by decide +kernel)
  · exact exists_ok_of_any (by decide +kernel)

/-- With room for both accidents the attributed one is found. -/
theorem supervision_second_page : ∃ result log',
    executeNlSearch supervisionStore.reads [] ⟨"supervision", 2⟩ = .ok (result, log') ∧
      result.items =
        (((supervisionStore.matching result.parsed 2).take 2).filter fun e =>
          supervisionStore.Attributed result.parsed.hfacsCategoryCodes e).map SearchIndexEntry.pageId := by
  obtain ⟨⟨result, log'⟩, hrun, hcodes, -⟩ := supervision_found 2 (.inr rfl)
  have hne : result.parsed.hfacsCategoryCodes ≠ [] := by
    dsimp only at hcodes
    rw [hcodes]
    exact nofun
  exact ⟨result, log', hrun, (NlStore.nl_search_filters_page supervisionStore [] log' _ result hrun hne).1⟩

/-- With room for one accident the newer one takes it, and nothing is found. -/
theorem supervision_hit_lost : ¬ ∀ (w : NlStore) (log log' : List NlQueryLogEntry)
    (input : NlSearchInput) (result : NlSearchResult),
    executeNlSearch w.reads log input = .ok (result, log') →
      result.parsed.hfacsCategoryCodes ≠ [] →
      result.items = (w.wanted result.parsed input.limit).map SearchIndexEntry.pageId := by
  intro h
  obtain ⟨⟨result, log'⟩, hrun, hcodes, hwanted, hitems⟩ := supervision_found 1 (.inl rfl)
  have hne : result.parsed.hfacsCategoryCodes ≠ [] := by
    dsimp only at hcodes
    rw [hcodes]
    exact nofun
  have hall := h supervisionStore [] log' ⟨"supervision", 1⟩ result hrun hne
  dsimp only at hitems hwanted hall
  rw [hitems, hwanted, if_pos rfl] at hall
  cases hall

end Atlas
