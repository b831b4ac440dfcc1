import Atlas.MatchingLaws
import Atlas.NlRanges

/-!
# Executing a query in natural language

`ExecuteNlSearch` makes a `SearchQuery` of the filters of a query.  A `SearchQuery` refuses a range
whose start is behind its end.  Since the passes never compare what they write, a query may be
refused, and a year outside the calendar raises already in the passes; neither is logged.  These
are the only ways to fail.
-/

namespace Atlas

open Outcome Regex

/-- `MAX_SEARCH_LIMIT`. -/
def maxSearchLimit : Int := 100

/-- `MAX_QUERY_LENGTH`. -/
def maxQueryLength : Nat := 200

structure SearchQuery where
  q : Option String
  operator : Option String
  aircraftType : Option String
  country : Option String
  eventDateFrom : Option PyDate
  eventDateTo : Option PyDate
  fatalitiesMin : Option Int
  fatalitiesMax : Option Int
  confidenceBands : Option (List String)
  limit : Int
  afterRank : Option ℚ
  afterId : Option Uuid
deriving DecidableEq, Repr

/-- The first is not above the second, when both are given. -/
def notAbove {α : Type} [LE α] (lo hi : Option α) : Prop := ∀ x ∈ lo, ∀ y ∈ hi, x ≤ y

instance {α : Type} [LE α] [DecidableLE α] (lo hi : Option α) : Decidable (notAbove lo hi) :=
  match lo, hi with
  | none, _ => .isTrue (by simp [notAbove])
  | some _, none => .isTrue (by simp [notAbove])
  | some x, some y => decidable_of_iff (x ≤ y) (by simp [notAbove])

/-- `SearchQuery.__post_init__`. -/
def SearchQuery.postInit (s : SearchQuery) : Except NlError Unit := do
  require (∀ text ∈ s.q, text.length ≤ maxQueryLength)
    (.searchQueryMalformed "Query text exceeds 200 characters")
  require (notAbove s.eventDateFrom s.eventDateTo)
    (.searchQueryMalformed "event_date_from must be on or before event_date_to")
  require (∀ n ∈ s.fatalitiesMin, 0 ≤ n) (.searchQueryMalformed "fatalities_min must be >= 0")
  require (notAbove s.fatalitiesMin s.fatalitiesMax)
    (.searchQueryMalformed "fatalities_min must be <= fatalities_max")
  require (1 ≤ s.limit ∧ s.limit ≤ maxSearchLimit)
    (.searchQueryMalformed "limit must be in [1, 100]")
  require (s.afterRank.isNone = s.afterId.isNone)
    (.searchQueryMalformed "after_rank and after_id must be provided together")
  require (∀ bands ∈ s.confidenceBands, ∀ b ∈ bands, b ∈ ["high", "medium", "low", "unknown"])
    (.searchQueryMalformed "Unknown confidence band(s)")

structure NlSearchInput where
  rawQuery : String
  limit : Int
deriving DecidableEq, Repr

/-- A row of the log of queries. -/
structure NlQueryLogEntry where
  rawQuery : String
  queryHash : String
  parsedFilters : ParsedQuery
  resultCount : Nat
  parserConfidence : ℚ
deriving DecidableEq, Repr

structure NlSearchResult where
  parsed : ParsedQuery
  items : List Uuid
  totalEstimated : Nat
deriving DecidableEq, Repr

/-- What an execution meets: the categories, the search, which event a page is about, the
categories of an event, and the hash of the log. -/
structure NlIndex where
  categories : List NamedHfacsCategory
  search : SearchQuery → List Uuid
  eventOf : Uuid → Option Uuid
  attributions : Uuid → List Uuid
  sha256 : String → String
  sha256_length : ∀ s, (sha256 s).length = 64

section Execute

variable [PyText] [PyRegex]

/-- The `SearchQuery` that `ExecuteNlSearch` composes. -/
def composeSearchQuery (parsed : ParsedQuery) (limit : Int) : SearchQuery where
  q := if parsed.freeTextRemainder = "" then none else some parsed.freeTextRemainder
  operator := parsed.operator
  aircraftType := parsed.aircraftType
  country := parsed.country
  eventDateFrom := parsed.eventDateFrom
  eventDateTo := parsed.eventDateTo
  fatalitiesMin := parsed.fatalitiesMin.or (if parsed.fatalOnly then some 1 else none)
  fatalitiesMax := parsed.fatalitiesMax.or (if parsed.nonFatalOnly then some 0 else none)
  confidenceBands := none
  limit := limit
  afterRank := none
  afterId := none

/-- `_intersect_with_hfacs`. -/
def NlIndex.intersectWithHfacs (w : NlIndex) (items : List Uuid) (codes : List String) : List Uuid :=
  let wanted := (w.categories.filter fun c => c.code ∈ codes).map NamedHfacsCategory.id
  items.filter fun page =>
    (w.eventOf page).any fun event => (w.attributions event).any fun id => id ∈ wanted

/-- `query_hash_for`. -/
def NlIndex.queryHashFor (w : NlIndex) (query : String) : String :=
  w.sha256 (strip (PyText.lower query))

/-- The checks of `NlQueryLog`. -/
def NlQueryLogEntry.check (entry : NlQueryLogEntry) : Except NlError Unit :=
  require (entry.queryHash.length = 64 ∧ 0 ≤ entry.parserConfidence ∧ entry.parserConfidence ≤ 1)
    (.valueError "validation error for NlQueryLog")

/-- `ExecuteNlSearch.execute`, with the log. -/
def executeNlSearch (w : NlIndex) (log : List NlQueryLogEntry) (input : NlSearchInput) :
    Except NlError (NlSearchResult × List NlQueryLogEntry) := do
  let parsed ← parseNlQuery input.rawQuery w.categories
  let searchQuery := composeSearchQuery parsed input.limit
  searchQuery.postInit
  let found := w.search searchQuery
  let items := if parsed.hfacsCategoryCodes = [] then found
    else w.intersectWithHfacs found parsed.hfacsCategoryCodes
  let entry : NlQueryLogEntry := ⟨input.rawQuery, w.queryHashFor input.rawQuery, parsed, items.length,
    parsed.confidence⟩
  entry.check
  pure (⟨parsed, items, items.length⟩, log ++ [entry])

/-! ## When it succeeds -/

/-- The fewest deaths that the query asks for. -/
def fewestDeaths (query : List Char) : Option Int :=
  ((moreCounts query).getLast?.map fun n : Nat => (n : Int) + 1).or
    (if fatalMatches query = [] then none else some 1)

/-- The most deaths that the query asks for. -/
def mostDeaths (query : List Char) : Option Int :=
  ((fewerCounts query).getLast?.map fun n : Nat => (n : Int) - 1).or
    (if finditer nonFatalRe query = [] then none else some 0)

/-- The query can be executed: its years are in the calendar, the last start is not behind the last
end, and the fewest deaths are not above the most. -/
structure Executable (query : List Char) : Prop where
  years : ∀ p ∈ datePhrases query, p.Valid
  dates : notAbove (lastOf DatePhrase.lower (datePhrases query))
    (lastOf DatePhrase.upper (datePhrases query))
  deaths : notAbove (fewestDeaths query) (mostDeaths query)

omit [PyText] [PyRegex] in
theorem length_remainingText_le (query : List Char) (st : ParseState) :
    (remainingText query st).length ≤ query.length := by
  unfold remainingText
  rw [String.length_ofList]
  calc (stripChars (collapseBlanks false (blankOut query st.spans))).length
      ≤ (collapseBlanks false (blankOut query st.spans)).length := length_stripChars_le _
    _ ≤ (blankOut query st.spans).length := length_collapseBlanks_le _ _
    _ = query.length := by unfold blankOut; rw [List.length_mapIdx]

theorem computeConfidence_bounds (query : List Char) (st : ParseState) :
    0 ≤ computeConfidence query st ∧ computeConfidence query st ≤ 1 := by
  unfold computeConfidence
  dsimp only
  split
  · exact ⟨le_rfl, zero_le_one⟩
  · rename_i hne
    have hle : ((((finditer tokenRe query).filter fun t =>
        !stopWords.contains (PyText.lower (String.ofList t.text))).filter fun t => st.taken t).length
          : ℚ) / ((finditer tokenRe query).filter fun t =>
        !stopWords.contains (PyText.lower (String.ofList t.text))).length ≤ 1 := by
      refine div_le_one_of_le₀ ?_ (Nat.cast_nonneg _)
      exact_mod_cast List.length_filter_le _ _
    have hnonneg : (0 : ℚ) ≤ ((((finditer tokenRe query).filter fun t =>
        !stopWords.contains (PyText.lower (String.ofList t.text))).filter fun t => st.taken t).length
          : ℚ) / ((finditer tokenRe query).filter fun t =>
        !stopWords.contains (PyText.lower (String.ofList t.text))).length :=
      div_nonneg (Nat.cast_nonneg _) (Nat.cast_nonneg _)
    refine ⟨double_nonneg hnonneg (by linarith), ?_⟩
    exact (double_mono hnonneg hle (by norm_num)).trans_eq double_exact.1

variable {query : String} {categories : List NamedHfacsCategory} {parsed : ParsedQuery}

/-- What a parse returns beside the ranges. -/
theorem parseNlQuery_rest (h : parseNlQuery query categories = .ok parsed) :
    parsed.freeTextRemainder.length ≤ query.length ∧ 0 ≤ parsed.confidence ∧
      parsed.confidence ≤ 1 := by
  unfold parseNlQuery at h
  simp only [bind_ok, pure_ok] at h
  obtain ⟨st, -, rfl⟩ := h
  refine ⟨?_, computeConfidence_bounds query.toList st⟩
  have hle := length_remainingText_le query.toList st
  rwa [String.length_toList] at hle

theorem parseNlQuery_ok_iff : (∃ parsed, parseNlQuery query categories = .ok parsed) ↔
    ∀ p ∈ datePhrases query.toList, p.Valid := by
  unfold parseNlQuery
  simp only [bind_ok, pure_ok]
  constructor
  · intro h
    obtain ⟨parsed, st, hst, -⟩ := h
    exact valid_of_parsePasses hst
  · intro hvalid
    exact ⟨_, _, parsePasses_of_valid categories hvalid, rfl⟩

/-- The deaths that the composed query asks for. -/
theorem composeSearchQuery_deaths (h : parseNlQuery query categories = .ok parsed) (limit : Int) :
    (composeSearchQuery parsed limit).fatalitiesMin = fewestDeaths query.toList ∧
      (composeSearchQuery parsed limit).fatalitiesMax = mostDeaths query.toList := by
  have hranges := parseNlQuery_ranges h
  simp only [ParsedQuery.ranges, Prod.mk.injEq] at hranges
  obtain ⟨-, -, hmin, hmax, hfatal, hnon⟩ := hranges
  unfold composeSearchQuery fewestDeaths mostDeaths
  dsimp only
  rw [hmin, hmax, hfatal, hnon]
  unfold parsedRanges countsOf saysNonFatal
  dsimp only
  refine ⟨?_, ?_⟩
  · cases fatalMatches query.toList <;> rfl
  · cases finditer nonFatalRe query.toList <;> rfl

theorem fewestDeaths_nonneg {q : List Char} : ∀ n ∈ fewestDeaths q, 0 ≤ n := by
  intro n hn
  unfold fewestDeaths at hn
  cases hlast : (moreCounts q).getLast? with
  | some k =>
      rw [hlast] at hn
      cases hn
      dsimp only
      omega
  | none =>
      rw [hlast, Option.map_none, Option.none_or] at hn
      split at hn
      · cases hn
      · cases hn
        decide

/-- A composed query passes its checks when its ranges are in order. -/
theorem postInit_compose (h : parseNlQuery query categories = .ok parsed)
    (hlength : query.length ≤ maxQueryLength) {limit : Int}
    (hlimit : 1 ≤ limit ∧ limit ≤ maxSearchLimit) :
    (composeSearchQuery parsed limit).postInit = .ok () ↔
      notAbove (lastOf DatePhrase.lower (datePhrases query.toList))
        (lastOf DatePhrase.upper (datePhrases query.toList)) ∧
      notAbove (fewestDeaths query.toList) (mostDeaths query.toList) := by
  obtain ⟨hmin, hmax⟩ := composeSearchQuery_deaths h limit
  obtain ⟨hfrom, hto⟩ := parseNlQuery_range h
  have hq : ∀ text ∈ (composeSearchQuery parsed limit).q, text.length ≤ maxQueryLength := by
    intro text htext
    unfold composeSearchQuery at htext
    dsimp only at htext
    split at htext
    · cases htext
    · cases htext
      exact (parseNlQuery_rest h).1.trans hlength
  have hfrom' : (composeSearchQuery parsed limit).eventDateFrom =
      lastOf DatePhrase.lower (datePhrases query.toList) := hfrom
  have hto' : (composeSearchQuery parsed limit).eventDateTo =
      lastOf DatePhrase.upper (datePhrases query.toList) := hto
  unfold SearchQuery.postInit
  simp only [bind_ok, require_ok]
  rw [hmin, hmax, hfrom', hto']
  constructor
  · intro hok
    obtain ⟨-, -, -, hdates, -, -, -, hdeaths, -⟩ := hok
    exact ⟨hdates, hdeaths⟩
  · intro hok
    exact ⟨(), hq, (), hok.1, (), fewestDeaths_nonneg, (), hok.2, (), hlimit, (), rfl,
      by simp [composeSearchQuery]⟩

/-- **When a query is executed and logged.**  Within the limits of its length and its result, a
query is executed, and logged, exactly when its years are in the calendar and its ranges are in
order. -/
theorem nl_search_executed_iff (w : NlIndex) (log : List NlQueryLogEntry) (input : NlSearchInput)
    (hlength : input.rawQuery.length ≤ maxQueryLength)
    (hlimit : 1 ≤ input.limit ∧ input.limit ≤ maxSearchLimit) :
    (∃ result entry, executeNlSearch w log input = .ok (result, log ++ [entry]) ∧
      entry.rawQuery = input.rawQuery) ↔ Executable input.rawQuery.toList := by
  constructor
  · intro h
    obtain ⟨result, entry, hrun, -⟩ := h
    unfold executeNlSearch at hrun
    simp only [bind_ok] at hrun
    obtain ⟨parsed, hparse, u, hpost, -⟩ := hrun
    obtain ⟨hdates, hdeaths⟩ := (postInit_compose hparse hlength hlimit).mp hpost
    exact ⟨parseNlQuery_ok_iff.mp ⟨parsed, hparse⟩, hdates, hdeaths⟩
  · intro h
    obtain ⟨parsed, hparse⟩ := parseNlQuery_ok_iff.mpr h.years
    have hpost := (postInit_compose hparse hlength hlimit).mpr ⟨h.dates, h.deaths⟩
    unfold executeNlSearch NlQueryLogEntry.check
    simp only [bind_ok, require_ok, pure_ok, Prod.mk.injEq]
    exact ⟨_, _, ⟨parsed, hparse, (), hpost, (), ⟨w.sha256_length _, (parseNlQuery_rest hparse).2⟩,
      rfl, rfl⟩, rfl⟩

end Execute

theorem length_zeroDigest (_ : String) : (String.ofList (List.replicate 64 '0')).length = 64 := rfl

/-- An index without pages. -/
def emptyIndex : NlIndex where
  categories := []
  search _ := []
  eventOf _ := none
  attributions _ := []
  sha256 _ := String.ofList (List.replicate 64 '0')
  sha256_length := length_zeroDigest

theorem plain_query_executed : ∃ result entry,
    executeNlSearch emptyIndex [] ⟨"fatal 737 accidents after 2010", 25⟩ =
      .ok (result, [] ++ [entry]) ∧ entry.rawQuery = "fatal 737 accidents after 2010" :=
  (nl_search_executed_iff emptyIndex [] ⟨"fatal 737 accidents after 2010", 25⟩ (by decide)
    (by decide)).mpr ⟨by decide +kernel, by decide +kernel, by decide +kernel⟩

/-- Three queries that are neither executed nor logged: a year outside the calendar, a range of
months over the turn of the year, and counts that contradict each other. -/
theorem contradictory_queries_not_executed :
    (executeNlSearch emptyIndex [] ⟨"accidents before 0000", 25⟩).toOption = none ∧
      (executeNlSearch emptyIndex [] ⟨"Nov-Feb 2024", 25⟩).toOption = none ∧
      (executeNlSearch emptyIndex [] ⟨"over 100 deaths, under 50 deaths", 25⟩).toOption = none := by
  decide +kernel

end Atlas
