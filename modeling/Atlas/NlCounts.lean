import Atlas.NlDates

/-!
# The counts of a query

The passes over deaths take every count, and every `non-fatal`.  A `fatal` counts only where no
`non-fatal` stands in the query, and when it begins outside the phrases before it.  The later
passes leave dates and counts alone.
-/

namespace Atlas

open Outcome Regex

section Passes

variable {st : ParseState} {ms : List Match} {rule : Rule}

/-- A pass looks only at the matches that begin outside what was taken before it. -/
theorem pass_free (hpair : ms.Pairwise fun m m' => m.stop ≤ m'.start) :
    st.pass rule ms = st.pass rule (ms.filter fun m => !st.taken m) := by
  induction ms generalizing st with
  | nil => rfl
  | cons m ms ih =>
      obtain ⟨hnext, hpair⟩ := List.pairwise_cons.mp hpair
      cases htaken : st.taken m with
      | true =>
          rw [pass_cons, passOne_taken htaken, List.filter_cons_of_neg (by simp [htaken])]
          exact ih hpair
      | false =>
          rw [pass_cons, List.filter_cons_of_pos (by simp [htaken]), pass_cons]
          cases hrule : rule st.parsed m with
          | error e => rw [passOne_error htaken hrule]; rfl
          | ok out =>
              cases out with
              | none =>
                  rw [passOne_none hrule]
                  exact ih hpair
              | some parsed =>
                  rw [passOne_some htaken hrule, ok_bind, ok_bind, ih hpair]
                  -- What this match took holds none of the later ones.
                  have hsame : ∀ m' ∈ ms, (!(st.consume parsed m).taken m') = !st.taken m' := by
                    intro m' hm'
                    rw [taken_consume, holds_of_le (hnext m' hm'), Bool.or_false]
                  rw [List.filter_congr hsame]

/-- The pass over `fatal` where `non-fatal` was read. -/
theorem pass_fatal_none (h : st.parsed.nonFatalOnly = true) :
    st.pass fatalOnlyRule ms = .ok st := by
  induction ms with
  | nil => rfl
  | cons m ms ih =>
      have hrule : fatalOnlyRule st.parsed m = .ok none := if_pos h
      rw [pass_cons, passOne_none hrule]
      exact ih

/-- The pass over `fatal` where it was not. -/
theorem pass_fatal_free (h : st.parsed.nonFatalOnly = false) (hfree : ∀ m ∈ ms, st.taken m = false)
    (hpair : ms.Pairwise fun m m' => m.stop ≤ m'.start) :
    st.pass fatalOnlyRule ms = .ok ⟨{ st.parsed with fatalOnly := st.parsed.fatalOnly || !ms.isEmpty },
      st.spans ++ ms.map Span.of⟩ := by
  induction ms generalizing st with
  | nil =>
      simp only [List.isEmpty_nil, Bool.not_true, Bool.or_false, List.map_nil, List.append_nil]
      rfl
  | cons m ms ih =>
      obtain ⟨hnext, hpair⟩ := List.pairwise_cons.mp hpair
      have hrule : fatalOnlyRule st.parsed m = .ok (some { st.parsed with fatalOnly := true }) := by
        unfold fatalOnlyRule
        rw [if_neg (by rw [h]; exact Bool.false_ne_true)]
        rfl
      have hfree' : ∀ m' ∈ ms, (st.consume { st.parsed with fatalOnly := true } m).taken m' = false := by
        intro m' hm'
        rw [taken_consume, hfree m' (List.mem_cons_of_mem m hm'), holds_of_le (hnext m' hm')]
        rfl
      have htail := @ih (st.consume { st.parsed with fatalOnly := true } m) h hfree' hpair
      rw [pass_cons, passOne_some (hfree m List.mem_cons_self) hrule, ok_bind, htail]
      unfold ParseState.consume
      simp only [Bool.true_or, List.isEmpty_cons, Bool.not_false, Bool.or_true, List.map_cons,
        List.append_assoc, List.singleton_append]

end Passes

section Query

variable [PyText] [PyRegex] {query : List Char} {m : Match}

/-- The count of a match. -/
def countOf (m : Match) : Nat := numberOf (m.group 1)

def moreCounts (query : List Char) : List Nat := (finditer moreThanRe query).map countOf

def fewerCounts (query : List Char) : List Nat := (finditer fewerThanRe query).map countOf

def saysNonFatal (query : List Char) : Bool := !(finditer nonFatalRe query).isEmpty

/-- Where the phrases before `fatal` stand. -/
def spansBeforeFatal (query : List Char) : List Span :=
  dateSpans query ++ (finditer moreThanRe query).map Span.of ++
    (finditer fewerThanRe query).map Span.of ++ (finditer nonFatalRe query).map Span.of

/-- The uses of `fatal` that count. -/
def fatalMatches (query : List Char) : List Match :=
  if saysNonFatal query then []
  else (finditer fatalOnlyRe query).filter fun m => !(spansBeforeFatal query).any fun s => s.holds m

/-- The counts that the query leaves. -/
def countsOf (query : List Char) (parsed : ParsedQuery) : ParsedQuery :=
  { parsed with
    fatalitiesMin := (moreCounts query).getLast?.map fun n : Nat => (n : Int) + 1
    fatalitiesMax := (fewerCounts query).getLast?.map fun n : Nat => (n : Int) - 1
    nonFatalOnly := saysNonFatal query
    fatalOnly := !(fatalMatches query).isEmpty }

omit [PyText] [PyRegex] in
/-- Of values written one over another the last stays. -/
theorem foldl_overwrite {σ β : Type} {set : σ → β → σ} (hset : ∀ s a b, set (set s a) b = set s b)
    (xs : List β) (s : σ) : xs.foldl set s = xs.getLast?.elim s (set s) := by
  induction xs using List.reverseRecOn with
  | nil => rfl
  | append_singleton xs x ih =>
      rw [List.foldl_append, ih, List.getLast?_concat]
      cases xs.getLast? with
      | none => rfl
      | some a => exact hset s a x

omit [PyText] [PyRegex] in
theorem foldlM_ok {σ α : Type} {w : σ → α → Except NlError σ} {g : σ → α → σ} {xs : List α}
    (h : ∀ s a, w s a = .ok (g s a)) (s : σ) : xs.foldlM w s = .ok (xs.foldl g s) := by
  induction xs generalizing s with
  | nil => rfl
  | cons x xs ih =>
      rw [List.foldlM_cons, h, ok_bind, ih]
      rfl

omit [PyText] [PyRegex] in
theorem readings_some {α : Type} {f : Match → α} {ms : List Match} :
    readings (fun m => some (f m)) ms = ms.map fun m => (m, f m) :=
  congrFun List.filterMap_eq_map ms

/-- At least one more than so many deaths. -/
def setMin (parsed : ParsedQuery) (n : Nat) : ParsedQuery :=
  { parsed with fatalitiesMin := some ((n : Int) + 1) }

/-- At most one fewer than so many deaths. -/
def setMax (parsed : ParsedQuery) (n : Nat) : ParsedQuery :=
  { parsed with fatalitiesMax := some ((n : Int) - 1) }

def setNonFatal (parsed : ParsedQuery) (_ : Unit) : ParsedQuery := { parsed with nonFatalOnly := true }

theorem moreThanRule_eq (hm : m.Of moreThanRe query) (parsed : ParsedQuery) :
    moreThanRule parsed m = readingRule (fun m => some (countOf m))
      (fun n parsed => .ok (setMin parsed n)) parsed m := by
  obtain ⟨n, hgroups, hn⟩ := groups_count hm
  have h₁ : m.group 1 = n := Match.group_eq hgroups 1
  unfold moreThanRule readingRule countOf
  dsimp only
  rw [h₁, readInt_digits hn]
  rfl

theorem fewerThanRule_eq (hm : m.Of fewerThanRe query) (parsed : ParsedQuery) :
    fewerThanRule parsed m = readingRule (fun m => some (countOf m))
      (fun n parsed => .ok (setMax parsed n)) parsed m := by
  obtain ⟨n, hgroups, hn⟩ := groups_count hm
  have h₁ : m.group 1 = n := Match.group_eq hgroups 1
  unfold fewerThanRule readingRule countOf
  dsimp only
  rw [h₁, readInt_digits hn]
  rfl

/-- The patterns of the date passes. -/
def datePatterns : List Pattern := [monthRangeRe, betweenRe, beforeRe, afterRe, yearRe]

theorem spansOf_dates : SpansOf datePatterns query (dateSpans query) := by
  unfold dateSpans dateReadings
  have hyear : SpansOf [yearRe] query
      (spansIn ((bareYear query).map fun m => (m, yearPhrase m)).toList) := by
    intro s hs
    obtain ⟨x, hx, rfl⟩ := List.mem_map.mp hs
    obtain ⟨m, hm, rfl⟩ := Option.map_eq_some_iff.mp (Option.mem_toList.mp hx)
    exact ⟨yearRe, List.mem_singleton_self _, m, bareYear_of hm, rfl⟩
  exact spansOf_spansIn_append spansOf_ranges hyear

theorem spansOf_matches {r : Pattern} : SpansOf [r] query ((finditer r query).map Span.of) := by
  intro s hs
  obtain ⟨m, hm, rfl⟩ := List.mem_map.mp hs
  exact ⟨r, List.mem_singleton_self r, m, of_mem_finditer hm, rfl⟩

/-- A pass that reads something from every match. -/
theorem pass_all {α : Type} {rule : Rule} {f : Match → α} {g : ParsedQuery → α → ParsedQuery}
    {rs : List Pattern} {e : Pattern} {st : ParseState} (hspans : SpansOf rs query st.spans)
    (hapart : (rs.all fun r => r.apart (.seq .edge e)) = true)
    (hrule : ∀ m, m.Of (.seq .edge e) query → ∀ parsed, rule parsed m =
      readingRule (fun m => some (f m)) (fun a parsed => .ok (g parsed a)) parsed m) :
    st.pass rule (finditer (.seq .edge e) query) =
      .ok ⟨((finditer (.seq .edge e) query).map f).foldl g st.parsed,
        st.spans ++ (finditer (.seq .edge e) query).map Span.of⟩ := by
  rw [pass_apart hspans hapart hrule, readings_some, foldlM_ok (fun _ _ => rfl), ok_bind,
    List.foldl_map, List.foldl_map, List.map_map]
  rfl

/-- The matches of a pattern that are all taken. -/
theorem spansOf_append_matches {rs : List Pattern} {spans : List Span} {r : Pattern}
    (h : SpansOf rs query spans) :
    SpansOf (rs ++ [r]) query (spans ++ (finditer r query).map Span.of) := h.append spansOf_matches

theorem spansOf_more : SpansOf (datePatterns ++ [moreThanRe]) query
    (dateSpans query ++ (finditer moreThanRe query).map Span.of) :=
  spansOf_append_matches spansOf_dates

theorem spansOf_fewer : SpansOf (datePatterns ++ [moreThanRe] ++ [fewerThanRe]) query
    (dateSpans query ++ (finditer moreThanRe query).map Span.of ++
      (finditer fewerThanRe query).map Span.of) :=
  spansOf_append_matches spansOf_more

omit [PyText] [PyRegex] in
/-- Each count stands apart from what is read before it. -/
theorem counts_apart : (datePatterns.all fun r => r.apart moreThanRe) = true ∧
    ((datePatterns ++ [moreThanRe]).all fun r => r.apart fewerThanRe) = true ∧
    ((datePatterns ++ [moreThanRe] ++ [fewerThanRe]).all fun r => r.apart nonFatalRe) = true := by
  decide +kernel

theorem pass_moreThan (parsed : ParsedQuery) :
    (⟨parsed, dateSpans query⟩ : ParseState).pass moreThanRule (finditer moreThanRe query) =
      .ok ⟨(moreCounts query).foldl setMin parsed,
        dateSpans query ++ (finditer moreThanRe query).map Span.of⟩ :=
  pass_all spansOf_dates counts_apart.1 fun _ hm parsed => moreThanRule_eq hm parsed

theorem pass_fewerThan (parsed : ParsedQuery) :
    (⟨parsed, dateSpans query ++ (finditer moreThanRe query).map Span.of⟩ : ParseState).pass
      fewerThanRule (finditer fewerThanRe query) =
      .ok ⟨(fewerCounts query).foldl setMax parsed,
        dateSpans query ++ (finditer moreThanRe query).map Span.of ++
          (finditer fewerThanRe query).map Span.of⟩ :=
  pass_all spansOf_more counts_apart.2.1 fun _ hm parsed => fewerThanRule_eq hm parsed

theorem pass_nonFatal (parsed : ParsedQuery) :
    (⟨parsed, dateSpans query ++ (finditer moreThanRe query).map Span.of ++
      (finditer fewerThanRe query).map Span.of⟩ : ParseState).pass
      nonFatalRule (finditer nonFatalRe query) =
      .ok ⟨((finditer nonFatalRe query).map fun _ => ()).foldl setNonFatal parsed,
        spansBeforeFatal query⟩ :=
  pass_all spansOf_fewer counts_apart.2.2 fun _ _ _ => rfl

omit [PyText] [PyRegex] in
theorem foldl_setMin (xs : List Nat) (parsed : ParsedQuery) : xs.foldl setMin parsed =
    { parsed with
      fatalitiesMin := (xs.getLast?.map fun n : Nat => (n : Int) + 1).or parsed.fatalitiesMin } := by
  rw [foldl_overwrite (show ∀ s a b, setMin (setMin s a) b = setMin s b from fun _ _ _ => rfl)]
  cases xs.getLast? <;> rfl

omit [PyText] [PyRegex] in
theorem foldl_setMax (xs : List Nat) (parsed : ParsedQuery) : xs.foldl setMax parsed =
    { parsed with
      fatalitiesMax := (xs.getLast?.map fun n : Nat => (n : Int) - 1).or parsed.fatalitiesMax } := by
  rw [foldl_overwrite (show ∀ s a b, setMax (setMax s a) b = setMax s b from fun _ _ _ => rfl)]
  cases xs.getLast? <;> rfl

omit [PyText] [PyRegex] in
theorem foldl_setNonFatal (xs : List Unit) (parsed : ParsedQuery) : xs.foldl setNonFatal parsed =
    { parsed with nonFatalOnly := !xs.isEmpty || parsed.nonFatalOnly } := by
  rw [foldl_overwrite (show ∀ s a b, setNonFatal (setNonFatal s a) b = setNonFatal s b from
    fun _ _ _ => rfl)]
  cases hlast : xs.getLast? with
  | none =>
      rw [List.getLast?_eq_none_iff.mp hlast]
      rfl
  | some a =>
      cases xs with
      | nil => cases hlast
      | cons x xs => rfl

/-- The state before the pass over `fatal`. -/
theorem counts_before_fatal {parsed : ParsedQuery} (hmin : parsed.fatalitiesMin = none)
    (hmax : parsed.fatalitiesMax = none) (hnon : parsed.nonFatalOnly = false) :
    ((finditer nonFatalRe query).map fun _ => ()).foldl setNonFatal
      ((fewerCounts query).foldl setMax ((moreCounts query).foldl setMin parsed)) =
    { countsOf query parsed with fatalOnly := parsed.fatalOnly } := by
  rw [foldl_setMin, foldl_setMax, foldl_setNonFatal]
  simp only [hmin, hmax, hnon, Option.or_none, Bool.or_false, List.isEmpty_map]
  rfl

/-- **What `_parse_fatalities` reads.** -/
theorem parseFatalities_eq {parsed : ParsedQuery} (hmin : parsed.fatalitiesMin = none)
    (hmax : parsed.fatalitiesMax = none) (hfatal : parsed.fatalOnly = false)
    (hnon : parsed.nonFatalOnly = false) :
    parseFatalities query ⟨parsed, dateSpans query⟩ =
      .ok ⟨countsOf query parsed,
        spansBeforeFatal query ++ (fatalMatches query).map Span.of⟩ := by
  unfold parseFatalities
  rw [pass_moreThan, ok_bind, pass_fewerThan, ok_bind, pass_nonFatal, ok_bind,
    counts_before_fatal hmin hmax hnon, hfatal]
  by_cases hnonFatal : saysNonFatal query = true
  · have hnone : fatalMatches query = [] := if_pos hnonFatal
    rw [pass_fatal_none hnonFatal, hnone, List.map_nil, List.append_nil]
    unfold countsOf
    rw [hnone]
    rfl
  · rw [Bool.not_eq_true] at hnonFatal
    have hmatches : fatalMatches query = (finditer fatalOnlyRe query).filter fun m =>
        !(spansBeforeFatal query).any fun s => s.holds m := by
      unfold fatalMatches
      rw [hnonFatal]
      rfl
    rw [pass_free pairwise_finditer, pass_fatal_free hnonFatal ?_ (pairwise_finditer.filter _)]
    · unfold ParseState.taken countsOf
      dsimp only
      rw [← hmatches]
      rfl
    · intro m hm
      simpa using (List.mem_filter.mp hm).2

/-! ## The later passes -/

/-- The filters that are ranges. -/
def ParsedQuery.ranges (p : ParsedQuery) :
    Option PyDate × Option PyDate × Option Int × Option Int × Bool × Bool :=
  (p.eventDateFrom, p.eventDateTo, p.fatalitiesMin, p.fatalitiesMax, p.fatalOnly, p.nonFatalOnly)

theorem parseAliases_ranges (aliases : List (String × String)) (field : AliasField)
    (st : ParseState) : (parseAliases query aliases field st).parsed.ranges = st.parsed.ranges := by
  have hone : ∀ (st : ParseState) (entry : String × String),
      (parseAlias query field st entry).parsed.ranges = st.parsed.ranges := by
    intro st entry
    unfold parseAlias
    split
    · rfl
    · split
      · rfl
      · cases field <;> rfl
  unfold parseAliases
  refine List.foldlRecOn (byLength aliases) (parseAlias query field)
    (motive := fun st' => st'.parsed.ranges = st.parsed.ranges) rfl ?_
  intro st' hst' entry _
  rw [hone, hst']

theorem parseLabels_parsed (entries : List (String × String)) (st : ParseState) :
    (parseLabels query entries st).2.parsed = st.parsed := by
  have hstart : (([], st) : List String × ParseState).2.parsed = st.parsed := rfl
  unfold parseLabels
  refine List.foldlRecOn entries (parseLabel query)
    (motive := fun acc => acc.2.parsed = st.parsed) hstart ?_
  intro acc hacc entry _
  unfold parseLabel
  split
  · exact hacc
  · exact hacc

theorem parseHfacs_ranges (categories : List NamedHfacsCategory) (st : ParseState) :
    (parseHfacsCategories query categories st).parsed.ranges = st.parsed.ranges := by
  unfold parseHfacsCategories
  dsimp only
  split
  · rw [parseLabels_parsed]
  · rw [← parseLabels_parsed (categories.map fun c => (c.name, c.code)) st]
    rfl

theorem parseShelo_ranges (st : ParseState) :
    (parseShelo query st).parsed.ranges = st.parsed.ranges := by
  unfold parseShelo
  dsimp only
  split
  · rw [parseLabels_parsed]
  · rw [← parseLabels_parsed (sheloKeywords.flatMap fun entry =>
      entry.2.map fun kw => (kw, entry.1)) st]
    rfl

/-- The passes behind dates and counts. -/
def laterPasses (query : List Char) (categories : List NamedHfacsCategory) (st : ParseState) : ParseState :=
  parseShelo query (parseHfacsCategories query categories
    (parseAliases query operatorAliases .operator
      (parseAliases query aircraftAliases .aircraftType st)))

theorem laterPasses_ranges (categories : List NamedHfacsCategory) (st : ParseState) :
    (laterPasses query categories st).parsed.ranges = st.parsed.ranges := by
  unfold laterPasses
  rw [parseShelo_ranges, parseHfacs_ranges, parseAliases_ranges, parseAliases_ranges]

/-- Dates and counts of a query whose years are in the calendar. -/
def parsedRanges (query : List Char) : ParsedQuery :=
  countsOf query (narrowAll (datePhrases query) .empty)

/-- The state behind dates and counts. -/
def rangesRead (query : List Char) : ParseState :=
  ⟨parsedRanges query, spansBeforeFatal query ++ (fatalMatches query).map Span.of⟩

/-- **The passes on a query whose years are in the calendar.** -/
theorem parsePasses_of_valid (categories : List NamedHfacsCategory)
    (hvalid : ∀ p ∈ datePhrases query, p.Valid) :
    parsePasses query categories = .ok (laterPasses query categories (rangesRead query)) := by
  have hfatalities : parseFatalities query
      ⟨narrowAll (datePhrases query) .empty, dateSpans query⟩ = .ok (rangesRead query) := by
    rw [narrowAll_empty, parseFatalities_eq rfl rfl rfl rfl]
    unfold rangesRead parsedRanges
    rw [narrowAll_empty]
  unfold parsePasses
  rw [parseDates_of_valid hvalid, ok_bind, hfatalities]
  rfl

theorem valid_of_parsePasses {categories : List NamedHfacsCategory} {st : ParseState}
    (h : parsePasses query categories = .ok st) : ∀ p ∈ datePhrases query, p.Valid := by
  unfold parsePasses at h
  rw [bind_ok] at h
  obtain ⟨st₁, hdates, -⟩ := h
  exact valid_of_parseDates hdates

end Query

end Atlas
