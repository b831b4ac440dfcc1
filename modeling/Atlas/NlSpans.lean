import Atlas.NlSearch

/-!
# Which parts of a query are read twice

A pass takes a match that begins outside what was taken before.  It does not ask whether
something that was taken begins inside the match, so a part of the query may be read twice.  Two
kinds of match can hold what was taken before: a count of deaths whose number is the bare year of
the query, and the name of an HFACS category.  Every other pattern stands apart from the earlier
ones, or is a single word.
-/

namespace Atlas

open Outcome Regex

/-- No character belongs to both. -/
def Span.Disjoint (a b : Span) : Prop := a.stop ≤ b.start ∨ b.stop ≤ a.start

instance (a b : Span) : Decidable (a.Disjoint b) := inferInstanceAs (Decidable (_ ∨ _))

/-- The part begins inside the match. -/
def Span.BeginsInside (s : Span) (m : Match) : Prop := m.start < s.start ∧ s.start < m.stop

instance (s : Span) (m : Match) : Decidable (s.BeginsInside m) := inferInstanceAs (Decidable (_ ∧ _))

/-- A pattern between word boundaries that matches no empty text. -/
def guarded : Pattern → Bool
  | .seq .edge e => e.needsText
  | _ => false

theorem guarded_iff {r : Pattern} :
    guarded r = true ↔ ∃ e, r = .seq .edge e ∧ e.needsText = true := by
  constructor
  · intro h
    unfold guarded at h
    split at h
    · exact ⟨_, rfl, h⟩
    · cases h
  · intro h
    obtain ⟨e, rfl, he⟩ := h
    exact he

section Spans

variable [PyText] [PyRegex] {query : List Char} {spans : List Span} {ms : List Match} {m : Match}

/-- The parts are matches of guarded patterns. -/
def Guarded (query : List Char) (spans : List Span) : Prop :=
  ∀ s ∈ spans, ∃ r m, guarded r = true ∧ Regex.Match.Of m r query ∧ s = Span.of m

theorem SpansOf.guarded {rs : List Pattern} (h : SpansOf rs query spans)
    (hrs : rs.all guarded = true) : Guarded query spans := by
  intro s hs
  obtain ⟨r, hr, m, hm, rfl⟩ := h s hs
  exact ⟨r, m, List.all_eq_true.mp hrs r hr, hm, rfl⟩

theorem Guarded.append {a b : List Span} (ha : Guarded query a) (hb : Guarded query b) :
    Guarded query (a ++ b) := by
  intro s hs
  rcases List.mem_append.mp hs with hs | hs
  · exact ha s hs
  · exact hb s hs

theorem guarded_nonempty {r : Pattern} (hr : guarded r = true) (hm : m.Of r query) :
    m.start < m.stop := by
  obtain ⟨e, rfl, he⟩ := guarded_iff.mp hr
  refine hm.start_lt_stop ?_
  unfold Pattern.needsText
  rw [he, Bool.or_true]

theorem Guarded.nonempty (h : Guarded query spans) : ∀ s ∈ spans, s.start < s.stop := by
  intro s hs
  obtain ⟨r, m, hr, hm, rfl⟩ := h s hs
  exact guarded_nonempty hr hm

omit [PyText] [PyRegex] in
/-- A match that begins outside a part meets it only when the part begins inside the match. -/
theorem disjoint_iff {s : Span} (hs : s.start < s.stop) (hfree : s.holds m = false) :
    s.Disjoint (Span.of m) ↔ ¬ s.BeginsInside m := by
  unfold Span.holds at hfree
  rw [Bool.and_eq_false_iff, decide_eq_false_iff_not, decide_eq_false_iff_not] at hfree
  unfold Span.Disjoint Span.BeginsInside Span.of
  dsimp only
  omega

/-- **One block of matches more.**  Matches that begin outside what was taken keep the parts
disjoint exactly when nothing that was taken begins inside one of them. -/
theorem pairwise_block_iff (hspans : Guarded query spans)
    (hpair : ms.Pairwise fun m m' => m.stop ≤ m'.start)
    (hfree : ∀ m ∈ ms, (spans.any fun s => s.holds m) = false) :
    (spans ++ ms.map Span.of).Pairwise Span.Disjoint ↔ spans.Pairwise Span.Disjoint ∧
      ∀ m ∈ ms, ∀ s ∈ spans, ¬ s.BeginsInside m := by
  have hblock : (ms.map Span.of).Pairwise Span.Disjoint := by
    rw [List.pairwise_map]
    exact hpair.imp fun h => .inl h
  have hcross : ∀ m ∈ ms, ∀ s ∈ spans, s.Disjoint (Span.of m) ↔ ¬ s.BeginsInside m := by
    intro m hm s hs
    refine disjoint_iff (hspans.nonempty s hs) ?_
    exact Bool.eq_false_iff.mpr (List.any_eq_false.mp (hfree m hm) s hs)
  rw [List.pairwise_append]
  constructor
  · intro h
    obtain ⟨hleft, -, hboth⟩ := h
    refine ⟨hleft, ?_⟩
    intro m hm s hs
    exact (hcross m hm s hs).mp (hboth s hs _ (List.mem_map_of_mem hm))
  · intro h
    obtain ⟨hleft, hclear⟩ := h
    refine ⟨hleft, hblock, ?_⟩
    intro s hs t ht
    obtain ⟨m, hm, rfl⟩ := List.mem_map.mp ht
    exact (hcross m hm s hs).mpr (hclear m hm s hs)

/-- Nothing of patterns that stand apart begins inside a match. -/
theorem not_beginsInside {rs : List Pattern} {e : Pattern} (hspans : SpansOf rs query spans)
    (hrs : rs.all guarded = true) (hapart : (rs.all fun r => e.apart r) = true)
    (hm : m.Of e query) : ∀ s ∈ spans, ¬ s.BeginsInside m := by
  intro s hs hinside
  obtain ⟨r, hr, m₀, hm₀, rfl⟩ := hspans s hs
  obtain ⟨r', rfl, -⟩ := guarded_iff.mp (List.all_eq_true.mp hrs r hr)
  exact apart_sound (List.all_eq_true.mp hapart _ hr) hm hm₀ ⟨hinside.1.le, hinside.2⟩

/-- A block of matches of a pattern that stands apart keeps the parts as they are. -/
theorem pairwise_apart {rs : List Pattern} {e : Pattern} (hspans : SpansOf rs query spans)
    (hrs : rs.all guarded = true) (hapart : (rs.all fun r => e.apart r) = true)
    (hms : ∀ m ∈ ms, m.Of e query) (hpair : ms.Pairwise fun m m' => m.stop ≤ m'.start)
    (hfree : ∀ m ∈ ms, (spans.any fun s => s.holds m) = false) :
    (spans ++ ms.map Span.of).Pairwise Span.Disjoint ↔ spans.Pairwise Span.Disjoint := by
  rw [pairwise_block_iff (hspans.guarded hrs) hpair hfree]
  refine ⟨fun h => h.1, fun h => ⟨h, ?_⟩⟩
  intro m hm
  exact not_beginsInside hspans hrs hapart (hms m hm)

/-! ## Dates -/

omit [PyText] [PyRegex] in
theorem readings_sublist {α : Type} (f : Match → Option α) (ms : List Match) :
    ((readings f ms).map Prod.fst).Sublist ms := by
  induction ms with
  | nil => exact List.Sublist.slnil
  | cons m ms ih =>
      cases hf : f m with
      | none =>
          have hread : readings f (m :: ms) = readings f ms :=
            List.filterMap_cons_none (by rw [hf]; rfl)
          rw [hread]
          exact ih.cons m
      | some a =>
          have hread : readings f (m :: ms) = (m, a) :: readings f ms :=
            List.filterMap_cons_some (by rw [hf]; rfl)
          rw [hread]
          exact ih.cons_cons m

omit [PyText] [PyRegex] in
theorem spansIn_eq (xs : List (Match × DatePhrase)) : spansIn xs = (xs.map Prod.fst).map Span.of := by
  unfold spansIn
  rw [List.map_map]
  rfl

/-- Phrases of a pattern that stands apart, both ways, keep the parts disjoint. -/
theorem pairwise_readings {xs : List (Match × DatePhrase)} {f : Match → Option DatePhrase}
    {rs : List Pattern} {e : Pattern} (hspans : SpansOf rs query (spansIn xs))
    (hrs : rs.all guarded = true) (hfree : (rs.all fun r => r.apart (.seq .edge e)) = true)
    (hapart : (rs.all fun r => (Pattern.seq .edge e).apart r) = true)
    (h : (spansIn xs).Pairwise Span.Disjoint) :
    (spansIn (xs ++ readings f (finditer (.seq .edge e) query))).Pairwise Span.Disjoint := by
  have hms : ∀ m ∈ (readings f (finditer (.seq .edge e) query)).map Prod.fst,
      m.Of (.seq .edge e) query := by
    intro m hm
    exact of_mem_finditer ((readings_sublist _ _).subset hm)
  have hpair := pairwise_finditer.sublist (readings_sublist f (finditer (.seq .edge e) query))
  have hblock := pairwise_apart hspans hrs hapart hms hpair fun m hm =>
    holds_eq_false hspans hfree (hms m hm)
  unfold spansIn at hblock ⊢
  rw [List.map_map] at hblock
  rw [List.map_append]
  exact hblock.mpr h

/-- The patterns of the ranges. -/
def rangePatterns : List Pattern := [monthRangeRe] ++ [betweenRe] ++ [beforeRe] ++ [afterRe]

/-- The patterns of dates and counts before `fatal`. -/
def countPatterns : List Pattern := datePatterns ++ [moreThanRe] ++ [fewerThanRe] ++ [nonFatalRe]

omit [PyText] [PyRegex] in
/-- Nothing that a range reads begins inside a later range or a year, and of what is read before a
count only a year may begin inside it. -/
theorem apart_phrases : (([monthRangeRe].all fun r => betweenRe.apart r) = true ∧
      (([monthRangeRe] ++ [betweenRe]).all fun r => beforeRe.apart r) = true ∧
      (([monthRangeRe] ++ [betweenRe] ++ [beforeRe]).all fun r => afterRe.apart r) = true ∧
      (rangePatterns.all fun r => yearRe.apart r) = true) ∧
    (rangePatterns.all fun r => moreThanRe.apart r) = true ∧
    (rangePatterns.all fun r => fewerThanRe.apart r) = true ∧
    ([moreThanRe].all fun r => fewerThanRe.apart r) = true ∧
    ((datePatterns ++ [moreThanRe] ++ [fewerThanRe]).all fun r => nonFatalRe.apart r) = true ∧
    (countPatterns.all fun r => fatalOnlyRe.apart r) = true := by
  decide +kernel

theorem ranges_disjoint : (spansIn (rangeReadings query)).Pairwise Span.Disjoint := by
  have hnone : SpansOf [] query (spansIn []) := by simp [SpansOf, spansIn]
  have hmonths : (spansIn ([] ++ monthReadings query)).Pairwise Span.Disjoint :=
    pairwise_readings hnone rfl rfl rfl .nil
  have hbetweens : (spansIn (monthReadings query ++ betweenReadings query)).Pairwise Span.Disjoint :=
    pairwise_readings spansOf_months rfl ranges_apart.1 apart_phrases.1.1 hmonths
  have hbefores : (spansIn (monthReadings query ++ betweenReadings query ++
      beforeReadings query)).Pairwise Span.Disjoint :=
    pairwise_readings spansOf_betweens rfl ranges_apart.2.1 apart_phrases.1.2.1 hbetweens
  exact pairwise_readings spansOf_befores rfl ranges_apart.2.2 apart_phrases.1.2.2.1 hbefores

theorem bareYear_free (h : bareYear query = some m) :
    ((spansIn (rangeReadings query)).any fun s => s.holds m) = false := by
  unfold bareYear at h
  dsimp only at h
  split at h
  · cases h
  · have hfree := List.find?_some h
    unfold spansIn
    rw [List.any_map]
    simpa using hfree

theorem dateSpans_eq : dateSpans query =
    spansIn (rangeReadings query) ++ (bareYear query).toList.map Span.of := by
  unfold dateSpans dateReadings spansIn
  rw [List.map_append]
  cases bareYear query <;> rfl

/-- **What the date passes take is disjoint.** -/
theorem dates_disjoint : (dateSpans query).Pairwise Span.Disjoint := by
  rw [dateSpans_eq]
  refine (pairwise_apart spansOf_ranges rfl apart_phrases.1.2.2.2 ?_ ?_ ?_).mpr ranges_disjoint
  · intro m hm
    exact bareYear_of (Option.mem_toList.mp hm)
  · cases bareYear query with
    | none => exact .nil
    | some m => exact List.pairwise_singleton _ m
  · intro m hm
    exact bareYear_free (Option.mem_toList.mp hm)

/-! ## Counts -/

/-- The bare year of the query, if it counts, is not the number of a count of deaths. -/
def YearIsNoCount (query : List Char) : Prop :=
  ∀ y ∈ bareYear query, ∀ m ∈ finditer moreThanRe query ++ finditer fewerThanRe query,
    ¬ (Span.of y).BeginsInside m

theorem clear_dates_iff {e : Pattern} (hapart : (rangePatterns.all fun r => e.apart r) = true)
    (hm : m.Of e query) : (∀ s ∈ dateSpans query, ¬ s.BeginsInside m) ↔
      ∀ y ∈ bareYear query, ¬ (Span.of y).BeginsInside m := by
  have hranges := not_beginsInside spansOf_ranges rfl hapart hm
  rw [dateSpans_eq]
  constructor
  · intro h y hy
    exact h _ (List.mem_append_right _ (List.mem_map_of_mem (Option.mem_toList.mpr hy)))
  · intro h s hs
    rcases List.mem_append.mp hs with hs | hs
    · exact hranges s hs
    · obtain ⟨y, hy, rfl⟩ := List.mem_map.mp hs
      exact h y (Option.mem_toList.mp hy)

theorem more_disjoint_iff :
    (dateSpans query ++ (finditer moreThanRe query).map Span.of).Pairwise Span.Disjoint ↔
      ∀ m ∈ finditer moreThanRe query, ∀ y ∈ bareYear query, ¬ (Span.of y).BeginsInside m := by
  have hguarded : Guarded query (dateSpans query) := spansOf_dates.guarded rfl
  have hfree : ∀ m ∈ finditer moreThanRe query, ((dateSpans query).any fun s => s.holds m) = false :=
    fun m hm => holds_eq_false spansOf_dates counts_apart.1 (of_mem_finditer hm)
  rw [pairwise_block_iff hguarded pairwise_finditer hfree, and_iff_right dates_disjoint]
  refine forall₂_congr fun m hm => ?_
  exact clear_dates_iff apart_phrases.2.1 (of_mem_finditer hm)

theorem fewer_disjoint_iff :
    (dateSpans query ++ (finditer moreThanRe query).map Span.of ++
      (finditer fewerThanRe query).map Span.of).Pairwise Span.Disjoint ↔ YearIsNoCount query := by
  have hguarded : Guarded query (dateSpans query ++ (finditer moreThanRe query).map Span.of) :=
    spansOf_more.guarded rfl
  have hfree : ∀ m ∈ finditer fewerThanRe query,
      ((dateSpans query ++ (finditer moreThanRe query).map Span.of).any fun s => s.holds m) = false :=
    fun m hm => holds_eq_false spansOf_more counts_apart.2.1 (of_mem_finditer hm)
  rw [pairwise_block_iff hguarded pairwise_finditer hfree, more_disjoint_iff]
  have hclear : ∀ m ∈ finditer fewerThanRe query,
      (∀ s ∈ dateSpans query ++ (finditer moreThanRe query).map Span.of, ¬ s.BeginsInside m) ↔
        ∀ y ∈ bareYear query, ¬ (Span.of y).BeginsInside m := by
    intro m hm
    have hof : m.Of fewerThanRe query := of_mem_finditer hm
    rw [← clear_dates_iff apart_phrases.2.2.1 hof]
    refine ⟨fun h s hs => h s (List.mem_append_left _ hs), fun h s hs => ?_⟩
    rcases List.mem_append.mp hs with hs | hs
    · exact h s hs
    · exact not_beginsInside spansOf_matches rfl apart_phrases.2.2.2.1 hof s hs
  unfold YearIsNoCount
  constructor
  · intro h y hy m hm
    rcases List.mem_append.mp hm with hm | hm
    · exact h.1 m hm y hy
    · exact (hclear m hm).mp (h.2 m hm) y hy
  · intro h
    refine ⟨fun m hm y hy => h y hy m (List.mem_append_left _ hm), fun m hm => ?_⟩
    exact (hclear m hm).mpr fun y hy => h y hy m (List.mem_append_right _ hm)

theorem spansOf_beforeFatal : SpansOf countPatterns query (spansBeforeFatal query) :=
  spansOf_append_matches spansOf_fewer

theorem fatalMatches_sublist : (fatalMatches query).Sublist (finditer fatalOnlyRe query) := by
  unfold fatalMatches
  split
  · exact List.nil_sublist _
  · exact List.filter_sublist

theorem spansOf_rangesRead :
    SpansOf (countPatterns ++ [fatalOnlyRe]) query (rangesRead query).spans := by
  refine spansOf_beforeFatal.append ?_
  intro s hs
  obtain ⟨m, hm, rfl⟩ := List.mem_map.mp hs
  exact ⟨fatalOnlyRe, List.mem_singleton_self _, m,
    of_mem_finditer (fatalMatches_sublist.subset hm), rfl⟩

/-- **What the passes over dates and counts take** is disjoint exactly when the bare year is not
the number of a count. -/
theorem rangesRead_disjoint_iff :
    (rangesRead query).spans.Pairwise Span.Disjoint ↔ YearIsNoCount query := by
  have hnonFatal : (spansBeforeFatal query).Pairwise Span.Disjoint ↔ YearIsNoCount query := by
    rw [← fewer_disjoint_iff]
    exact pairwise_apart spansOf_fewer rfl apart_phrases.2.2.2.2.1
      (fun m hm => of_mem_finditer hm) pairwise_finditer fun m hm =>
        holds_eq_false spansOf_fewer counts_apart.2.2 (of_mem_finditer hm)
  rw [← hnonFatal]
  refine pairwise_apart spansOf_beforeFatal rfl apart_phrases.2.2.2.2.2
    (fun m hm => of_mem_finditer (fatalMatches_sublist.subset hm))
    (pairwise_finditer.sublist fatalMatches_sublist) ?_
  intro m hm
  unfold fatalMatches at hm
  split at hm
  · cases hm
  · simpa using (List.mem_filter.mp hm).2

/-! ## Aliases -/

theorem firstFree_some {st : ParseState} {r : Pattern}
    (h : st.firstFree (finditer r query) = some m) : m.Of r query ∧ st.taken m = false := by
  have hfree := List.find?_some h
  exact ⟨of_mem_finditer (List.mem_of_find?_eq_some h), by simpa using hfree⟩

omit [PyText] [PyRegex] in
theorem AliasField.get_set (field : AliasField) (p : ParsedQuery) (canonical : String) :
    field.get (field.set p canonical) = some canonical := by
  cases field <;> rfl

/-- A table of aliases takes one match at most. -/
theorem parseAliases_cases {field : AliasField} {aliases : List (String × String)} {st : ParseState}
    (hfield : field.get st.parsed = none) :
    (parseAliases query aliases field st).spans = st.spans ∨
      ∃ entry ∈ aliases, ∃ m : Match, m.Of (phraseRe entry.1) query ∧ st.taken m = false ∧
        (parseAliases query aliases field st).spans = st.spans ++ [Span.of m] := by
  have hfull : ∀ (entries : List (String × String)) (st : ParseState),
      (field.get st.parsed).isSome = true → entries.foldl (parseAlias query field) st = st := by
    intro entries
    induction entries with
    | nil => intro st _; rfl
    | cons entry entries ih =>
        intro st hst
        have hskip : parseAlias query field st entry = st := if_pos hst
        rw [List.foldl_cons, hskip]
        exact ih st hst
  have hall : ∀ entries : List (String × String), (∀ entry ∈ entries, entry ∈ aliases) →
      (entries.foldl (parseAlias query field) st).spans = st.spans ∨
        ∃ entry ∈ aliases, ∃ m : Match, m.Of (phraseRe entry.1) query ∧ st.taken m = false ∧
          (entries.foldl (parseAlias query field) st).spans = st.spans ++ [Span.of m] := by
    intro entries hentries
    induction entries with
    | nil => exact .inl rfl
    | cons entry entries ih =>
        rw [List.foldl_cons]
        cases hfirst : st.firstFree (finditer (phraseRe entry.1) query) with
        | none =>
            have hskip : parseAlias query field st entry = st := by
              unfold parseAlias
              rw [hfield, hfirst]
              rfl
            rw [hskip]
            exact ih fun e he => hentries e (List.mem_cons_of_mem _ he)
        | some m =>
            have htake : parseAlias query field st entry =
                st.consume (field.set st.parsed entry.2) m := by
              unfold parseAlias
              rw [hfield, hfirst]
              rfl
            obtain ⟨hm, hfree⟩ := firstFree_some hfirst
            refine .inr ⟨entry, hentries entry List.mem_cons_self, m, hm, hfree, ?_⟩
            rw [htake, hfull entries _ (by
              show (field.get (field.set st.parsed entry.2)).isSome = true
              rw [AliasField.get_set]
              rfl)]
            rfl
  exact hall (byLength aliases) fun entry hentry => (List.mem_insertionSort _).mp hentry

/-- The patterns of a table. -/
def aliasPatterns (aliases : List (String × String)) : List Pattern :=
  aliases.map fun entry => phraseRe entry.1

/-- A table whose phrases stand apart from what was taken keeps the parts as they are. -/
theorem parseAliases_disjoint_iff {field : AliasField} {aliases : List (String × String)}
    {st : ParseState} {rs : List Pattern} (hfield : field.get st.parsed = none)
    (hspans : SpansOf rs query st.spans) (hrs : rs.all guarded = true)
    (hapart : ((aliasPatterns aliases).all fun e => rs.all fun r => e.apart r) = true) :
    ((parseAliases query aliases field st).spans.Pairwise Span.Disjoint ↔
      st.spans.Pairwise Span.Disjoint) ∧
      SpansOf (rs ++ aliasPatterns aliases) query (parseAliases query aliases field st).spans := by
  have hcases : (parseAliases query aliases field st).spans = st.spans ∨
      ∃ entry ∈ aliases, ∃ m : Match, m.Of (phraseRe entry.1) query ∧ st.taken m = false ∧
        (parseAliases query aliases field st).spans = st.spans ++ [Span.of m] :=
    parseAliases_cases hfield
  rcases hcases with hsame | hmore
  · rw [hsame]
    refine ⟨Iff.rfl, ?_⟩
    intro s hs
    obtain ⟨r, hr, hm⟩ := hspans s hs
    exact ⟨r, List.mem_append_left _ hr, hm⟩
  · obtain ⟨entry, hentry, m, hm, hfree, hspans'⟩ := hmore
    have hpattern : phraseRe entry.1 ∈ aliasPatterns aliases := List.mem_map_of_mem hentry
    rw [hspans']
    refine ⟨?_, ?_⟩
    · have hsingle : ∀ m' ∈ [m], m' = m := fun m' hm' => List.mem_singleton.mp hm'
      exact pairwise_apart hspans hrs (List.all_eq_true.mp hapart _ hpattern)
        (fun m' hm' => hsingle m' hm' ▸ hm) (List.pairwise_singleton _ m)
        fun m' hm' => hsingle m' hm' ▸ hfree
    · refine hspans.append ?_
      intro s hs
      rw [List.mem_singleton] at hs
      exact ⟨_, hpattern, m, hm, hs⟩

/-! ## Labels -/

/-- Nothing that was taken begins inside the name that is taken next, name after name. -/
def NamesClear (query : List Char) : List (String × String) → List String × ParseState → Prop
  | [], _ => True
  | entry :: entries, acc =>
      (∀ m ∈ acc.2.firstFree (finditer (phraseRe entry.1) query),
        ∀ s ∈ acc.2.spans, ¬ s.BeginsInside m) ∧
      NamesClear query entries (parseLabel query acc entry)

omit [PyText] [PyRegex] in
theorem guarded_phraseRe {phrase : String} (h : phrase ≠ "") : guarded (phraseRe phrase) = true := by
  show ((!phrase.toList.isEmpty) || _) = true
  have hne : phrase.toList ≠ [] := by simpa using h
  cases hlist : phrase.toList with
  | nil => exact absurd hlist hne
  | cons c cs => rfl

theorem namesClear_cons {entry : String × String} {entries : List (String × String)}
    {acc : List String × ParseState} : NamesClear query (entry :: entries) acc ↔
      (∀ m ∈ acc.2.firstFree (finditer (phraseRe entry.1) query),
        ∀ s ∈ acc.2.spans, ¬ s.BeginsInside m) ∧
      NamesClear query entries (parseLabel query acc entry) := Iff.rfl

/-- **Labels** keep the parts disjoint exactly when nothing begins inside the names. -/
theorem parseLabels_disjoint_iff {entries : List (String × String)}
    (hnames : ∀ entry ∈ entries, entry.1 ≠ "") {acc : List String × ParseState}
    (hspans : Guarded query acc.2.spans) :
    ((entries.foldl (parseLabel query) acc).2.spans.Pairwise Span.Disjoint ↔
      acc.2.spans.Pairwise Span.Disjoint ∧ NamesClear query entries acc) ∧
      Guarded query (entries.foldl (parseLabel query) acc).2.spans := by
  induction entries generalizing acc with
  | nil => exact ⟨by simp [NamesClear], hspans⟩
  | cons entry entries ih =>
      have hrest := fun e he => hnames e (List.mem_cons_of_mem entry he)
      rw [List.foldl_cons]
      cases hfirst : acc.2.firstFree (finditer (phraseRe entry.1) query) with
      | none =>
          have hskip : parseLabel query acc entry = acc := by
            unfold parseLabel
            rw [hfirst]
          obtain ⟨hiff, hguarded⟩ := ih hrest hspans
          rw [namesClear_cons, hskip, hfirst]
          refine ⟨hiff.trans ?_, hguarded⟩
          simp
      | some m =>
          obtain ⟨hm, hfree⟩ := firstFree_some hfirst
          have htake : (parseLabel query acc entry).2.spans = acc.2.spans ++ [m].map Span.of := by
            unfold parseLabel
            rw [hfirst]
            rfl
          have hguarded : Guarded query (parseLabel query acc entry).2.spans := by
            rw [htake]
            refine hspans.append ?_
            intro s hs
            rw [List.map_singleton, List.mem_singleton] at hs
            exact ⟨_, m, guarded_phraseRe (hnames entry List.mem_cons_self), hm, hs⟩
          have hsingle : ∀ m' ∈ [m], m' = m := fun m' hm' => List.mem_singleton.mp hm'
          have hblock := pairwise_block_iff hspans (List.pairwise_singleton _ m)
            fun m' hm' => hsingle m' hm' ▸ hfree
          obtain ⟨hiff, hguarded'⟩ := ih hrest hguarded
          refine ⟨hiff.trans ?_, hguarded'⟩
          rw [namesClear_cons, htake, hblock, hfirst]
          simp [and_assoc]

/-- A word of ASCII letters and digits holds nothing. -/
theorem namesClear_of_solid {entries : List (String × String)}
    (hsolid : ∀ entry ∈ entries, entry.1 ≠ "" ∧ entry.1.toList.all solid = true)
    {acc : List String × ParseState} (hspans : Guarded query acc.2.spans) :
    NamesClear query entries acc := by
  induction entries generalizing acc with
  | nil => trivial
  | cons entry entries ih =>
      have hrest := fun e he => hsolid e (List.mem_cons_of_mem entry he)
      obtain ⟨hname, hchars⟩ := hsolid entry List.mem_cons_self
      refine ⟨?_, ih hrest ?_⟩
      · intro m hm s hs hinside
        obtain ⟨r, m₀, hr, hm₀, rfl⟩ := hspans s hs
        obtain ⟨e, rfl, -⟩ := guarded_iff.mp hr
        exact no_edge_inside hchars (firstFree_some hm).1 hm₀ hinside
      · have hone : ∀ e ∈ [entry], e.1 ≠ "" := fun e he => List.mem_singleton.mp he ▸ hname
        exact (parseLabels_disjoint_iff hone hspans).2

/-! ## The whole query -/

/-- The state before the names of the categories are read. -/
def aliasesRead (query : List Char) : ParseState :=
  parseAliases query operatorAliases .operator
    (parseAliases query aircraftAliases .aircraftType (rangesRead query))

/-- A table leaves the other filter alone. -/
theorem parseAliases_get {field other : AliasField} (hother : other ≠ field)
    (aliases : List (String × String)) (st : ParseState) :
    other.get (parseAliases query aliases field st).parsed = other.get st.parsed := by
  have hone : ∀ (st : ParseState) (entry : String × String),
      other.get (parseAlias query field st entry).parsed = other.get st.parsed := by
    intro st entry
    unfold parseAlias
    split
    · rfl
    · split
      · rfl
      · cases field <;> cases other <;> first | exact absurd rfl hother | rfl
  unfold parseAliases
  refine List.foldlRecOn (byLength aliases) (parseAlias query field)
    (motive := fun st' => other.get st'.parsed = other.get st.parsed) rfl ?_
  intro st' hst' entry _
  rw [hone, hst']

theorem rangesRead_get (field : AliasField) : field.get (rangesRead query).parsed = none := by
  unfold rangesRead parsedRanges
  rw [narrowAll_empty]
  cases field <;> rfl

omit [PyText] [PyRegex] in
/-- Nothing that is read before an alias begins inside it. -/
theorem apart_aliases : (countPatterns ++ [fatalOnlyRe] ++ aliasPatterns aircraftAliases ++
      aliasPatterns operatorAliases).all guarded = true ∧
    ((aliasPatterns aircraftAliases).all fun e =>
      (countPatterns ++ [fatalOnlyRe]).all fun r => e.apart r) = true ∧
    ((aliasPatterns operatorAliases).all fun e =>
      (countPatterns ++ [fatalOnlyRe] ++ aliasPatterns aircraftAliases).all fun r =>
        e.apart r) = true := by
  decide +kernel

theorem aliasesRead_disjoint_iff :
    ((aliasesRead query).spans.Pairwise Span.Disjoint ↔ YearIsNoCount query) ∧
      Guarded query (aliasesRead query).spans := by
  have haircraft : ((parseAliases query aircraftAliases .aircraftType (rangesRead query)).spans.Pairwise
        Span.Disjoint ↔ (rangesRead query).spans.Pairwise Span.Disjoint) ∧
      SpansOf (countPatterns ++ [fatalOnlyRe] ++ aliasPatterns aircraftAliases) query
        (parseAliases query aircraftAliases .aircraftType (rangesRead query)).spans :=
    parseAliases_disjoint_iff (rangesRead_get .aircraftType) spansOf_rangesRead rfl apart_aliases.2.1
  have hguarded : (countPatterns ++ [fatalOnlyRe] ++ aliasPatterns aircraftAliases).all guarded =
      true := by
    have hall := apart_aliases.1
    rw [List.all_append, Bool.and_eq_true] at hall
    exact hall.1
  have hunset : AliasField.operator.get
      (parseAliases query aircraftAliases .aircraftType (rangesRead query)).parsed = none := by
    rw [parseAliases_get (by decide), rangesRead_get]
  have hoperator : ((aliasesRead query).spans.Pairwise Span.Disjoint ↔
      (parseAliases query aircraftAliases .aircraftType (rangesRead query)).spans.Pairwise
        Span.Disjoint) ∧
      SpansOf (countPatterns ++ [fatalOnlyRe] ++ aliasPatterns aircraftAliases ++
        aliasPatterns operatorAliases) query (aliasesRead query).spans :=
    parseAliases_disjoint_iff hunset haircraft.2 hguarded apart_aliases.2.2
  refine ⟨?_, hoperator.2.guarded apart_aliases.1⟩
  rw [hoperator.1, haircraft.1, rangesRead_disjoint_iff]

theorem parseHfacs_spans (categories : List NamedHfacsCategory) (st : ParseState) :
    (parseHfacsCategories query categories st).spans =
      (parseLabels query (categories.map fun c => (c.name, c.code)) st).2.spans := by
  unfold parseHfacsCategories
  dsimp only
  split <;> rfl

/-- The keywords of `_SHELO_KEYWORDS`, each with its class. -/
def sheloEntries : List (String × String) :=
  sheloKeywords.flatMap fun (cls, keywords) => keywords.map fun kw => (kw, cls)

theorem parseShelo_spans (st : ParseState) :
    (parseShelo query st).spans = (parseLabels query sheloEntries st).2.spans := by
  unfold parseShelo sheloEntries
  dsimp only
  split <;> rfl

/-- The keywords are single words, so what they take stays disjoint. -/
theorem parseShelo_disjoint_iff {st : ParseState} (hspans : Guarded query st.spans) :
    (parseShelo query st).spans.Pairwise Span.Disjoint ↔ st.spans.Pairwise Span.Disjoint := by
  have hsolid : ∀ entry ∈ sheloEntries, entry.1 ≠ "" ∧ entry.1.toList.all solid = true := by
    decide +kernel
  have hacc : Guarded query (([], st) : List String × ParseState).2.spans := hspans
  have hlabels := (parseLabels_disjoint_iff (fun e he => (hsolid e he).1) hacc).1
  rw [parseShelo_spans]
  exact hlabels.trans (and_iff_left (namesClear_of_solid hsolid hacc))

theorem parseHfacs_disjoint_iff (categories : List NamedHfacsCategory) {st : ParseState}
    (hspans : Guarded query st.spans) :
    ((parseHfacsCategories query categories st).spans.Pairwise Span.Disjoint ↔
      st.spans.Pairwise Span.Disjoint ∧
        NamesClear query (categories.map fun c => (c.name, c.code)) ([], st)) ∧
      Guarded query (parseHfacsCategories query categories st).spans := by
  have hnames : ∀ entry ∈ categories.map fun c => (c.name, c.code), entry.1 ≠ "" := by
    intro entry hentry
    obtain ⟨c, -, rfl⟩ := List.mem_map.mp hentry
    exact c.named
  have hacc : Guarded query (([], st) : List String × ParseState).2.spans := hspans
  rw [parseHfacs_spans]
  exact parseLabels_disjoint_iff hnames hacc

/-- What all passes take is disjoint exactly when neither of the two kinds of match holds what was
taken before it. -/
theorem laterPasses_disjoint_iff (categories : List NamedHfacsCategory) :
    (laterPasses query categories (rangesRead query)).spans.Pairwise Span.Disjoint ↔
      YearIsNoCount query ∧
        NamesClear query (categories.map fun c => (c.name, c.code)) ([], aliasesRead query) := by
  obtain ⟨haliases, hguarded⟩ := @aliasesRead_disjoint_iff _ _ query
  obtain ⟨hnames, hguarded'⟩ := parseHfacs_disjoint_iff categories hguarded
  have hshelo := parseShelo_disjoint_iff hguarded'
  rw [← haliases]
  exact hshelo.trans hnames

/-- **When no part of a query is read twice.**  The parts that the passes took are disjoint
exactly when the bare year of the query is not the number of a count of deaths, and nothing that
was taken begins inside the name of an HFACS category that is taken after it; a query with a year
outside the calendar is not read at all. -/
theorem spans_disjoint_iff (query : String) (categories : List NamedHfacsCategory) :
    (∀ st, parsePasses query.toList categories = .ok st → st.spans.Pairwise Span.Disjoint) ↔
      ((∀ p ∈ datePhrases query.toList, p.Valid) → YearIsNoCount query.toList ∧
        NamesClear query.toList (categories.map fun c => (c.name, c.code))
          ([], aliasesRead query.toList)) := by
  constructor
  · intro h hvalid
    have hpasses := h _ (parsePasses_of_valid categories hvalid)
    exact (laterPasses_disjoint_iff categories).mp hpasses
  · intro h st hst
    have hvalid := valid_of_parsePasses hst
    rw [parsePasses_of_valid categories hvalid] at hst
    cases hst
    exact (laterPasses_disjoint_iff categories).mpr (h hvalid)

end Spans

/-- Two categories of which one names the other. -/
def nestedCategories : List NamedHfacsCategory :=
  [⟨1, "ORM", "Resource Management", by decide +kernel⟩,
    ⟨2, "CRM", "Crew Resource Management", by decide +kernel⟩]

/-- Two queries of which a part is read twice: the number of a count is also the bare year, and the
name of a category holds the name of one before it. -/
theorem count_read_as_year :
    (∃ st, parsePasses "over 2020 deaths".toList [] = .ok st ∧
      ¬ st.spans.Pairwise Span.Disjoint) ∧
    (∃ st, parsePasses "crew resource management".toList nestedCategories = .ok st ∧
      ¬ st.spans.Pairwise Span.Disjoint) := by
  refine ⟨?_, ?_⟩
  · obtain ⟨st, hst, hspans⟩ : ∃ st, parsePasses "over 2020 deaths".toList [] = .ok st ∧
        st.spans = [⟨5, 9⟩, ⟨0, 16⟩] := exists_ok_of_any (by decide +kernel)
    exact ⟨st, hst, by rw [hspans]; decide⟩
  · obtain ⟨st, hst, hspans⟩ : ∃ st,
        parsePasses "crew resource management".toList nestedCategories = .ok st ∧
          st.spans = [⟨5, 24⟩, ⟨0, 24⟩] := exists_ok_of_any (by decide +kernel)
    exact ⟨st, hst, by rw [hspans]; decide⟩

end Atlas
