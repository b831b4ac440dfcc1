import Atlas.NlCounts

/-!
# Which date phrases a query keeps

The range of a query honours all its date phrases exactly when each overwriting narrows it.
-/

namespace Atlas

open Outcome Regex

/-- The date lies in the range. -/
def InRange (lo hi : Option PyDate) (d : PyDate) : Prop := (∀ x ∈ lo, x ≤ d) ∧ ∀ y ∈ hi, d ≤ y

/-- The range is one, and every date in it is one that each of the phrases speaks of. -/
def HonoursDates (ps : List DatePhrase) (lo hi : Option PyDate) : Prop :=
  (∀ x ∈ lo, ∀ y ∈ hi, x ≤ y) ∧ ∀ d, InRange lo hi d → ∀ p ∈ ps, p.Admits d

/-- The phrases come in a fitting order: of the starts the last is the latest, the last end is no
later than the last day of any phrase, and the last start is not behind the last end. -/
structure FittingOrder (ps : List DatePhrase) : Prop where
  starts : ∀ p ∈ ps, ∀ x ∈ p.lower, ∀ lo ∈ lastOf DatePhrase.lower ps, x ≤ lo
  ends : ∀ p ∈ ps, ∀ y ∈ p.last, ∀ hi ∈ lastOf DatePhrase.upper ps, hi ≤ y
  ordered : ∀ lo ∈ lastOf DatePhrase.lower ps, ∀ hi ∈ lastOf DatePhrase.upper ps, lo ≤ hi

theorem DatePhrase.upper_isSome_of_last {p : DatePhrase} (hform : p.WellFormed) (hvalid : p.Valid)
    {y : PyDate} (h : y ∈ p.last) : p.upper.isSome = true := by
  have hupper := p.upper_isSome hform hvalid
  cases p with
  | monthRange first last year => exact hupper
  | between a b => exact hupper
  | before year => exact hupper
  | year year => exact hupper
  | after year => cases h

theorem exists_lastOf {f : DatePhrase → Option PyDate} {ps : List DatePhrase} {p : DatePhrase}
    (hp : p ∈ ps) (h : (f p).isSome = true) : ∃ d, lastOf f ps = some d := by
  refine Option.isSome_iff_exists.mp ?_
  rw [lastOf_isSome]
  exact List.any_eq_true.mpr ⟨p, hp, h⟩

/-- **The last ends honour the phrases exactly when the phrases come in a fitting order.** -/
theorem honoursDates_iff {ps : List DatePhrase} (hform : ∀ p ∈ ps, p.WellFormed)
    (hvalid : ∀ p ∈ ps, p.Valid) :
    HonoursDates ps (lastOf DatePhrase.lower ps) (lastOf DatePhrase.upper ps) ↔ FittingOrder ps := by
  constructor
  · intro h
    obtain ⟨hordered, hadmits⟩ := h
    refine ⟨?_, ?_, hordered⟩
    · intro p hp x hx lo hlo
      have hin : InRange (lastOf DatePhrase.lower ps) (lastOf DatePhrase.upper ps) lo := by
        refine ⟨?_, fun y hy => hordered lo hlo y hy⟩
        intro z hz
        exact le_of_eq (Option.mem_unique hz hlo)
      exact ((p.admits_iff (hform p hp) (hvalid p hp)).mp (hadmits lo hin p hp)).1 x hx
    · intro p hp y hy hi hhi
      have hin : InRange (lastOf DatePhrase.lower ps) (lastOf DatePhrase.upper ps) hi := by
        refine ⟨fun x hx => hordered x hx hi hhi, ?_⟩
        intro z hz
        exact le_of_eq (Option.mem_unique hhi hz)
      exact ((p.admits_iff (hform p hp) (hvalid p hp)).mp (hadmits hi hin p hp)).2 y hy
  · intro h
    refine ⟨h.ordered, ?_⟩
    intro d hd p hp
    refine (p.admits_iff (hform p hp) (hvalid p hp)).mpr ⟨?_, ?_⟩
    · intro x hx
      obtain ⟨lo, hlo⟩ := exists_lastOf (f := DatePhrase.lower) hp (Option.isSome_of_mem hx)
      exact le_trans (h.starts p hp x hx lo hlo) (hd.1 lo hlo)
    · intro y hy
      obtain ⟨hi, hhi⟩ := exists_lastOf (f := DatePhrase.upper) hp
        (p.upper_isSome_of_last (hform p hp) (hvalid p hp) hy)
      exact le_trans (hd.2 hi hhi) (h.ends p hp y hy hi hhi)

section Query

variable [PyText] [PyRegex]

theorem parsedRanges_dates (query : List Char) :
    (parsedRanges query).eventDateFrom = lastOf DatePhrase.lower (datePhrases query) ∧
      (parsedRanges query).eventDateTo = lastOf DatePhrase.upper (datePhrases query) := by
  unfold parsedRanges countsOf
  rw [narrowAll_empty]
  exact ⟨rfl, rfl⟩

/-- The ranges that a parse returns. -/
theorem parseNlQuery_ranges {query : String} {categories : List NamedHfacsCategory} {parsed : ParsedQuery}
    (h : parseNlQuery query categories = .ok parsed) :
    parsed.ranges = (parsedRanges query.toList).ranges := by
  unfold parseNlQuery at h
  simp only [bind_ok, pure_ok] at h
  obtain ⟨st, hst, rfl⟩ := h
  rw [parsePasses_of_valid categories (valid_of_parsePasses hst)] at hst
  have hst' := Except.ok.inj hst
  subst hst'
  exact laterPasses_ranges categories (rangesRead query.toList)

/-- The range of a query whose years are in the calendar. -/
theorem parseNlQuery_range {query : String} {categories : List NamedHfacsCategory} {parsed : ParsedQuery}
    (h : parseNlQuery query categories = .ok parsed) :
    parsed.eventDateFrom = lastOf DatePhrase.lower (datePhrases query.toList) ∧
      parsed.eventDateTo = lastOf DatePhrase.upper (datePhrases query.toList) := by
  have hranges := parseNlQuery_ranges h
  simp only [ParsedQuery.ranges, Prod.mk.injEq] at hranges
  obtain ⟨hfrom, hto⟩ := parsedRanges_dates query.toList
  exact ⟨hranges.1.trans hfrom, hranges.2.1.trans hto⟩

/-- **When the dates of a query are honoured.**  What the date passes take are the date phrases of
the query, and the range that `parse_nl_query` returns honours all of them exactly when their
years are in the calendar and they come in a fitting order. -/
theorem date_phrases_honoured_iff (query : String) (categories : List NamedHfacsCategory) :
    (∀ st, parseDates query.toList .start = .ok st →
      st.spans = (dateReadings query.toList).map fun r => Span.of r.1) ∧
    ((∃ parsed, parseNlQuery query categories = .ok parsed ∧
      HonoursDates (datePhrases query.toList) parsed.eventDateFrom parsed.eventDateTo) ↔
      (∀ p ∈ datePhrases query.toList, p.Valid) ∧ FittingOrder (datePhrases query.toList)) := by
  refine ⟨?_, ?_, ?_⟩
  · intro st hst
    rw [parseDates_of_valid (valid_of_parseDates hst)] at hst
    cases hst
    rfl
  · intro h
    obtain ⟨parsed, hparse, hhonours⟩ := h
    obtain ⟨hfrom, hto⟩ := parseNlQuery_range hparse
    have hvalid : ∀ p ∈ datePhrases query.toList, p.Valid := by
      unfold parseNlQuery at hparse
      simp only [bind_ok] at hparse
      obtain ⟨st, hst, -⟩ := hparse
      exact valid_of_parsePasses hst
    rw [hfrom, hto] at hhonours
    exact ⟨hvalid, (honoursDates_iff wellFormed_phrases hvalid).mp hhonours⟩
  · intro h
    obtain ⟨hvalid, horder⟩ := h
    have hparse : ∃ parsed, parseNlQuery query categories = .ok parsed := by
      unfold parseNlQuery
      rw [parsePasses_of_valid categories hvalid]
      exact ⟨_, rfl⟩
    obtain ⟨parsed, hparse⟩ := hparse
    obtain ⟨hfrom, hto⟩ := parseNlQuery_range hparse
    refine ⟨parsed, hparse, ?_⟩
    rw [hfrom, hto]
    exact (honoursDates_iff wellFormed_phrases hvalid).mpr horder

end Query

/-- A later phrase overwrites an earlier one: the range of the first query ends before it starts,
and that of the second is the year 2005, which is not after 2010. -/
theorem later_phrase_overwrites_earlier :
    (∃ parsed, parseNlQuery "before 2010 after 2015" [] = .ok parsed ∧
      ¬ HonoursDates (datePhrases "before 2010 after 2015".toList) parsed.eventDateFrom
        parsed.eventDateTo) ∧
    (∃ parsed, parseNlQuery "after 2010 in 2005" [] = .ok parsed ∧
      ¬ HonoursDates (datePhrases "after 2010 in 2005".toList) parsed.eventDateFrom
        parsed.eventDateTo) := by
  refine ⟨?_, ?_⟩
  · obtain ⟨parsed, hparse, hfrom, hto⟩ : ∃ parsed,
        parseNlQuery "before 2010 after 2015" [] = .ok parsed ∧
        (parsed.eventDateFrom = some ⟨2016, 1, 1, by decide⟩ ∧
          parsed.eventDateTo = some ⟨2009, 12, 31, by decide⟩) :=
      exists_ok_of_any (by decide +kernel)
    refine ⟨parsed, hparse, ?_⟩
    intro h
    exact absurd (h.1 _ hfrom _ hto) (by decide)
  · obtain ⟨parsed, hparse, hfrom, hto⟩ : ∃ parsed,
        parseNlQuery "after 2010 in 2005" [] = .ok parsed ∧
        (parsed.eventDateFrom = some ⟨2005, 1, 1, by decide⟩ ∧
          parsed.eventDateTo = some ⟨2005, 12, 31, by decide⟩) :=
      exists_ok_of_any (by decide +kernel)
    have hphrases : DatePhrase.after 2010 ∈ datePhrases "after 2010 in 2005".toList := by
      decide +kernel
    refine ⟨parsed, hparse, ?_⟩
    intro h
    have hin : InRange parsed.eventDateFrom parsed.eventDateTo ⟨2005, 1, 1, by decide⟩ := by
      rw [hfrom, hto]
      refine ⟨?_, ?_⟩
      · intro x hx
        cases hx
        decide
      · intro y hy
        cases hy
        decide
    have hadmits : 2010 < 2005 := h.2 _ hin _ hphrases
    exact absurd hadmits (by decide)

end Atlas
