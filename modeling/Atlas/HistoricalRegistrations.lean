import Atlas.Decimals
import Atlas.MatchDecisions

/-!
# Historical registrations

A registration that an event had before counts half.  The docstring adds a date to that and gets
0.525, which a curator reviews; with the three textual fields the score reaches 0.775, and the
submission is attached.

Scores are exact decimals here: the matcher is written once over the rounding of its arithmetic,
which is `double` for the code and nothing for its decimals.
-/

namespace Atlas

/-! ## The matcher over any arithmetic -/

section Arithmetic

variable (fl : ℚ → ℚ)

/-- `_token_overlap`. -/
def tokenOverlapWith (a b : Text) : ℚ :=
  let ta := Rows.distinct (splitWords [] a)
  let tb := Rows.distinct (splitWords [] b)
  if ta = [] ∨ tb = [] then 0
  else fl ((ta.filter (· ∈ tb)).length / (ta ++ tb.filter (· ∉ ta)).length)

/-- `total += weight * score`, over the fields. -/
def weightedSumWith (scores : List (String × ℚ × ℚ)) : ℚ :=
  scores.foldl (fun total f => fl (total + fl (f.2.1 * f.2.2))) 0

/-- `round(x, 4)`. -/
def round4With (x : ℚ) : ℚ := fl (roundHalfEven (x * 10000) / 10000)

variable [PyText] [PyRepr]

/-- `_field_score` of a textual field. -/
def textScoreWith (incoming : Json) (candidate : Option Text) : ℚ :=
  match candidate with
  | none => 0
  | some c => tokenOverlapWith fl (norm incoming) (normText (String.ofList c))

/-- The scores of the weighted fields, in the order of `_WEIGHTS`. -/
def fieldScoresWith (incoming : ClaimFields) (c : CandidateFields) : List (String × ℚ × ℚ) :=
  [("registration", fl (45 / 100), registrationScore (incoming "registration") c.registration),
    ("event_date", fl (30 / 100), eventDateScore (incoming "event_date") c.eventDate),
    ("operator", fl (10 / 100), textScoreWith fl (incoming "operator") c.operator),
    ("location", fl (8 / 100), textScoreWith fl (incoming "location") c.location),
    ("aircraft_type", fl (7 / 100), textScoreWith fl (incoming "aircraft_type") c.aircraftType)]

/-- `score_match`. -/
def scoreMatchWith (incoming : ClaimFields) (c : CandidateFields) : MatchResult :=
  let scores := fieldScoresWith fl incoming c
  let total := weightedSumWith fl scores
  let matched := (scores.filter fun f => 0 < f.2.2).map Prod.fst
  if "registration" ∉ matched ∧ matchesAlias (incoming "registration") c.registrationNorms then
    ⟨round4With fl (round4With fl (fl (total + fl (1 / 2 * fl (45 / 100))))),
      matched ++ ["registration_alias"], none, false, []⟩
  else ⟨round4With fl total, matched, none, false, []⟩

/-- One turn of the loop of `best_match`. -/
def considerCandidateWith (incoming : ClaimFields) (acc : MatchResult × List Uuid)
    (candidate : EventIdentityIndex) : MatchResult × List Uuid :=
  let result := scoreMatchWith fl incoming candidate.fields
  if acc.1.score < result.score then
    ({ result with candidateEventId := some candidate.eventId }, [candidate.eventId])
  else if result.score = acc.1.score ∧ 0 < result.score then
    (acc.1, (if acc.2 = [] then acc.1.candidateEventId.toList else acc.2) ++ [candidate.eventId])
  else acc

/-- `EventMatcher.best_match`. -/
def EventMatcher.bestMatchWith (m : EventMatcher) (incoming : ClaimFields)
    (candidates : List EventIdentityIndex) : MatchResult :=
  let (best, tied) :=
    candidates.foldl (considerCandidateWith fl incoming) (⟨0, [], none, false, []⟩, [])
  if 1 < tied.length ∧ m.uncertain ≤ best.score then
    { best with ambiguousTie := true, tiedCandidateEventIds := Rows.distinct tied }
  else best

/-- `EventMatcher.decide`. -/
def EventMatcher.decideWith (m : EventMatcher) (incoming : ClaimFields)
    (candidates : List EventIdentityIndex) : Db.MatchDecision :=
  let best := m.bestMatchWith fl incoming candidates
  if m.high ≤ best.score ∧ best.ambiguousTie = false then
    match best.candidateEventId with
    | some candidate => .attach candidate
    | none => .new
  else if m.uncertain ≤ best.score then
    .review (if best.tiedCandidateEventIds = [] then best.candidateEventId.toList
      else best.tiedCandidateEventIds)
  else .new

end Arithmetic

section Code

variable [PyText] [PyRepr]

/-- In doubles this is the matcher. -/
theorem EventMatcher.decideWith_double (m : EventMatcher) (incoming : ClaimFields)
    (candidates : List EventIdentityIndex) :
    m.decideWith double incoming candidates = m.decide incoming candidates := rfl

/-- The matcher with its default thresholds, in exact decimals. -/
def decideExactly (incoming : ClaimFields) (candidates : List EventIdentityIndex) : Db.MatchDecision :=
  EventMatcher.decideWith id ⟨75 / 100, 40 / 100⟩ incoming candidates

end Code

/-! ## One candidate -/

section Single

variable (fl : ℚ → ℚ) [PyText] [PyRepr]

theorem ambiguousTie_scoreMatchWith (incoming : ClaimFields) (c : CandidateFields) :
    (scoreMatchWith fl incoming c).ambiguousTie = false := by
  unfold scoreMatchWith
  dsimp only
  split <;> rfl

/-- A single candidate is attached exactly when its score reaches the upper threshold. -/
theorem EventMatcher.attaches_single_iff {m : EventMatcher} (hhigh : 0 < m.high)
    (incoming : ClaimFields) (row : EventIdentityIndex) :
    (∃ e, m.decideWith fl incoming [row] = .attach e) ↔
      m.high ≤ (scoreMatchWith fl incoming row.fields).score := by
  have hbest : m.bestMatchWith fl incoming [row] =
      if 0 < (scoreMatchWith fl incoming row.fields).score then
        { scoreMatchWith fl incoming row.fields with candidateEventId := some row.eventId }
      else ⟨0, [], none, false, []⟩ := by
    unfold EventMatcher.bestMatchWith
    rw [List.foldl_cons, List.foldl_nil]
    unfold considerCandidateWith
    dsimp only
    split
    · simp
    · rename_i hpos
      simp [hpos]
  unfold EventMatcher.decideWith
  dsimp only
  rw [hbest]
  by_cases hpos : 0 < (scoreMatchWith fl incoming row.fields).score
  · rw [if_pos hpos]
    dsimp only
    rw [ambiguousTie_scoreMatchWith]
    by_cases hreach : m.high ≤ (scoreMatchWith fl incoming row.fields).score
    · rw [if_pos ⟨hreach, rfl⟩]
      exact iff_of_true ⟨_, rfl⟩ hreach
    · rw [if_neg fun h => hreach h.1]
      refine iff_of_false ?_ hreach
      split <;> simp
  · rw [if_neg hpos]
    dsimp only
    have hlow : ¬ m.high ≤ (scoreMatchWith fl incoming row.fields).score := by
      intro h
      exact hpos (hhigh.trans_le h)
    rw [if_neg fun h => absurd h.1 (not_le.mpr hhigh)]
    refine iff_of_false ?_ hlow
    split <;> simp

end Single

/-! ## Exact scores -/

section Exact

variable [PyText] [PyRepr]

omit [PyText] [PyRepr] in
theorem isScore_tokenOverlapWith (a b : Text) : IsScore (tokenOverlapWith id a b) := by
  unfold tokenOverlapWith
  dsimp only
  split_ifs
  · exact isScore_zero
  · generalize Rows.distinct (splitWords [] a) = ta
    generalize Rows.distinct (splitWords [] b) = tb
    have hle : ((ta.filter (· ∈ tb)).length : ℚ) ≤ (ta ++ tb.filter (· ∉ ta)).length := by
      have h := List.length_filter_le (fun x => decide (x ∈ tb)) ta
      rw [List.length_append]
      exact_mod_cast h.trans (Nat.le_add_right _ _)
    exact ⟨div_nonneg (Nat.cast_nonneg _) (Nat.cast_nonneg _), div_le_one_of_le₀ hle (Nat.cast_nonneg _)⟩

theorem isScore_textScoreWith (incoming : Json) (candidate : Option Text) :
    IsScore (textScoreWith id incoming candidate) := by
  unfold textScoreWith
  split
  · exact isScore_zero
  · exact isScore_tokenOverlapWith _ _

/-- The three textual scores, in hundredths. -/
def textualScore (incoming : ClaimFields) (row : EventIdentityIndex) : ℚ :=
  10 * textScoreWith id (incoming "operator") row.fields.operator +
    8 * textScoreWith id (incoming "location") row.fields.location +
      7 * textScoreWith id (incoming "aircraft_type") row.fields.aircraftType

/-- Both have one date. -/
def SameDate (incoming : ClaimFields) (row : EventIdentityIndex) : Prop :=
  ∃ d, normDate (String.ofList (norm (incoming "event_date"))) = some d ∧ row.fields.eventDate = some d

/-- The incoming registration is not the primary one of the candidate: one of them is missing, or
they differ without their separators. -/
def DiffersFromPrimary (incoming : ClaimFields) (row : EventIdentityIndex) : Prop :=
  ∀ c ∈ row.fields.registration, norm (incoming "registration") = [] ∨
    normText (String.ofList c) = [] ∨
      dropSeparators (norm (incoming "registration")) ≠ dropSeparators (normText (String.ofList c))

/-- The incoming registration is a historical one of the candidate. -/
def MatchesHistorical (incoming : ClaimFields) (row : EventIdentityIndex) : Prop :=
  matchesAlias (incoming "registration") row.fields.registrationNorms = true

variable {incoming : ClaimFields} {row : EventIdentityIndex}

theorem DiffersFromPrimary.registrationScore (h : DiffersFromPrimary incoming row) :
    registrationScore (incoming "registration") row.fields.registration = 0 := by
  unfold Atlas.registrationScore
  split
  · rfl
  · rename_i c hc
    dsimp only
    split_ifs with hempty hsame
    · rfl
    · rcases h c hc with hnone | hnone | hne
      · exact absurd (.inl hnone) hempty
      · exact absurd (.inr hnone) hempty
      · exact absurd hsame hne
    · rfl

omit [PyText] [PyRepr] in
/-- A date counts whole when both have it, and at most half otherwise. -/
theorem dateScore_cases (a b : Option PyDate) :
    ((∃ d, a = some d ∧ b = some d) ∧ dateScore a b = 1) ∨
      ((¬ ∃ d, a = some d ∧ b = some d) ∧ 0 ≤ dateScore a b ∧ dateScore a b ≤ 1 / 2) := by
  unfold dateScore
  split
  · rename_i a b
    by_cases hab : a = b
    · exact .inl ⟨⟨a, rfl, by rw [hab]⟩, if_pos hab⟩
    · refine .inr ⟨?_, ?_⟩
      · rintro ⟨d, ha, hb⟩
        exact hab ((Option.some.inj ha).trans (Option.some.inj hb).symm)
      · rw [if_neg hab]
        split <;> norm_num
  · rename_i hnone
    refine .inr ⟨?_, by norm_num⟩
    rintro ⟨d, rfl, rfl⟩
    exact hnone d d rfl rfl

omit [PyText] [PyRepr] in
theorem exactRound4_exactRound4 (x : ℚ) : exactRound4 (exactRound4 x) = exactRound4 x := by
  unfold exactRound4
  rw [div_mul_cancel₀ _ (by norm_num), roundHalfEven_isRounding.int]

/-- The score of a candidate whose primary registration is another. -/
theorem score_of_differs (h : DiffersFromPrimary incoming row) :
    (scoreMatchWith id incoming row.fields).score =
      exactRound4 (30 / 100 * eventDateScore (incoming "event_date") row.fields.eventDate +
        textualScore incoming row / 100 +
          if matchesAlias (incoming "registration") row.fields.registrationNorms then 225 / 1000 else 0) := by
  have htotal : weightedSumWith id (fieldScoresWith id incoming row.fields) =
      30 / 100 * eventDateScore (incoming "event_date") row.fields.eventDate +
        textualScore incoming row / 100 := by
    simp only [weightedSumWith, fieldScoresWith, h.registrationScore, textualScore, List.foldl_cons,
      List.foldl_nil, id_eq]
    ring
  have hmatched : "registration" ∉ ((fieldScoresWith id incoming row.fields).filter
      fun f => 0 < f.2.2).map Prod.fst := by
    intro hmem
    obtain ⟨f, hf, hname⟩ := List.mem_map.mp hmem
    obtain ⟨hf, hpos⟩ := List.mem_filter.mp hf
    rw [decide_eq_true_iff] at hpos
    simp only [fieldScoresWith, List.mem_cons, List.not_mem_nil, or_false] at hf
    rcases hf with rfl | rfl | rfl | rfl | rfl
    · dsimp only at hpos
      rw [h.registrationScore] at hpos
      exact lt_irrefl 0 hpos
    all_goals exact absurd hname (by dsimp only; decide)
  have hround (x : ℚ) : round4With id x = exactRound4 x := rfl
  unfold scoreMatchWith
  dsimp only
  rw [htotal]
  by_cases halias : matchesAlias (incoming "registration") row.fields.registrationNorms = true
  · rw [if_pos ⟨hmatched, halias⟩, if_pos halias]
    dsimp only
    rw [hround, hround, exactRound4_exactRound4]
    congr 1
    simp only [id_eq]
    norm_num
  · rw [if_neg fun hboth => halias hboth.2, if_neg halias]
    dsimp only
    rw [hround, add_zero]

/-- **Historical registrations.**  A candidate whose primary registration is another is attached
exactly when the incoming registration is a historical one of it, the dates are equal and the
textual fields agree almost in full. -/
theorem historical_attaches_iff (h : DiffersFromPrimary incoming row) :
    (∀ e, decideExactly incoming [row] ≠ .attach e) ↔
      ¬ (MatchesHistorical incoming row ∧ SameDate incoming row ∧
        22495 / 1000 ≤ textualScore incoming row) := by
  have hattach := EventMatcher.attaches_single_iff id (m := ⟨75 / 100, 40 / 100⟩) (by norm_num)
    incoming row
  have hnever : (∀ e, decideExactly incoming [row] ≠ .attach e) ↔
      ¬ ∃ e, decideExactly incoming [row] = .attach e := by simp
  rw [hnever, not_iff_not]
  refine hattach.trans ?_
  rw [score_of_differs h]
  have hedge {x : ℚ} : (75 : ℚ) / 100 ≤ exactRound4 x ↔ 74995 / 100000 ≤ x := by
    have h := @edge_le_exactRound4 7500 (by norm_num) x
    norm_num at h ⊢
    exact h
  dsimp only
  rw [hedge]
  obtain ⟨hoLow, hoHigh⟩ := isScore_textScoreWith (incoming "operator") row.fields.operator
  obtain ⟨hlLow, hlHigh⟩ := isScore_textScoreWith (incoming "location") row.fields.location
  obtain ⟨haLow, haHigh⟩ := isScore_textScoreWith (incoming "aircraft_type") row.fields.aircraftType
  have htext : textualScore incoming row ≤ 25 := by
    unfold textualScore
    linarith
  have hnonneg : 0 ≤ textualScore incoming row := by
    unfold textualScore
    linarith
  unfold MatchesHistorical SameDate eventDateScore
  rcases dateScore_cases (normDate (String.ofList (norm (incoming "event_date")))) row.fields.eventDate with
    ⟨hsame, hone⟩ | ⟨hother, hlow, hhalf⟩
  · rw [hone]
    by_cases halias : matchesAlias (incoming "registration") row.fields.registrationNorms = true
    · rw [if_pos halias]
      simp only [halias, hsame, true_and]
      constructor
      · intro h
        linarith
      · intro h
        linarith
    · rw [if_neg halias]
      simp only [halias, false_and, iff_false, not_le, Bool.false_eq_true]
      linarith
  · refine iff_of_false ?_ fun h => hother h.2.1
    rw [not_le]
    split <;> linarith

end Exact

/-! ## An event that was renumbered -/

/-- A report with a registration and some more fields. -/
def renumberedReport (more : List NormalisedClaim) : ClaimFields :=
  claimsDataFields (⟨"registration", .str "N1AB"⟩ :: ⟨"event_date", .str "2024-06-01"⟩ :: more)

/-- The event had the registration before. -/
def renumberedRow : EventIdentityIndex where
  eventId := 3
  eventDateNorm := some (some ⟨2024, 6, 1, by decide +kernel⟩)
  registrationNorm := some "n2ab".toList
  operatorNorm := some "acme air".toList
  locationNorm := some "fresno".toList
  aircraftTypeNorm := some "cessna 172".toList
  registrationNorms := ["n1ab".toList, "n2ab".toList]
  updatedAt := 1

theorem differs_renumbered (more : List NormalisedClaim)
    (h : renumberedReport more "registration" = .str "N1AB") :
    DiffersFromPrimary (renumberedReport more) renumberedRow := by
  intro c hc
  obtain rfl : "n2ab".toList = c := Option.some.inj hc
  rw [h]
  exact .inr (.inr (by decide +kernel))

/-- With the date alone the report is not attached. -/
theorem renumbered_date_not_attached :
    DiffersFromPrimary (renumberedReport []) renumberedRow ∧
      ∀ e, decideExactly (renumberedReport []) [renumberedRow] ≠ .attach e := by
  refine ⟨differs_renumbered [] rfl, (historical_attaches_iff (differs_renumbered [] rfl)).mpr ?_⟩
  rintro ⟨-, -, htext⟩
  revert htext
  decide +kernel

/-- With the textual fields it is. -/
theorem renumbered_report_attaches :
    ¬ ∀ (incoming : ClaimFields) (row : EventIdentityIndex), DiffersFromPrimary incoming row →
      ∀ e, decideExactly incoming [row] ≠ .attach e := by
  intro h
  have hattach : decideExactly (renumberedReport [⟨"operator", .str "Acme Air"⟩,
      ⟨"location", .str "Fresno"⟩, ⟨"aircraft_type", .str "Cessna 172"⟩]) [renumberedRow] = .attach 3 := by
    decide +kernel
  exact h _ _ (differs_renumbered _ rfl) 3 hattach

end Atlas
