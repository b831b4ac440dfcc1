import Mathlib.Data.List.Induction
import Atlas.IdentityIndex

/-!
# Event resolution and merges

The matcher ties *rows*: when two rows of the index share the best score it asks
for a review.  The rows are brought to their canonical events only afterwards.  So
the row of a merged event and the row of its survivor, which stand for one event,
can tie with each other, and the submission gets a new event and a review against
the survivor instead of being attached to it.

It is attached exactly when one row has the best score, provided that its texts fit
the columns of the index.
-/

namespace Atlas

open Rows Outcome

section Match

variable [PyText] [PyRepr]

/-! ## The best row -/

def rowScore (incoming : ClaimFields) (row : EventIdentityIndex) : ℚ :=
  (scoreMatch incoming row.fields).score

/-- What the loop of `best_match` knows after some rows: the best score is that of
the first event listed, and every row with that score is listed in order. -/
structure BestOf (incoming : ClaimFields) (rows : List EventIdentityIndex)
    (acc : MatchResult × List Uuid) : Prop where
  nonneg : 0 ≤ acc.1.score
  bound : ∀ row ∈ rows, rowScore incoming row ≤ acc.1.score
  tied : acc.2 = if 0 < acc.1.score then
    (rows.filter fun row => rowScore incoming row = acc.1.score).map EventIdentityIndex.eventId else []
  listed : 0 < acc.1.score → acc.2 ≠ []
  candidate : acc.1.candidateEventId = acc.2.head?
  plain : acc.1.ambiguousTie = false ∧ acc.1.tiedCandidateEventIds = []

theorem bestOf_nil (incoming : ClaimFields) :
    BestOf incoming [] (⟨0, [], none, false, []⟩, []) where
  nonneg := le_rfl
  bound := by simp
  tied := by simp
  listed := by simp
  candidate := rfl
  plain := ⟨rfl, rfl⟩

theorem scoreMatch_plain (incoming : ClaimFields) (c : CandidateFields) :
    (scoreMatch incoming c).ambiguousTie = false ∧
      (scoreMatch incoming c).tiedCandidateEventIds = [] := by
  unfold scoreMatch
  dsimp only
  split_ifs <;> exact ⟨rfl, rfl⟩

/-- One more row. -/
theorem BestOf.step {incoming : ClaimFields} {rows : List EventIdentityIndex}
    {acc : MatchResult × List Uuid} (h : BestOf incoming rows acc) (row : EventIdentityIndex) :
    BestOf incoming (rows ++ [row]) (considerCandidate incoming acc row) := by
  unfold considerCandidate
  dsimp only
  change BestOf incoming (rows ++ [row])
    (if acc.1.score < rowScore incoming row then _
      else if rowScore incoming row = acc.1.score ∧ 0 < rowScore incoming row then _ else _)
  split_ifs with hbetter heq hnil
  · -- A better row: no earlier row has its score.
    have hpos : 0 < rowScore incoming row := h.nonneg.trans_lt hbetter
    have hnone : (rows.filter fun r => rowScore incoming r = rowScore incoming row) = [] := by
      apply List.filter_eq_nil_iff.mpr
      intro r hr
      simpa using ((h.bound r hr).trans_lt hbetter).ne
    refine ⟨hpos.le, ?_, ?_, by simp, by simp, scoreMatch_plain incoming row.fields⟩
    · intro r hr
      rcases List.mem_append.mp hr with hr | hr
      · exact (h.bound r hr).trans hbetter.le
      · rw [List.mem_singleton.mp hr]
        exact le_rfl
    · change [row.eventId] = if 0 < rowScore incoming row then _ else _
      rw [if_pos hpos]
      change [row.eventId] = List.map _ (List.filter
        (fun r => decide (rowScore incoming r = rowScore incoming row)) (rows ++ [row]))
      rw [List.filter_append, hnone]
      simp
  · exact absurd hnil (h.listed (heq.1 ▸ heq.2))
  · -- The same score, which is positive: the row joins the list.
    have hpos : 0 < acc.1.score := heq.1 ▸ heq.2
    have htied := h.tied
    rw [if_pos hpos] at htied
    refine ⟨h.nonneg, ?_, ?_, by simp, ?_, h.plain⟩
    · intro r hr
      rcases List.mem_append.mp hr with hr | hr
      · exact h.bound r hr
      · rw [List.mem_singleton.mp hr]
        exact heq.1.le
    · change acc.2 ++ [row.eventId] = _
      rw [if_pos hpos, List.filter_append, List.map_append, ← htied]
      simp [heq.1]
    · change acc.1.candidateEventId = (acc.2 ++ [row.eventId]).head?
      rw [List.head?_append_of_ne_nil _ hnil]
      exact h.candidate
  · -- A worse row, or one without a score.
    have hle : rowScore incoming row ≤ acc.1.score := not_lt.mp hbetter
    refine ⟨h.nonneg, ?_, ?_, h.listed, h.candidate, h.plain⟩
    · intro r hr
      rcases List.mem_append.mp hr with hr | hr
      · exact h.bound r hr
      · rw [List.mem_singleton.mp hr]
        exact hle
    · rw [h.tied]
      split_ifs with hpos
      · have hne : rowScore incoming row ≠ acc.1.score := fun he => heq ⟨he, he ▸ hpos⟩
        rw [List.filter_append]
        simp [hne]
      · rfl

theorem bestOf_foldl (incoming : ClaimFields) (rows : List EventIdentityIndex) :
    BestOf incoming rows
      (rows.foldl (considerCandidate incoming) (⟨0, [], none, false, []⟩, [])) := by
  induction rows using List.reverseRecOn with
  | nil => exact bestOf_nil incoming
  | append_singleton rows row ih =>
      rw [List.foldl_append]
      exact ih.step row

/-- The rows with the best score. -/
def topRows (incoming : ClaimFields) (rows : List EventIdentityIndex) : List EventIdentityIndex :=
  rows.filter fun row => rows.all fun other => rowScore incoming other ≤ rowScore incoming row

theorem mem_topRows {incoming : ClaimFields} {rows : List EventIdentityIndex}
    {row : EventIdentityIndex} :
    row ∈ topRows incoming rows ↔
      row ∈ rows ∧ ∀ other ∈ rows, rowScore incoming other ≤ rowScore incoming row := by
  simp [topRows]

/-- When a best row has a positive score, the loop ends with it and lists the best
rows. -/
theorem BestOf.of_top {incoming : ClaimFields} {rows : List EventIdentityIndex}
    {acc : MatchResult × List Uuid} (h : BestOf incoming rows acc) {top : EventIdentityIndex}
    (htop : top ∈ topRows incoming rows) (hpos : 0 < rowScore incoming top) :
    acc.1.score = rowScore incoming top ∧
      acc.2 = (topRows incoming rows).map EventIdentityIndex.eventId := by
  obtain ⟨hmem, hbest⟩ := mem_topRows.mp htop
  have hscore : 0 < acc.1.score := hpos.trans_le (h.bound top hmem)
  have htied := h.tied
  rw [if_pos hscore] at htied
  -- Some row has the score of the loop, and none is better than `top`.
  have heq : acc.1.score = rowScore incoming top := by
    apply le_antisymm _ (h.bound top hmem)
    obtain ⟨e, he⟩ := List.exists_mem_of_ne_nil _ (h.listed hscore)
    rw [htied] at he
    obtain ⟨row, hrow, -⟩ := List.mem_map.mp he
    obtain ⟨hrow, hval⟩ := List.mem_filter.mp hrow
    rw [← of_decide_eq_true hval]
    exact hbest row hrow
  refine ⟨heq, ?_⟩
  rw [htied, heq]
  congr 1
  apply List.filter_congr
  intro row hrow
  have hiff : rowScore incoming row = rowScore incoming top ↔
      ∀ other ∈ rows, rowScore incoming other ≤ rowScore incoming row :=
    ⟨fun hval other hother => hval ▸ hbest other hother,
      fun hall => le_antisymm (hbest row hrow) (hall top hmem)⟩
  rw [Bool.eq_iff_iff, decide_eq_true_eq, hiff]
  simp

/-- **The decision about a submission with a row at or above the threshold**: it is
attached when one row has the best score, and goes to review when several have. -/
theorem EventMatcher.decide_of_top {m : EventMatcher} (hpos : 0 < m.high)
    (hle : m.uncertain ≤ m.high) {incoming : ClaimFields} {rows : List EventIdentityIndex}
    {top : EventIdentityIndex} (htop : top ∈ topRows incoming rows)
    (hhigh : m.high ≤ rowScore incoming top) :
    m.decide incoming rows =
      if (topRows incoming rows).length = 1 then .attach top.eventId
      else .review (distinct ((topRows incoming rows).map EventIdentityIndex.eventId)) := by
  have hbest := bestOf_foldl incoming rows
  obtain ⟨hscore, htied⟩ := hbest.of_top htop (hpos.trans_le hhigh)
  have hcandidate := hbest.candidate
  have hplain := hbest.plain
  unfold EventMatcher.decide EventMatcher.bestMatch
  generalize rows.foldl (considerCandidate incoming) (⟨0, [], none, false, []⟩, []) = acc at *
  obtain ⟨best, tied⟩ := acc
  dsimp only at hscore htied hcandidate hplain ⊢
  have hreached : m.high ≤ best.score := hhigh.trans_eq hscore.symm
  have hlength : tied.length = (topRows incoming rows).length := by rw [htied, List.length_map]
  by_cases hone : (topRows incoming rows).length = 1
  · obtain ⟨row, hrow⟩ := List.length_eq_one_iff.mp hone
    have hsame : top = row := by
      rw [hrow] at htop
      exact List.mem_singleton.mp htop
    have hfirst : best.candidateEventId = some top.eventId := by
      rw [hcandidate, htied, hrow, hsame]
      rfl
    have hnotie : ¬ (1 < tied.length ∧ m.uncertain ≤ best.score) := fun h => by omega
    rw [if_pos hone, if_neg hnotie, if_pos ⟨hreached, hplain.1⟩, hfirst]
  · have hmany : 1 < tied.length := by
      have hne : 0 < (topRows incoming rows).length := List.length_pos_of_mem htop
      omega
    have hids : distinct tied ≠ [] := by
      obtain ⟨e, he⟩ := List.exists_mem_of_length_pos (show 0 < tied.length by omega)
      exact List.ne_nil_of_mem (mem_distinct.mpr he)
    simp only [if_neg hone, if_pos (And.intro hmany (hle.trans hreached)), Bool.true_eq_false,
      and_false, if_false, if_pos (hle.trans hreached), if_neg hids]
    rw [htied]

end Match

/-! ## Attaching -/

theorem highConfidence_pos : 0 < highConfidence := by decide +kernel

theorem uncertainLow_le_highConfidence : uncertainLow ≤ highConfidence := by decide +kernel

section Attach

variable [PyText] [PyRepr]

namespace IdentityStore

/-- Every row with the best score is at or above the threshold and belongs to one
event once the merge pointers are followed. -/
structure TopRowsLeadTo (S : IdentityStore) (fields : ClaimFields)
    (rows : List EventIdentityIndex) (e : AccidentEvent) : Prop where
  some_top : topRows fields rows ≠ []
  high : ∀ row ∈ topRows fields rows, highConfidence ≤ rowScore fields row
  canonical : ∀ row ∈ topRows fields rows, S.db.canonicalEventFor row.eventId = .found e

instance (fields : ClaimFields) (rows : List EventIdentityIndex) (S : IdentityStore)
    (e : AccidentEvent) : Decidable (S.TopRowsLeadTo fields rows e) :=
  decidable_of_iff (topRows fields rows ≠ [] ∧
      (∀ row ∈ topRows fields rows, highConfidence ≤ rowScore fields row) ∧
      ∀ row ∈ topRows fields rows, S.db.canonicalEventFor row.eventId = .found e)
    ⟨fun h => ⟨h.1, h.2.1, h.2.2⟩, fun h => ⟨h.1, h.2, h.3⟩⟩

/-- The submission is attached to the event; no event and no review is created. -/
def AttachesTo (S : IdentityStore) (call : Db.IngestCall) (e : AccidentEvent) : Prop :=
  ∃ index, S.resolveWithReviews call = .ok (⟨S.db, e.id, [], false, .identityMatch⟩, index)

variable {S : IdentityStore} {call : Db.IngestCall} {rows : List EventIdentityIndex}
  {e : AccidentEvent}

omit [PyText] [PyRepr] in
theorem createEvent_eventCreated {s : Db} {resolved : Db.ResolvedEvent}
    (h : s.createEvent call = .ok resolved) : resolved.eventCreated = true := by
  unfold Db.createEvent at h
  dsimp only at h
  split at h
  · simp only [bind_ok, pure_ok] at h
    obtain ⟨canonical, -, rfl⟩ := h
    rfl
  · rw [pure_ok] at h
    exact h ▸ rfl

theorem resolveAmong_ok {resolved : Db.ResolvedEvent} :
    S.resolveAmong call rows = .ok resolved ↔
      S.db.resolveWithReviews (withDecision call rows) = .ok resolved ∧
        (entryOf call resolved.eventId).fits = true := by
  unfold resolveAmong
  simp only [bind_ok, pure_ok, require_ok]
  constructor
  · rintro ⟨resolved', hresolved, _, hfits, rfl⟩
    exact ⟨hresolved, hfits⟩
  · rintro ⟨hresolved, hfits⟩
    exact ⟨resolved, hresolved, (), hfits, rfl⟩

theorem resolveWithReviews_ok {resolved : Db.ResolvedEvent} {index : List EventIdentityIndex} :
    S.resolveWithReviews call = .ok (resolved, index) ↔
      0 < call.maxDuplicateReviews ∧ ∃ rows,
        S.candidates (claimsDataFields call.claims) = .ok rows ∧
        S.resolveAmong call rows = .ok resolved ∧
        index = recordIdentity S.index (withDecision call rows).decision resolved.eventCreated
          (entryOf call resolved.eventId) := by
  unfold resolveWithReviews
  simp only [bind_ok, pure_ok, require_ok, Prod.mk.injEq]
  constructor
  · rintro ⟨_, hmax, rows, hrows, resolved', hresolved, rfl, rfl⟩
    exact ⟨hmax, rows, hrows, hresolved, rfl⟩
  · rintro ⟨hmax, rows, hrows, hresolved, rfl⟩
    exact ⟨(), hmax, rows, hrows, resolved, hresolved, rfl, rfl⟩

/-- **Resolution respects merges exactly when one row has the best score**, and the
texts of the submission fit the index. -/
theorem attachesTo_iff_one_top_row (hmax : 0 < call.maxDuplicateReviews)
    (hrows : S.candidates (claimsDataFields call.claims) = .ok rows)
    (htop : S.TopRowsLeadTo (claimsDataFields call.claims) rows e) :
    S.AttachesTo call e ↔
      (topRows (claimsDataFields call.claims) rows).length = 1 ∧ (entryOf call e.id).fits = true := by
  obtain ⟨top, hmem⟩ := List.exists_mem_of_ne_nil _ htop.some_top
  have hdecide := EventMatcher.decide_of_top (m := {}) highConfidence_pos
    uncertainLow_le_highConfidence hmem (htop.high top hmem)
  constructor
  · rintro ⟨index, hattach⟩
    obtain ⟨-, rows', hrows', hresolved, -⟩ := resolveWithReviews_ok.mp hattach
    rw [hrows, Except.ok.injEq] at hrows'
    subst hrows'
    obtain ⟨hresolved, hfits⟩ := resolveAmong_ok.mp hresolved
    refine ⟨?_, hfits⟩
    by_contra hmany
    rw [withDecision, hdecide, if_neg hmany, Db.resolveWithReviews, bind_ok] at hresolved
    obtain ⟨_, -, hcreate⟩ := hresolved
    exact Bool.false_ne_true (createEvent_eventCreated hcreate)
  · rintro ⟨hone, hfits⟩
    have hresolved : S.db.resolveWithReviews (withDecision call rows) =
        .ok ⟨S.db, e.id, [], false, .identityMatch⟩ := by
      rw [withDecision, hdecide, if_pos hone, Db.resolveWithReviews, bind_ok]
      refine ⟨(), require_ok.mpr hmax, ?_⟩
      simp only [htop.canonical top hmem]
      rfl
    exact ⟨_, resolveWithReviews_ok.mpr ⟨hmax, rows, hrows,
      resolveAmong_ok.mpr ⟨hresolved, hfits⟩, rfl⟩⟩

end IdentityStore

end Attach

/-! ## A merged event and its survivor -/

/-- A report of an accident, with its date and its registration. -/
def accidentReport (now : Time) : Db.IngestCall where
  sourceId := 0
  ingestionRunId := 50
  submissionHash := "accident"
  eventId := none
  sourceRecordId := none
  claims := [⟨"event_date", .str "2024-06-01"⟩, ⟨"registration", .str "N-123 AB"⟩]
  decision := .new
  maxDuplicateReviews := 10
  now := now

/-- Event 3 has the identity of the report. -/
def oneKnownAccident : IdentityStore where
  db := { Db.empty [] with nextId := 5, events := [⟨3, none⟩] }
  index := [buildIdentityEntry 3 (claimsDataFields (accidentReport 1).claims) 1]

/-- Event 4 had the same identity and was merged into event 3. -/
def twoMergedAccidents : IdentityStore where
  db := { oneKnownAccident.db with events := [⟨3, none⟩, ⟨4, some 3⟩] }
  index := mergeIdentityIndex (upsertIdentity oneKnownAccident.index
    (buildIdentityEntry 4 (claimsDataFields (accidentReport 2).claims) 2)) 4 3 3

/-- The report is attached to the one known event. -/
theorem attachesTo_one_known_accident :
    oneKnownAccident.AttachesTo (accidentReport 9) ⟨3, none⟩ := by
  have hrows : oneKnownAccident.candidates (claimsDataFields (accidentReport 9).claims) =
      .ok oneKnownAccident.index := by decide +kernel
  have htop : oneKnownAccident.TopRowsLeadTo (claimsDataFields (accidentReport 9).claims)
      oneKnownAccident.index ⟨3, none⟩ := by decide +kernel
  have hone : (topRows (claimsDataFields (accidentReport 9).claims)
      oneKnownAccident.index).length = 1 := by decide +kernel
  have hfits : (IdentityStore.entryOf (accidentReport 9) 3).fits = true := by decide +kernel
  exact (IdentityStore.attachesTo_iff_one_top_row (by decide) hrows htop).mpr ⟨hone, hfits⟩

/-- Both rows lead to event 3, yet the report gets an event of its own and a
review. -/
theorem merged_alias_ties_with_survivor :
    twoMergedAccidents.candidates (claimsDataFields (accidentReport 9).claims) =
        .ok twoMergedAccidents.index ∧
      twoMergedAccidents.TopRowsLeadTo (claimsDataFields (accidentReport 9).claims)
        twoMergedAccidents.index ⟨3, none⟩ ∧
      (∃ resolved, twoMergedAccidents.resolveWithReviews (accidentReport 9) = .ok resolved ∧
        resolved.1.eventCreated = true ∧ resolved.1.eventId = 5 ∧
        resolved.1.pendingReviewIds = [6]) ∧
      ¬ twoMergedAccidents.AttachesTo (accidentReport 9) ⟨3, none⟩ := by
  have hresolved : ∃ resolved,
      twoMergedAccidents.resolveWithReviews (accidentReport 9) = .ok resolved ∧
      resolved.1.eventCreated = true ∧ resolved.1.eventId = 5 ∧
      resolved.1.pendingReviewIds = [6] := exists_ok_of_any (by decide +kernel)
  refine ⟨by decide +kernel, by decide +kernel, hresolved, ?_⟩
  rintro ⟨index, hattach⟩
  obtain ⟨resolved, hresolved, hcreated, -, -⟩ := hresolved
  rw [hresolved, Except.ok.injEq] at hattach
  rw [hattach] at hcreated
  exact Bool.false_ne_true hcreated

end Atlas
