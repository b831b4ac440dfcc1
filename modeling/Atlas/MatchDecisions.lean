import Atlas.FirstReports

/-!
# The decision of the matcher

Two facts about `EventMatcher.decide`.  It does not depend on the order of the
candidates: the loop of `best_match` keeps the first of the best rows, but as soon as
there are two of them it asks for a review of all.

And a row with the date and the registration of a submission is found, whatever else
the index holds.  The query by date is capped at fifty rows and may miss it; the query
by registration is there to bypass that cap.
-/

namespace Atlas

open Rows Outcome IdentityStore

/-! ## Order -/

/-- The decisions agree; the candidates of a review are taken as a set. -/
def Db.MatchDecision.Agrees : Db.MatchDecision → Db.MatchDecision → Prop
  | .attach a, .attach b => a = b
  | .review xs, .review ys => ∀ e, e ∈ xs ↔ e ∈ ys
  | .new, .new => True
  | _, _ => False

section Order

variable [PyText] [PyRepr] {incoming : ClaimFields} {rows rows' : List EventIdentityIndex}
  {acc acc' : MatchResult × List Uuid}

omit [PyText] [PyRepr] in
/-- There is one order of at most one element. -/
theorem eq_of_perm_of_length_le_one {xs ys : List Uuid} (h : xs.Perm ys) (hone : xs.length ≤ 1) :
    xs = ys := by
  rcases xs with _ | ⟨x, _ | ⟨y, rest⟩⟩
  · exact (List.nil_perm.mp h).symm
  · exact (List.singleton_perm.mp h)
  · exact absurd hone (by simp)

/-- More rows do not lower the best score. -/
theorem BestOf.score_le (h : BestOf incoming rows acc) (h' : BestOf incoming rows' acc')
    (hsub : rows ⊆ rows') : acc.1.score ≤ acc'.1.score := by
  by_cases hpos : 0 < acc.1.score
  · -- The best score is that of some row.
    obtain ⟨e, he⟩ := List.exists_mem_of_ne_nil _ (h.listed hpos)
    rw [h.tied, if_pos hpos] at he
    obtain ⟨row, hrow, -⟩ := List.mem_map.mp he
    obtain ⟨hrow, hscore⟩ := List.mem_filter.mp hrow
    rw [← of_decide_eq_true hscore]
    exact h'.bound row (hsub hrow)
  · exact (not_lt.mp hpos).trans h'.nonneg

/-- The loop ends with one best score and the same best rows in any order. -/
theorem BestOf.perm (h : BestOf incoming rows acc) (h' : BestOf incoming rows' acc')
    (hperm : rows.Perm rows') : acc.1.score = acc'.1.score ∧ acc.2.Perm acc'.2 := by
  have hscore : acc.1.score = acc'.1.score :=
    le_antisymm (h.score_le h' hperm.subset) (h'.score_le h hperm.symm.subset)
  refine ⟨hscore, ?_⟩
  rw [h.tied, h'.tied, hscore]
  split_ifs
  · exact (hperm.filter _).map _
  · exact List.Perm.refl _

/-- What `decide` makes of the end of the loop. -/
theorem EventMatcher.decide_eq (m : EventMatcher) (h : BestOf incoming rows acc)
    (hacc : rows.foldl (considerCandidate incoming) (⟨0, [], none, false, []⟩, []) = acc) :
    m.decide incoming rows =
      if 1 < acc.2.length ∧ m.uncertain ≤ acc.1.score then .review (distinct acc.2)
      else if m.high ≤ acc.1.score then acc.2.head?.elim .new .attach
      else if m.uncertain ≤ acc.1.score then .review acc.2.head?.toList
      else .new := by
  obtain ⟨best, tied⟩ := acc
  have hcandidate := h.candidate
  have hplain := h.plain
  dsimp only at hcandidate hplain ⊢
  unfold EventMatcher.decide EventMatcher.bestMatch
  rw [hacc]
  dsimp only
  by_cases htie : 1 < tied.length ∧ m.uncertain ≤ best.score
  · have hids : distinct tied ≠ [] := by
      obtain ⟨e, he⟩ := List.exists_mem_of_length_pos (Nat.lt_of_succ_lt htie.1)
      exact List.ne_nil_of_mem (mem_distinct.mpr he)
    rw [if_pos htie, if_pos htie, if_neg (by simp), if_pos htie.2, if_neg hids]
  · rw [if_neg htie, if_neg htie, hplain.1, hplain.2, hcandidate]
    simp only [and_true, if_true]
    cases tied.head? <;> rfl

/-- **The decision does not depend on the order of the candidates.** -/
theorem EventMatcher.decide_perm (m : EventMatcher) (hle : m.uncertain ≤ m.high)
    (hperm : rows.Perm rows') : (m.decide incoming rows).Agrees (m.decide incoming rows') := by
  have h := bestOf_foldl incoming rows
  have h' := bestOf_foldl incoming rows'
  rw [m.decide_eq h rfl, m.decide_eq h' rfl]
  obtain ⟨hscore, htied⟩ := h.perm h' hperm
  rw [← hscore, ← htied.length_eq]
  generalize rows.foldl (considerCandidate incoming) (⟨0, [], none, false, []⟩, []) = acc at *
  generalize rows'.foldl (considerCandidate incoming) (⟨0, [], none, false, []⟩, []) = acc' at *
  split_ifs with htie hhigh hlow
  · intro e
    rw [mem_distinct, mem_distinct]
    exact htied.mem_iff
  · -- Below two best rows the lists are equal, whatever their order.
    have hone : acc.2.length ≤ 1 := not_lt.mp fun hlt => htie ⟨hlt, hle.trans hhigh⟩
    rw [eq_of_perm_of_length_le_one htied hone]
    cases acc'.2.head? <;> simp [Db.MatchDecision.Agrees]
  · have hone : acc.2.length ≤ 1 := not_lt.mp fun hlt => htie ⟨hlt, hlow⟩
    rw [eq_of_perm_of_length_le_one htied hone]
    intro e
    exact Iff.rfl
  · trivial

/-- **Match decisions are order-independent.**  Two orders of the candidates lead to the
same action, to the same event to attach to, and to the same candidates for review. -/
theorem match_decision_order_independent (incoming : ClaimFields)
    {rows rows' : List EventIdentityIndex} (hperm : rows.Perm rows') :
    (({} : EventMatcher).decide incoming rows).Agrees (({} : EventMatcher).decide incoming rows') :=
  EventMatcher.decide_perm {} uncertainLow_le_highConfidence hperm

end Order

/-- The two rows of the merged accidents tie, in either order. -/
theorem merged_accidents_tie_in_either_order :
    (({} : EventMatcher).decide (claimsDataFields (accidentReport 9).claims)
        twoMergedAccidents.index).Agrees
      (({} : EventMatcher).decide (claimsDataFields (accidentReport 9).claims)
        twoMergedAccidents.index.reverse) :=
  match_decision_order_independent _ (List.reverse_perm _).symm

/-! ## The row with the identity of a submission -/

section Exact

variable [PyText] [PyRepr] [LawfulPyText]

/-- **Exact matches attach.**  The candidates of a submission hold the only row near its date
that carries its registration, when that row has its date too, and the matcher attaches the
submission to the event of that row. -/
theorem exact_match_attaches {S : IdentityStore} {call : Db.IngestCall} {d : PyDate} {reg : Text}
    {row : EventIdentityIndex} (hreports : Reports call d reg)
    (hids : (S.index.map EventIdentityIndex.eventId).Nodup) (hmatch : OnlyMatch S d reg row)
    (hinner : d.toOrdinal ≠ 1 ∧ d.toOrdinal ≠ PyDate.maxOrdinal) :
    ∃ rows, S.candidates (claimsDataFields call.claims) = .ok rows ∧ row ∈ rows ∧
      ({} : EventMatcher).decide (claimsDataFields call.claims) rows = .attach row.eventId := by
  have hround : d.around = .ok (d.toOrdinal - 1, d.toOrdinal + 1) := by
    unfold PyDate.around
    rw [if_neg (not_or.mpr hinner)]
  obtain ⟨byDate, hbyDate, hselected⟩ := hreports.findCandidates_ok hround hids
  obtain ⟨rows, hrows, hall, hfound⟩ := hreports.addByRegistration_ok hround hids hselected
  have hmem : row ∈ rows := hfound row hmatch
  refine ⟨rows, ?_, hmem, ?_⟩
  · unfold candidates
    rw [if_neg hreports.date_ne_null]
    exact bind_ok.mpr ⟨byDate, hbyDate, hrows⟩
  · -- Every other candidate is below the threshold.
    have hhigh := hreports.high hmatch.identity
    have hlow : ∀ other ∈ rows, other ≠ row →
        rowScore (claimsDataFields call.claims) other <
          rowScore (claimsDataFields call.claims) row := by
      intro other hother hne
      obtain ⟨hindex, hnear⟩ := hall.near other hother
      exact (hreports.low (hmatch.only other hindex hne hnear)).trans_le hhigh
    have htop : topRows (claimsDataFields call.claims) rows = [row] := by
      have hiff : ∀ r ∈ rows, (rows.all fun other => rowScore (claimsDataFields call.claims) other ≤
          rowScore (claimsDataFields call.claims) r) = decide (r = row) := by
        intro r hr
        rw [Bool.eq_iff_iff, List.all_eq_true, decide_eq_true_eq]
        constructor
        · intro hbest
          by_contra hne
          exact absurd (of_decide_eq_true (hbest row hmem)) (not_le.mpr (hlow r hr hne))
        · intro heq other hother
          rw [heq, decide_eq_true_eq]
          by_cases hsame : other = row
          · rw [hsame]
          · exact (hlow other hother hsame).le
      unfold topRows
      rw [List.filter_congr hiff, List.filter_eq,
        List.count_eq_one_of_mem (List.Nodup.of_map _ hall.ids) hmem]
      rfl
    rw [EventMatcher.decide_of_top highConfidence_pos uncertainLow_le_highConfidence
      (htop ▸ List.mem_singleton_self row) hhigh, htop]
    rfl

end Exact

/-! ## A crowded day -/

/-- A row of the first of June that only has an operator. -/
def otherRow (e : Uuid) : EventIdentityIndex :=
  buildIdentityEntry e (claimsDataFields [⟨"event_date", .str "2024-06-01"⟩,
    ⟨"operator", .str "Acme Air"⟩]) (e + 1)

theorem not_hasRegistration_otherRow (e : Uuid) (reg : Text) : ¬ HasRegistration reg (otherRow e) := by
  have hprimary : (otherRow e).registrationNorm = none := rfl
  have haliases : (otherRow e).registrationNorms = [] := rfl
  intro h
  rcases h with ⟨c, hc, -⟩ | halias
  · rw [hprimary] at hc
    cases hc
  · rw [haliases] at halias
    cases halias

/-- The row of the known accident. -/
def knownRow : EventIdentityIndex :=
  buildIdentityEntry 3 (claimsDataFields (accidentReport 1).claims) 1

/-- The accident of `oneKnownAccident`, and fifty later rows of its day. -/
def crowdedDay : IdentityStore where
  db := { Db.empty [] with
    nextId := 54
    events := ⟨3, none⟩ :: (List.range 50).map fun i => ⟨i + 4, none⟩ }
  index := knownRow :: (List.range 50).map fun i => otherRow (i + 4)

theorem reports_june : Reports (accidentReport 9) ⟨2024, 6, 1, by decide⟩ "n123ab".toList := by
  decide +kernel

theorem nodup_crowdedDay : (crowdedDay.index.map EventIdentityIndex.eventId).Nodup := by
  decide +kernel

theorem onlyMatch_crowdedDay :
    OnlyMatch crowdedDay ⟨2024, 6, 1, by decide⟩ "n123ab".toList knownRow where
  mem := List.mem_cons_self
  event := by decide +kernel
  identity := ⟨by decide +kernel, by decide +kernel⟩
  only := by
    intro other hother hne _
    rcases List.mem_cons.mp hother with hsame | hrest
    · exact absurd hsame hne
    · obtain ⟨i, -, rfl⟩ := List.mem_map.mp hrest
      exact not_hasRegistration_otherRow _ _

/-- The report of a known accident on a crowded day is attached to it. -/
theorem crowded_day_exact_match_attaches : ∃ rows,
    crowdedDay.candidates (claimsDataFields (accidentReport 9).claims) = .ok rows ∧
      knownRow ∈ rows ∧
      ({} : EventMatcher).decide (claimsDataFields (accidentReport 9).claims) rows = .attach 3 :=
  exact_match_attaches reports_june nodup_crowdedDay onlyMatch_crowdedDay (by decide)

/-- The query by date alone misses the row: fifty later rows fill it. -/
theorem find_candidates_misses_exact_match :
    ¬ ∀ (S : IdentityStore) (call : Db.IngestCall) (d : PyDate) (reg : Text)
        (row : EventIdentityIndex) (rows : List EventIdentityIndex), Reports call d reg →
      (S.index.map EventIdentityIndex.eventId).Nodup → OnlyMatch S d reg row →
      S.findCandidates (some d) = .ok rows → row ∈ rows := by
  intro hall
  have hfound : ∃ rows, crowdedDay.findCandidates (some ⟨2024, 6, 1, by decide⟩) = .ok rows ∧
      knownRow ∉ rows := by
    refine ⟨_, rfl, ?_⟩
    decide +kernel
  obtain ⟨rows, hrows, hmissing⟩ := hfound
  exact hmissing (hall _ _ _ _ _ rows reports_june nodup_crowdedDay onlyMatch_crowdedDay hrows)

end Atlas
