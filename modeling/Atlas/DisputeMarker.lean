import Atlas.ReProject

/-!
# The dispute marker

A disputed field is written to the store as the text `__DISPUTED__`, and its name is
listed beside the data.  Nothing keeps a source from submitting that text as a value, and
the builder takes values as they are.  So the marker says that a field is disputed exactly
as long as no field takes its value from a claim with that text.
-/

namespace Atlas

/-- The claims of the highest tier a field has. -/
def highestTier (fieldClaims : List Claim) : List Claim :=
  if ofType .manualOverride fieldClaims ≠ [] then ofType .manualOverride fieldClaims
  else if ofType .confirmed fieldClaims ≠ [] then ofType .confirmed fieldClaims
  else ofType .raw fieldClaims

section Marker

variable [PyText]

/-- The claim a field takes its value from.  No conflict on the field is OPEN, and the claim is
the active winner of the latest RESOLVED one; or there is no such winner, the claims of the
highest tier agree, and the policy chooses it among them. -/
structure TakenFrom (eventId : Uuid) (claims : List Claim) (conflicts : List ClaimConflict)
    (sources : List Source) (f : String) (w : Claim) : Prop where
  settled : ∀ c ∈ conflicts, c.eventId = eventId → c.fieldName = f → c.status ≠ .open
  chosen : resolvedWinner (fieldGroup claims (eventId, f))
      (latestResolved (conflicts.filter fun c => c.eventId = eventId) f) = some w ∨
    resolvedWinner (fieldGroup claims (eventId, f))
        (latestResolved (conflicts.filter fun c => c.eventId = eventId) f) = none ∧
      ¬ Disagree (highestTier (fieldGroup claims (eventId, f))) ∧
      chooseWinner (highestTier (fieldGroup claims (eventId, f))) sources = some w

theorem tieredValue_eq (sources : List Source) (fieldClaims : List Claim) :
    tieredValue sources fieldClaims = tierValue sources (highestTier fieldClaims) := by
  unfold tieredValue highestTier
  dsimp only
  split
  · rfl
  · split
    · rfl
    · rfl

theorem tierValue_eq_value {sources : List Source} {tier : List Claim} {v : Json} :
    tierValue sources tier = some (.value v) ↔
      ¬ Disagree tier ∧ ∃ w, chooseWinner tier sources = some w ∧ w.fieldValue = v := by
  unfold tierValue
  split
  · rename_i hdisagree
    simp [hdisagree]
  · rename_i hagree
    simp [hagree]

variable {eventId : Uuid} {claims : List Claim} {conflicts : List ClaimConflict}
  {sources : List Source} {f : String}

/-- **Where the value of a field comes from.** -/
theorem projectField_value {v : Json} :
    projectField eventId claims conflicts sources f = some (.value v) ↔
      ∃ w, TakenFrom eventId claims conflicts sources f w ∧ w.fieldValue = v := by
  unfold projectField
  split
  · rename_i hopen
    obtain ⟨c, hc, hopen⟩ := List.any_eq_true.mp hopen
    simp only [decide_eq_true_eq] at hopen
    constructor
    · intro h
      cases h
    · intro h
      obtain ⟨w, hw, -⟩ := h
      exact absurd hopen.2.1 (hw.settled c hc hopen.1 hopen.2.2)
  · rename_i hsettled
    have hnone : ∀ c ∈ conflicts, c.eventId = eventId → c.fieldName = f → c.status ≠ .open := by
      intro c hc he hf hopen
      exact hsettled (List.any_eq_true.mpr ⟨c, hc, by simp [he, hf, hopen]⟩)
    dsimp only
    split
    · rename_i winner hwinner
      constructor
      · intro h
        cases h
        exact ⟨winner, ⟨hnone, .inl hwinner⟩, rfl⟩
      · intro h
        obtain ⟨w, hw, rfl⟩ := h
        rcases hw.chosen with hresolved | ⟨hresolved, -⟩
        · rw [hwinner] at hresolved
          rw [Option.some.inj hresolved]
        · rw [hwinner] at hresolved
          cases hresolved
    · rename_i hwinner
      rw [tieredValue_eq, tierValue_eq_value]
      constructor
      · intro h
        obtain ⟨hagree, w, hw, hv⟩ := h
        exact ⟨w, ⟨hnone, .inr ⟨hwinner, hagree, hw⟩⟩, hv⟩
      · intro h
        obtain ⟨w, hw, hv⟩ := h
        rcases hw.chosen with hresolved | ⟨-, hagree, hchosen⟩
        · rw [hwinner] at hresolved
          cases hresolved
        · exact ⟨hagree, w, hchosen, hv⟩

theorem mem_unresolved_iff (v : Nat) (now : Time) :
    f ∈ (build eventId claims conflicts sources v now).unresolvedConflictFields ↔
      projectField eventId claims conflicts sources f = some .disputed := by
  constructor
  · exact mem_unresolvedConflictFields
  · intro h
    refine List.mem_filter.mpr ⟨?_, decide_eq_true h⟩
    by_contra hnot
    rw [projectField_of_notMem hnot] at h
    cases h

/-- **When the dispute marker is sound.**  A field of a build is written as the marker exactly
when it is listed as disputed, unless some field takes its value from a claim with that text. -/
theorem dispute_marker_sound_iff (eventId : Uuid) (claims : List Claim)
    (conflicts : List ClaimConflict) (sources : List Source) (v : Nat) (now : Time) :
    (∀ f, (serialiseFields (build eventId claims conflicts sources v now).fields).lookup f =
          some (.str disputedMarker) ↔
        f ∈ (build eventId claims conflicts sources v now).unresolvedConflictFields) ↔
      ∀ f w, TakenFrom eventId claims conflicts sources f w →
        w.fieldValue ≠ .str disputedMarker := by
  simp only [mem_unresolved_iff, lookup_serialiseFields, lookup_build, Option.map_eq_some_iff]
  constructor
  · intro hsound f w hw hmarker
    have hvalue : projectField eventId claims conflicts sources f =
        some (.value (.str disputedMarker)) := projectField_value.mpr ⟨w, hw, hmarker⟩
    have hlisted := (hsound f).mp ⟨_, hvalue, rfl⟩
    rw [hvalue] at hlisted
    cases hlisted
  · intro hclaims f
    constructor
    · intro h
      obtain ⟨x, hx, hmarker⟩ := h
      cases x with
      | disputed => exact hx
      | value u =>
          obtain ⟨w, hw, hu⟩ := projectField_value.mp hx
          exact absurd (hu.trans hmarker) (hclaims f w hw)
    · intro h
      exact ⟨.disputed, h, rfl⟩

end Marker

/-- A source submits the marker as the operator. -/
def markerClaim : Claim :=
  ⟨7, 5, 0, some 6, "operator", .str disputedMarker, .raw, 1, none, none⟩

/-- The field is written as the marker, and no field is listed as disputed. -/
theorem submitted_marker_reads_as_dispute :
    ¬ ∀ (eventId : Uuid) (claims : List Claim) (conflicts : List ClaimConflict)
        (sources : List Source) (v : Nat) (now : Time) (f : String),
      (serialiseFields (build eventId claims conflicts sources v now).fields).lookup f =
          some (.str disputedMarker) ↔
        f ∈ (build eventId claims conflicts sources v now).unresolvedConflictFields := by
  intro hsound
  have hlisted := (hsound 5 [markerClaim] [] [] 1 2 "operator").mp (by decide +kernel)
  exact absurd hlisted (by decide +kernel)

end Atlas
