import Atlas.ConflictDetector

/-!
# Building a projection

`ProjectionBuilder.build` folds the active claims of one event and its conflict
rows into the projected record.  A field with an OPEN conflict is disputed.  A
field whose latest RESOLVED conflict has an active winner takes the winner's
value.  Every other field is decided by the highest tier of claims it has:
manual overrides, then confirmed claims, then raw ones; a tier that holds more
than one value is disputed, otherwise the winner policy picks its claim.

The completeness score is the fraction of the nine required fields that are
present, not null and not disputed.  It is kept as a rational: the ten possible
quotients are told apart by the double the source stores.
-/

namespace Atlas

/-- `DISPUTED_MARKER`. -/
def disputedMarker : String := "__DISPUTED__"

/-- The values of `RequiredField`. -/
def requiredFields : List String :=
  ["event_date", "location", "aircraft_type", "fatalities_total", "injuries_total", "operator",
    "registration", "flight_phase", "narrative"]

/-- The value counts toward completeness. -/
def Projected.isPresent : Option Projected → Bool
  | none => false
  | some .disputed => false
  | some (.value .null) => false
  | some (.value (.str s)) => s != disputedMarker
  | some (.value _) => true

/-- `CompletenessCalculator.score`. -/
def completenessScore (fields : List (String × Projected)) : ℚ :=
  ((requiredFields.filter fun f => Projected.isPresent (fields.lookup f)).length : ℚ) /
    requiredFields.length

/-! ## The winner policy -/

/-- `WinnerPolicy._claim_type_rank`. -/
def claimTypeRank : ClaimType → Int
  | .manualOverride => 3
  | .confirmed => 2
  | .raw => 1
  | .superseded => 0

/-- `WinnerPolicy._sort_key`.  The text of a UUID orders like its number. -/
def sortKey (sources : List Source) (c : Claim) : List Int :=
  let tier : Nat :=
    match Rows.lookup Source.id c.sourceId sources with
    | some src => src.reliabilityTier
    | none => 999
  [claimTypeRank c.claimType, -tier, -c.createdAt, c.id]

/-- `WinnerPolicy.choose_winner`: the first claim with the greatest key. -/
def chooseWinner (claims : List Claim) (sources : List Source) : Option Claim :=
  (claims.filter Claim.canWin).foldl (fun best c =>
    match best with
    | none => some c
    | some b => if sortKey sources b < sortKey sources c then some c else some b) none

/-! ## One field -/

section Build

variable [PyText]

/-- What one tier of claims says about a field. -/
def tierValue (sources : List Source) (tier : List Claim) : Option Projected :=
  if Disagree tier then some .disputed
  else (chooseWinner tier sources).map fun c => .value c.fieldValue

/-- The claims of one type. -/
def ofType (t : ClaimType) (claims : List Claim) : List Claim :=
  claims.filter fun c => c.claimType = t

/-- The authority tiers: overrides, else confirmed claims, else raw claims. -/
def tieredValue (sources : List Source) (fieldClaims : List Claim) : Option Projected :=
  let overrideClaims := ofType .manualOverride fieldClaims
  let confirmedClaims := ofType .confirmed fieldClaims
  if overrideClaims ≠ [] then tierValue sources overrideClaims
  else if confirmedClaims ≠ [] then tierValue sources confirmedClaims
  else tierValue sources (ofType .raw fieldClaims)

/-- The active claim that the latest RESOLVED conflict of a field selected. -/
def resolvedWinner (fieldClaims : List Claim) (resolved : Option ClaimConflict) : Option Claim :=
  match resolved.bind ClaimConflict.winningClaimId with
  | none => none
  | some winnerId => fieldClaims.find? fun c => c.id = winnerId

/-- The body of the loop of `ProjectionBuilder.build`; `none` when the field gets
no entry. -/
def projectField (eventId : Uuid) (claims : List Claim) (conflicts : List ClaimConflict)
    (sources : List Source) (fieldName : String) : Option Projected :=
  if conflicts.any fun c => c.eventId = eventId ∧ c.status = .open ∧ c.fieldName = fieldName then
    some .disputed
  else
    let fieldClaims := fieldGroup claims (eventId, fieldName)
    let resolved := latestResolved (conflicts.filter fun c => c.eventId = eventId) fieldName
    match resolvedWinner fieldClaims resolved with
    | some winner => some (.value winner.fieldValue)
    | none => tieredValue sources fieldClaims

/-- The fields `ProjectionBuilder.build` visits, in order. -/
def allFields (eventId : Uuid) (claims : List Claim) (conflicts : List ClaimConflict) :
    List String :=
  (Rows.distinct
    (((claims.filter fun c => c.eventId = eventId ∧ c.isActive).map Claim.fieldName) ++
      ((conflicts.filter fun c => c.eventId = eventId ∧ c.status = .open).map
        ClaimConflict.fieldName))).insertionSort (· ≤ ·)

/-- `ProjectionBuilder.build`. -/
def build (eventId : Uuid) (claims : List Claim) (conflicts : List ClaimConflict)
    (sources : List Source) (projectionVersion : Nat) (now : Time) : ProjectedAccidentRecord :=
  let visited := allFields eventId claims conflicts
  let fields := visited.filterMap fun f =>
    (projectField eventId claims conflicts sources f).map fun v => (f, v)
  { eventId := eventId
    projectionVersion := projectionVersion
    fields := fields
    completenessScore := completenessScore fields
    unresolvedConflictFields := visited.filter fun f =>
      projectField eventId claims conflicts sources f = some .disputed
    updatedAt := now }

/-! ## The fields of a projection -/

omit [PyText] in
theorem lookup_filterMap {β : Type} (f : String → Option β) (ks : List String) (k : String) :
    (ks.filterMap fun k => (f k).map fun v => (k, v)).lookup k = if k ∈ ks then f k else none := by
  induction ks with
  | nil => simp
  | cons j ks ih =>
      cases hj : f j with
      | none =>
          have hone : ((f j).map fun v => (j, v)) = none := by simp [hj]
          simp only [List.filterMap_cons, hone]
          rw [ih]
          by_cases hk : k = j
          · subst hk
            simp [hj]
          · simp [hk]
      | some v =>
          have hone : ((f j).map fun v => (j, v)) = some (j, v) := by simp [hj]
          simp only [List.filterMap_cons, hone]
          by_cases hk : k = j
          · subst hk
            simp [hj]
          · have hne : (k == j) = false := by simpa using hk
            rw [List.lookup_cons, hne, ih]
            simp [hk]

omit [PyText] in
theorem mem_allFields {eventId : Uuid} {claims : List Claim} {conflicts : List ClaimConflict}
    {f : String} :
    f ∈ allFields eventId claims conflicts ↔
      (∃ c ∈ claims, (c.eventId = eventId ∧ c.isActive) ∧ c.fieldName = f) ∨
        ∃ c ∈ conflicts, (c.eventId = eventId ∧ c.status = .open) ∧ c.fieldName = f := by
  unfold allFields
  rw [List.mem_insertionSort, Rows.mem_distinct, List.mem_append]
  simp [and_assoc]

/-- A field that is not visited would get no entry. -/
theorem projectField_of_notMem {eventId : Uuid} {claims : List Claim}
    {conflicts : List ClaimConflict} {f : String} (h : f ∉ allFields eventId claims conflicts)
    (sources : List Source) : projectField eventId claims conflicts sources f = none := by
  rw [mem_allFields, not_or] at h
  obtain ⟨hclaims, hconflicts⟩ := h
  have hopen : (conflicts.any fun c => c.eventId = eventId ∧ c.status = .open ∧ c.fieldName = f) =
      false := by
    rw [List.any_eq_false]
    intro c hc hopen
    simp only [decide_eq_true_eq] at hopen
    exact hconflicts ⟨c, hc, ⟨hopen.1, hopen.2.1⟩, hopen.2.2⟩
  have hgroup : fieldGroup claims (eventId, f) = [] := by
    unfold fieldGroup
    rw [List.filter_eq_nil_iff]
    intro c hc hin
    simp only [Prod.mk.injEq, decide_eq_true_eq] at hin
    exact hclaims ⟨c, hc, ⟨hin.2.1, hin.1⟩, hin.2.2⟩
  have hwinner : ∀ resolved, resolvedWinner [] resolved = none := by
    intro resolved
    unfold resolvedWinner
    split <;> rfl
  unfold projectField
  rw [hopen, hgroup]
  simp only [Bool.false_eq_true, if_false, hwinner]
  rfl

/-- **The entry of a field** in a projection. -/
theorem lookup_build (eventId : Uuid) (claims : List Claim) (conflicts : List ClaimConflict)
    (sources : List Source) (v : Nat) (now : Time) (f : String) :
    (build eventId claims conflicts sources v now).fields.lookup f =
      projectField eventId claims conflicts sources f := by
  unfold build
  dsimp only
  rw [lookup_filterMap]
  split
  · rfl
  · rename_i hf
    rw [projectField_of_notMem hf]

omit [PyText] in
theorem nodup_allFields (eventId : Uuid) (claims : List Claim) (conflicts : List ClaimConflict) :
    (allFields eventId claims conflicts).Nodup := by
  unfold allFields
  exact (List.perm_insertionSort _ _).nodup_iff.mpr (Rows.nodup_distinct _)

/-- The fields of a projection have distinct names. -/
theorem nodup_build_fields (eventId : Uuid) (claims : List Claim) (conflicts : List ClaimConflict)
    (sources : List Source) (v : Nat) (now : Time) :
    ((build eventId claims conflicts sources v now).fields.map Prod.fst).Nodup := by
  have hsub : ∀ ks : List String, ((ks.filterMap fun f =>
      (projectField eventId claims conflicts sources f).map fun v => (f, v)).map Prod.fst).Sublist
        ks := by
    intro ks
    induction ks with
    | nil => exact List.Sublist.refl _
    | cons k ks ih =>
        cases hk : projectField eventId claims conflicts sources k with
        | none =>
            have hone : ((projectField eventId claims conflicts sources k).map fun v => (k, v)) =
                none := by simp [hk]
            simp only [List.filterMap_cons, hone]
            exact ih.cons k
        | some x =>
            have hone : ((projectField eventId claims conflicts sources k).map fun v => (k, v)) =
                some (k, x) := by simp [hk]
            simp only [List.filterMap_cons, hone, List.map_cons]
            exact ih.cons_cons k
  exact (hsub _).nodup (nodup_allFields eventId claims conflicts)

/-! ## When a field is disputed -/

/-- A disputed tier disagrees. -/
theorem tierValue_disputed {sources : List Source} {tier : List Claim} :
    tierValue sources tier = some .disputed ↔ Disagree tier := by
  unfold tierValue
  by_cases h : Disagree tier
  · simp [h]
  · simp [h]

/-- Where the tiers leave a field disputed, its active claims disagree. -/
theorem disagree_of_tieredValue {sources : List Source} {fieldClaims : List Claim}
    (h : tieredValue sources fieldClaims = some .disputed) : Disagree fieldClaims := by
  have htier : ∀ t, tierValue sources (ofType t fieldClaims) = some .disputed →
      Disagree fieldClaims := by
    intro t ht
    exact (tierValue_disputed.mp ht).of_sublist List.filter_sublist
  dsimp only [tieredValue] at h
  split at h
  · exact htier _ h
  · split at h
    · exact htier _ h
    · exact htier _ h

/-- **Why a field is disputed.**  It has an OPEN conflict, or its active claims
disagree and no RESOLVED conflict has an active winner. -/
theorem projectField_disputed {eventId : Uuid} {claims : List Claim}
    {conflicts : List ClaimConflict} {sources : List Source} {fieldName : String}
    (h : projectField eventId claims conflicts sources fieldName = some .disputed) :
    (∃ c ∈ conflicts, c.eventId = eventId ∧ c.status = .open ∧ c.fieldName = fieldName) ∨
      (Disagree (fieldGroup claims (eventId, fieldName)) ∧
        resolvedWinner (fieldGroup claims (eventId, fieldName))
          (latestResolved (conflicts.filter fun c => c.eventId = eventId) fieldName) = none) := by
  unfold projectField at h
  split at h
  · rename_i hopen
    left
    simpa using hopen
  · right
    dsimp only at h
    split at h
    · simp at h
    · rename_i hnone
      exact ⟨disagree_of_tieredValue h, hnone⟩

theorem mem_unresolvedConflictFields {eventId : Uuid} {claims : List Claim}
    {conflicts : List ClaimConflict} {sources : List Source} {v : Nat} {now : Time} {f : String}
    (h : f ∈ (build eventId claims conflicts sources v now).unresolvedConflictFields) :
    projectField eventId claims conflicts sources f = some .disputed := by
  have hmem := (List.mem_filter.mp h).2
  simpa using hmem

end Build

end Atlas
