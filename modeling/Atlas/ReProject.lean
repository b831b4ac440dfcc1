import Atlas.Lib.Outcome
import Atlas.ProjectionBuilder

/-!
# Reprojection and its checker

`ReProjectEvent.execute` rebuilds the stored projection of one event from its
active claims and conflicts, records every change of content in the projection
history, and replaces the projection of a merged event by a tombstone.
`VerifyProjectionConsistency.execute` recomputes the projection and compares it
with the stored row.

A content hash stands for the canonical bytes it digests: the serialised
content with the keys of every object in order.
-/

namespace Atlas

open Outcome

/-! ## Serialisation -/

/-- `replace_disputed` on one projected value. -/
def Projected.serialise : Projected → Json
  | .disputed => .str disputedMarker
  | .value j => j

/-- `replace_disputed` on the data map. -/
def serialiseFields (fields : List (String × Projected)) : List (String × Json) :=
  fields.map fun kv => (kv.1, kv.2.serialise)

theorem lookup_serialiseFields (fields : List (String × Projected)) (name : String) :
    (serialiseFields fields).lookup name = (fields.lookup name).map Projected.serialise := by
  unfold serialiseFields
  induction fields with
  | nil => rfl
  | cons kv fields ih =>
      rw [List.map_cons, List.lookup_cons, List.lookup_cons, ih]
      cases name == kv.1 <;> rfl

/-- A data map read back from the store. -/
def storedFields (fields : List (String × Json)) : List (String × Projected) :=
  fields.map fun kv => (kv.1, .value kv.2)

mutual
/-- `json.dumps(..., allow_nan=False)` accepts the value. -/
def Json.serialisable : Json → Bool
  | .num (.float .nan) => false
  | .num (.float (.inf _)) => false
  | .arr xs => Json.serialisableList xs
  | .obj kvs => Json.serialisableFields kvs
  | _ => true

def Json.serialisableList : List Json → Bool
  | [] => true
  | x :: xs => x.serialisable && Json.serialisableList xs

def Json.serialisableFields : List (String × Json) → Bool
  | [] => true
  | (_, x) :: kvs => x.serialisable && Json.serialisableFields kvs
end

mutual
/-- The value with the keys of every object in order (`sort_keys=True`). -/
def Json.canonical : Json → Json
  | .arr xs => .arr (Json.canonicalList xs)
  | .obj kvs => .obj (sortFields (Json.canonicalFields kvs))
  | v => v

def Json.canonicalList : List Json → List Json
  | [] => []
  | x :: xs => x.canonical :: Json.canonicalList xs

def Json.canonicalFields : List (String × Json) → List (String × Json)
  | [] => []
  | (k, x) :: kvs => (k, x.canonical) :: Json.canonicalFields kvs
end

/-- `_projection_content_hash`: the canonical content, or an
`InvariantViolationError` when it is not JSON. -/
def projectionContentHash (p : ProjectedAccidentRecord) : Except AtlasError ProjectionContent :=
  let fields := serialiseFields p.fields
  if Json.serialisableFields fields then
    .ok ⟨sortFields (Json.canonicalFields fields), p.unresolvedConflictFields, p.completenessScore⟩
  else .error (.invariantViolation "projection content must be JSON-serializable")

/-! ## Python equality of data maps -/

/-- `==` on projected values; the sentinel equals only itself. -/
def Projected.pyEq : Projected → Projected → Bool
  | .disputed, .disputed => true
  | .value a, .value b => a.pyEq b
  | _, _ => false

/-- `fields.get(a) == fields.get(b)`: an absent key reads as `None`. -/
def getPyEq (a b : Option Projected) : Bool :=
  (a.getD (.value .null)).pyEq (b.getD (.value .null))

/-- `==` on data maps. -/
def fieldsPyEq (xs ys : List (String × Projected)) : Bool :=
  xs.length == ys.length && xs.all fun kv =>
    match ys.lookup kv.1 with
    | some v => kv.2.pyEq v
    | none => false

/-- `sorted(set(a) | set(b))` on the keys of two data maps. -/
def unionKeys (xs ys : List (String × Projected)) : List String :=
  (Rows.distinct (xs.map Prod.fst ++ ys.map Prod.fst)).insertionSort (· ≤ ·)

/-- `_changed_fields`. -/
def changedFields (currentProj : Option ProjectedAccidentRecord) (p : ProjectedAccidentRecord) :
    List String :=
  match currentProj with
  | none => (p.fields.map Prod.fst).insertionSort (· ≤ ·)
  | some cur =>
      ((unionKeys cur.fields p.fields).filter fun f =>
          !getPyEq (cur.fields.lookup f) (p.fields.lookup f)) ++
        (if cur.unresolvedConflictFields ≠ p.unresolvedConflictFields then
          ["unresolved_conflict_fields"] else []) ++
        (if cur.completenessScore ≠ p.completenessScore then ["completeness_score"] else [])

/-! ## Reprojection -/

/-- The arguments of `ReProjectEvent.execute`, and the clock. -/
structure ReProjectCall where
  eventId : Uuid
  causedByConflictId : Option Uuid
  causedByIngestionRunId : Option Uuid
  causedByOutboxEventId : Option Uuid
  forceHistory : Bool
  now : Time
deriving DecidableEq, Repr

namespace Db

/-- The row `projections.upsert` writes: the sentinel becomes its marker. -/
def storedRow (p : ProjectedAccidentRecord) : ProjectedAccidentRecord :=
  { p with fields := storedFields (serialiseFields p.fields) }

/-- The history row `_persist_projection` writes. -/
def historyRow (call : ReProjectCall) (currentProj : Option ProjectedAccidentRecord)
    (p : ProjectedAccidentRecord) : AccidentProjectionHistory where
  accidentEventId := p.eventId
  projectionVersion := p.projectionVersion
  causedByConflictId := call.causedByConflictId
  causedByIngestionRunId := call.causedByIngestionRunId
  causedByOutboxEventId := call.causedByOutboxEventId
  snapshot := ⟨serialiseFields p.fields, p.unresolvedConflictFields, p.completenessScore⟩
  changedFields := changedFields currentProj p

/-- The stored row, when its content hash is the new one and no history row is
forced. -/
def unchangedRow (call : ReProjectCall) (currentProj : Option ProjectedAccidentRecord)
    (contentHash : ProjectionContent) : Except AtlasError (Option ProjectedAccidentRecord) :=
  match currentProj with
  | some cur =>
      if call.forceHistory then pure none
      else do
        let currentHash ← projectionContentHash cur
        pure (if contentHash = currentHash then some cur else none)
  | none => pure none

/-- `_persist_projection`: skip a write that changes no content, else store the
row and append to the history. -/
def persistProjection (s : Db) (call : ReProjectCall)
    (currentProj : Option ProjectedAccidentRecord) (p : ProjectedAccidentRecord) :
    Except AtlasError (ProjectedAccidentRecord × Db) := do
  let contentHash ← projectionContentHash p
  let unchanged ← unchangedRow call currentProj contentHash
  match unchanged with
  | some cur => pure (cur, s)
  | none => do
      let s' ← (s.upsertProjection (storedRow p)).addProjectionHistory (historyRow call currentProj p)
      pure (p, s')

/-- `_restore_projection_from_history`. -/
def restoreProjectionFromHistory (s : Db) (eventId : Uuid) (history : AccidentProjectionHistory)
    (now : Time) : Except AtlasError (ProjectedAccidentRecord × Db) := do
  require (history.accidentEventId = eventId) (.runtime "Projection history event mismatch")
  let p : ProjectedAccidentRecord :=
    { eventId := eventId
      projectionVersion := history.projectionVersion
      fields := storedFields history.snapshot.fields
      completenessScore := history.snapshot.completenessScore
      unresolvedConflictFields := history.snapshot.unresolvedConflictFields
      updatedAt := now }
  pure (p, s.upsertProjection p)

/-- `(current_proj.projection_version + 1) if current_proj else 1`. -/
def nextVersion (currentProj : Option ProjectedAccidentRecord) : Nat :=
  match currentProj with
  | some cur => cur.projectionVersion + 1
  | none => 1

/-- The minimal read model of a merged event. -/
def tombstone (eventId mergedInto : Uuid) (version : Nat) (now : Time) :
    ProjectedAccidentRecord where
  eventId := eventId
  projectionVersion := version
  fields := [("is_merged", .value (.bool true)),
    ("merged_into_event_id", .value (.str (toString mergedInto)))]
  completenessScore := 0
  unresolvedConflictFields := []
  updatedAt := now

section ReProject

variable [PyText]

/-- `ProjectionBuilder().build` on what the store holds for the event. -/
def buildFrom (s : Db) (eventId : Uuid) (version : Nat) (now : Time) : ProjectedAccidentRecord :=
  let claims := s.findActiveByEvent eventId
  build eventId claims (s.findConflictsByEvent eventId)
    (s.getSourcesByIds (claims.map Claim.sourceId)) version now

/-- The rebuild of `ReProjectEvent.execute`, after the outbox check. -/
def rebuildProjection (s : Db) (call : ReProjectCall) :
    Except AtlasError (ProjectedAccidentRecord × Db) :=
  let currentProj := s.getProjection call.eventId
  match (s.getEvent call.eventId).bind AccidentEvent.mergedInto with
  | some target =>
      s.persistProjection call currentProj
        (tombstone call.eventId target (nextVersion currentProj) call.now)
  | none => do
      require ((s.getEvent call.eventId).isSome ∨ s.findActiveByEvent call.eventId ≠ [])
        (.eventNotFound call.eventId)
      s.persistProjection call currentProj
        (s.buildFrom call.eventId (nextVersion currentProj) call.now)

/-- `ReProjectEvent.execute`.  Its advisory lock serialises the callers; the
result is the projection returned and the store it leaves. -/
def reProjectEvent (s : Db) (call : ReProjectCall) :
    Except AtlasError (ProjectedAccidentRecord × Db) :=
  let merged := (s.getEvent call.eventId).any AccidentEvent.isMerged
  match call.causedByOutboxEventId.bind s.findHistoryByOutboxEvent with
  | none => s.rebuildProjection call
  | some existing =>
      if merged then s.rebuildProjection { call with causedByOutboxEventId := none }
      else
        match s.getProjection call.eventId with
        | some cur => .ok (cur, s)
        | none => s.restoreProjectionFromHistory call.eventId existing call.now

/-! ## Verification -/

/-- The report of `VerifyProjectionConsistency.execute`. -/
structure ConsistencyReport where
  consistent : Bool
  eventId : Uuid
  storedVersion : Option Nat
  projectionAbsentExpected : Bool
  /-- Key, stored value, recomputed value. -/
  fieldDiff : List (String × Option Projected × Option Projected)
  unresolvedConflictFieldsDiff : Option (List String × List String)
  completenessScoreDiff : Option (ℚ × ℚ)
deriving DecidableEq, Repr

/-- What the checker recomputes for the event. -/
def recompute (s : Db) (eventId : Uuid) (stored : ProjectedAccidentRecord) :
    ProjectedAccidentRecord :=
  match (s.getEvent eventId).bind AccidentEvent.mergedInto with
  | some target => tombstone eventId target stored.projectionVersion stored.updatedAt
  | none => s.buildFrom eventId stored.projectionVersion stored.updatedAt

/-- The comparison of `VerifyProjectionConsistency.execute`. -/
def compareProjections (eventId : Uuid) (recomputed stored : ProjectedAccidentRecord) :
    ConsistencyReport :=
  let sorted (xs : List String) := xs.insertionSort (· ≤ ·)
  let fieldsMatch := fieldsPyEq recomputed.fields stored.fields
  let conflictsMatch :=
    sorted recomputed.unresolvedConflictFields == sorted stored.unresolvedConflictFields
  let completenessMatch : Bool :=
    |recomputed.completenessScore - stored.completenessScore| < 1 / 1000000000
  { consistent := fieldsMatch && conflictsMatch && completenessMatch
    eventId := eventId
    storedVersion := some stored.projectionVersion
    projectionAbsentExpected := false
    fieldDiff :=
      if fieldsMatch then []
      else
        ((unionKeys stored.fields recomputed.fields).filter fun f =>
            !getPyEq (stored.fields.lookup f) (recomputed.fields.lookup f)).map fun f =>
          (f, stored.fields.lookup f, recomputed.fields.lookup f)
    unresolvedConflictFieldsDiff :=
      if conflictsMatch then none
      else
        some (sorted stored.unresolvedConflictFields, sorted recomputed.unresolvedConflictFields)
    completenessScoreDiff :=
      if completenessMatch then none
      else some (stored.completenessScore, recomputed.completenessScore) }

/-- `VerifyProjectionConsistency.execute`; `none` when a projection is missing
and should be there. -/
def verifyProjectionConsistency (s : Db) (eventId : Uuid) : Option ConsistencyReport :=
  match s.getProjection eventId with
  | none =>
      if (s.getEvent eventId).any AccidentEvent.isMerged then
        some ⟨true, eventId, none, true, [], none, none⟩
      else none
  | some stored => some (compareProjections eventId (s.recompute eventId stored) stored)

end ReProject

end Db

end Atlas
