import Atlas.ArgusReviews
import Atlas.Chronos
import Atlas.HermesChanges

/-!
# Argus detection

A detection pass reads what is pending in Chronos, what Hermes logged last and which events have
many open conflicts.  Every finding raises a signal under the dedupe key of what it is about, and
links the rows it rests on as evidence.  An engine whose read fails is reported and left out.

A read that fails in the process leaves the transaction usable.  One that fails at the database
aborts it, since no savepoint is set: every later read fails as well, and the commit at the end
is a rollback.  The writes of a pass, and the reads of the conflicts of one event, are taken to
succeed; their errors leave the use case.
-/

namespace Atlas

open Rows

/-! ## Severities -/

/-- `severity_for_chronos_sequence_conflict`. -/
def severityForChronosSequenceConflict : ArgusSeverity × ℚ := (.medium, 95 / 100)

/-- `severity_for_hermes_source_change`. -/
def severityForHermesSourceChange : HermesChangeType → ArgusSeverity × ℚ
  | .firstSeen => (.low, 80 / 100)
  | .contentChanged => (.medium, 90 / 100)
  | .contentUnchanged => (.low, 60 / 100)
  | .fetchFailed => (.low, 70 / 100)

/-- `severity_for_hermes_fetch_failure_spike`. -/
def severityForHermesFetchFailureSpike (count : Nat) : ArgusSeverity × ℚ :=
  if count ≥ 10 then (.high, 90 / 100)
  else if count ≥ 5 then (.medium, 80 / 100)
  else (.low, 60 / 100)

/-- `severity_for_atlas_high_conflict`. -/
def severityForAtlasHighConflict (openConflictCount : Nat) : ArgusSeverity × ℚ :=
  if openConflictCount ≥ 20 then (.critical, 95 / 100)
  else if openConflictCount ≥ 10 then (.high, 90 / 100)
  else if openConflictCount ≥ 5 then (.medium, 85 / 100)
  else (.low, 75 / 100)

/-! ## Tables and results -/

inductive ArgusEngine where
  | chronos
  | hermes
  | atlas
  | orion
deriving DecidableEq, Repr

def ArgusEngine.value : ArgusEngine → String
  | chronos => "chronos"
  | hermes => "hermes"
  | atlas => "atlas"
  | orion => "orion"

/-- The Argus tables; the dedupe key is unique. -/
structure ArgusTables where
  nextId : Uuid
  signals : List ArgusSignal
  evidence : List ArgusSignalEvidence
  unique : Unique ArgusSignal.dedupeKey signals

def ArgusTables.empty : ArgusTables := ⟨0, [], [], unique_nil _⟩

/-- A link has no id here but what it links, which is unique; `evidenceIds` lists the links. -/
structure ArgusDetectionResult where
  signalsCreatedCount : Nat
  signalsReusedCount : Nat
  evidenceLinksCreatedCount : Nat
  signalIds : List Uuid
  evidenceIds : List ArgusSignalEvidence
  enginesErrored : List ArgusEngine
  enginesSkipped : List ArgusEngine
  signalsCreatedByType : List (ArgusSignalType × Nat)
deriving DecidableEq, Repr

/-- How the read of an engine goes: it answers, it raises in the process, or it fails at the
database. -/
inductive ArgusRead where
  | answers
  | raises
  | aborts
deriving DecidableEq, Repr

/-- What a pass has done so far, and whether its transaction was aborted. -/
structure Detection where
  tables : ArgusTables
  result : ArgusDetectionResult
  aborted : Bool

namespace Detection

def start (tables : ArgusTables) : Detection := ⟨tables, ⟨0, 0, 0, [], [], [], [], []⟩, false⟩

/-- The engine could not read. -/
def errored (d : Detection) (engine : ArgusEngine) : Detection :=
  { d with result := { d.result with enginesErrored := d.result.enginesErrored ++ [engine] } }

def skipped (d : Detection) (engine : ArgusEngine) : Detection :=
  { d with result := { d.result with enginesSkipped := d.result.enginesSkipped ++ [engine] } }

/-- One more in the counts by type. -/
def countType (signalType : ArgusSignalType) (counts : List (ArgusSignalType × Nat)) :
    List (ArgusSignalType × Nat) :=
  upsertWith Prod.fst (signalType, 1) (fun p => (p.1, p.2 + 1)) counts

/-- `_upsert_signal`: the id of the row, and the counts. -/
def upsertSignal (d : Detection) (signal : ArgusSignal) : Uuid × Detection :=
  let persisted := (persistedSignal d.tables.signals signal).getD signal
  let created := (lookup ArgusSignal.dedupeKey signal.dedupeKey d.tables.signals).isNone
  let tables : ArgusTables :=
    { d.tables with
      signals := Atlas.upsertSignal d.tables.signals signal
      unique := d.tables.unique.upsertWith fun _ => rfl }
  let result :=
    if created then
      { d.result with
        signalsCreatedCount := d.result.signalsCreatedCount + 1
        signalsCreatedByType := countType signal.signalType d.result.signalsCreatedByType }
    else { d.result with signalsReusedCount := d.result.signalsReusedCount + 1 }
  (persisted.id,
    { d with tables, result := { result with signalIds := insertKey result.signalIds persisted.id } })

/-- `_upsert_evidence`. -/
def upsertEvidence (d : Detection) (evidence : ArgusSignalEvidence) : Detection where
  tables := { d.tables with evidence := Atlas.upsertEvidence d.tables.evidence evidence }
  result :=
    if evidence ∈ d.tables.evidence then d.result
    else
      { d.result with
        evidenceLinksCreatedCount := d.result.evidenceLinksCreatedCount + 1
        evidenceIds := d.result.evidenceIds ++ [evidence] }
  aborted := d.aborted

def uuid4 (d : Detection) : Uuid × Detection :=
  (d.tables.nextId, { d with tables := { d.tables with nextId := d.tables.nextId + 1 } })

/-- The guarded read of an engine, and what the engine does with the answer.  On an aborted
transaction no read succeeds. -/
def guarded (d : Detection) (engine : ArgusEngine) (read : ArgusRead)
    (found : Detection → Detection) : Detection :=
  if d.aborted then d.errored engine
  else
    match read with
    | .answers => found d
    | .raises => d.errored engine
    | .aborts => { d.errored engine with aborted := true }

end Detection

/-! ## Findings -/

/-- What an engine found, and the rows it rests on. -/
structure ArgusFinding where
  signalType : ArgusSignalType
  severity : ArgusSeverity
  confidence : ℚ
  title : String
  engine : ArgusEngine
  parts : List String
  evidence : List (ArgusEvidenceType × Uuid)

section Key

variable [PyText]

def ArgusFinding.key (f : ArgusFinding) : String :=
  makeArgusDedupeKey f.signalType f.engine.value f.parts

def ArgusFinding.signal (f : ArgusFinding) (id : Uuid) (now : Time) : ArgusSignal :=
  ⟨id, f.signalType, .open, f.severity, f.confidence, f.title, f.engine.value, f.key, 1, now, now⟩

/-- Raise the signal of a finding and link its evidence. -/
def Detection.raise (now : Time) (d : Detection) (f : ArgusFinding) : Detection :=
  let (id, d) := d.uuid4
  let (signalId, d) := d.upsertSignal (f.signal id now)
  f.evidence.foldl (fun d e => d.upsertEvidence ⟨signalId, e.1, e.2⟩) d

end Key

/-- A row of the change log, with its id. -/
structure LoggedChange extends HermesSourceChange where
  id : Uuid
deriving DecidableEq

/-- The tables that the detectors read. -/
structure ArgusSources where
  reviews : List ChronosSequenceReview
  changes : List LoggedChange
  conflicts : List ClaimConflict

structure RunArgusSignalDetectionInput where
  includeChronos : Bool
  includeHermes : Bool
  includeAtlas : Bool
  includeOrion : Bool
  recentLimit : Int
  highConflictThreshold : Int
  read : ArgusEngine → ArgusRead
  now : Time

namespace ArgusSources

variable (src : ArgusSources)

/-! ### Chronos -/

/-- `chronos_sequence_reviews.list_pending`: reviews are stored in the order they are made. -/
def listPending (limit : Nat) : List ChronosSequenceReview := src.reviews.take limit

def chronosFinding (review : ChronosSequenceReview) : ArgusFinding where
  signalType := .timelineSequenceConflict
  severity := severityForChronosSequenceConflict.1
  confidence := severityForChronosSequenceConflict.2
  title := "Timeline sequence conflict detected"
  engine := .chronos
  parts := [toString review.id]
  evidence := [(.chronosSequenceReview, review.id)]

/-! ### Hermes -/

/-- `hermes_source_changes.list_recent`. -/
def listRecent (limit : Nat) : List LoggedChange :=
  (src.changes.insertionSort fun a b => b.detectedAt ≤ a.detectedAt).take limit

/-- The text of a change type. -/
def changeTypeValue : HermesChangeType → String
  | .firstSeen => "FIRST_SEEN"
  | .contentChanged => "CONTENT_CHANGED"
  | .contentUnchanged => "CONTENT_UNCHANGED"
  | .fetchFailed => "FETCH_FAILED"

def changeFinding (change : LoggedChange) : ArgusFinding where
  signalType := .newSourceChange
  severity := (severityForHermesSourceChange change.changeType).1
  confidence := (severityForHermesSourceChange change.changeType).2
  title :=
    if change.changeType = .firstSeen then "New source first seen" else "Source content changed"
  engine := .hermes
  parts := [toString change.targetId, changeTypeValue change.changeType]
  evidence := [(.hermesSourceChange, change.id)]

/-- `_FETCH_FAILURE_SPIKE_THRESHOLD`. -/
def fetchFailureSpikeThreshold : Nat := 5

/-- The failures of one target. -/
def failuresOf (changes : List LoggedChange) (targetId : Uuid) : List LoggedChange :=
  changes.filter fun c => decide (c.changeType = .fetchFailed ∧ c.targetId = targetId)

def spikeFinding (targetId : Uuid) (failures : List LoggedChange) : ArgusFinding where
  signalType := .sourceFetchFailureSpike
  severity := (severityForHermesFetchFailureSpike failures.length).1
  confidence := (severityForHermesFetchFailureSpike failures.length).2
  title := "Fetch failure spike: " ++ toString failures.length ++ " recent failures for target"
  engine := .hermes
  parts := [toString targetId]
  evidence := failures.map fun c => (.hermesSourceChange, c.id)

/-- The changes one by one, then the bursts of failures by target. -/
def hermesFindings (changes : List LoggedChange) : List ArgusFinding :=
  let nonFailureChanges := changes.filter fun c =>
    decide (c.changeType ≠ .fetchFailed ∧ c.changeType ≠ .contentUnchanged)
  let failedTargets :=
    distinct ((changes.filter fun c => decide (c.changeType = .fetchFailed)).map fun c => c.targetId)
  let spikes := failedTargets.filter fun t =>
    decide (fetchFailureSpikeThreshold ≤ (failuresOf changes t).length)
  nonFailureChanges.map changeFinding ++ spikes.map fun t => spikeFinding t (failuresOf changes t)

/-! ### Atlas -/

def openConflicts (eventId : Uuid) : List ClaimConflict :=
  src.conflicts.filter fun c => decide (c.eventId = eventId ∧ c.status = .open)

/-- `conflicts.count_open_conflicts_per_event`: the events with the most open conflicts. -/
def countOpenConflictsPerEvent (minCount limit : Nat) : List (Uuid × Nat) :=
  let events :=
    distinct ((src.conflicts.filter fun c => decide (c.status = .open)).map ClaimConflict.eventId)
  let counts := events.map fun e => (e, (src.openConflicts e).length)
  let high := counts.filter fun p => decide (minCount ≤ p.2)
  (high.insertionSort fun a b => toLex (b.2, a.1) ≤ toLex (a.2, b.1)).take limit

/-- The open ones of `conflicts.find_by_event`. -/
def evidenceConflicts (eventId : Uuid) : List ClaimConflict :=
  (src.openConflicts eventId).insertionSort fun a b =>
    toLex (b.createdAt, b.id) ≤ toLex (a.createdAt, a.id)

def conflictFinding (eventId : Uuid) (openCount : Nat) : ArgusFinding where
  signalType := .highConflictAccidentRecord
  severity := (severityForAtlasHighConflict openCount).1
  confidence := (severityForAtlasHighConflict openCount).2
  title := "High-conflict accident record: " ++ toString openCount ++ " open conflicts"
  engine := .atlas
  parts := [toString eventId]
  evidence := (src.evidenceConflicts eventId).map fun c => (.atlasConflict, c.id)

/-! ## A pass -/

variable [PyText] (input : RunArgusSignalDetectionInput)

/-- `_detect_chronos`. -/
def detectChronos (d : Detection) : Detection :=
  d.guarded .chronos (input.read .chronos) fun d =>
    ((src.listPending input.recentLimit.toNat).map chronosFinding).foldl (.raise input.now) d

/-- `_detect_hermes`. -/
def detectHermes (d : Detection) : Detection :=
  d.guarded .hermes (input.read .hermes) fun d =>
    (hermesFindings (src.listRecent input.recentLimit.toNat)).foldl (.raise input.now) d

/-- `_detect_atlas`. -/
def detectAtlas (d : Detection) : Detection :=
  if input.highConflictThreshold < 2 then d
  else
    d.guarded .atlas (input.read .atlas) fun d =>
      let highEvents :=
        src.countOpenConflictsPerEvent input.highConflictThreshold.toNat input.recentLimit.toNat
      (highEvents.map fun p => src.conflictFinding p.1 p.2).foldl (.raise input.now) d

/-- The engines of a pass, one after another. -/
def detect (tables : ArgusTables) : Detection :=
  let d := Detection.start tables
  let d := if input.includeChronos then src.detectChronos input d else d
  let d := if input.includeHermes then src.detectHermes input d else d
  let d := if input.includeAtlas then src.detectAtlas input d else d
  if input.includeOrion then d.skipped .orion else d

/-- `RunArgusSignalDetection.execute`: the result, and the tables after the commit or the
rollback; `none` is the `ValueError` of a bad limit.  The database answers the commit of an aborted
transaction with a rollback. -/
def runArgusSignalDetection (tables : ArgusTables) : Option (ArgusDetectionResult × ArgusTables) :=
  if 1 ≤ input.recentLimit ∧ input.recentLimit ≤ 1000 then
    let d := src.detect input tables
    let wroteAnything := d.result.signalsCreatedCount + d.result.signalsReusedCount +
      d.result.evidenceLinksCreatedCount > 0
    some (d.result, if wroteAnything ∧ d.aborted = false then d.tables else tables)
  else none

end ArgusSources

end Atlas
