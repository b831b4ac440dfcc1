import Atlas.Entities
import Atlas.Lib.Rows

/-!
# Argus signals

Detection passes and Echo runs raise signals for reviewers.  A signal is identified
by its dedupe key: raising it again refreshes the row there is, and never touches
its version.
-/

namespace Atlas

open Rows

inductive ArgusSignalType where
  | newSourceChange
  | timelineSequenceConflict
  | highConflictAccidentRecord
  | repeatedAircraftInvolvement
  | repeatedOperatorInvolvement
  | sourceFetchFailureSpike
  | echoStrongPrecedentMatch
deriving DecidableEq, Repr

def ArgusSignalType.value : ArgusSignalType → String
  | newSourceChange => "NEW_SOURCE_CHANGE"
  | timelineSequenceConflict => "TIMELINE_SEQUENCE_CONFLICT"
  | highConflictAccidentRecord => "HIGH_CONFLICT_ACCIDENT_RECORD"
  | repeatedAircraftInvolvement => "REPEATED_AIRCRAFT_INVOLVEMENT"
  | repeatedOperatorInvolvement => "REPEATED_OPERATOR_INVOLVEMENT"
  | sourceFetchFailureSpike => "SOURCE_FETCH_FAILURE_SPIKE"
  | echoStrongPrecedentMatch => "ECHO_STRONG_PRECEDENT_MATCH"

inductive ArgusSeverity where
  | low
  | medium
  | high
  | critical
deriving DecidableEq, Repr

/-- `severity_rank`. -/
def ArgusSeverity.rank : ArgusSeverity → Nat
  | low => 0
  | medium => 1
  | high => 2
  | critical => 3

inductive ArgusSignalStatus where
  | open
  | confirmed
  | dismissed
  | needsMoreReview
  | autoResolved
deriving DecidableEq, Repr

structure ArgusSignal where
  id : Uuid
  signalType : ArgusSignalType
  status : ArgusSignalStatus
  severity : ArgusSeverity
  confidence : ℚ
  title : String
  sourceEngine : String
  dedupeKey : String
  version : Nat
  firstDetectedAt : Time
  lastDetectedAt : Time
deriving DecidableEq, Repr

inductive ArgusEvidenceType where
  | atlasClaim
  | atlasConflict
  | atlasAccidentEvent
  | orionEntity
  | orionRelationship
  | chronosTimelineEvent
  | chronosSequenceReview
  | hermesSourceChange
  | hermesFetchJob
  | hermesFetchedDocument
  | echoCrossrefResult
deriving DecidableEq, Repr

structure ArgusSignalEvidence where
  signalId : Uuid
  evidenceType : ArgusEvidenceType
  evidenceId : Uuid
deriving DecidableEq, Repr

/-- `make_argus_dedupe_key`. -/
def makeArgusDedupeKey [PyText] (signalType : ArgusSignalType) (sourceEngine : String)
    (parts : List String) : String :=
  "::".intercalate (["ARGUS", signalType.value, PyText.lower (strip sourceEngine)] ++
    parts.map fun p => PyText.lower (strip p))

/-- What `upsert_signal` does to the row it finds: a later detection may raise the
severity and the confidence and reopens an auto-resolved signal. -/
def ArgusSignal.refresh (new old : ArgusSignal) : ArgusSignal :=
  { old with
    lastDetectedAt := new.lastDetectedAt
    status := if old.status = .autoResolved then .open else old.status
    severity := if old.severity.rank < new.severity.rank then new.severity else old.severity
    confidence := if old.confidence < new.confidence then new.confidence else old.confidence }

/-- `argus_signals.upsert_signal`: the rows after it.  A new row is OPEN at version 1. -/
def upsertSignal (signals : List ArgusSignal) (signal : ArgusSignal) : List ArgusSignal :=
  upsertWith ArgusSignal.dedupeKey { signal with status := .open, version := 1 } signal.refresh
    signals

/-- The row that `upsert_signal` returns. -/
def persistedSignal (signals : List ArgusSignal) (signal : ArgusSignal) : Option ArgusSignal :=
  lookup ArgusSignal.dedupeKey signal.dedupeKey (upsertSignal signals signal)

/-- `argus_signal_evidence.upsert_evidence`. -/
def upsertEvidence (evidence : List ArgusSignalEvidence) (e : ArgusSignalEvidence) :
    List ArgusSignalEvidence :=
  if e ∈ evidence then evidence else evidence ++ [e]

end Atlas
