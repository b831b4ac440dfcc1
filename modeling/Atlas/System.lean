import Atlas.CuratorActions
import Atlas.Ingest
import Atlas.Lib.Runs
import Atlas.Merge
import Atlas.Outbox

/-!
# The system as one state machine

The committed store changes by whole use cases: ingestion, the two curator
actions, merges and duplicate reviews, reprojections, full rebuilds and the
outbox worker.  A use case that raises is rolled back, so its step leaves the
store as it was.

The results about committed states range over all runs of this machine from a
store that holds its sources and nothing else.
-/

namespace Atlas

open Outcome

namespace Db

section Maintenance

variable [PyText]

/-- `RebuildAllProjections.execute`: reproject the events in id order, each in a
transaction of its own, and go on past failures. -/
def rebuildAllProjections (s : Db) (maxEvents : Option Nat) (now : Time) : Db :=
  let ids := (s.events.map AccidentEvent.id).insertionSort (· ≤ ·)
  let ids := match maxEvents with
    | some n => ids.take n
    | none => ids
  ids.foldl (fun s id =>
    match s.reProjectEvent ⟨id, none, none, none, false, now⟩ with
    | .ok (_, s') => s'
    | .error _ => s) s

/-- The name of the worker that runs alone. -/
def soleWorker : String := "worker-1"

/-- `OutboxWorker._process_event` up to the acknowledgement: reproject the event
unless the history shows that this was done for the row. -/
def projectOutboxEvent (s : Db) (o : OutboxEvent) (now : Time) : Except AtlasError Db :=
  let merged := (s.getEvent o.eventId).any AccidentEvent.isMerged
  if (s.findHistoryByOutboxEvent o.id).isSome ∧ merged = false then pure s
  else do
    let (_, s') ← s.reProjectEvent ⟨o.eventId, none, o.ingestionRunId, some o.id, false, now⟩
    pure s'

/-- `OutboxWorker.process_batch` on one row: lease it, process it and acknowledge
it.  A failed attempt leaves the row to be tried again. -/
def processEvent (s : Db) (outboxId : Uuid) (now : Time) : Except AtlasError Db := do
  let o ← fromOption (s.getOutbox outboxId) (.runtime "outbox event not found")
  require (fetchable o) (.runtime "outbox event not up for processing")
  let s ← (s.fetchAndLock o.id soleWorker now).projectOutboxEvent o now
  pure (s.updateStatus o.id .processed soleWorker (o.attemptCount + 1)).2

end Maintenance

end Db

/-- One committed operation. -/
inductive Op where
  | ingest (call : Db.IngestCall)
  | resolve (call : ResolveCall)
  | reopen (call : ReopenCall)
  | merge (call : MergeCall)
  | review (call : Db.ReviewCall)
  | reproject (eventId : Uuid) (now : Time)
  | rebuild (maxEvents : Option Nat) (now : Time)
  | process (outboxId : Uuid) (now : Time)

section Step

variable [PyText]

/-- The store an operation leaves, when it does not raise. -/
def Op.run (s : Db) : Op → Except AtlasError Db
  | .ingest call => do
      let (_, s') ← s.ingestSourceData call
      pure s'
  | .resolve call => do
      let (_, _, s') ← s.resolveConflict call
      pure s'
  | .reopen call => do
      let (_, _, s') ← s.reopenConflict call
      pure s'
  | .merge call => do
      let (_, s') ← s.mergeDuplicateEvents call
      pure s'
  | .review call => do
      let (_, s') ← s.reviewDuplicate call
      pure s'
  | .reproject eventId now => do
      let (_, s') ← s.reProjectEvent ⟨eventId, none, none, none, false, now⟩
      pure s'
  | .rebuild maxEvents now => pure (s.rebuildAllProjections maxEvents now)
  | .process outboxId now => s.processEvent outboxId now

/-- One step of the system: commit, or roll back. -/
def step (s : Db) (op : Op) : Db :=
  match op.run s with
  | .ok s' => s'
  | .error _ => s

/-- The store after a run from a store that only holds its sources. -/
def after (sources : List Source) (ops : List Op) : Db := Runs.run step (Db.empty sources) ops

/-- A store some run leads to. -/
def Reachable (s : Db) : Prop := ∃ sources ops, after sources ops = s

theorem Op.run_step {s s' : Db} {op : Op} (h : op.run s = .ok s') : step s op = s' := by
  simp [step, h]

/-- A step commits the operation's store, or the operation raises and the step
keeps the old one. -/
theorem step_cases (s : Db) (op : Op) :
    op.run s = .ok (step s op) ∨ ((∀ s', op.run s ≠ .ok s') ∧ step s op = s) := by
  cases h : op.run s with
  | ok s' => simp [step, h]
  | error e => simp [step, h]

end Step

/-! ## Small runs

The counterexamples of the development are short runs over three reporting
sources and the curators' own. -/

def fourSources : List Source :=
  [⟨0, "agency", 1⟩, ⟨1, "registry", 1⟩, ⟨2, "press", 2⟩, ⟨3, "curator", 1⟩]

/-- One source reports the operator of an accident, as a number for brevity. -/
def operatorReport (source run : Uuid) (event : Option Uuid) (record : Option String) (v : Int)
    (now : Time) : Op :=
  .ingest ⟨source, run, "", event, record, [⟨"operator", .num (.int v)⟩], .new, 10, now⟩

/-- Two sources disagree about the operator. -/
def twoSourcesDisagree : List Op :=
  [operatorReport 0 100 none (some "r1") 1 1, operatorReport 1 101 (some 5) none 2 2]

end Atlas
