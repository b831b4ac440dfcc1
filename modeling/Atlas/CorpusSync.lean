import Atlas.Forest
import Atlas.ProjectionRows

/-!
# Copying the public corpus

In the split deployment `sync-corpus` copies the public projections into the SMS
database: it streams the rows in batches, loads the event rows each batch needs
together with everything on their merge chains, inserts the events without their
merge pointers, restores the pointers and then upserts the projections.

The copy only inserts and updates.  A projection that the public side has deleted
since, as a merge does, stays in the SMS database as it was last copied.
-/

namespace Atlas

open Outcome Rows

/-! ## The command -/

/-- The tables of the SMS database that the command writes. -/
structure SmsDb where
  events : List AccidentEvent
  projections : List ProjectedAccidentRecord
deriving DecidableEq, Repr

inductive SyncError where
  /-- "Public projection rows reference missing accident_events: …". -/
  | missingEvents (ids : List Uuid)
  | foreignKey (column : String)
  /-- A closure that was not done in the turns it was given. -/
  | outOfTurns
deriving DecidableEq, Repr

namespace SmsDb

def empty : SmsDb := ⟨[], []⟩

def getEvent (sms : SmsDb) (id : Uuid) : Option AccidentEvent := lookup AccidentEvent.id id sms.events

def getProjection (sms : SmsDb) (eventId : Uuid) : Option ProjectedAccidentRecord :=
  lookup ProjectedAccidentRecord.eventId eventId sms.projections

/-! ### `_load_event_closure` -/

def eventIds (rows : List AccidentEvent) : List Uuid := rows.map AccidentEvent.id

/-- One fetched row: it is loaded unless it was, and its survivor is to be fetched
unless it is loaded. -/
def visit (acc : List AccidentEvent × List Uuid) (row : AccidentEvent) :
    List AccidentEvent × List Uuid :=
  if row.id ∈ eventIds acc.1 then acc
  else
    let loaded := acc.1 ++ [row]
    match row.mergedInto with
    | none => (loaded, acc.2)
    | some target =>
        if target ∈ eventIds loaded then (loaded, acc.2)
        else (loaded, insertKey acc.2 target)

/-- The rows one query fetches. -/
def fetchRows (events : List AccidentEvent) (pending : List Uuid) : List AccidentEvent :=
  events.filter fun e => e.id ∈ pending

/-- The loop, for a number of turns; `none` when they are used up. -/
def closureLoop (events : List AccidentEvent) :
    Nat → List Uuid → List AccidentEvent → Option (Except SyncError (List AccidentEvent))
  | 0, _, _ => none
  | turns + 1, pending, loaded =>
      if pending = [] then some (.ok loaded)
      else
        let fetched := fetchRows events pending
        let missing := pending.filter fun id => id ∉ eventIds fetched
        if missing ≠ [] then some (.error (.missingEvents (missing.insertionSort (· ≤ ·))))
        else
          let next := fetched.foldl visit (loaded, [])
          closureLoop events turns next.2 next.1

/-- `_load_event_closure`.  The loop is done within two turns more than there are events. -/
def loadEventClosure (events : List AccidentEvent) (eventIds : List Uuid) :
    Except SyncError (List AccidentEvent) :=
  (closureLoop events (events.length + 2) eventIds []).getD (.error .outOfTurns)

/-! ### `_upsert_batch` -/

/-- The insertion of the event rows, without their merge pointers. -/
def insertParents (events rows : List AccidentEvent) : List AccidentEvent :=
  rows.foldl (fun es row => insertAbsent AccidentEvent.id ⟨row.id, none⟩ es) events

/-- A row with the merge pointer of another. -/
def repointed (row e : AccidentEvent) : AccidentEvent := { e with mergedInto := row.mergedInto }

/-- The update of one merge pointer; the survivor must be there. -/
def restorePointer (events : List AccidentEvent) (row : AccidentEvent) :
    Except SyncError (List AccidentEvent) := do
  require (∀ target, row.mergedInto = some target → ∃ e ∈ events, e.id = target)
    (.foreignKey "merged_into_event_id")
  pure (updateWhere (fun e => e.id = row.id) (repointed row) events)

/-- The upsert of the projection rows. -/
def upsertProjections (projections rows : List ProjectedAccidentRecord) :
    List ProjectedAccidentRecord :=
  rows.foldl (fun ps row => upsertWith ProjectedAccidentRecord.eventId row (fun _ => row) ps)
    projections

/-- `_upsert_batch`. -/
def upsertBatch (pub : Db) (sms : SmsDb) (rows : List ProjectedAccidentRecord) :
    Except SyncError SmsDb := do
  let eventRows ← loadEventClosure pub.events (distinct (rows.map ProjectedAccidentRecord.eventId))
  let events ← eventRows.foldlM restorePointer (insertParents sms.events eventRows)
  require (∀ row ∈ rows, ∃ e ∈ events, e.id = row.eventId) (.foreignKey "event_id")
  pure ⟨events, upsertProjections sms.projections rows⟩

/-- The stream: rows are collected and written when there are enough of them, and what is
left at the end is written too. -/
def syncRows (pub : Db) (batchSize : Nat) :
    List ProjectedAccidentRecord → List ProjectedAccidentRecord → SmsDb → Except SyncError SmsDb
  | [], batch, sms => if batch = [] then pure sms else upsertBatch pub sms batch
  | row :: rows, batch, sms =>
      let batch := batch ++ [row]
      if batchSize ≤ batch.length then do
        let sms ← upsertBatch pub sms batch
        syncRows pub batchSize rows [] sms
      else syncRows pub batchSize rows batch sms

end SmsDb

/-- `SELECT … ORDER BY event_id`. -/
def Db.corpusRows (s : Db) : List ProjectedAccidentRecord :=
  s.projections.insertionSort fun a b => a.eventId ≤ b.eventId

/-- `sync-corpus`, with the public database and the SMS database. -/
def syncCorpus (pub : Db) (sms : SmsDb) (batchSize : Nat) : Except SyncError SmsDb :=
  SmsDb.syncRows pub batchSize pub.corpusRows [] sms

/-! ## The closure of the merge pointers -/

namespace SmsDb

variable {events loaded : List AccidentEvent} {pending wanted : List Uuid}

/-- What is known of the rows loaded so far, before `pending` is fetched. -/
structure Loaded (events loaded : List AccidentEvent) : Prop where
  mem : ∀ e ∈ loaded, e ∈ events
  nodup : (eventIds loaded).Nodup

theorem loaded_nil (events : List AccidentEvent) : Loaded events [] := ⟨by simp, List.nodup_nil⟩

/-- Rows that are loaded once are not more than there are. -/
theorem Loaded.length_le (h : Loaded events loaded) : loaded.length ≤ events.length := by
  have hsub : eventIds loaded ⊆ eventIds events := by
    intro id hid
    obtain ⟨e, he, rfl⟩ := List.mem_map.mp hid
    exact List.mem_map_of_mem (h.mem e he)
  have hle := (List.subperm_of_subset h.nodup hsub).length_le
  simpa [eventIds] using hle

/-- What a turn does while it visits the rows it fetched: `before` was loaded when it
began, and `owed` was to be fetched. -/
structure Visiting (events before : List AccidentEvent) (owed : List Uuid)
    (acc : List AccidentEvent × List Uuid) : Prop extends Loaded events acc.1 where
  kept : ∀ e ∈ before, e ∈ acc.1
  survivors : ∀ e ∈ acc.1, ∀ target, e.mergedInto = some target →
    target ∈ eventIds acc.1 ∨ target ∈ acc.2 ∨ target ∈ owed
  targets : ∀ target ∈ acc.2, ∃ e ∈ events, e.mergedInto = some target
  grown : acc.2 ≠ [] → before.length < acc.1.length
  longer : before.length ≤ acc.1.length

theorem eventIds_append (rows : List AccidentEvent) (row : AccidentEvent) :
    eventIds (rows ++ [row]) = eventIds rows ++ [row.id] := List.map_append

/-- A row that is loaded already changes nothing. -/
theorem visit_of_mem {acc : List AccidentEvent × List Uuid} {row : AccidentEvent}
    (h : row.id ∈ eventIds acc.1) : visit acc row = acc := if_pos h

/-- A new row is loaded, and its survivor is loaded or to be fetched. -/
theorem visit_of_notMem {acc : List AccidentEvent × List Uuid} {row : AccidentEvent}
    (h : row.id ∉ eventIds acc.1) :
    (visit acc row).1 = acc.1 ++ [row] ∧
      ((visit acc row).2 = acc.2 ∧
          (∀ target, row.mergedInto = some target → target ∈ eventIds (acc.1 ++ [row])) ∨
        ∃ target, row.mergedInto = some target ∧ (visit acc row).2 = insertKey acc.2 target) := by
  unfold visit
  rw [if_neg h]
  dsimp only
  cases hmerged : row.mergedInto with
  | none => exact ⟨rfl, .inl ⟨rfl, by simp⟩⟩
  | some target =>
      dsimp only
      split
      · rename_i hthere
        refine ⟨rfl, .inl ⟨rfl, ?_⟩⟩
        intro t ht
        rw [← Option.some.inj ht]
        exact hthere
      · exact ⟨rfl, .inr ⟨target, rfl, rfl⟩⟩

theorem Visiting.visit {before : List AccidentEvent} {owed : List Uuid}
    {acc : List AccidentEvent × List Uuid} (h : Visiting events before owed acc) {row : AccidentEvent}
    (hrow : row ∈ events) : Visiting events before owed (visit acc row) := by
  by_cases hmem : row.id ∈ eventIds acc.1
  · rw [visit_of_mem hmem]
    exact h
  obtain ⟨hloaded, hpending⟩ := visit_of_notMem hmem
  have hlonger : before.length < (SmsDb.visit acc row).1.length := by
    rw [hloaded, List.length_append]
    exact Nat.lt_succ_of_le h.longer
  have hpendingKept : ∀ t ∈ acc.2, t ∈ (SmsDb.visit acc row).2 := by
    intro t ht
    rcases hpending with ⟨heq, -⟩ | ⟨target, -, heq⟩
    · rw [heq]
      exact ht
    · rw [heq]
      exact mem_insertKey.mpr (.inl ht)
  refine ⟨⟨?_, ?_⟩, ?_, ?_, ?_, fun _ => hlonger, hlonger.le⟩
  · intro e he
    rw [hloaded] at he
    rcases List.mem_append.mp he with he | he
    · exact h.mem e he
    · exact List.mem_singleton.mp he ▸ hrow
  · rw [hloaded, eventIds_append]
    exact h.nodup.append (List.nodup_singleton _) (by simpa using hmem)
  · intro e he
    rw [hloaded]
    exact List.mem_append_left _ (h.kept e he)
  · intro e he target htarget
    rw [hloaded] at he ⊢
    rcases List.mem_append.mp he with he | he
    · rcases h.survivors e he target htarget with hin | hto | howed
      · left
        rw [eventIds_append]
        exact List.mem_append_left _ hin
      · exact .inr (.inl (hpendingKept target hto))
      · exact .inr (.inr howed)
    · rw [List.mem_singleton.mp he] at htarget
      rcases hpending with ⟨-, hin⟩ | ⟨t, ht, heq⟩
      · exact .inl (hin target htarget)
      · rw [heq, ← Option.some.inj (htarget.symm.trans ht)]
        exact .inr (.inl (mem_insertKey.mpr (.inr rfl)))
  · intro t ht
    rcases hpending with ⟨heq, -⟩ | ⟨target, htarget, heq⟩
    · rw [heq] at ht
      exact h.targets t ht
    · rw [heq] at ht
      rcases mem_insertKey.mp ht with hold | rfl
      · exact h.targets t hold
      · exact ⟨row, hrow, htarget⟩

theorem Visiting.foldl {before : List AccidentEvent} {owed : List Uuid}
    {acc : List AccidentEvent × List Uuid} (h : Visiting events before owed acc)
    {rows : List AccidentEvent} (hrows : ∀ e ∈ rows, e ∈ events) :
    Visiting events before owed (rows.foldl SmsDb.visit acc) := by
  induction rows generalizing acc with
  | nil => exact h
  | cons row rows ih =>
      refine ih (h.visit (hrows row List.mem_cons_self)) ?_
      intro e he
      exact hrows e (List.mem_cons_of_mem _ he)

/-- Loaded rows stay loaded. -/
theorem eventIds_foldl_visit (rows : List AccidentEvent) (acc : List AccidentEvent × List Uuid)
    {id : Uuid} (hid : id ∈ eventIds acc.1 ∨ id ∈ eventIds rows) :
    id ∈ eventIds (rows.foldl visit acc).1 := by
  induction rows generalizing acc with
  | nil => simpa [eventIds] using hid
  | cons row rows ih =>
      refine ih _ ?_
      by_cases hmem : row.id ∈ eventIds acc.1
      · rw [visit_of_mem hmem]
        rcases hid with hacc | hrows
        · exact .inl hacc
        · rcases List.mem_cons.mp hrows with rfl | hrows
          · exact .inl hmem
          · exact .inr hrows
      · rw [(visit_of_notMem hmem).1, eventIds_append]
        rcases hid with hacc | hrows
        · exact .inl (List.mem_append_left _ hacc)
        · rcases List.mem_cons.mp hrows with rfl | hrows
          · exact .inl (List.mem_append_right _ List.mem_cons_self)
          · exact .inr hrows

/-- The state a turn begins to visit in. -/
theorem Loaded.visiting (h : Loaded events loaded)
    (hsurvivors : ∀ e ∈ loaded, ∀ target, e.mergedInto = some target →
      target ∈ eventIds loaded ∨ target ∈ pending) :
    Visiting events loaded pending (loaded, []) where
  toLoaded := h
  kept := fun _ he => he
  survivors := by
    intro e he target htarget
    exact (hsurvivors e he target htarget).imp id .inr
  targets := by simp
  grown := by simp
  longer := le_rfl

/-! ### The loop -/

/-- The rows fetched are rows of the table. -/
theorem mem_fetchRows {e : AccidentEvent} (h : e ∈ fetchRows events pending) : e ∈ events :=
  (List.mem_filter.mp h).1

/-- One turn that finds every row it looks for. -/
theorem closureLoop_turn {turns : Nat} (hpending : pending ≠ [])
    (hfound : ∀ id ∈ pending, id ∈ eventIds (fetchRows events pending)) :
    closureLoop events (turns + 1) pending loaded =
      closureLoop events turns ((fetchRows events pending).foldl visit (loaded, [])).2
        ((fetchRows events pending).foldl visit (loaded, [])).1 := by
  have hmissing : (pending.filter fun id => id ∉ eventIds (fetchRows events pending)) = [] := by
    refine List.filter_eq_nil_iff.mpr ?_
    intro id hid hno
    exact of_decide_eq_true hno (hfound id hid)
  rw [closureLoop, if_neg hpending]
  dsimp only
  rw [hmissing, if_neg (by simp)]

/-- **The loop ends.**  The rows loaded are never more than there are, and a turn that
leaves something to fetch has loaded one more. -/
theorem closureLoop_ends {turns : Nat} (h : Loaded events loaded)
    (hturns : events.length + 2 ≤ turns + loaded.length) :
    ∃ r, closureLoop events turns pending loaded = some r := by
  have hle := h.length_le
  induction turns generalizing pending loaded with
  | zero => omega
  | succ turns ih =>
      by_cases hpending : pending = []
      · exact ⟨.ok loaded, if_pos hpending⟩
      by_cases hfound : ∀ id ∈ pending, id ∈ eventIds (fetchRows events pending)
      · rw [closureLoop_turn hpending hfound]
        have hstart : Visiting events loaded (pending ++ loaded.filterMap AccidentEvent.mergedInto)
            (loaded, []) := by
          refine h.visiting ?_
          intro e he target htarget
          exact .inr (List.mem_append_right _ (List.mem_filterMap.mpr ⟨e, he, htarget⟩))
        have hvisited : Visiting events loaded _
            ((fetchRows events pending).foldl visit (loaded, [])) :=
          hstart.foldl fun e he => mem_fetchRows he
        by_cases hnext : ((fetchRows events pending).foldl visit (loaded, [])).2 = []
        · -- nothing is left to fetch, so the next turn is the last
          obtain ⟨turns, rfl⟩ : ∃ n, turns = n + 1 := ⟨turns - 1, by omega⟩
          exact ⟨_, if_pos hnext⟩
        · have hgrown := hvisited.grown hnext
          exact ih hvisited.toLoaded (by omega) hvisited.toLoaded.length_le
      · rw [closureLoop, if_neg hpending]
        dsimp only
        rw [if_pos]
        · exact ⟨_, rfl⟩
        · intro hnone
          refine hfound fun id hid => ?_
          have hid' := List.filter_eq_nil_iff.mp hnone id hid
          simpa using hid'

/-- More turns change nothing. -/
theorem closureLoop_more {turns : Nat} {r : Except SyncError (List AccidentEvent)}
    (h : closureLoop events turns pending loaded = some r) (more : Nat) :
    closureLoop events (turns + more) pending loaded = some r := by
  induction turns generalizing pending loaded with
  | zero => cases h
  | succ turns ih =>
      rw [Nat.succ_add]
      rw [closureLoop] at h ⊢
      split at h
      · rename_i hpending
        rw [if_pos hpending]
        exact h
      · rename_i hpending
        rw [if_neg hpending]
        dsimp only at h ⊢
        split at h
        · rename_i hmissing
          rw [if_pos hmissing]
          exact h
        · rename_i hmissing
          rw [if_neg hmissing]
          exact ih h

/-- **`_load_event_closure` terminates** for every merge graph: there is a result that the
loop gives for every number of turns from two more than there are events. -/
theorem closureLoop_terminates (events : List AccidentEvent) (ids : List Uuid) :
    ∃ r, ∀ turns, events.length + 2 ≤ turns → closureLoop events turns ids [] = some r := by
  obtain ⟨r, hr⟩ : ∃ r, closureLoop events (events.length + 2) ids [] = some r :=
    closureLoop_ends (loaded_nil events) le_rfl
  refine ⟨r, ?_⟩
  intro turns hturns
  obtain ⟨more, rfl⟩ := Nat.exists_eq_add_of_le hturns
  exact closureLoop_more hr more

/-! ### What it loads -/

/-- A list of event rows that is closed under merge pointers. -/
structure Closed (events rows : List AccidentEvent) : Prop extends Loaded events rows where
  survivors : ∀ e ∈ rows, ∀ target, e.mergedInto = some target → target ∈ eventIds rows

/-- The foreign key of the merge pointers. -/
def PointersKept (events : List AccidentEvent) : Prop :=
  ∀ e ∈ events, ∀ target, e.mergedInto = some target → target ∈ eventIds events

theorem mem_eventIds_fetchRows {id : Uuid} (hid : id ∈ pending) (hthere : id ∈ eventIds events) :
    id ∈ eventIds (fetchRows events pending) := by
  obtain ⟨e, he, rfl⟩ := List.mem_map.mp hthere
  exact List.mem_map_of_mem (List.mem_filter.mpr ⟨he, decide_eq_true hid⟩)

/-- With the foreign keys in place the loop returns a closed list with all that is wanted. -/
theorem closureLoop_closed {turns : Nat} {r : Except SyncError (List AccidentEvent)}
    (hkeys : PointersKept events) (h : Loaded events loaded)
    (hsurvivors : ∀ e ∈ loaded, ∀ target, e.mergedInto = some target →
      target ∈ eventIds loaded ∨ target ∈ pending)
    (hwanted : ∀ id ∈ wanted, id ∈ eventIds loaded ∨ id ∈ pending)
    (hthere : ∀ id ∈ pending, id ∈ eventIds events)
    (hr : closureLoop events turns pending loaded = some r) :
    ∃ rows, r = .ok rows ∧ Closed events rows ∧ ∀ id ∈ wanted, id ∈ eventIds rows := by
  induction turns generalizing pending loaded with
  | zero => cases hr
  | succ turns ih =>
      by_cases hpending : pending = []
      · rw [closureLoop, if_pos hpending] at hr
        subst hpending
        refine ⟨loaded, (Option.some.inj hr).symm, ⟨h, ?_⟩, ?_⟩
        · intro e he target htarget
          simpa using hsurvivors e he target htarget
        · intro id hid
          simpa using hwanted id hid
      · have hfound : ∀ id ∈ pending, id ∈ eventIds (fetchRows events pending) :=
          fun id hid => mem_eventIds_fetchRows hid (hthere id hid)
        rw [closureLoop_turn hpending hfound] at hr
        have hvisited : Visiting events loaded pending
            ((fetchRows events pending).foldl visit (loaded, [])) :=
          (h.visiting hsurvivors).foldl fun e he => mem_fetchRows he
        -- what was to be fetched is loaded now
        have howed : ∀ id ∈ pending,
            id ∈ eventIds ((fetchRows events pending).foldl visit (loaded, [])).1 :=
          fun id hid => eventIds_foldl_visit _ _ (.inr (hfound id hid))
        refine ih hvisited.toLoaded ?_ ?_ ?_ hr
        · intro e he target htarget
          rcases hvisited.survivors e he target htarget with hin | hto | hold
          · exact .inl hin
          · exact .inr hto
          · exact .inl (howed target hold)
        · intro id hid
          rcases hwanted id hid with hin | hto
          · exact .inl (eventIds_foldl_visit _ _ (.inl hin))
          · exact .inl (howed id hto)
        · intro target htarget
          obtain ⟨e, he, hmerged⟩ := hvisited.targets target htarget
          exact hkeys e he target hmerged

theorem loadEventClosure_ok (hkeys : PointersKept events) (hthere : ∀ id ∈ wanted, id ∈ eventIds events) :
    ∃ rows, loadEventClosure events wanted = .ok rows ∧ Closed events rows ∧
      ∀ id ∈ wanted, id ∈ eventIds rows := by
  obtain ⟨r, hr⟩ := closureLoop_terminates events wanted
  have hdone := hr (events.length + 2) le_rfl
  obtain ⟨rows, rfl, hclosed, hwanted⟩ := closureLoop_closed hkeys (loaded_nil events)
    (by simp) (fun id hid => .inr hid) hthere hdone
  exact ⟨rows, by rw [loadEventClosure, hdone]; rfl, hclosed, hwanted⟩

/-! ## One batch -/

/-- The parents are inserted where they were missing. -/
theorem lookup_insertParents (events rows : List AccidentEvent) (x : Uuid) :
    lookup AccidentEvent.id x (insertParents events rows) =
      (lookup AccidentEvent.id x events).or (if x ∈ eventIds rows then some ⟨x, none⟩ else none) := by
  unfold insertParents
  induction rows generalizing events with
  | nil => exact (Option.or_none).symm
  | cons row rows ih =>
      rw [List.foldl_cons, ih, lookup_insertAbsent, Option.or_assoc]
      congr 1
      by_cases hx : x = row.id
      · have hmem : x ∈ eventIds (row :: rows) := by
          rw [hx]
          exact List.mem_cons_self
        rw [if_pos hx, if_pos hmem, hx]
        rfl
      · rw [if_neg hx]
        have hiff : x ∈ eventIds (row :: rows) ↔ x ∈ eventIds rows := by
          rw [eventIds, List.map_cons, List.mem_cons]
          exact or_iff_right hx
        simp only [hiff]
        rfl

theorem mem_eventIds_insertParents {rows : List AccidentEvent} {x : Uuid} (h : x ∈ eventIds rows)
    (events : List AccidentEvent) : x ∈ eventIds (insertParents events rows) := by
  have hfound : (lookup AccidentEvent.id x (insertParents events rows)).isSome := by
    rw [lookup_insertParents, if_pos h]
    cases lookup AccidentEvent.id x events <;> rfl
  obtain ⟨e, he⟩ := Option.isSome_iff_exists.mp hfound
  obtain ⟨hmem, hid⟩ := lookup_some he
  exact hid ▸ List.mem_map_of_mem hmem

theorem repointed_id (row e : AccidentEvent) : (repointed row e).id = e.id := rfl

/-- The pointers of the rows are restored, one after another. -/
theorem restorePointers_ok (rows : List AccidentEvent) (events : List AccidentEvent)
    (htargets : ∀ row ∈ rows, ∀ target, row.mergedInto = some target → target ∈ eventIds events)
    (hnodup : (eventIds rows).Nodup) :
    ∃ events', rows.foldlM restorePointer events = .ok events' ∧ eventIds events' = eventIds events ∧
      ∀ x, lookup AccidentEvent.id x events' =
        match lookup AccidentEvent.id x rows with
        | some row => (lookup AccidentEvent.id x events).map (repointed row)
        | none => lookup AccidentEvent.id x events := by
  induction rows generalizing events with
  | nil => exact ⟨events, rfl, rfl, fun _ => rfl⟩
  | cons row rows ih =>
      obtain ⟨hfirst, hrest⟩ := List.nodup_cons.mp hnodup
      have hok : restorePointer events row =
          .ok (updateWhere (fun e => e.id = row.id) (repointed row) events) := by
        unfold restorePointer
        simp only [bind_ok, require_ok, pure_ok]
        refine ⟨(), ?_, trivial⟩
        intro target htarget
        obtain ⟨e, he, hid⟩ := List.mem_map.mp (htargets row List.mem_cons_self target htarget)
        exact ⟨e, he, hid⟩
      have hids : eventIds (updateWhere (fun e => e.id = row.id) (repointed row) events) =
          eventIds events := map_updateWhere AccidentEvent.id (repointed_id row)
      obtain ⟨events', hfold, hids', hlookup⟩ := ih _ (by
        intro r hr target htarget
        rw [hids]
        exact htargets r (List.mem_cons_of_mem _ hr) target htarget) hrest
      refine ⟨events', ?_, hids'.trans hids, ?_⟩
      · rw [List.foldlM_cons, hok]
        exact hfold
      · intro x
        rw [hlookup, lookup_cons]
        by_cases hx : row.id = x
        · have hnone : lookup AccidentEvent.id x rows = none := by
            refine lookup_none.mpr ?_
            intro r hr hid
            exact hfirst (List.mem_map.mpr ⟨r, hr, hid.trans hx.symm⟩)
          have hself : lookup AccidentEvent.id x
              (updateWhere (fun e => e.id = x) (repointed row) events) =
                (lookup AccidentEvent.id x events).map (repointed row) :=
            lookup_updateWhere_self (repointed_id row) events
          rw [hnone, if_pos hx, hx]
          exact hself
        · have hother : lookup AccidentEvent.id x
              (updateWhere (fun e => e.id = row.id) (repointed row) events) =
                lookup AccidentEvent.id x events :=
            lookup_updateWhere_ne (repointed_id row) (Ne.symm hx) events
          rw [if_neg hx, hother]

/-- What writing a list of projections does to the SMS database. -/
structure Copied (pub : Db) (rows : List ProjectedAccidentRecord) (sms sms' : SmsDb) : Prop where
  written : ∀ row ∈ rows, sms'.getProjection row.eventId = some row
  others : ∀ e, (∀ row ∈ rows, row.eventId ≠ e) → sms'.getProjection e = sms.getProjection e
  events : ∀ x, sms'.getEvent x = sms.getEvent x ∨ sms'.getEvent x = pub.getEvent x
  chains : ∀ row ∈ rows, ∀ x, Relation.ReflTransGen pub.MergedInto row.eventId x →
    sms'.getEvent x = pub.getEvent x

/-- The keys that the public tables declare. -/
structure CorpusKeys (pub : Db) : Prop where
  events : Rows.Unique AccidentEvent.id pub.events
  pointers : PointersKept pub.events
  projections : Rows.Unique ProjectedAccidentRecord.eventId pub.projections
  projected : ∀ p ∈ pub.projections, p.eventId ∈ eventIds pub.events

variable {pub : Db} {sms sms' sms'' : SmsDb} {rows more : List ProjectedAccidentRecord}

theorem lookup_upsertProjections (rows projections : List ProjectedAccidentRecord) (e : Uuid)
    (hunique : Rows.Unique ProjectedAccidentRecord.eventId rows) :
    lookup ProjectedAccidentRecord.eventId e (upsertProjections projections rows) =
      (lookup ProjectedAccidentRecord.eventId e rows).or
        (lookup ProjectedAccidentRecord.eventId e projections) := by
  unfold upsertProjections
  induction rows generalizing projections with
  | nil => rfl
  | cons row rows ih =>
      obtain ⟨hfirst, hrest⟩ := List.nodup_cons.mp hunique
      rw [List.foldl_cons, ih _ hrest, lookup_upsert, lookup_cons]
      by_cases he : row.eventId = e
      · have hnone : lookup ProjectedAccidentRecord.eventId e rows = none := by
          refine lookup_none.mpr ?_
          intro r hr heq
          exact hfirst (List.mem_map.mpr ⟨r, hr, heq.trans he.symm⟩)
        rw [hnone, if_pos he, if_pos he.symm]
        rfl
      · rw [if_neg he, if_neg (Ne.symm he)]

/-- The chain of a loaded event is loaded. -/
theorem Closed.chain {loaded : List AccidentEvent} (h : Closed pub.events loaded)
    (hunique : Rows.Unique AccidentEvent.id pub.events) {e x : Uuid} (he : e ∈ eventIds loaded)
    (hchain : Relation.ReflTransGen pub.MergedInto e x) : x ∈ eventIds loaded := by
  induction hchain with
  | refl => exact he
  | tail _ hstep ih =>
      obtain ⟨y, hy, hid, hmerged⟩ := hstep
      obtain ⟨row, hrow, hrowid⟩ := List.mem_map.mp ih
      rw [hunique.eq_of_key hy (h.mem row hrow) (hid.trans hrowid.symm)] at hmerged
      exact h.survivors row hrow _ hmerged

/-- **What a batch does.** -/
theorem upsertBatch_ok (hkeys : CorpusKeys pub)
    (hunique : Rows.Unique ProjectedAccidentRecord.eventId rows)
    (hthere : ∀ row ∈ rows, row.eventId ∈ eventIds pub.events) (sms : SmsDb) :
    ∃ sms', upsertBatch pub sms rows = .ok sms' ∧ Copied pub rows sms sms' := by
  have hwantedThere : ∀ id ∈ distinct (rows.map ProjectedAccidentRecord.eventId),
      id ∈ eventIds pub.events := by
    intro id hid
    obtain ⟨row, hrow, rfl⟩ := List.mem_map.mp (mem_distinct.mp hid)
    exact hthere row hrow
  obtain ⟨loaded, hload, hclosed, hwanted⟩ := loadEventClosure_ok hkeys.pointers hwantedThere
  have hrows : ∀ row ∈ rows, row.eventId ∈ eventIds loaded :=
    fun row hrow => hwanted _ (mem_distinct.mpr (List.mem_map_of_mem hrow))
  obtain ⟨events, hrestore, hids, hlookup⟩ := restorePointers_ok loaded
    (insertParents sms.events loaded) (fun row hrow target htarget =>
      mem_eventIds_insertParents (hclosed.survivors row hrow target htarget) sms.events) hclosed.nodup
  have hforeign : ∀ row ∈ rows, ∃ e ∈ events, e.id = row.eventId := by
    intro row hrow
    have hmem := mem_eventIds_insertParents (hrows row hrow) sms.events
    rw [← hids] at hmem
    obtain ⟨e, he, hid⟩ := List.mem_map.mp hmem
    exact ⟨e, he, hid⟩
  -- a loaded event has the public row, any other is untouched
  have hloaded : ∀ x ∈ eventIds loaded,
      lookup AccidentEvent.id x events = pub.getEvent x := by
    intro x hx
    obtain ⟨row, hrow, rfl⟩ := List.mem_map.mp hx
    have hfound : lookup AccidentEvent.id row.id loaded = some row :=
      Rows.Unique.lookup_eq hclosed.nodup hrow
    obtain ⟨e, he⟩ : ∃ e, lookup AccidentEvent.id row.id (insertParents sms.events loaded) = some e := by
      rw [lookup_insertParents, if_pos hx]
      cases lookup AccidentEvent.id row.id sms.events with
      | none => exact ⟨_, rfl⟩
      | some e => exact ⟨e, rfl⟩
    have hpublic : pub.getEvent row.id = some row := hkeys.events.lookup_eq (hclosed.mem row hrow)
    rw [hlookup, hfound, hpublic]
    dsimp only
    rw [he, Option.map_some, repointed, (lookup_some he).2]
  have hother : ∀ x, x ∉ eventIds loaded →
      lookup AccidentEvent.id x events = sms.getEvent x := by
    intro x hx
    have hnone : lookup AccidentEvent.id x loaded = none := by
      refine lookup_none.mpr ?_
      intro r hr hid
      exact hx (hid ▸ List.mem_map_of_mem hr)
    rw [hlookup, hnone]
    dsimp only
    rw [lookup_insertParents, if_neg hx, Option.or_none]
    rfl
  refine ⟨⟨events, upsertProjections sms.projections rows⟩, ?_, ?_, ?_, ?_, ?_⟩
  · unfold upsertBatch
    simp only [bind_ok, require_ok, pure_ok]
    exact ⟨loaded, hload, events, hrestore, (), hforeign, rfl⟩
  · intro row hrow
    rw [getProjection, lookup_upsertProjections rows _ _ hunique, hunique.lookup_eq hrow]
    rfl
  · intro e hnone
    rw [getProjection, lookup_upsertProjections rows _ _ hunique, lookup_none.mpr hnone]
    rfl
  · intro x
    by_cases hx : x ∈ eventIds loaded
    · exact .inr (hloaded x hx)
    · exact .inl (hother x hx)
  · intro row hrow x hchain
    exact hloaded x (hclosed.chain hkeys.events (hrows row hrow) hchain)

/-! ## The stream -/

theorem Copied.nil (pub : Db) (sms : SmsDb) : Copied pub [] sms sms where
  written := by simp
  others := fun _ _ => rfl
  events := fun _ => .inl rfl
  chains := by simp

/-- Two batches, one after the other. -/
theorem Copied.append (h : Copied pub rows sms sms') (h' : Copied pub more sms' sms'')
    (hunique : Rows.Unique ProjectedAccidentRecord.eventId (rows ++ more)) :
    Copied pub (rows ++ more) sms sms'' where
  written := by
    intro row hrow
    rcases List.mem_append.mp hrow with hfirst | hsecond
    · rw [h'.others, h.written row hfirst]
      intro other hother heq
      have hnodup : (rows.map ProjectedAccidentRecord.eventId ++
          more.map ProjectedAccidentRecord.eventId).Nodup := by
        rw [← List.map_append]
        exact hunique
      exact List.disjoint_of_nodup_append hnodup (List.mem_map_of_mem hfirst) (List.mem_map.mpr ⟨other, hother, heq⟩)
    · exact h'.written row hsecond
  others := by
    intro e hnone
    rw [h'.others e fun row hrow => hnone row (List.mem_append_right _ hrow)]
    exact h.others e fun row hrow => hnone row (List.mem_append_left _ hrow)
  events := by
    intro x
    rcases h'.events x with hsame | hpublic
    · rw [hsame]
      exact h.events x
    · exact .inr hpublic
  chains := by
    intro row hrow x hchain
    rcases List.mem_append.mp hrow with hfirst | hsecond
    · rcases h'.events x with hsame | hpublic
      · rw [hsame]
        exact h.chains row hfirst x hchain
      · exact hpublic
    · exact h'.chains row hsecond x hchain

/-- **What the stream does**, whatever the size of its batches. -/
theorem syncRows_ok (hkeys : CorpusKeys pub) (batchSize : Nat)
    {stream batch : List ProjectedAccidentRecord}
    (hunique : Rows.Unique ProjectedAccidentRecord.eventId (batch ++ stream))
    (hthere : ∀ row ∈ batch ++ stream, row.eventId ∈ eventIds pub.events) (sms : SmsDb) :
    ∃ sms', syncRows pub batchSize stream batch sms = .ok sms' ∧
      Copied pub (batch ++ stream) sms sms' := by
  induction stream generalizing batch sms with
  | nil =>
      rw [List.append_nil] at hunique hthere ⊢
      by_cases hbatch : batch = []
      · subst hbatch
        exact ⟨sms, rfl, Copied.nil pub sms⟩
      · rw [syncRows, if_neg hbatch]
        exact upsertBatch_ok hkeys hunique hthere sms
  | cons row stream ih =>
      have happend : batch ++ row :: stream = batch ++ [row] ++ stream := by simp
      rw [happend] at hunique hthere ⊢
      rw [syncRows]
      split
      · have hfirst : Rows.Unique ProjectedAccidentRecord.eventId (batch ++ [row]) :=
          hunique.sublist ((List.sublist_append_left _ _).map _)
        have hrest : Rows.Unique ProjectedAccidentRecord.eventId ([] ++ stream) :=
          hunique.sublist ((List.sublist_append_right _ _).map _)
        obtain ⟨sms₁, hbatch, hcopied⟩ := upsertBatch_ok hkeys hfirst
          (fun r hr => hthere r (List.mem_append_left _ hr)) sms
        obtain ⟨sms', hstream, hcopied'⟩ : ∃ sms', syncRows pub batchSize stream [] sms₁ = .ok sms' ∧
            Copied pub ([] ++ stream) sms₁ sms' :=
          ih hrest (fun r hr => hthere r (List.mem_append_right _ hr)) sms₁
        refine ⟨sms', ?_, hcopied.append hcopied' hunique⟩
        rw [hbatch]
        exact hstream
      · exact ih hunique hthere sms

end SmsDb

/-- What a completed run leaves: the public projections, and the rows of other events as
they were; and the public rows of the projected events and of everything on their merge
chains. -/
structure CorpusSynced (pub : Db) (sms sms' : SmsDb) : Prop where
  projections : ∀ e, sms'.getProjection e = (pub.getProjection e).or (sms.getProjection e)
  events : ∀ e, (pub.getProjection e).isSome → ∀ x, Relation.ReflTransGen pub.MergedInto e x →
    ∃ row, pub.getEvent x = some row ∧ sms'.getEvent x = some row

section Sync

variable {pub : Db}

open SmsDb

/-- The public row of an event is found, and so is everything it was merged into. -/
theorem SmsDb.CorpusKeys.getEvent_chain (hkeys : CorpusKeys pub) {e x : Uuid}
    (he : e ∈ eventIds pub.events) (hchain : Relation.ReflTransGen pub.MergedInto e x) :
    ∃ row, pub.getEvent x = some row := by
  have hx : x ∈ eventIds pub.events := by
    induction hchain with
    | refl => exact he
    | tail _ hstep _ =>
        obtain ⟨y, hy, -, hmerged⟩ := hstep
        exact hkeys.pointers y hy _ hmerged
  obtain ⟨row, hrow, rfl⟩ := List.mem_map.mp hx
  exact ⟨row, hkeys.events.lookup_eq hrow⟩

theorem syncCorpus_ok (hkeys : CorpusKeys pub) (sms : SmsDb) (batchSize : Nat) :
    ∃ sms', syncCorpus pub sms batchSize = .ok sms' ∧ CorpusSynced pub sms sms' := by
  have hperm : pub.corpusRows.Perm pub.projections := List.perm_insertionSort _ _
  have hunique : Rows.Unique ProjectedAccidentRecord.eventId ([] ++ pub.corpusRows) :=
    (hperm.map _).nodup_iff.mpr hkeys.projections
  obtain ⟨sms', hok, hcopied⟩ := syncRows_ok hkeys batchSize hunique
    (fun row hrow => hkeys.projected row (hperm.mem_iff.mp hrow)) sms
  rw [List.nil_append] at hcopied
  refine ⟨sms', hok, ?_, ?_⟩
  · intro e
    cases hfound : pub.getProjection e with
    | some p =>
        obtain ⟨hp, rfl⟩ := lookup_some hfound
        exact hcopied.written p (hperm.mem_iff.mpr hp)
    | none =>
        refine hcopied.others e ?_
        intro row hrow
        exact lookup_none.mp hfound row (hperm.mem_iff.mp hrow)
  · intro e he x hchain
    obtain ⟨p, hfound⟩ := Option.isSome_iff_exists.mp he
    obtain ⟨hp, rfl⟩ := lookup_some hfound
    obtain ⟨row, hrow⟩ := hkeys.getEvent_chain (hkeys.projected p hp) hchain
    refine ⟨row, hrow, ?_⟩
    rw [hcopied.chains p (hperm.mem_iff.mpr hp) x hchain]
    exact hrow

end Sync

/-! ## Runs -/

/-- The two databases. -/
structure CorpusWorld where
  pub : Db
  sms : SmsDb

/-- An operation on the public side, or a run of `sync-corpus`. -/
inductive CorpusAct where
  | change (op : Op)
  | sync (batchSize : Nat)

namespace CorpusWorld

/-- The public side as a run of `sync-corpus` finds it. -/
def snapshotAt (w : CorpusWorld) : CorpusAct → List Db
  | .change _ => []
  | .sync _ => [w.pub]

section Runs

variable [PyText]

/-- A run that raises is rolled back. -/
def step (w : CorpusWorld) : CorpusAct → CorpusWorld
  | .change op => { w with pub := Atlas.step w.pub op }
  | .sync batchSize =>
      match syncCorpus w.pub w.sms batchSize with
      | .ok sms => { w with sms := sms }
      | .error _ => w

/-- Neither side has a row. -/
def start (sources : List Source) : CorpusWorld := ⟨Db.empty sources, .empty⟩

/-- The worlds after some acts. -/
def after (sources : List Source) (acts : List CorpusAct) : CorpusWorld :=
  Runs.run step (start sources) acts

/-- The public side at each run of `sync-corpus`, oldest first. -/
def snapshots (sources : List Source) (acts : List CorpusAct) : List Db :=
  Runs.collect step snapshotAt (start sources) acts

/-- What always holds of the public side. -/
structure PubInv (s : Db) : Prop where
  inv : s.Inv
  keys : s.ProjectionKeys

omit [PyText] in
/-- The keys the tables declare follow. -/
theorem PubInv.corpusKeys {s : Db} (h : PubInv s) : SmsDb.CorpusKeys s where
  events := h.inv.wf.eventIds
  pointers := by
    intro e he target hmerged
    obtain ⟨r, n, hleads⟩ := h.inv.forest.total e he
    cases hleads with
    | root hlive =>
        obtain ⟨x, hx, hid, hnone⟩ := hlive
        rw [h.inv.wf.eventIds.eq_of_key hx he hid, hmerged] at hnone
        cases hnone
    | step hpointer hrest =>
        obtain ⟨x, hx, hid, hx'⟩ := hpointer
        rw [h.inv.wf.eventIds.eq_of_key hx he hid, hmerged] at hx'
        rw [Option.some.inj hx']
        exact hrest.mem
  projections := h.keys.unique
  projected := by
    intro p hp
    obtain ⟨e, he, hid⟩ := h.keys.projection p hp
    exact hid ▸ List.mem_map_of_mem he

theorem pubInv_step (w : CorpusWorld) (act : CorpusAct) (h : PubInv w.pub) :
    PubInv (w.step act).pub := by
  cases act with
  | change op => exact ⟨Db.step_inv h.inv op, h.keys.step h.inv.wf op⟩
  | sync batchSize =>
      unfold step
      dsimp only
      split
      · exact h
      · exact h

theorem pubInv_after (sources : List Source) (acts : List CorpusAct) :
    PubInv (after sources acts).pub := by
  refine Runs.invariant (fun w act => pubInv_step w act) ?_ acts
  exact ⟨Db.inv_empty sources, Db.projectionKeys_empty sources⟩

/-- The snapshots of a run, and what the SMS database has of an event after it: the row of
the last snapshot with one, or what it had before. -/
theorem getProjection_run (w : CorpusWorld) (h : PubInv w.pub) (acts : List CorpusAct) (e : Uuid) :
    (Runs.run step w acts).sms.getProjection e =
      ((Runs.collect step snapshotAt w acts).reverse.findSome? fun pub => pub.getProjection e).or
        (w.sms.getProjection e) := by
  induction acts generalizing w with
  | nil => rfl
  | cons act acts ih =>
      rw [Runs.run_cons, ih _ (pubInv_step w act h), Runs.collect, List.reverse_append,
        List.findSome?_append, Option.or_assoc]
      congr 1
      cases act with
      | change op => rfl
      | sync batchSize =>
          obtain ⟨sms', hok, hsynced⟩ := syncCorpus_ok h.corpusKeys w.sms batchSize
          have hstep : w.step (.sync batchSize) = { w with sms := sms' } := by
            unfold step
            dsimp only
            rw [hok]
          rw [hstep, hsynced.projections e]
          cases hfound : w.pub.getProjection e <;> simp [snapshotAt, hfound]

end Runs

end CorpusWorld

/-- **What `sync-corpus` copies.**  After any public-side operations with any runs of
`sync-corpus` in between, a run with batches of any size completes; it leaves every public
projection in the SMS database, and every projected event and everything on its merge chain
with the public merge pointer.  The projection the SMS database has of an event is the
public one at the last run that found one.  The closure of the merge pointers terminates for
every merge graph. -/
theorem corpus_sync_copies [PyText] (sources : List Source) (acts : List CorpusAct) :
    (∀ batchSize, ∃ sms', syncCorpus (CorpusWorld.after sources acts).pub
        (CorpusWorld.after sources acts).sms batchSize = .ok sms' ∧
      CorpusSynced (CorpusWorld.after sources acts).pub (CorpusWorld.after sources acts).sms sms') ∧
    (∀ e, (CorpusWorld.after sources acts).sms.getProjection e =
      (CorpusWorld.snapshots sources acts).reverse.findSome? fun pub => pub.getProjection e) ∧
    ∀ events ids, ∃ r, ∀ turns, events.length + 2 ≤ turns →
      SmsDb.closureLoop events turns ids [] = some r := by
  refine ⟨?_, ?_, SmsDb.closureLoop_terminates⟩
  · intro batchSize
    exact syncCorpus_ok (CorpusWorld.pubInv_after sources acts).corpusKeys _ batchSize
  · intro e
    have hstart : CorpusWorld.PubInv (CorpusWorld.start sources).pub :=
      ⟨Db.inv_empty sources, Db.projectionKeys_empty sources⟩
    rw [CorpusWorld.after, CorpusWorld.getProjection_run _ hstart acts e]
    exact Option.or_none

/-! ## A merge between two runs -/

/-- Two reports of the operator, projected and copied; then the first event is merged into
the second, and the corpus is copied again. -/
def mergedBetweenRuns : List CorpusAct :=
  [.change (operatorReport 0 100 none none 1 1), .change (operatorReport 2 102 none none 1 3),
    .change (.rebuild none 4), .sync 500, .change (.merge ⟨5, 9, 9, "", none, 5⟩), .sync 500]

/-- The merge deletes the projection of the merged event on the public side only: the second
run finds no row to copy, and the one of the first run stays. -/
theorem merged_projection_stays :
    ¬ ∀ e, (CorpusWorld.after fourSources mergedBetweenRuns).sms.getProjection e =
      (CorpusWorld.after fourSources mergedBetweenRuns).pub.getProjection e := by
  intro hequal
  have hpublic : ((CorpusWorld.after fourSources mergedBetweenRuns).pub.getProjection 5).isSome =
      false := by
    decide +kernel
  have hcopied : ((CorpusWorld.after fourSources mergedBetweenRuns).sms.getProjection 5).isSome =
      true := by
    decide +kernel
  rw [hequal 5, hpublic] at hcopied
  cases hcopied

end Atlas
