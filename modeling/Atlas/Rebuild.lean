import Atlas.ProjectionVersions
import Atlas.Verification

/-!
# Rebuilding all projections

`RebuildAllProjections` walks the events in the order of their ids, a batch at a time, each batch
behind the last id of the one before, and commits after every event.  An event whose reprojection
raises is noted and passed over.

The walk visits each event once whatever the size of the batches, and a second walk after it
changes nothing.
-/

namespace Atlas

open Outcome Rows

/-- `RebuildAllResult`. -/
structure RebuildAllResult where
  processed : Nat
  skipped : Nat
  failedEventIds : List Uuid
  errors : List (Uuid × AtlasError)

namespace Db

/-- `ORDER BY accident_events.id`. -/
def idsInOrder (s : Db) : List Uuid := (s.events.map AccidentEvent.id).insertionSort (· ≤ ·)

/-- `events.list_ids_after_keyset`. -/
def listIdsAfterKeyset (s : Db) (afterId : Option Uuid) (limit : Nat) : List Uuid :=
  (s.idsInOrder.filter fun id => afterId.all fun afterId => decide (afterId < id)).take limit

section Walk

variable [PyText] (clock : Uuid → Time)

/-- The body of the loop over a batch. -/
def rebuildOne (acc : Db × RebuildAllResult) (id : Uuid) : Db × RebuildAllResult :=
  match acc.1.reProjectEvent ⟨id, none, none, none, false, clock id⟩ with
  | .ok (_, s') => (s', { acc.2 with processed := acc.2.processed + 1 })
  | .error e =>
      (acc.1,
        { acc.2 with
          skipped := acc.2.skipped + 1
          failedEventIds := acc.2.failedEventIds ++ [id]
          errors := acc.2.errors ++ [(id, e)] })

/-- The `while` loop, for at most so many rounds. -/
def rebuildLoop (batchSize : Nat) (maxEvents : Option Int) :
    Nat → Option Uuid → Db × RebuildAllResult → Option (Db × RebuildAllResult)
  | 0, _, _ => none
  | rounds + 1, lastSeenId, acc =>
      let remaining := maxEvents.map fun m => m - ((acc.2.processed + acc.2.skipped : Nat) : Int)
      if remaining.any fun r => decide (r ≤ 0) then some acc
      else
        let limit := (remaining.map fun r => min batchSize r.toNat).getD batchSize
        let eventIds := acc.1.listIdsAfterKeyset lastSeenId limit
        if eventIds = [] then some acc
        else rebuildLoop batchSize maxEvents rounds eventIds.getLast? (eventIds.foldl (rebuildOne clock) acc)

/-- `RebuildAllProjections.execute`.  A round visits an event or is the last, so that one more
round than there are events is enough. -/
def rebuildAll (s : Db) (batchSize : Int) (maxEvents : Option Int) :
    Except AtlasError (Option (Db × RebuildAllResult)) := do
  require (1 ≤ batchSize) (.domainValidation "batch_size must be at least 1")
  pure (rebuildLoop clock batchSize.toNat maxEvents (s.events.length + 1) none (s, ⟨0, 0, [], []⟩))

/-! ## The order of the walk -/

omit [PyText] in
/-- The ids behind a cursor. -/
theorem filter_after {pre rest : List Uuid} (h : (pre ++ rest).Pairwise (· < ·)) :
    ((pre ++ rest).filter fun id => pre.getLast?.all fun afterId => decide (afterId < id)) = rest := by
  cases List.eq_nil_or_concat pre with
  | inl hnil =>
      subst hnil
      exact List.filter_eq_self.mpr fun id _ => rfl
  | inr hlast =>
      obtain ⟨init, last, hconcat⟩ := hlast
      rw [List.concat_eq_append] at hconcat
      subst hconcat
      rw [List.getLast?_concat]
      obtain ⟨hpre, _, hcross⟩ := List.pairwise_append.mp h
      obtain ⟨_, _, hinit⟩ := List.pairwise_append.mp hpre
      have hbefore : ((init ++ [last]).filter fun id => (some last).all fun afterId =>
          decide (afterId < id)) = [] := by
        apply List.filter_eq_nil_iff.mpr
        intro id hid hafter
        have hlt : last < id := of_decide_eq_true hafter
        cases List.mem_append.mp hid with
        | inl hid =>
            exact lt_asymm hlt (hinit id hid last (List.mem_singleton_self last))
        | inr hid =>
            rw [List.mem_singleton.mp hid] at hlt
            exact lt_irrefl last hlt
      have hafter : (rest.filter fun id => (some last).all fun afterId => decide (afterId < id)) =
          rest := by
        apply List.filter_eq_self.mpr
        intro id hid
        exact decide_eq_true (hcross last (by simp) id hid)
      rw [List.filter_append, hbefore, hafter, List.nil_append]

omit [PyText] in
theorem pairwise_idsInOrder {s : Db} (hids : Unique AccidentEvent.id s.events) :
    s.idsInOrder.Pairwise (· < ·) := by
  have hperm : s.idsInOrder.Perm (s.events.map AccidentEvent.id) := List.perm_insertionSort _ _
  have hnodup : s.idsInOrder.Nodup := hperm.nodup_iff.mpr hids
  have hsorted : s.idsInOrder.Pairwise (· ≤ ·) := List.pairwise_insertionSort _ _
  refine (hsorted.and hnodup).imp ?_
  intro a b h
  exact lt_of_le_of_ne h.1 h.2

variable {clock : Uuid → Time} {s : Db} {acc : Db × RebuildAllResult}

theorem rebuildOne_only (acc : Db × RebuildAllResult) (id : Uuid) :
    ProjectionsOnly acc.1 (rebuildOne clock acc id).1 := by
  unfold rebuildOne
  split
  · rename_i hok
    exact reProjectEvent_only hok
  · exact ProjectionsOnly.refl _

theorem rebuildOne_attempted (acc : Db × RebuildAllResult) (id : Uuid) :
    (rebuildOne clock acc id).2.processed + (rebuildOne clock acc id).2.skipped =
      acc.2.processed + acc.2.skipped + 1 := by
  unfold rebuildOne
  split
  · exact Nat.add_right_comm _ _ _
  · rfl

theorem foldl_rebuildOne (acc : Db × RebuildAllResult) (ids : List Uuid) :
    ProjectionsOnly acc.1 (ids.foldl (rebuildOne clock) acc).1 ∧
      (ids.foldl (rebuildOne clock) acc).2.processed + (ids.foldl (rebuildOne clock) acc).2.skipped =
        acc.2.processed + acc.2.skipped + ids.length := by
  induction ids generalizing acc with
  | nil => exact ⟨ProjectionsOnly.refl _, rfl⟩
  | cons id ids ih =>
      obtain ⟨honly, hcount⟩ := ih (rebuildOne clock acc id)
      rw [rebuildOne_attempted] at hcount
      refine ⟨(rebuildOne_only acc id).trans honly, ?_⟩
      rw [List.foldl_cons, hcount, List.length_cons]
      omega

/-- The ids that are left to visit. -/
def leftToVisit (maxEvents : Option Int) (attempted : Nat) (rest : List Uuid) : List Uuid :=
  match maxEvents with
  | none => rest
  | some m => rest.take (m - attempted).toNat

omit [PyText] in
/-- A batch is the first of what is left. -/
theorem leftToVisit_batch {maxEvents : Option Int} {attempted limit : Nat} (rest : List Uuid)
    (hcap : ∀ m, maxEvents = some m → (limit : Int) ≤ m - attempted) :
    leftToVisit maxEvents attempted rest = rest.take limit ++
      leftToVisit maxEvents (attempted + (rest.take limit).length) (rest.drop limit) := by
  cases maxEvents with
  | none => exact (List.take_append_drop limit rest).symm
  | some m =>
      have hle := hcap m rfl
      show rest.take (m - attempted).toNat = rest.take limit ++ (rest.drop limit).take _
      have hsum : (m - attempted).toNat = limit + ((m - attempted).toNat - limit) := by omega
      rw [hsum, List.take_add]
      congr 1
      by_cases hlong : limit ≤ rest.length
      · rw [List.length_take_of_le hlong]
        congr 1
        omega
      · rw [List.drop_eq_nil_of_le (by omega)]
        simp

/-- **The walk.**  Whatever the size of the batches, the loop visits what is left, one id after
the other. -/
theorem rebuildLoop_eq {batchSize : Nat} (hsize : 1 ≤ batchSize) {maxEvents : Option Int}
    {rounds : Nat} {pre rest : List Uuid} (hrounds : rest.length < rounds)
    (hids : Unique AccidentEvent.id acc.1.events) (hsplit : acc.1.idsInOrder = pre ++ rest) :
    rebuildLoop clock batchSize maxEvents rounds pre.getLast? acc =
      some ((leftToVisit maxEvents (acc.2.processed + acc.2.skipped) rest).foldl
        (rebuildOne clock) acc) := by
  induction rounds generalizing pre rest acc with
  | zero => exact absurd hrounds (Nat.not_lt_zero _)
  | succ rounds ih =>
      generalize hattempted : acc.2.processed + acc.2.skipped = attempted
      unfold rebuildLoop
      dsimp only
      rw [hattempted]
      by_cases hdone : (maxEvents.map fun m => m - (attempted : Int)).any fun r => decide (r ≤ 0)
      · rw [if_pos hdone]
        cases maxEvents with
        | none => cases hdone
        | some m =>
            have hle : m - (attempted : Int) ≤ 0 := of_decide_eq_true hdone
            show some acc = some ((rest.take (m - attempted).toNat).foldl _ acc)
            rw [Int.toNat_of_nonpos hle]
            rfl
      · rw [if_neg hdone]
        generalize hlimit : ((maxEvents.map fun m => m - (attempted : Int)).map fun r =>
          min batchSize r.toNat).getD batchSize = limit
        have hpositive : 1 ≤ limit := by
          cases maxEvents with
          | none => exact hlimit ▸ hsize
          | some m =>
              have hleft : ¬ m - (attempted : Int) ≤ 0 := fun hle => hdone (decide_eq_true hle)
              rw [← hlimit]
              show 1 ≤ min batchSize (m - (attempted : Int)).toNat
              omega
        have hcap : ∀ m, maxEvents = some m → (limit : Int) ≤ m - attempted := by
          intro m hm
          subst hm
          have hleft : ¬ m - (attempted : Int) ≤ 0 := fun hle => hdone (decide_eq_true hle)
          have hmin : min batchSize (m - (attempted : Int)).toNat = limit := hlimit
          omega
        have hbatch : acc.1.listIdsAfterKeyset pre.getLast? limit = rest.take limit := by
          unfold listIdsAfterKeyset
          have hordered := pairwise_idsInOrder hids
          rw [hsplit] at hordered ⊢
          rw [filter_after hordered]
        rw [hbatch]
        by_cases hnil : rest.take limit = []
        · rw [if_pos hnil]
          have hempty : rest = [] := by
            cases rest with
            | nil => rfl
            | cons id rest =>
                obtain ⟨n, hn⟩ := Nat.exists_eq_add_of_le' hpositive
                rw [hn, List.take_succ_cons] at hnil
                cases hnil
          rw [hempty]
          cases maxEvents with
          | none => rfl
          | some m => simp [leftToVisit]
        · rw [if_neg hnil, leftToVisit_batch rest hcap, List.foldl_append]
          obtain ⟨honly, hcount⟩ := @foldl_rebuildOne _ clock acc (rest.take limit)
          obtain ⟨ps, hs, hdb⟩ := honly
          have hlast : (rest.take limit).getLast? = (pre ++ rest.take limit).getLast? := by
            rw [List.getLast?_append]
            cases hsome : (rest.take limit).getLast? with
            | none => exact absurd (List.getLast?_eq_none_iff.mp hsome) hnil
            | some id => rfl
          have hshorter : (rest.drop limit).length < rounds := by
            rw [List.length_drop]
            have hnonempty : rest.length ≠ 0 := by
              intro hzero
              rw [List.length_eq_zero_iff.mp hzero] at hnil
              exact hnil List.take_nil
            omega
          rw [hlast, ih hshorter (by rw [hdb]; exact hids) ?_, hcount, hattempted]
          rw [List.append_assoc, List.take_append_drop, ← hsplit, hdb]
          rfl

/-- The events that a rebuild visits. -/
def visited (s : Db) (maxEvents : Option Int) : List Uuid := leftToVisit maxEvents 0 s.idsInOrder

/-- A rebuild reprojects the events it visits, one after the other. -/
theorem rebuildAll_eq (hids : Unique AccidentEvent.id s.events) {batchSize : Int}
    (hsize : 1 ≤ batchSize) (maxEvents : Option Int) :
    s.rebuildAll clock batchSize maxEvents =
      .ok (some ((s.visited maxEvents).foldl (rebuildOne clock) (s, ⟨0, 0, [], []⟩))) := by
  have hrounds : s.idsInOrder.length < s.events.length + 1 := by
    unfold idsInOrder
    rw [List.length_insertionSort, List.length_map]
    exact Nat.lt_succ_self _
  have hfirst : s.idsInOrder = [] ++ s.idsInOrder := rfl
  have hnat : 1 ≤ batchSize.toNat := by omega
  have hloop : rebuildLoop clock batchSize.toNat maxEvents (s.events.length + 1) none
      (s, ⟨0, 0, [], []⟩) = some ((s.visited maxEvents).foldl (rebuildOne clock) (s, ⟨0, 0, [], []⟩)) :=
    @rebuildLoop_eq _ clock (s, ⟨0, 0, [], []⟩) _ hnat maxEvents _ [] _ hrounds hids hfirst
  unfold rebuildAll
  rw [hloop]
  unfold require
  rw [if_pos hsize]
  rfl

/-- The step of the system does what the batches do. -/
theorem rebuildAll_store (hids : Unique AccidentEvent.id s.events) {batchSize : Int}
    (hsize : 1 ≤ batchSize) (maxEvents : Option Nat) (now : Time) :
    (s.rebuildAll (fun _ => now) batchSize (maxEvents.map Int.ofNat)).map
        (fun res => res.map Prod.fst) = .ok (some (s.rebuildAllProjections maxEvents now)) := by
  have hstep : ∀ (ids : List Uuid) (acc : Db × RebuildAllResult),
      (ids.foldl (rebuildOne fun _ => now) acc).1 = ids.foldl (fun s id =>
        match s.reProjectEvent ⟨id, none, none, none, false, now⟩ with
        | .ok (_, s') => s'
        | .error _ => s) acc.1 := by
    intro ids
    induction ids with
    | nil => exact fun _ => rfl
    | cons id ids ih =>
        intro acc
        rw [List.foldl_cons, List.foldl_cons, ih]
        congr 1
        unfold rebuildOne
        cases acc.1.reProjectEvent ⟨id, none, none, none, false, now⟩ <;> rfl
  rw [rebuildAll_eq hids hsize]
  show Except.ok (some _) = _
  rw [hstep]
  cases maxEvents with
  | none => rfl
  | some n =>
      have hcap : (((n : Int) - (0 : Nat)).toNat) = n := by simp
      show Except.ok (some ((s.idsInOrder.take ((n : Int) - (0 : Nat)).toNat).foldl _ s)) = _
      rw [hcap]
      rfl

end Walk

/-! ## An event of its own -/

section Frame

variable {s s' s'' : Db} {e : Uuid}

/-- The two stores have the same of the event, and differ at most in projections. -/
structure AgreeOn (e : Uuid) (s s' : Db) : Prop where
  only : ProjectionsOnly s s'
  projection : s'.getProjection e = s.getProjection e
  history : s'.historyOf e = s.historyOf e

theorem AgreeOn.refl (e : Uuid) (s : Db) : AgreeOn e s s := ⟨ProjectionsOnly.refl s, rfl, rfl⟩

theorem AgreeOn.symm (h : AgreeOn e s s') : AgreeOn e s' s := by
  obtain ⟨⟨ps, hs, rfl⟩, hprojection, hhistory⟩ := h
  exact ⟨⟨s.projections, s.projectionHistory, rfl⟩, hprojection.symm, hhistory.symm⟩

theorem AgreeOn.trans (h : AgreeOn e s s') (h' : AgreeOn e s' s'') : AgreeOn e s s'' :=
  ⟨h.only.trans h'.only, h'.projection.trans h.projection, h'.history.trans h.history⟩

/-- What is persisted for another event. -/
theorem persistProjection_elsewhere {call : ReProjectCall} {cur : Option ProjectedAccidentRecord}
    {p r : ProjectedAccidentRecord} (hne : e ≠ p.eventId)
    (h : s.persistProjection call cur p = .ok (r, s')) : AgreeOn e s s' := by
  have honly := persistProjection_only h
  obtain ⟨c, -, ⟨rfl, -, -⟩ | ⟨rfl, hadd⟩⟩ := persistProjection_cases h
  · exact AgreeOn.refl e s'
  · obtain ⟨ps, hps⟩ := upsertProjection_eq s (storedRow r)
    have hs₁ := addProjectionHistory_ok hadd
    refine ⟨honly, ?_, ?_⟩
    · rw [hs₁]
      exact (getProjection_upsert s (storedRow r) e).trans (if_neg hne)
    · unfold historyOf
      rw [hs₁, hps]
      exact filter_append_single (decide_eq_false fun heq => hne heq.symm)

/-- A history row is refused for the rows of its own event. -/
theorem addProjectionHistory_congr {row row' : AccidentProjectionHistory} {t t' : Db}
    (hhistory : t'.historyOf row.accidentEventId = t.historyOf row.accidentEventId)
    (hevent : row'.accidentEventId = row.accidentEventId)
    (hversion : row'.projectionVersion = row.projectionVersion)
    (hcause : row.causedByOutboxEventId = none) (hcause' : row'.causedByOutboxEventId = none) :
    (t.addProjectionHistory row).map (fun _ => ()) = (t'.addProjectionHistory row').map fun _ => () := by
  have hany : ∀ (u : Db) (g : AccidentProjectionHistory),
      (u.projectionHistory.any fun h => decide (h.accidentEventId = g.accidentEventId ∧
        h.projectionVersion = g.projectionVersion)) =
      (u.historyOf g.accidentEventId).any fun h =>
        decide (h.projectionVersion = g.projectionVersion) := by
    intro u g
    unfold historyOf
    rw [List.any_filter]
    congr 1
    funext h
    rw [Bool.decide_and]
  unfold addProjectionHistory
  rw [hany t row, hany t' row', hevent, hversion, hhistory, hcause, hcause']
  split
  · rfl
  · rfl

end Frame

section UpToDate

variable [PyText] {s s' s'' : Db} {e : Uuid}

/-- A reprojection that nothing in particular asks for. -/
def plain (id : Uuid) (now : Time) : ReProjectCall := ⟨id, none, none, none, false, now⟩

/-- What a reprojection is about to write. -/
def recomputed (s : Db) (id : Uuid) (now : Time) : ProjectedAccidentRecord :=
  s.recompute id ⟨id, nextVersion (s.getProjection id), [], 0, [], now⟩

theorem recompute_eventId (s : Db) (e : Uuid) (st : ProjectedAccidentRecord) :
    (s.recompute e st).eventId = e := by
  unfold recompute
  split
  · rfl
  · rfl

theorem recompute_version (s : Db) (e : Uuid) (st : ProjectedAccidentRecord) :
    (s.recompute e st).projectionVersion = st.projectionVersion := by
  unfold recompute
  split
  · rfl
  · rfl

/-- The content is not that of the version or the time. -/
theorem hash_recompute (s : Db) (e : Uuid) (st st' : ProjectedAccidentRecord) :
    projectionContentHash (s.recompute e st) = projectionContentHash (s.recompute e st') := by
  unfold recompute
  split
  · rfl
  · rfl

theorem AgreeOn.recompute (h : AgreeOn e s s') (st : ProjectedAccidentRecord) :
    s'.recompute e st = s.recompute e st := by
  obtain ⟨ps, hs, rfl⟩ := h.only
  rfl

theorem reProjectEvent_plain (hevent : (s.getEvent e).isSome) (now : Time) :
    s.reProjectEvent (plain e now) =
      s.persistProjection (plain e now) (s.getProjection e) (s.recomputed e now) := by
  show s.rebuildProjection (plain e now) = _
  unfold rebuildProjection recomputed recompute
  dsimp only [plain]
  split
  · rfl
  · have hrequired : require ((s.getEvent e).isSome ∨ s.findActiveByEvent e ≠ [])
        (AtlasError.eventNotFound e) = Except.ok () := if_pos (.inl hevent)
    exact congrArg (fun r => r >>= _) hrequired

theorem reProjectEvent_elsewhere {id : Uuid} {now : Time} {p : ProjectedAccidentRecord}
    (hevent : (s.getEvent id).isSome) (hne : e ≠ id)
    (h : s.reProjectEvent (plain id now) = .ok (p, s')) : AgreeOn e s s' := by
  rw [reProjectEvent_plain hevent] at h
  refine persistProjection_elsewhere ?_ h
  rw [recomputed, recompute_eventId]
  exact hne

/-- The stored row has the content of what is recomputed. -/
def UpToDate (s : Db) (e : Uuid) : Prop :=
  ∃ st c, s.getProjection e = some st ∧ projectionContentHash st = .ok c ∧
    ∀ st', projectionContentHash (s.recompute e st') = .ok c

theorem UpToDate.congr (h : s.UpToDate e) (hagree : AgreeOn e s s') : s'.UpToDate e := by
  obtain ⟨st, c, hst, hhash, hrecompute⟩ := h
  refine ⟨st, c, hagree.projection.trans hst, hhash, ?_⟩
  intro st'
  rw [hagree.recompute]
  exact hrecompute st'

/-- A settled row is not written again. -/
theorem UpToDate.again (h : s.UpToDate e) (hevent : (s.getEvent e).isSome) (now : Time) :
    ∃ st, s.reProjectEvent (plain e now) = .ok (st, s) := by
  obtain ⟨st, c, hst, hhash, hrecompute⟩ := h
  refine ⟨st, ?_⟩
  rw [reProjectEvent_plain hevent, hst]
  unfold persistProjection unchangedRow recomputed
  rw [hrecompute]
  simp only [plain, Bool.false_eq_true, if_false]
  rw [hhash, ok_bind, ok_bind, if_pos rfl]
  rfl

/-- A reprojection settles its event. -/
theorem upToDate_of_reProjectEvent {now : Time} {p : ProjectedAccidentRecord}
    (hevent : (s.getEvent e).isSome) (h : s.reProjectEvent (plain e now) = .ok (p, s')) :
    s'.UpToDate e := by
  rw [reProjectEvent_plain hevent] at h
  obtain ⟨ps, hs, hdb⟩ := persistProjection_only h
  have hsame : ∀ st, s'.recompute e st = s.recompute e st := by
    intro st
    rw [hdb]
    rfl
  obtain ⟨c, hc, hcases⟩ := persistProjection_cases h
  have hrecompute : ∀ st', projectionContentHash (s'.recompute e st') = .ok c := by
    intro st'
    rw [hsame]
    exact (hash_recompute s e st' _).trans hc
  rcases hcases with ⟨rfl, hcur, hp⟩ | ⟨-, hadd⟩
  · exact ⟨p, c, hcur, hp, hrecompute⟩
  · refine ⟨storedRow (s.recomputed e now), c, ?_, ?_, hrecompute⟩
    · rw [addProjectionHistory_ok hadd]
      refine (getProjection_upsert s (storedRow (s.recomputed e now)) e).trans (if_pos ?_)
      exact (recompute_eventId s e _).symm
    · rw [← hc]
      unfold projectionContentHash storedRow
      simp

/-- The two stores take the same history row. -/
theorem AgreeOn.addProjectionHistory (h : AgreeOn e s s') (now now' : Time)
    (cur : Option ProjectedAccidentRecord) :
    ((s.upsertProjection (storedRow (s.recomputed e now))).addProjectionHistory
        (historyRow (plain e now) cur (s.recomputed e now))).map (fun _ => ()) =
      ((s'.upsertProjection (storedRow (s'.recomputed e now'))).addProjectionHistory
        (historyRow (plain e now') cur (s'.recomputed e now'))).map fun _ => () := by
  have hid : ∀ (u : Db) (time : Time), (u.recomputed e time).eventId = e :=
    fun u _ => recompute_eventId u e _
  have hversion : (s'.recomputed e now').projectionVersion = (s.recomputed e now).projectionVersion := by
    unfold recomputed
    rw [recompute_version, recompute_version, h.projection]
  apply addProjectionHistory_congr
  · have hhistory : ∀ (u : Db) (p : ProjectedAccidentRecord),
        (u.upsertProjection p).historyOf e = u.historyOf e := by
      intro u p
      obtain ⟨ps, hps⟩ := upsertProjection_eq u p
      rw [hps]
      rfl
    show Db.historyOf _ (s.recomputed e now).eventId = Db.historyOf _ (s.recomputed e now).eventId
    rw [hid, hhistory, hhistory]
    exact h.history
  · exact (hid s' now').trans (hid s now).symm
  · exact hversion
  · rfl
  · rfl

/-- A reprojection that raised raises again, at any time, as long as its event is left alone. -/
theorem AgreeOn.fails (h : AgreeOn e s s') (hevent : (s.getEvent e).isSome) {now : Time}
    (now' : Time) {err : AtlasError} (hfails : s.reProjectEvent (plain e now) = .error err) :
    s'.reProjectEvent (plain e now') = .error err := by
  have hevent' : (s'.getEvent e).isSome := by
    obtain ⟨ps, hs, rfl⟩ := h.only
    exact hevent
  have hsame : (s.reProjectEvent (plain e now)).map (fun _ => ()) =
      (s'.reProjectEvent (plain e now')).map fun _ => () := by
    rw [reProjectEvent_plain hevent, reProjectEvent_plain hevent', h.projection]
    unfold persistProjection
    have hhash : projectionContentHash (s'.recomputed e now') =
        projectionContentHash (s.recomputed e now) := by
      unfold recomputed
      rw [h.recompute]
      exact hash_recompute s e _ _
    rw [hhash]
    apply map_bind_congr
    intro hash _
    apply map_bind_congr
    intro unchanged _
    cases unchanged with
    | some cur => rfl
    | none =>
        have hadd := h.addProjectionHistory now now' (s.getProjection e)
        obtain ⟨err, herr, herr'⟩ | ⟨t, t', hok, hok', -⟩ := cases_of_map_eq hadd
        · dsimp only
          rw [herr, herr']
          rfl
        · dsimp only
          rw [hok, hok']
          rfl
  rw [hfails] at hsame
  obtain ⟨err', herr, herr'⟩ | ⟨p, p', hok, -, -⟩ := cases_of_map_eq hsame
  · cases herr
    exact herr'
  · cases hok

end UpToDate

/-! ## The whole walk -/

section Rebuilds

variable [PyText] {clock : Uuid → Time} {s s' : Db} {acc : Db × RebuildAllResult} {e id : Uuid}

theorem rebuildOne_ok {p : ProjectedAccidentRecord}
    (h : acc.1.reProjectEvent (plain id (clock id)) = .ok (p, s')) :
    rebuildOne clock acc id = (s', { acc.2 with processed := acc.2.processed + 1 }) := by
  unfold rebuildOne
  rw [show acc.1.reProjectEvent ⟨id, none, none, none, false, clock id⟩ = .ok (p, s') from h]

theorem rebuildOne_error {err : AtlasError}
    (h : acc.1.reProjectEvent (plain id (clock id)) = .error err) :
    rebuildOne clock acc id = (acc.1,
      { acc.2 with
        skipped := acc.2.skipped + 1
        failedEventIds := acc.2.failedEventIds ++ [id]
        errors := acc.2.errors ++ [(id, err)] }) := by
  unfold rebuildOne
  rw [show acc.1.reProjectEvent ⟨id, none, none, none, false, clock id⟩ = .error err from h]

/-- One event of the walk leaves the others alone. -/
theorem rebuildOne_elsewhere (hevent : (acc.1.getEvent id).isSome) (hne : e ≠ id) :
    AgreeOn e acc.1 (rebuildOne clock acc id).1 := by
  cases hrun : acc.1.reProjectEvent (plain id (clock id)) with
  | error err =>
      rw [rebuildOne_error hrun]
      exact AgreeOn.refl e acc.1
  | ok r =>
      rw [rebuildOne_ok hrun]
      exact reProjectEvent_elsewhere hevent hne hrun

theorem events_rebuildOne {ids : List Uuid}
    (hevents : ∀ x ∈ id :: ids, (acc.1.getEvent x).isSome) :
    ∀ x ∈ ids, ((rebuildOne clock acc id).1.getEvent x).isSome := by
  intro x hx
  obtain ⟨ps, hs, hdb⟩ := @rebuildOne_only _ clock acc id
  rw [hdb]
  exact hevents x (List.mem_cons_of_mem id hx)

theorem foldl_elsewhere {ids : List Uuid} (hevents : ∀ id ∈ ids, (acc.1.getEvent id).isSome)
    (he : e ∉ ids) : AgreeOn e acc.1 (ids.foldl (rebuildOne clock) acc).1 := by
  induction ids generalizing acc with
  | nil => exact AgreeOn.refl e acc.1
  | cons id ids ih =>
      have hone : AgreeOn e acc.1 (rebuildOne clock acc id).1 :=
        rebuildOne_elsewhere (hevents id List.mem_cons_self) (List.ne_of_not_mem_cons he)
      exact hone.trans (ih (events_rebuildOne hevents) (List.not_mem_of_not_mem_cons he))

/-- **Once more.**  In a store that agrees with the one the walk leaves, on the events of the
walk, a walk writes nothing and reports the same. -/
theorem foldl_again {clock' : Uuid → Time} {ids : List Uuid} (hnodup : ids.Nodup)
    (hevents : ∀ id ∈ ids, (acc.1.getEvent id).isSome)
    (hagree : ∀ e ∈ ids, AgreeOn e (ids.foldl (rebuildOne clock) acc).1 s') :
    ids.foldl (rebuildOne clock') (s', acc.2) = (s', (ids.foldl (rebuildOne clock) acc).2) := by
  induction ids generalizing acc with
  | nil => rfl
  | cons id ids ih =>
      obtain ⟨hnot, hnodup⟩ := List.nodup_cons.mp hnodup
      have hevent := hevents id List.mem_cons_self
      have hlater : AgreeOn id (rebuildOne clock acc id).1 s' :=
        (foldl_elsewhere (events_rebuildOne hevents) hnot).trans (hagree id List.mem_cons_self)
      have hone : rebuildOne clock' (s', acc.2) id = (s', (rebuildOne clock acc id).2) := by
        cases hrun : acc.1.reProjectEvent (plain id (clock id)) with
        | error err =>
            rw [rebuildOne_error hrun] at hlater ⊢
            exact rebuildOne_error (hlater.fails hevent (clock' id) hrun)
        | ok r =>
            rw [rebuildOne_ok hrun] at hlater ⊢
            have hfresh := (upToDate_of_reProjectEvent hevent hrun).congr hlater
            have hevent' : (s'.getEvent id).isSome := by
              obtain ⟨ps, hs, hdb⟩ := (reProjectEvent_only hrun).trans hlater.only
              rw [hdb]
              exact hevent
            obtain ⟨st, hst⟩ := hfresh.again hevent' (clock' id)
            exact rebuildOne_ok hst
      rw [List.foldl_cons, List.foldl_cons, hone]
      apply ih hnodup (events_rebuildOne hevents)
      intro e he
      exact hagree e (List.mem_cons_of_mem id he)

/-- The reprojection of the event alone, in the store that the walk starts from, raises. -/
def Raises (s : Db) (e : Uuid) (now : Time) : Prop :=
  ∃ err, s.reProjectEvent ⟨e, none, none, none, false, now⟩ = .error err

/-- What a walk from a store has to show for the events it visited. -/
structure Walked (clock : Uuid → Time) (s : Db) (ids : List Uuid) (acc : Db × RebuildAllResult) :
    Prop where
  columns : acc.1.JsonColumns
  skipped : acc.2.failedEventIds.length = acc.2.skipped
  inOrder : acc.2.failedEventIds.Sublist ids
  others : ∀ e ∉ ids, AgreeOn e s acc.1
  failed : ∀ e, e ∈ acc.2.failedEventIds ↔ e ∈ ids ∧ s.Raises e (clock e)
  done : ∀ e ∈ ids, e ∉ acc.2.failedEventIds → acc.1.UpToDate e

theorem Walked.one {ids : List Uuid} (h : Walked clock s ids acc)
    (hevent : (acc.1.getEvent id).isSome) (hnot : id ∉ ids) :
    Walked clock s (ids ++ [id]) (rebuildOne clock acc id) := by
  obtain ⟨hcolumns, hskipped, hinOrder, hothers, hfailed, hdone⟩ := h
  have hone : ∀ e, e ≠ id → AgreeOn e acc.1 (rebuildOne clock acc id).1 :=
    fun e hne => rebuildOne_elsewhere hevent hne
  have hothers' : ∀ e ∉ ids ++ [id], AgreeOn e s (rebuildOne clock acc id).1 := by
    intro e he
    rw [List.mem_append, List.mem_singleton, not_or] at he
    exact (hothers e he.1).trans (hone e he.2)
  cases hrun : acc.1.reProjectEvent (plain id (clock id)) with
  | error err =>
      have hraises : s.Raises id (clock id) :=
        ⟨err, (hothers id hnot).symm.fails hevent (clock id) hrun⟩
      rw [rebuildOne_error hrun] at hothers' ⊢
      refine ⟨hcolumns, ?_, hinOrder.append (List.Sublist.refl [id]), hothers', ?_, ?_⟩
      · show (acc.2.failedEventIds ++ [id]).length = acc.2.skipped + 1
        rw [List.length_append, hskipped, List.length_singleton]
      · intro e
        rw [List.mem_append, List.mem_append, hfailed, List.mem_singleton, or_and_right]
        refine or_congr_right (iff_self_and.mpr ?_)
        intro heq
        rw [heq]
        exact hraises
      · intro e he hnotFailed
        rw [List.mem_append, not_or] at hnotFailed
        cases List.mem_append.mp he with
        | inl he => exact hdone e he hnotFailed.1
        | inr he => exact absurd he hnotFailed.2
  | ok r =>
      have hworks : ¬ s.Raises id (clock id) := by
        intro hraises
        obtain ⟨err, herr⟩ := hraises
        have hevent' : (s.getEvent id).isSome := by
          obtain ⟨ps, hs, hdb⟩ := (hothers id hnot).symm.only
          rw [hdb]
          exact hevent
        have hagain := (hothers id hnot).fails hevent' (clock id) herr
        rw [hrun] at hagain
        cases hagain
      rw [rebuildOne_ok hrun] at hothers' hone ⊢
      refine ⟨(stored_of_reProjectEvent hcolumns rfl hrun).1, hskipped,
        hinOrder.trans (List.sublist_append_left ids [id]), hothers', ?_, ?_⟩
      · intro e
        rw [List.mem_append, List.mem_singleton, or_and_right]
        refine (hfailed e).trans (or_iff_left ?_).symm
        intro hlast
        rw [hlast.1] at hlast
        exact hworks hlast.2
      · intro e he hnotFailed
        cases List.mem_append.mp he with
        | inl he =>
            exact (hdone e he hnotFailed).congr (hone e fun heq => hnot (heq ▸ he))
        | inr he =>
            rw [List.mem_singleton.mp he]
            exact upToDate_of_reProjectEvent hevent hrun

theorem Walked.foldl {pre ids : List Uuid} (h : Walked clock s pre acc)
    (hnodup : (pre ++ ids).Nodup) (hevents : ∀ id ∈ ids, (acc.1.getEvent id).isSome) :
    Walked clock s (pre ++ ids) (ids.foldl (rebuildOne clock) acc) := by
  induction ids generalizing pre acc with
  | nil =>
      rw [List.append_nil]
      exact h
  | cons id ids ih =>
      have hnot : id ∉ pre := by
        intro hid
        exact List.disjoint_of_nodup_append hnodup hid List.mem_cons_self
      have hassoc : pre ++ id :: ids = pre ++ [id] ++ ids := by simp
      rw [hassoc] at hnodup ⊢
      exact ih (h.one (hevents id List.mem_cons_self) hnot) hnodup (events_rebuildOne hevents)

omit [PyText] in
theorem nodup_visited (hids : Unique AccidentEvent.id s.events) (maxEvents : Option Int) :
    (s.visited maxEvents).Nodup := by
  have hperm : s.idsInOrder.Perm (s.events.map AccidentEvent.id) := List.perm_insertionSort _ _
  have hnodup : s.idsInOrder.Nodup := hperm.nodup_iff.mpr hids
  cases maxEvents with
  | none => exact hnodup
  | some m => exact hnodup.sublist (List.take_sublist _ _)

omit [PyText] in
theorem getEvent_visited {maxEvents : Option Int} (h : id ∈ s.visited maxEvents) :
    (s.getEvent id).isSome := by
  have hid : id ∈ s.idsInOrder := by
    cases maxEvents with
    | none => exact h
    | some m => exact List.mem_of_mem_take h
  obtain ⟨ev, hev, hevid⟩ := List.mem_map.mp ((List.mem_insertionSort _).mp hid)
  rw [Option.isSome_iff_ne_none]
  intro hnone
  exact lookup_none.mp hnone ev hev hevid

/-- **A rebuild.**  Whatever the size of the batches, a rebuild without a cap runs the body of
its loop for every event once, in the order of the ids, and what fails are the events whose
reprojection alone raises.  After it the checker finds the row of any other event consistent exactly
when the row has no unresolved field, and the fields it reports are the unresolved ones. -/
theorem rebuild_all (hids : Unique AccidentEvent.id s.events) (hcolumns : s.JsonColumns)
    {batchSize : Int} (hsize : 1 ≤ batchSize) :
    ∃ ids s' r, ids.Perm (s.events.map AccidentEvent.id) ∧ ids.Pairwise (· < ·) ∧
      ids.foldl (rebuildOne clock) (s, ⟨0, 0, [], []⟩) = (s', r) ∧
      s.rebuildAll clock batchSize none = .ok (some (s', r)) ∧
      r.processed + r.skipped = s.events.length ∧ r.failedEventIds.length = r.skipped ∧
      r.failedEventIds.Sublist ids ∧
      ∀ ev ∈ s.events, (ev.id ∈ r.failedEventIds ↔ s.Raises ev.id (clock ev.id)) ∧
        (ev.id ∉ r.failedEventIds → ∃ st report, s'.getProjection ev.id = some st ∧
          s'.verifyProjectionConsistency ev.id = some report ∧
          (report.consistent = true ↔ st.unresolvedConflictFields = []) ∧
          ∀ f, f ∈ report.fieldDiff.map (fun d => d.1) ↔ f ∈ st.unresolvedConflictFields) := by
  have hstart : Walked clock s [] (s, ⟨0, 0, [], []⟩) :=
    ⟨hcolumns, rfl, List.Sublist.refl [], fun e _ => AgreeOn.refl e s, by simp,
      fun _ he => (List.not_mem_nil he).elim⟩
  have hevents : ∀ id ∈ s.visited none, (s.getEvent id).isSome := fun _ hid => getEvent_visited hid
  have hwalked : Walked clock s (s.visited none) _ :=
    hstart.foldl (nodup_visited hids none) hevents
  obtain ⟨-, hcount⟩ := @foldl_rebuildOne _ clock (s, ⟨0, 0, [], []⟩) (s.visited none)
  have hlength : (s.visited none).length = s.events.length := by
    show s.idsInOrder.length = s.events.length
    unfold idsInOrder
    rw [List.length_insertionSort, List.length_map]
  refine ⟨s.visited none, _, _, List.perm_insertionSort _ _, pairwise_idsInOrder hids, rfl,
    rebuildAll_eq hids hsize none, ?_, hwalked.skipped, hwalked.inOrder, ?_⟩
  · rw [hcount, hlength]
    exact Nat.zero_add _
  · intro ev hev
    have hvisited : ev.id ∈ s.visited none :=
      (List.mem_insertionSort _).mpr (List.mem_map_of_mem hev)
    refine ⟨(hwalked.failed ev.id).trans (and_iff_right hvisited), ?_⟩
    intro hnot
    obtain ⟨st, c, hst, hhash, hrecompute⟩ := hwalked.done ev.id hvisited hnot
    have hcontent := (projectionContentHash_ok hhash).symm.trans
      (projectionContentHash_ok (hrecompute st))
    obtain ⟨report, hreport⟩ := verify_of_content hwalked.columns hst hcontent
    exact ⟨st, report, hst, hreport⟩

/-- **A rebuild, run again.**  With the same cap, but batches and a clock of any kind, a second
rebuild behind a first writes nothing, and its report is that of the first. -/
theorem rebuild_again (hids : Unique AccidentEvent.id s.events) {clock' : Uuid → Time}
    {batchSize batchSize' : Int} (hsize : 1 ≤ batchSize) (hsize' : 1 ≤ batchSize')
    {maxEvents : Option Int} {r : RebuildAllResult}
    (hrun : s.rebuildAll clock batchSize maxEvents = .ok (some (s', r))) :
    s'.rebuildAll clock' batchSize' maxEvents = .ok (some (s', r)) := by
  rw [rebuildAll_eq hids hsize, Except.ok.injEq, Option.some.injEq] at hrun
  obtain ⟨honly, -⟩ := @foldl_rebuildOne _ clock (s, ⟨0, 0, [], []⟩) (s.visited maxEvents)
  rw [hrun] at honly
  obtain ⟨ps, hs, hdb⟩ := honly
  change s' = { s with projections := ps, projectionHistory := hs } at hdb
  have hvisited : s'.visited maxEvents = s.visited maxEvents := by
    rw [hdb]
    rfl
  have hids' : Unique AccidentEvent.id s'.events := by
    rw [hdb]
    exact hids
  have hagain := @foldl_again _ clock s' (s, ⟨0, 0, [], []⟩) clock' (s.visited maxEvents)
    (nodup_visited hids maxEvents) (fun _ hid => getEvent_visited hid) ?_
  · rw [rebuildAll_eq hids' hsize', hvisited, hagain, hrun]
  · intro e _
    rw [hrun]
    exact AgreeOn.refl e s'

end Rebuilds

end Db

theorem unique_disputedThenLocation :
    Rows.Unique AccidentEvent.id disputedThenLocation.events := by
  have hnodup : (disputedThenLocation.events.map AccidentEvent.id).Nodup := by decide +kernel
  exact hnodup

/-- Three accidents are reported, and the first is merged into the second after it was projected:
the merge deletes its projection and keeps the history row of it. -/
def projectedThenMerged : Db :=
  after fourSources
    [operatorReport 0 100 none (some "r1") 1 1, operatorReport 1 101 none (some "r2") 2 2,
      .ingest ⟨2, 102, "", none, some "r3", [⟨"location", .str "Oslo"⟩], .new, 10, 3⟩,
      .reproject 5 3, .merge ⟨5, 9, 9, "", none, 6⟩]

theorem jsonColumns_projectedThenMerged : projectedThenMerged.JsonColumns := by
  have hclaims : projectedThenMerged.claims.map Claim.fieldValue =
      [.num (.int 1), .num (.int 2), .str "Oslo", .num (.int 1)] := by decide +kernel
  have hprojections : projectedThenMerged.projections.map ProjectedAccidentRecord.fields =
      ([] : List (List (String × Json))).map storedFields := by decide +kernel
  refine Db.jsonColumns_of hclaims hprojections ?_ ?_
  · simp only [List.mem_cons, List.not_mem_nil, or_false, forall_eq_or_imp, forall_eq]
    exact ⟨.num (by decide), .num (by decide), .str _, .num (by decide)⟩
  · simp only [List.not_mem_nil, false_imp_iff, implies_true]

/-- What the rebuild of that store leaves, two events to a batch: the tombstone of the first event
is refused for the version of its history row. -/
theorem rebuild_projectedThenMerged :
    ∃ res, projectedThenMerged.rebuildAll (fun _ => 9) 2 none = .ok res ∧ ∃ r, res = some r ∧
      r.2.failedEventIds = [5] ∧ r.2.processed = 2 ∧
      (r.1.getProjection 9).map ProjectedAccidentRecord.unresolvedConflictFields =
        some ["operator"] ∧
      (r.1.getProjection 13).map ProjectedAccidentRecord.unresolvedConflictFields = some [] :=
  exists_ok_of_any (by decide +kernel)

/-- The first event fails, the second is disputed, and the third is consistent. -/
theorem rebuild_all_merged :
    ∃ s' r, projectedThenMerged.rebuildAll (fun _ => 9) 2 none = .ok (some (s', r)) ∧
      r.failedEventIds = [5] ∧ projectedThenMerged.Raises 5 9 ∧
      (∃ report, s'.verifyProjectionConsistency 9 = some report ∧ report.consistent = false) ∧
      ∃ report, s'.verifyProjectionConsistency 13 = some report ∧ report.consistent = true := by
  have hevents : projectedThenMerged.events.map AccidentEvent.id = [5, 9, 13] := by decide +kernel
  have hids : Rows.Unique AccidentEvent.id projectedThenMerged.events := by
    show (projectedThenMerged.events.map AccidentEvent.id).Nodup
    rw [hevents]
    decide
  obtain ⟨ids, s', r, -, -, -, hrun, -, -, -, hall⟩ :=
    @Db.rebuild_all _ (fun _ => 9) _ hids jsonColumns_projectedThenMerged 2 (by decide)
  obtain ⟨res, hres, ⟨_, _⟩, rfl, hfailed, -, hoperator, hsettled⟩ := rebuild_projectedThenMerged
  obtain ⟨rfl, rfl⟩ : s' = _ ∧ r = _ := by simpa [hrun] using hres
  have hevent : ∀ id ∈ [5, 9, 13], ∃ ev ∈ projectedThenMerged.events, ev.id = id := by
    intro id hid
    rw [← hevents] at hid
    exact List.mem_map.mp hid
  obtain ⟨ev₁, hev₁, hid₁⟩ := hevent 5 (by decide)
  obtain ⟨ev₂, hev₂, hid₂⟩ := hevent 9 (by decide)
  obtain ⟨ev₃, hev₃, hid₃⟩ := hevent 13 (by decide)
  have hraises := (hall ev₁ hev₁).1
  have hdisputed := (hall ev₂ hev₂).2
  have hconsistent := (hall ev₃ hev₃).2
  rw [hid₁, hfailed] at hraises
  rw [hid₂, hfailed] at hdisputed
  rw [hid₃, hfailed] at hconsistent
  obtain ⟨st, report, hst, hreport, hiff, -⟩ := hdisputed (by decide)
  obtain ⟨st', report', hst', hreport', hiff', -⟩ := hconsistent (by decide)
  refine ⟨s', r, hrun, hfailed, hraises.mp (by decide), ⟨report, hreport, ?_⟩, report', hreport', ?_⟩
  · rw [Bool.eq_false_iff, ne_eq, hiff]
    intro hnone
    rw [hst, Option.map_some, hnone] at hoperator
    cases hoperator
  · rw [hst', Option.map_some, Option.some.injEq] at hsettled
    exact hiff'.mpr hsettled

/-- First one event to a batch, then a hundred, at another time. -/
theorem rebuild_again_disputed :
    ∃ s' r, disputedThenLocation.rebuildAll (fun _ => 9) 1 none = .ok (some (s', r)) ∧
      s'.rebuildAll (fun _ => 10) 100 none = .ok (some (s', r)) := by
  obtain ⟨⟨s', r⟩, hfirst⟩ : ∃ res, disputedThenLocation.rebuildAll (fun _ => 9) 1 none =
      .ok (some res) := ⟨_, Db.rebuildAll_eq unique_disputedThenLocation (le_refl 1) none⟩
  exact ⟨s', r, hfirst, Db.rebuild_again unique_disputedThenLocation (le_refl 1) (by decide) hfirst⟩

end Atlas
