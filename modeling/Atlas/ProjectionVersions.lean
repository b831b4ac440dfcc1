import Atlas.Freshness

/-!
# Versions of the projections

The version of a new projection is one above that of the stored row, while the history has a
unique version for each event.  The two agree as long as the event is live: its history counts
up from 1, and the stored row is the last snapshot.

A merge deletes the stored row of its source and leaves the history, so an event that was
merged counts from 1 again.  A row that is restored from the history takes the version of its
snapshot; of a live event nothing is ever restored, because its row stands since the history
has one.
-/

namespace Atlas

open Rows

/-- What a history row has of the projection: its version and content. -/
def AccidentProjectionHistory.recorded (h : AccidentProjectionHistory) :
    Nat × List (String × Projected) × List String × ℚ :=
  (h.projectionVersion, storedFields h.snapshot.fields, h.snapshot.unresolvedConflictFields,
    h.snapshot.completenessScore)

/-- The version and content of a stored row. -/
def ProjectedAccidentRecord.recorded (p : ProjectedAccidentRecord) :
    Nat × List (String × Projected) × List String × ℚ :=
  (p.projectionVersion, p.fields, p.unresolvedConflictFields, p.completenessScore)

namespace Db

variable {s s' : Db} {e x : Uuid}

/-- The history rows of an event, oldest first. -/
def historyOf (s : Db) (e : Uuid) : List AccidentProjectionHistory :=
  s.projectionHistory.filter fun h => decide (h.accidentEventId = e)

/-- The history counts up from 1, and the stored row is its last snapshot. -/
structure Recorded (s : Db) (e : Uuid) : Prop where
  versions : (s.historyOf e).map AccidentProjectionHistory.projectionVersion =
    List.range' 1 (s.historyOf e).length
  last : (s.getProjection e).map ProjectedAccidentRecord.recorded =
    (s.historyOf e).getLast?.map AccidentProjectionHistory.recorded

theorem Recorded.congr (h : s.Recorded e) (hhistory : s'.historyOf e = s.historyOf e)
    (hprojection : s'.getProjection e = s.getProjection e) : s'.Recorded e := by
  obtain ⟨hversions, hlast⟩ := h
  refine ⟨?_, ?_⟩
  · rw [hhistory]
    exact hversions
  · rw [hhistory, hprojection]
    exact hlast

theorem getLast?_range' (n : Nat) : (List.range' 1 (n + 1)).getLast? = some (n + 1) := by
  rw [List.range'_concat, List.getLast?_concat]
  simp [Nat.add_comm]

/-- The next version is the next free one. -/
theorem Recorded.nextVersion (h : s.Recorded e) :
    Db.nextVersion (s.getProjection e) = (s.historyOf e).length + 1 := by
  obtain ⟨hversions, hlast⟩ := h
  cases hrows : (s.historyOf e).getLast? with
  | none =>
      rw [hrows, Option.map_none, Option.map_eq_none_iff] at hlast
      rw [hlast, List.getLast?_eq_none_iff.mp hrows]
      rfl
  | some row =>
      rw [hrows, Option.map_some] at hlast
      obtain ⟨p, hp, hsame⟩ := Option.map_eq_some_iff.mp hlast
      have hversion : p.projectionVersion = row.projectionVersion := congrArg Prod.fst hsame
      have hmapped := congrArg List.getLast? hversions
      rw [List.getLast?_map, hrows, Option.map_some] at hmapped
      obtain ⟨n, hn⟩ : ∃ n, (s.historyOf e).length = n + 1 := by
        refine Nat.exists_eq_succ_of_ne_zero ?_
        intro hzero
        rw [List.length_eq_zero_iff.mp hzero] at hrows
        cases hrows
      rw [hn, getLast?_range', Option.some.injEq] at hmapped
      rw [hp, hn]
      show p.projectionVersion + 1 = n + 1 + 1
      rw [hversion, hmapped]

/-- A row with the next version, and its snapshot with it. -/
theorem Recorded.append {p : ProjectedAccidentRecord} {row : AccidentProjectionHistory}
    (h : s.Recorded e) (hhistory : s'.historyOf e = s.historyOf e ++ [row])
    (hprojection : s'.getProjection e = some p)
    (hversion : row.projectionVersion = Db.nextVersion (s.getProjection e))
    (hsame : p.recorded = row.recorded) : s'.Recorded e := by
  refine ⟨?_, ?_⟩
  · rw [hhistory, List.map_append, h.versions, List.length_append, List.length_singleton,
      List.range'_concat, List.map_singleton, hversion, h.nextVersion]
    simp [Nat.add_comm]
  · rw [hhistory, hprojection, List.getLast?_concat, Option.map_some, Option.map_some, hsame]

theorem historyOf_congr (h : s'.projectionHistory = s.projectionHistory) (e : Uuid) :
    s'.historyOf e = s.historyOf e := by
  unfold historyOf
  rw [h]

end Db

/-! ## What a reprojection is about to record -/

namespace Reprojection

variable {s s' : Db} {r r' : Reprojection}

/-- The history row of a finished reprojection is of its own event. -/
def OwnHistory (r : Reprojection) : Prop :=
  ∀ w row, r.stage = .done (some w) → w.history = some row → row.accidentEventId = r.call.eventId

/-- A finished reprojection records what it stores, under the next version, unless it will not
commit. -/
def Records (s : Db) (r : Reprojection) : Prop :=
  ∀ w, r.stage = .done (some w) → Void s r ∨ ∃ row, w.history = some row ∧
    row.projectionVersion = Db.nextVersion (s.getProjection r.call.eventId) ∧
      w.row.recorded = row.recorded

theorem ownHistory_of_stage (h : ∀ w, r.stage ≠ .done (some w)) : r.OwnHistory :=
  fun w _ hstage => absurd hstage (h w)

theorem records_of_stage (h : ∀ w, r.stage ≠ .done (some w)) : r.Records s :=
  fun w hstage => absurd hstage (h w)

/-- What is persisted is recorded. -/
theorem persisted {cur : Option ProjectedAccidentRecord} {p : ProjectedAccidentRecord}
    {write : Option ProjectionWrite} (h : s.persist r.call cur p = .ok write) {w : ProjectionWrite}
    (hw : write = some w) : ∃ row, w.history = some row ∧ row.accidentEventId = p.eventId ∧
      row.projectionVersion = p.projectionVersion ∧ w.row.recorded = row.recorded := by
  rcases Db.persist_ok h with ⟨hnone, -⟩ | hsome
  · rw [hw] at hnone
    cases hnone
  · rw [hsome] at hw
    cases hw
    exact ⟨_, rfl, rfl, rfl, rfl⟩

variable [PyText]

theorem ownHistory_of_moves (hm : r.Moves s r') : r'.OwnHistory := by
  cases hm with
  | restore _ _ _ _ =>
      intro w row hstage hrow
      cases hstage
      cases hrow
  | bury _ _ hwrite =>
      intro w row hstage hrow
      cases hstage
      obtain ⟨row', hrow', hevent, -⟩ := persisted hwrite rfl
      rw [hrow] at hrow'
      cases hrow'
      exact hevent
  | build _ hwrite =>
      intro w row hstage hrow
      cases hstage
      obtain ⟨row', hrow', hevent, -⟩ := persisted hwrite rfl
      rw [hrow] at hrow'
      cases hrow'
      exact hevent
  | _ => exact ownHistory_of_stage fun w hstage => by cases hstage

theorem records_of_moves (hr : r.Sound s) (hcurrent : r.Current s) (hT : s.Tables)
    (hmerged : ¬ s.IsMerged r.call.eventId) (hm : r.Moves s r') : r'.Records s := by
  cases hm with
  | restore hstage hfound _ _ => exact fun _ _ => .inl (hr.void hT hfound)
  | @bury event cur target write hstage hpoint _ =>
      -- The event row was read as merged.
      exfalso
      refine hmerged (hr.merged event (by rw [hstage]; rfl) ?_)
      simp [AccidentEvent.isMerged, hpoint]
  | @build event cur ev write hstage hwrite =>
      intro w hdone
      cases hdone
      obtain ⟨row, hrow, -, hversion, hsame⟩ := persisted hwrite rfl
      have hcur : s.getProjection r.call.eventId = cur :=
        hcurrent.projection cur (by rw [hstage]; rfl)
      refine .inr ⟨row, hrow, ?_, hsame⟩
      show row.projectionVersion = Db.nextVersion (s.getProjection r.call.eventId)
      rw [hcur]
      exact hversion
  | _ => exact records_of_stage fun w hstage => by cases hstage

omit [PyText] in
theorem Records.congr (h : r.Records s) (hprojection : s'.getProjection r.call.eventId =
    s.getProjection r.call.eventId) (hkept : s.OutboxKept s') : r.Records s' := by
  intro w hstage
  rcases h w hstage with ⟨i, workerId, attempt, hrole, hi⟩ | ⟨row, hrow, hversion, hsame⟩
  · exact .inl ⟨i, workerId, attempt, hrole, hkept.acknowledged hi⟩
  · exact .inr ⟨row, hrow, by rw [hprojection]; exact hversion, hsame⟩

end Reprojection

/-! ## Every reachable world -/

section World

variable [PyText] {w w' : World}

/-- Live events are recorded, and what is about to be committed will be. -/
structure World.Recorded (w : World) : Prop where
  settled : w.Settled
  events : ∀ e, ¬ w.db.IsMerged e → w.db.Recorded e
  own : ∀ t r, w.txs t = some (.reproject r) → r.OwnHistory
  txs : ∀ t r, w.txs t = some (.reproject r) → ¬ w.db.IsMerged r.call.eventId → r.Records w.db

/-- A change of the store that leaves the projections and histories of live events alone. -/
theorem World.Recorded.leaves (h : w.Recorded) {s' : Db} {txs : Nat → Option Tx}
    (hsettled : (⟨s', txs⟩ : World).Settled) (htxs : ∀ t tx, txs t = some tx → w.txs t = some tx)
    (hmerged : ∀ e, w.db.IsMerged e → s'.IsMerged e)
    (hhistory : s'.projectionHistory = w.db.projectionHistory)
    (hl : ∀ e, ¬ s'.IsMerged e → w.db.Leaves s' e) : (⟨s', txs⟩ : World).Recorded := by
  refine ⟨hsettled, ?_, fun t r htx => h.own t r (htxs t _ htx), ?_⟩
  · intro e he
    exact (h.events e fun hm => he (hmerged e hm)).congr (Db.historyOf_congr hhistory e)
      (hl e he).projection
  · intro t r htx he
    exact (h.txs t r (htxs t _ htx) fun hm => he (hmerged _ hm)).congr (hl _ he).projection
      (hl _ he).kept

/-- A transaction moves on while the store stays. -/
theorem World.Recorded.put (h : w.Recorded) {t : Nat} {tx : Tx} (hsettled : (w.put t tx).Settled)
    (hown : ∀ r, tx = .reproject r → r.OwnHistory)
    (htx : ∀ r, tx = .reproject r → ¬ w.db.IsMerged r.call.eventId → r.Records w.db) :
    (w.put t tx).Recorded := by
  refine ⟨hsettled, h.events, ?_, ?_⟩
  · intro t' r hr
    cases Slots.put_some hr with
    | inl hnew => exact hown r hnew.2.symm
    | inr hold => exact h.own t' r hold.2
  · intro t' r hr he
    cases Slots.put_some hr with
    | inl hnew => exact htx r hnew.2.symm he
    | inr hold => exact h.txs t' r hold.2 he

/-- **A reprojection commits.** -/
theorem World.Recorded.commit (h : w.Recorded) {t : Nat} {r : Reprojection}
    {write : Option ProjectionWrite} {s' : Db} (hopen : w.txs t = some (.reproject r))
    (hstage : r.stage = .done write) (hc : Committed w.db s' r write)
    (hsettled : (w.finish t s').Settled) : (w.finish t s').Recorded := by
  have hr : r.Sound w.db := h.settled.inv.txs t _ hopen
  have hT := h.settled.inv.tables
  have hmerged : ∀ e, s'.IsMerged e ↔ w.db.IsMerged e := by
    intro e
    unfold Db.IsMerged
    rw [hc.events]
  have hothers : ∀ e, e ≠ r.call.eventId → s'.historyOf e = w.db.historyOf e := by
    intro e he
    unfold Db.historyOf
    rw [hc.history, List.filter_append]
    have hnone : (write.bind ProjectionWrite.history).toList.filter
        (fun row => decide (row.accidentEventId = e)) = [] := by
      rw [List.filter_eq_nil_iff]
      intro row hrow hevent
      obtain ⟨w', rfl, hrow'⟩ := Option.bind_eq_some_iff.mp (Option.mem_toList.mp hrow)
      exact he ((of_decide_eq_true hevent).symm.trans (h.own t r hopen w' row hstage hrow'))
    rw [hnone, List.append_nil]
  refine ⟨hsettled, ?_, ?_, ?_⟩
  · intro e he
    have hlive : ¬ w.db.IsMerged e := fun hm => he ((hmerged e).mpr hm)
    by_cases heq : e = r.call.eventId
    · subst heq
      have hprojection := hc.projection r.call.eventId
      rw [Db.getProjection_applyWrite] at hprojection
      cases write with
      | none =>
          have hhistory : s'.projectionHistory = w.db.projectionHistory := by
            rw [hc.history]
            exact List.append_nil _
          exact (h.events _ hlive).congr (Db.historyOf_congr hhistory _) hprojection
      | some w' =>
          dsimp only at hprojection
          rw [if_pos (hr.written w' hstage).1.symm] at hprojection
          rcases h.txs t r hopen hlive w' hstage with hvoid | ⟨row, hrow, hversion, hsame⟩
          · exact absurd hvoid (hc.not_void hT)
          · have hrows : (Option.bind (some w') ProjectionWrite.history).toList = [row] := by
              rw [Option.bind_some, hrow]
              rfl
            have hhistory : s'.historyOf r.call.eventId = w.db.historyOf r.call.eventId ++ [row] := by
              unfold Db.historyOf
              have hown := h.own t r hopen w' row hstage hrow
              rw [hc.history, hrows, List.filter_append,
                List.filter_cons_of_pos (by exact decide_eq_true hown), List.filter_nil]
            exact (h.events _ hlive).append hhistory hprojection hversion hsame
    · exact (h.events e hlive).congr (hothers e heq)
        (hc.leaves hT hr (fun _ _ => hstage) heq).projection
  · intro t' r' htx
    exact h.own t' r' (Slots.clear_some htx).2
  · intro t' r' htx he
    obtain ⟨hne, htx⟩ := Slots.clear_some htx
    have hlive : ¬ w.db.IsMerged r'.call.eventId := fun hm => he ((hmerged _).mpr hm)
    by_cases heq : r'.call.eventId = r.call.eventId
    · -- The lock was with the reprojection that committed.
      refine Reprojection.records_of_stage ?_
      intro w' hdone
      refine hne (h.settled.inv.reprojectionLocks (r := r.call.eventId) htx hopen ⟨heq, ?_⟩ ⟨rfl, ?_⟩)
      · rw [hdone]
        rfl
      · rw [hstage]
        rfl
    · have hl := hc.leaves hT hr (fun _ _ => hstage) heq
      exact (h.txs t' r' htx hlive).congr hl.projection hl.kept

theorem World.Recorded.step (h : w.Recorded) (hstep : w.Step w') : w'.Recorded := by
  have hsettled := h.settled.step hstep
  have hinv := h.settled.inv
  cases hstep with
  | beginIngest _ _ =>
      exact h.put hsettled (fun r hr => by cases hr) fun r hr => by cases hr
  | continuity _ _ _ =>
      exact h.put hsettled (fun r hr => by cases hr) fun r hr => by cases hr
  | lockEvent _ _ _ _ _ =>
      exact h.put hsettled (fun r hr => by cases hr) fun r hr => by cases hr
  | commitIngest hopen hevent hcommit =>
      refine h.leaves hsettled (fun _ _ htx => (Slots.clear_some htx).2)
        (fun e he => hcommit.isMerged he) hcommit.footprint.history ?_
      intro e he
      exact hcommit.leaves hinv.tables (hinv.txs _ _ hopen) hevent fun hm => he (hcommit.isMerged hm)
  | beginMerge _ _ _ _ _ =>
      exact h.put hsettled (fun r hr => by cases hr) fun r hr => by cases hr
  | commitMerge hopen hcommit =>
      have hm := hinv.txs _ _ hopen
      refine h.leaves hsettled (fun _ _ htx => (Slots.clear_some htx).2)
        (fun e he => hcommit.isMerged he) hcommit.footprint.history ?_
      intro e he
      refine hcommit.leaves ?_
      intro heq
      exact he (heq ▸ hcommit.isMerged_source hm)
  | @beginReproject t r hfree hstart =>
      have hnot : ∀ w', r.stage ≠ .done (some w') := by
        intro w' hdone
        rcases World.starts_stage hstart with hstage | hstage
        · rw [hstage] at hdone
          cases hdone
        · rw [hstage] at hdone
          cases hdone
      refine h.put hsettled ?_ ?_
      · intro r' hr'
        cases hr'
        exact Reprojection.ownHistory_of_stage hnot
      · intro r' hr' _
        cases hr'
        exact Reprojection.records_of_stage hnot
  | @advance t r r' hopen hlock hnext =>
      have hmoves := Reprojection.next_moves hnext
      refine h.put hsettled ?_ ?_
      · intro r'' hr''
        cases hr''
        exact Reprojection.ownHistory_of_moves hmoves
      · intro r'' hr'' hlive
        cases hr''
        rw [hmoves.frame.2.1] at hlive
        exact Reprojection.records_of_moves (hinv.txs t _ hopen) (h.settled.txs t _ hopen hlive)
          hinv.tables hlive hmoves
  | commitReproject hopen hdone hcommit => exact h.commit hopen hdone hcommit.spec hsettled
  | acknowledge hopen hdone hcommit =>
      have hr : Reprojection.Sound w.db _ := hinv.txs _ _ hopen
      exact absurd (hr.found (.inr hdone)) (hcommit.spec.not_void hinv.tables)
  | rollback =>
      refine h.leaves hsettled (fun _ _ htx => (Slots.clear_some htx).2) (fun _ he => he) rfl ?_
      intro e _
      exact ⟨rfl, rfl, .inl ⟨rfl, fun hc => hc⟩, fun o ho he hst => ⟨o, ho, rfl, he, hst⟩,
        Db.OutboxKept.refl _⟩
  | @fetch id workerId now =>
      have hl := Db.leaseOnly_fetch w.db id workerId now
      exact h.leaves hsettled (fun _ _ htx => htx) (fun _ he => he) rfl fun e _ => hl.leaves e
  | @fail id status workerId attempt hstatus =>
      have hl := Db.leaseOnly_fail w.db id workerId attempt hstatus
      exact h.leaves hsettled (fun _ _ htx => htx) (fun _ he => he) rfl fun e _ => hl.leaves e
  | @recover id maxAttempts =>
      have hl := Db.leaseOnly_recover w.db id maxAttempts
      exact h.leaves hsettled (fun _ _ htx => htx) (fun _ he => he) rfl fun e _ => hl.leaves e

theorem World.recorded_empty (sources : List Source) : (World.idle (Db.empty sources)).Recorded := by
  refine ⟨World.settled_empty sources, ?_, ?_, ?_⟩
  · intro e _
    exact ⟨rfl, rfl⟩
  · intro t r htx
    cases htx
  · intro t r htx
    cases htx

theorem World.recorded_of_run {sources : List Source}
    (hrun : Relation.ReflTransGen World.Step (World.idle (Db.empty sources)) w) : w.Recorded := by
  induction hrun with
  | refl => exact World.recorded_empty sources
  | tail _ hstep ih => exact ih.step hstep

/-- **Versions of a live event.**  In every world the transactions can reach, the projection
history of a live event has the versions 1, 2, 3 and so on without a gap or a repeat, and the
stored row is its last snapshot: there is none as long as there is no history. -/
theorem World.versions_of_live {sources : List Source}
    (hrun : Relation.ReflTransGen World.Step (World.idle (Db.empty sources)) w) {e : Uuid}
    (hlive : w.db.IsLive e) :
    (w.db.historyOf e).map AccidentProjectionHistory.projectionVersion =
        List.range' 1 (w.db.historyOf e).length ∧
      (w.db.getProjection e).map ProjectedAccidentRecord.recorded =
        (w.db.historyOf e).getLast?.map AccidentProjectionHistory.recorded := by
  have hrecorded := World.recorded_of_run hrun
  obtain ⟨hversions, hlast⟩ := hrecorded.events e (hrecorded.settled.inv.tables.not_isMerged hlive)
  exact ⟨hversions, hlast⟩

end World

/-- One delivery, version 1. -/
theorem versions_of_live_delivered :
    (deliveredStore.historyOf 5).map AccidentProjectionHistory.projectionVersion = [1] ∧
      (deliveredStore.getProjection 5).map ProjectedAccidentRecord.recorded =
        (deliveredStore.historyOf 5).getLast?.map AccidentProjectionHistory.recorded := by
  have hlive : deliveredStore.IsLive 5 := ⟨⟨5, none⟩, List.mem_singleton_self _, rfl, rfl⟩
  exact World.versions_of_live (w := World.idle deliveredStore) (run_ingests.trans run_delivers) hlive

end Atlas
