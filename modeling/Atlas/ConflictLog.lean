import Atlas.Lib.Journal
import Atlas.SystemLaws

/-!
# The activity log of the conflicts

Every change of a conflict row is logged with a sequence number, the status
before and after and the version of the row.  In every reachable store the log
of each conflict replays it: the numbers have no gap, the statuses link up, and
the last row shows the status and version the conflict has now.

Every writer does one of three things to a row: it leaves row and log alone, it
changes the row and logs the change, or it inserts the row with its first log
row.
-/

namespace Atlas

open Rows

namespace Db

/-- The activity rows of a conflict, in the order they were written. -/
def activityOf (s : Db) (conflictId : Uuid) : List ConflictActivityLogEntry :=
  s.conflictActivity.filter fun a => a.conflictId = conflictId

/-- The log of the conflict replays and ends in its current status and version. -/
structure InStep (s : Db) (c : ClaimConflict) : Prop where
  replays : Journal.Replays ConflictActivityLogEntry.sequence ConflictActivityLogEntry.fromStatus
    ConflictActivityLogEntry.toStatus (s.activityOf c.id)
  current : ∃ a, (s.activityOf c.id).getLast? = some a ∧ a.toStatus = c.status ∧
    a.versionAtMoment = c.version

/-- Every log is in step, and no log is there before its conflict. -/
structure LogLaw (s : Db) : Prop extends RowIds s where
  log_lt : ∀ a ∈ s.conflictActivity, a.conflictId < s.nextId
  inStep : ∀ c ∈ s.conflicts, s.InStep c

section Writes

variable {s s' : Db} {c c' : ClaimConflict}

/-- What a log row has to carry for a change of a row. -/
structure Records (s : Db) (c c' : ClaimConflict) (a : ConflictActivityLogEntry) : Prop where
  sequence : a.sequence = s.nextSequence c.id
  fromStatus : a.fromStatus = some c.status
  toStatus : a.toStatus = c'.status
  version : a.versionAtMoment = c'.version

theorem InStep.kept (h : s.InStep c) (hlog : s'.activityOf c.id = s.activityOf c.id) :
    s'.InStep c := by
  constructor
  · rw [hlog]
    exact h.replays
  · rw [hlog]
    exact h.current

/-- **A logged change.** -/
theorem InStep.logged (h : s.InStep c) (hid : c'.id = c.id) {a : ConflictActivityLogEntry}
    (ha : s.Records c c' a) (hlog : s'.activityOf c.id = s.activityOf c.id ++ [a]) :
    s'.InStep c' := by
  constructor
  · rw [hid, hlog]
    refine h.replays.append ?_ ?_
    · rw [ha.sequence]
      exact h.replays.max_succ
    · intro b hb
      obtain ⟨last, hlast, hto, -⟩ := h.current
      rw [hlast, Option.some.injEq] at hb
      rw [ha.fromStatus, ← hb, hto]
  · rw [hid, hlog]
    exact ⟨a, List.getLast?_concat, ha.toStatus, ha.version⟩

theorem activityOf_append {a : ConflictActivityLogEntry} {id : Uuid}
    (hlog : s'.conflictActivity = s.conflictActivity ++ [a]) :
    s'.activityOf id = if a.conflictId = id then s.activityOf id ++ [a] else s.activityOf id := by
  unfold activityOf
  rw [hlog, List.filter_append]
  by_cases hid : a.conflictId = id
  · rw [if_pos hid, List.filter_cons_of_pos (by simpa using hid), List.filter_nil]
  · rw [if_neg hid, List.filter_cons_of_neg (by simpa using hid), List.filter_nil, List.append_nil]

/-- **One row is rewritten and logged.** -/
theorem LogLaw.rewrite (h : s.LogLaw) (hc : c ∈ s.conflicts) {g : ClaimConflict → ClaimConflict}
    (hg : ∀ d, (g d).id = d.id)
    (hrows : s'.conflicts = updateWhere (fun d => d.id = c.id) g s.conflicts)
    {a : ConflictActivityLogEntry} (hlog : s'.conflictActivity = s.conflictActivity ++ [a])
    (hid : a.conflictId = c.id) (ha : s.Records c (g c) a) (hnext : s.nextId ≤ s'.nextId) :
    s'.LogLaw := by
  have hrow : ∀ d' ∈ s'.conflicts, d' = g c ∨ (d' ∈ s.conflicts ∧ d'.id ≠ c.id) := by
    intro d' hd'
    rw [hrows] at hd'
    obtain ⟨d, hd, rfl⟩ := mem_updateWhere.mp hd'
    by_cases hdc : d.id = c.id
    · rw [if_pos (decide_eq_true hdc), h.ids.eq_of_key hd hc hdc]
      exact .inl rfl
    · rw [if_neg (by simpa using hdc)]
      exact .inr ⟨hd, hdc⟩
  refine ⟨⟨?_, ?_⟩, ?_, ?_⟩
  · rw [hrows]
    exact h.ids.updateWhere hg
  · intro d' hd'
    rcases hrow d' hd' with rfl | ⟨hd', -⟩
    · rw [hg]
      exact lt_of_lt_of_le (h.conflict_lt c hc) hnext
    · exact lt_of_lt_of_le (h.conflict_lt d' hd') hnext
  · intro b hb
    rw [hlog, List.mem_append, List.mem_singleton] at hb
    rcases hb with hb | rfl
    · exact lt_of_lt_of_le (h.log_lt b hb) hnext
    · rw [hid]
      exact lt_of_lt_of_le (h.conflict_lt c hc) hnext
  · intro d' hd'
    rcases hrow d' hd' with rfl | ⟨hd', hne⟩
    · refine (h.inStep c hc).logged (hg c) ha ?_
      rw [activityOf_append hlog, if_pos hid]
    · refine (h.inStep d' hd').kept ?_
      rw [activityOf_append hlog, if_neg]
      rw [hid]
      exact Ne.symm hne

/-- **A row is inserted with its first log row.** -/
theorem LogLaw.insert (h : s.LogLaw) (hid : c.id = s.nextId)
    (hrows : s'.conflicts = s.conflicts ++ [c]) {a : ConflictActivityLogEntry}
    (hlog : s'.conflictActivity = s.conflictActivity ++ [a]) (haid : a.conflictId = c.id)
    (hseq : a.sequence = s.nextSequence c.id) (hto : a.toStatus = c.status)
    (hversion : a.versionAtMoment = c.version) (hnext : s.nextId < s'.nextId) : s'.LogLaw := by
  have hnone : s.activityOf c.id = [] := by
    unfold activityOf
    rw [List.filter_eq_nil_iff]
    intro b hb hbc
    have hlt := h.log_lt b hb
    simp only [decide_eq_true_eq] at hbc
    rw [hbc, hid] at hlt
    exact absurd hlt (lt_irrefl _)
  have hfresh : ∀ d ∈ s.conflicts, d.id ≠ c.id := by
    intro d hd
    rw [hid]
    exact Nat.ne_of_lt (h.conflict_lt d hd)
  have hown : s'.activityOf c.id = [a] := by
    rw [activityOf_append hlog, if_pos haid, hnone, List.nil_append]
  refine ⟨⟨?_, ?_⟩, ?_, ?_⟩
  · rw [hrows]
    exact h.ids.append_single hfresh
  · intro d hd
    rw [hrows, List.mem_append, List.mem_singleton] at hd
    rcases hd with hd | rfl
    · exact lt_trans (h.conflict_lt d hd) hnext
    · rw [hid]
      exact hnext
  · intro b hb
    rw [hlog, List.mem_append, List.mem_singleton] at hb
    rcases hb with hb | rfl
    · exact lt_trans (h.log_lt b hb) hnext
    · rw [haid, hid]
      exact hnext
  · intro d hd
    rw [hrows, List.mem_append, List.mem_singleton] at hd
    rcases hd with hd | rfl
    · refine (h.inStep d hd).kept ?_
      rw [activityOf_append hlog, if_neg]
      rw [haid]
      exact Ne.symm (hfresh d hd)
    · constructor
      · rw [hown]
        refine Journal.replays_single ?_
        rw [hseq]
        have hempty : (s.conflictActivity.filter fun b => b.conflictId = d.id) = [] := hnone
        unfold nextSequence
        rw [hempty]
        rfl
      · rw [hown]
        exact ⟨a, rfl, hto, hversion⟩

/-- A change that touches neither rows nor log. -/
theorem LogLaw.frame (h : s.LogLaw) (hrows : s'.conflicts = s.conflicts)
    (hlog : s'.conflictActivity = s.conflictActivity) (hnext : s.nextId ≤ s'.nextId) :
    s'.LogLaw := by
  have hact : ∀ id, s'.activityOf id = s.activityOf id := by
    intro id
    unfold activityOf
    rw [hlog]
  refine ⟨⟨hrows ▸ h.ids, ?_⟩, ?_, ?_⟩
  · intro d hd
    rw [hrows] at hd
    exact lt_of_lt_of_le (h.conflict_lt d hd) hnext
  · intro b hb
    rw [hlog] at hb
    exact lt_of_lt_of_le (h.log_lt b hb) hnext
  · intro d hd
    rw [hrows] at hd
    exact (h.inStep d hd).kept (hact d.id)

/-! ## The reconciler -/

theorem LoggedStep.logLaw {on : Uuid → Prop} (h : s.LogLaw) (hstep : LoggedStep on s s') :
    s'.LogLaw := by
  cases hstep with
  | @touch actor c g ids reason hc _ hg =>
      exact h.rewrite hc (g := bumped g) (fun d => hg.id d) rfl rfl rfl ⟨rfl, rfl, rfl, rfl⟩ le_rfl
  | @insert actor p _ _ =>
      exact h.insert (c := Session.newConflictRow s.nextId p actor.now) rfl rfl rfl rfl rfl rfl rfl
        (Nat.lt_succ_self _)

theorem LogLaw.logged {on : Uuid → Prop} (h : s.LogLaw) (hlogged : Logged on s s') : s'.LogLaw := by
  induction hlogged with
  | refl => exact h
  | tail _ hstep ih => exact hstep.logLaw ih

end Writes

/-! ## Closing the conflicts of a merged event -/

section Merge

variable {call : MergeCall}

theorem activityOf_logClosed (call : MergeCall) (s : Db) (c : ClaimConflict) {id : Uuid} (hne : c.id ≠ id) :
    (logClosed call s c).activityOf id = s.activityOf id := by
  rw [activityOf_append (s := s) rfl]
  exact if_neg hne

/-- The log after several closings: the closed conflicts have one row more. -/
theorem activityOf_foldl_logClosed (call : MergeCall) (cs : List ClaimConflict)
    (hnodup : (cs.map ClaimConflict.id).Nodup) (s : Db) (id : Uuid) :
    (cs.foldl (logClosed call) s).activityOf id = s.activityOf id ∧ (∀ c ∈ cs, c.id ≠ id) ∨
      ∃ c ∈ cs, c.id = id ∧ ∃ a, (cs.foldl (logClosed call) s).activityOf id =
        s.activityOf id ++ [a] ∧ a.sequence = s.nextSequence id ∧ a.fromStatus = some .open ∧
        a.toStatus = .resolved ∧ a.versionAtMoment = c.version := by
  induction cs generalizing s with
  | nil => exact .inl ⟨rfl, by simp⟩
  | cons c cs ih =>
      simp only [List.map_cons, List.nodup_cons] at hnodup
      rw [List.foldl_cons]
      by_cases hc : c.id = id
      · right
        have hlater : ∀ d ∈ cs, d.id ≠ id := by
          intro d hd hdid
          exact hnodup.1 (hc.trans hdid.symm ▸ List.mem_map_of_mem hd)
        rcases ih hnodup.2 (logClosed call s c) with ⟨hrest, -⟩ | ⟨d, hd, hdid, -⟩
        · have happend : (logClosed call s c).activityOf id = s.activityOf id ++ _ :=
            (activityOf_append (s := s) rfl).trans (if_pos hc)
          refine ⟨c, by simp, hc, _, hrest.trans happend, ?_, rfl, rfl, rfl⟩
          rw [← hc]
        · exact absurd hdid (hlater d hd)
      · have hsame := activityOf_logClosed call s c hc
        have hseq : (logClosed call s c).nextSequence id = s.nextSequence id := by
          unfold activityOf at hsame
          unfold nextSequence
          rw [hsame]
        rcases ih hnodup.2 (logClosed call s c) with ⟨hrest, hne⟩ | ⟨d, hd, hdid, a, hrest, hrec⟩
        · refine .inl ⟨hrest.trans hsame, ?_⟩
          intro d hd
          rcases List.mem_cons.mp hd with rfl | hd
          · exact hc
          · exact hne d hd
        · rw [hsame, hseq] at *
          exact .inr ⟨d, List.mem_cons_of_mem c hd, hdid, a, hrest, hrec⟩

theorem conflictActivity_lt_logClosed (cs : List ClaimConflict) {s : Db} {n : Nat}
    (hlog : ∀ a ∈ s.conflictActivity, a.conflictId < n) (hcs : ∀ c ∈ cs, c.id < n) :
    ∀ a ∈ (cs.foldl (logClosed call) s).conflictActivity, a.conflictId < n := by
  induction cs generalizing s with
  | nil => exact hlog
  | cons c cs ih =>
      refine ih ?_ (fun d hd => hcs d (List.mem_cons_of_mem c hd))
      intro a ha
      have ha' : a ∈ s.conflictActivity ∨ a.conflictId = c.id := by
        simp only [logClosed, logActivity, addActivity, List.mem_append, List.mem_singleton] at ha
        rcases ha with ha | rfl
        · exact .inl ha
        · exact .inr rfl
      rcases ha' with ha' | ha'
      · exact hlog a ha'
      · rw [ha']
        exact hcs c (by simp)

theorem foldl_logClosed_rest (call : MergeCall) (cs : List ClaimConflict) (s : Db) :
    (cs.foldl (logClosed call) s).conflicts = s.conflicts ∧
      (cs.foldl (logClosed call) s).nextId = s.nextId := by
  induction cs generalizing s with
  | nil => exact ⟨rfl, rfl⟩
  | cons c cs ih => exact ih (logClosed call s c)

/-- **Closing the conflicts of the source event.** -/
theorem LogLaw.closeSourceConflicts {s : Db} (h : s.LogLaw) (call : MergeCall) :
    (s.closeSourceConflicts call).LogLaw := by
  have hid : ∀ d, (closeAsMergedRow (mergeConflictNote call) call.now d).id = d.id := fun _ => rfl
  let cs := (s.conflicts.filter fun c => c.eventId = call.sourceEventId ∧ c.status = .open).map
    (closeAsMergedRow (mergeConflictNote call) call.now)
  let s₁ : Db := { s with conflicts := s.closedConflicts call }
  have heq : s.closeSourceConflicts call = cs.foldl (logClosed call) s₁ := rfl
  have hcs : ∀ c' ∈ cs, ∃ c ∈ s.conflicts, (c.eventId = call.sourceEventId ∧ c.status = .open) ∧
      closeAsMergedRow (mergeConflictNote call) call.now c = c' := by
    intro c' hc'
    obtain ⟨c, hc, rfl⟩ := List.mem_map.mp hc'
    rw [List.mem_filter, decide_eq_true_eq] at hc
    exact ⟨c, hc.1, hc.2, rfl⟩
  have hnodup : (cs.map ClaimConflict.id).Nodup := by
    rw [List.map_map]
    exact (h.ids.sublist (List.filter_sublist.map _))
  obtain ⟨hrows, hnext⟩ := foldl_logClosed_rest call cs s₁
  refine ⟨⟨?_, ?_⟩, ?_, ?_⟩
  · rw [heq, hrows]
    exact h.ids.updateWhere hid
  · intro d' hd'
    rw [heq, hrows] at hd'
    rw [heq, hnext]
    obtain ⟨d, hd, rfl⟩ := mem_updateWhere.mp hd'
    split
    · exact h.conflict_lt d hd
    · exact h.conflict_lt d hd
  · rw [heq, hnext]
    refine conflictActivity_lt_logClosed cs h.log_lt ?_
    intro c' hc'
    obtain ⟨c, hc, -, rfl⟩ := hcs c' hc'
    exact h.conflict_lt c hc
  · intro d' hd'
    rw [heq, hrows] at hd'
    obtain ⟨d, hd, rfl⟩ := mem_updateWhere.mp hd'
    rw [heq]
    rcases activityOf_foldl_logClosed call cs hnodup s₁ d.id with
      ⟨hsame, hne⟩ | ⟨c', hc', hcid, a, hlog, hseq, hfrom, hto, hversion⟩
    · rw [if_neg]
      · exact (h.inStep d hd).kept hsame
      · intro hclosed
        refine hne (closeAsMergedRow (mergeConflictNote call) call.now d) ?_ rfl
        exact List.mem_map_of_mem (List.mem_filter.mpr ⟨hd, hclosed⟩)
    · obtain ⟨c, hc, hcond, rfl⟩ := hcs c' hc'
      have hcd : c = d := h.ids.eq_of_key hc hd hcid
      subst hcd
      rw [if_pos (decide_eq_true hcond)]
      exact (h.inStep c hc).logged rfl
        ⟨hseq, hfrom.trans (congrArg some hcond.2.symm), hto, hversion⟩ hlog

end Merge

/-! ## Every operation -/

section Operations

variable [PyText] {s s' : Db}

theorem Ingested.logLaw (h : s.LogLaw) {call : IngestCall} {sub : Submission} {s₀ s₁ s₂ s₃ : Db}
    {w : ClaimWriteResult} (hi : Ingested s s' call sub s₀ w s₁ s₂ s₃) : s'.LogLaw := by
  have h₀ : s₀.LogLaw := by
    refine h.frame ?_ ?_ (Nat.le_of_lt hi.prepared.nextId)
    · rw [hi.prepared.rest]
    · rw [hi.prepared.rest]
  have hw : w.db.LogLaw := by
    refine h₀.frame ?_ ?_ hi.written.nextId
    · rw [hi.written.rest]
    · rw [hi.written.rest]
  have h₃ : s₃.LogLaw :=
    ((hw.logged hi.reconciled.winners.logged).logged hi.reconciled.stale.logged).logged
      hi.reconciled.detected.logged
  obtain ⟨result, rfl⟩ := hi.finished
  exact h₃.frame rfl rfl (Nat.le_succ _)

omit [PyText] in
theorem Resolved.logLaw (h : s.LogLaw) {call : ResolveCall} {c u : ClaimConflict} {winner : Uuid}
    {sw : Db} (hr : Resolved s s' call c winner sw u) : s'.LogLaw := by
  have hrows := hr.conflicts
  obtain ⟨ps, hs, rfl⟩ := hr.written
  rcases hr.chosen with ⟨rfl, -⟩ | ⟨-, rfl⟩
  · exact h.rewrite hr.mem (g := bumped (resolvedByUser call winner)) (fun _ => rfl) hrows rfl rfl
      ⟨rfl, congrArg some hr.isOpen.symm, rfl, rfl⟩ le_rfl
  · exact h.rewrite hr.mem (g := bumped (resolvedByUser call winner)) (fun _ => rfl) hrows rfl rfl
      ⟨rfl, congrArg some hr.isOpen.symm, rfl, rfl⟩ (Nat.le_succ _)

omit [PyText] in
theorem Reopened.logLaw (h : s.LogLaw) {call : ReopenCall} {c : ClaimConflict}
    (hr : Reopened s s' call c) : s'.LogLaw := by
  have hrows := hr.conflicts
  obtain ⟨ps, hs, rfl⟩ := hr.written
  exact h.rewrite hr.mem (g := bumped (reopenedByUser call)) (fun _ => rfl) hrows rfl rfl
    ⟨rfl, congrArg some hr.isResolved.symm, rfl, rfl⟩ le_rfl

theorem Merged.logLaw (hwf : s.WellFormed) (h : s.LogLaw) {call : MergeCall} {s₃ s₄ : Db}
    (hm : Merged s s' call s₃ s₄) : s'.LogLaw := by
  obtain ⟨history, htransfer⟩ := transferClaims_eq call (withPointer_wellFormed call hwf)
  have htransferred : ((s.withPointer call).transferClaims call).LogLaw := by
    rw [htransfer]
    exact h.frame rfl rfl (Nat.le_add_right _ _)
  have h₃ : s₃.LogLaw := by
    rw [hm.closed]
    exact htransferred.closeSourceConflicts call
  have h₄ : s₄.LogLaw := h₃.logged hm.detected.logged
  obtain ⟨reviews, rfl⟩ := hm.finished
  exact h₄.frame rfl rfl (Nat.le_succ _)

theorem Change.logLaw (hwf : s.WellFormed) (h : s.LogLaw) (hc : Change s s') : s'.LogLaw := by
  cases hc with
  | upkeep hu =>
      obtain ⟨ps, hs, os, rs, rfl⟩ := hu
      exact h.frame rfl rfl le_rfl
  | ingested hi => exact Ingested.logLaw h hi
  | resolved hr => exact Resolved.logLaw h hr
  | merged hm => exact Merged.logLaw hwf h hm

omit [PyText] in
theorem logLaw_empty (sources : List Source) : (Db.empty sources).LogLaw :=
  ⟨⟨unique_nil _, by simp [Db.empty]⟩, by simp [Db.empty], by simp [Db.empty]⟩

end Operations

end Db

/-- **The activity log replays the conflicts.**  In every reachable store the
activity rows of a conflict carry the sequences 1, …, n, each row starts from the
status the previous one ended in, and the last one shows the status and the
version the conflict has. -/
theorem activity_log_replays_conflict [PyText] {s : Db} (h : Reachable s) {c : ClaimConflict}
    (hc : c ∈ s.conflicts) :
    (s.activityOf c.id).map ConflictActivityLogEntry.sequence =
        List.range' 1 (s.activityOf c.id).length ∧
      (s.activityOf c.id).IsChain (fun a b => b.fromStatus = some a.toStatus) ∧
      ∃ a, (s.activityOf c.id).getLast? = some a ∧ a.toStatus = c.status ∧
        a.versionAtMoment = c.version := by
  obtain ⟨-, hlaw⟩ := reachable_rule (P := Db.LogLaw) Db.logLaw_empty
    (fun s s' hI hlaw hchange => Db.Change.logLaw hI.wf hlaw hchange)
    (fun s s' call d _ hlaw hr => Db.Reopened.logLaw hlaw hr) h
  have hstep := hlaw.inStep c hc
  exact ⟨hstep.replays.numbered, hstep.replays.chained, hstep.current⟩

/-- The log of a detected conflict. -/
theorem activity_log_replays_detected_conflict :
    ∃ c ∈ (after fourSources twoSourcesDisagree).conflicts,
      (((after fourSources twoSourcesDisagree).activityOf c.id).map
          ConflictActivityLogEntry.sequence =
        List.range' 1 ((after fourSources twoSourcesDisagree).activityOf c.id).length) ∧
      ((after fourSources twoSourcesDisagree).activityOf c.id).IsChain
        (fun a b => b.fromStatus = some a.toStatus) ∧
      ∃ a, ((after fourSources twoSourcesDisagree).activityOf c.id).getLast? = some a ∧
        a.toStatus = c.status ∧ a.versionAtMoment = c.version := by
  obtain ⟨c, hc⟩ : ∃ c, c ∈ (after fourSources twoSourcesDisagree).conflicts :=
    List.exists_mem_of_ne_nil _ (by decide +kernel)
  exact ⟨c, hc, activity_log_replays_conflict ⟨fourSources, twoSourcesDisagree, rfl⟩ hc⟩

end Atlas
