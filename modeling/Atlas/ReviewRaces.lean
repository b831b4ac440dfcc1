import Atlas.Lib.Overtaking
import Atlas.SystemLaws

/-!
# Deciding a duplicate review twice

`ReviewDuplicate` checks by a read that the review is PENDING, and
`duplicate_reviews.update_status` writes the new status without looking at the old
one.  Two calls that both read PENDING both go through: the second overwrites the
decision of the first, and a rejected pair is merged.

The calls on one review are followed here, each split into what it reads and what
it commits.  A merge takes the row locks of its two events, so it commits as one
step with its last statement, the update of the review.
-/

namespace Atlas

open Outcome Rows

namespace Db

/-! ## The two halves of a call -/

/-- What a `ReviewDuplicate` call goes on to do once it has read the review. -/
inductive ReviewDecision where
  | reject (resolvedBy : Uuid) (note : String)
  | confirm (call : MergeCall)
deriving DecidableEq, Repr

/-- The first half of `ReviewDuplicate.execute`: the read and the checks. -/
def readReview (s : Db) (call : ReviewCall) : Except AtlasError ReviewDecision := do
  let r ← fromOption (s.getReview call.reviewId) (.reviewNotFound call.reviewId)
  require (r.status = .pending) (.reviewAlreadyResolved call.reviewId r.status)
  match call.action with
  | .confirm => do
      let (source, target) ← mergeDirection call r
      let note := if call.note = "" then "Confirmed duplicate via review" else call.note
      pure (.confirm ⟨source, target, call.resolvedBy, note, some call.reviewId, call.now⟩)
  | .reject =>
      pure (.reject call.resolvedBy (String.ofList
        ((if call.note = "" then "Not a duplicate" else call.note).toList.take 500)))
  | .other text =>
      .error (.domainValidation
        ("Invalid action '" ++ text ++ "'. Must be 'CONFIRM' or 'REJECT'."))

variable [PyText]

/-- The second half: the merge, or the update of the review. -/
def decideReview (s : Db) (id : Uuid) : ReviewDecision → Except AtlasError (Option MergeResult × Db)
  | .reject resolvedBy note => pure (none, s.updateReviewStatus id .rejected resolvedBy note)
  | .confirm call => do
      let (result, s) ← s.mergeDuplicateEvents call
      pure (some result, s)

/-- The two halves make up the use case. -/
theorem reviewDuplicate_eq (s : Db) (call : ReviewCall) :
    s.reviewDuplicate call = s.readReview call >>= s.decideReview call.reviewId := by
  unfold reviewDuplicate readReview
  cases s.getReview call.reviewId with
  | none => rfl
  | some r =>
      by_cases hstatus : r.status = .pending
      · cases call.action with
        | reject => simp [fromOption, require, hstatus, decideReview, bind, pure, Except.bind,
            Except.pure]
        | other text => simp [fromOption, require, hstatus, bind, Except.bind]
        | confirm =>
            cases hdirection : mergeDirection call r with
            | error e => simp [fromOption, require, hstatus, hdirection, bind, Except.bind]
            | ok pair => simp [fromOption, require, hstatus, hdirection, decideReview, bind, pure,
                Except.bind, Except.pure]
      · simp [fromOption, require, hstatus, bind, Except.bind]

omit [PyText] in
/-- A review that lets a call go on is PENDING. -/
theorem readReview_pending {s : Db} {call : ReviewCall} {d : ReviewDecision}
    (h : s.readReview call = .ok d) :
    (s.getReview call.reviewId).map PendingDuplicateReview.status = some .pending := by
  unfold readReview at h
  simp only [bind_ok, require_ok, fromOption_ok] at h
  obtain ⟨r, hr, _, hstatus, _⟩ := h
  rw [hr, Option.map_some, hstatus]

omit [PyText] in
/-- Closing the review that a merge finds is closing the review it names. -/
theorem closeReview_named {s : Db} {call : MergeCall} {id : Uuid}
    (h : (s.closeReview call).1 = some id) :
    s.closeReview call = s.closeReview { call with reviewId := some id } := by
  unfold closeReview at h ⊢
  cases hid : call.reviewId with
  | some id' =>
      rw [hid] at h
      cases h
      rfl
  | none =>
      rw [hid] at h
      dsimp only at h ⊢
      split at h
      · split at h
        · rename_i hstatus
          cases h
          rw [if_pos hstatus]
        · cases h
      · cases h

/-- A merge without a review id whose pair has a PENDING review is the merge with
that review's id. -/
theorem merge_named {s s' : Db} {call : MergeCall} {id : Uuid} {result : MergeResult}
    (hwf : s.WellFormed) (hid : (s.closeReview call).1 = some id)
    (h : s.mergeDuplicateEvents call = .ok (result, s')) :
    s.mergeDuplicateEvents { call with reviewId := some id } = .ok (result, s') := by
  have hresult := (merge_reviews hwf h).1
  rw [hid] at hresult
  unfold mergeDuplicateEvents at h ⊢
  simp only [bind_ok, require_ok, pure_ok, Prod.mk.injEq] at h ⊢
  obtain ⟨u, hok, _, hclaimed, σ, hdetect, hres, hs'⟩ := h
  have hfound : (((σ.db.addOutbox call.targetEventId none).deleteProjection
      call.sourceEventId).closeReview call).1 = some id := by
    rw [← hresult, ← hres]
  have hnamed := closeReview_named hfound
  refine ⟨u, hok, (), hclaimed, σ, hdetect, ?_, ?_⟩
  · rw [← hres, hnamed]
  · rw [← hs', hnamed]

omit [PyText] in
theorem status_updateReviewStatus (s : Db) (id : Uuid) (status : DuplicateReviewStatus) (by_ : Uuid)
    (note : String) :
    ((s.updateReviewStatus id status by_ note).getReview id).map PendingDuplicateReview.status =
      (s.getReview id).map fun _ => status := by
  unfold getReview updateReviewStatus
  dsimp only
  rw [lookup_updateWhere_self, Option.map_map]
  · rfl
  · intro r
    rfl

/-- A merge with a review's id leaves the review MERGED. -/
theorem status_merge {s s' : Db} {call : MergeCall} {result : MergeResult} {id : Uuid}
    (hwf : s.WellFormed) (hid : call.reviewId = some id)
    (h : s.mergeDuplicateEvents call = .ok (result, s')) :
    (s'.getReview id).map PendingDuplicateReview.status = (s.getReview id).map fun _ => .merged := by
  have hclosed : (s.closeReview call).2.duplicateReviews =
      (s.updateReviewStatus id .merged call.resolvedBy (String.ofList
        ((if call.note = "" then "Merged via admin action" else call.note).toList.take
          500))).duplicateReviews := by
    unfold closeReview
    rw [hid]
  rw [getReview, (merge_reviews hwf h).2, hclosed]
  exact status_updateReviewStatus s id .merged call.resolvedBy _

end Db

/-! ## The calls on one review -/

/-- A committed decision on the review. -/
inductive ReviewCommit where
  | rejection
  | confirmation
  | merge
deriving DecidableEq, Repr

/-- The status a decision gives the review. -/
def ReviewCommit.status : ReviewCommit → DuplicateReviewStatus
  | .rejection => .rejected
  | .confirmation => .merged
  | .merge => .merged

/-- The status of the review. -/
def Db.reviewStatus (s : Db) (id : Uuid) : Option DuplicateReviewStatus :=
  (s.getReview id).map PendingDuplicateReview.status

/-- The store, the status the review had at first, and the decisions committed on
it, oldest first.  The review has the status of the last one. -/
structure ReviewBoard (id : Uuid) where
  db : Db
  wellFormed : db.WellFormed
  first : DuplicateReviewStatus
  commits : List ReviewCommit
  latest : db.reviewStatus id = some ((commits.getLast?.map ReviewCommit.status).getD first)

namespace ReviewBoard

variable {id : Uuid}

/-- A store whose review nobody has called upon yet. -/
def start [PyText] {db : Db} (hdb : Reachable db) {r : PendingDuplicateReview}
    (hr : db.getReview id = some r) : ReviewBoard id where
  db := db
  wellFormed := hdb.inv.wf
  first := r.status
  commits := []
  latest := by simp [Db.reviewStatus, hr]

/-- One more decision. -/
def record (b : ReviewBoard id) (c : ReviewCommit) (db : Db) (hwf : db.WellFormed)
    (hstatus : db.reviewStatus id = (b.db.reviewStatus id).map fun _ => c.status) :
    ReviewBoard id where
  db := db
  wellFormed := hwf
  first := b.first
  commits := b.commits ++ [c]
  latest := by simp [hstatus, b.latest]

/-- Decisions on the review are final: the review has the status it had at first,
if that was not PENDING, and the status of every decision committed on it; and if
it is REJECTED, no confirmation of it has merged its pair. -/
structure Final (b : ReviewBoard id) : Prop where
  first : b.first ≠ .pending → b.db.reviewStatus id = some b.first
  settled : ∀ c ∈ b.commits, b.db.reviewStatus id = some c.status
  unmerged : b.db.reviewStatus id = some .rejected → ReviewCommit.confirmation ∉ b.commits

end ReviewBoard

/-- What an open call is about to commit: a decision, or something that leaves the
review as it is. -/
inductive ReviewTx where
  | reject (resolvedBy : Uuid) (note : String)
  | confirm (call : MergeCall)
  | merge (call : MergeCall)
  | other (db : Db) (wellFormed : db.WellFormed)

/-- The calls.  `MergeDuplicateEvents` may be given the review's id, or find the
review as the PENDING one of its pair. -/
inductive ReviewRequest where
  | review (call : Db.ReviewCall)
  | merge (call : MergeCall)
  | other (db : Db) (wellFormed : db.WellFormed)

namespace ReviewTx

def commit : ReviewTx → Option ReviewCommit
  | reject _ _ => some .rejection
  | confirm _ => some .confirmation
  | merge _ => some .merge
  | other _ _ => none

/-- The other call has decided the review another way. -/
def overtakes (tx tx' : ReviewTx) : Bool :=
  match tx.commit, tx'.commit with
  | some c, some c' => c.status ≠ c'.status
  | _, _ => false

end ReviewTx

/-- The call would change a decided review. -/
def ReviewBoard.stale {id : Uuid} (b : ReviewBoard id) (tx : ReviewTx) : Bool :=
  match tx.commit with
  | some c => b.db.reviewStatus id ≠ some .pending ∧ b.db.reviewStatus id ≠ some c.status
  | none => false

section Protocol

variable [PyText] {id : Uuid}

/-- The read of a call, if it is on this review and goes on.  A merge that is given
the id of a review that was decided another way comes too late from the start. -/
def readCall (b : ReviewBoard id) : ReviewRequest → Option (Overtaking.Call ReviewTx)
  | .review call =>
      if call.reviewId = id then
        match b.db.readReview call with
        | .ok (.reject resolvedBy note) => some ⟨.reject resolvedBy note, false⟩
        | .ok (.confirm merge) => some ⟨.confirm merge, false⟩
        | .error _ => none
      else none
  | .merge call =>
      if (b.db.closeReview call).1 = some id then some ⟨.merge call, b.stale (.merge call)⟩
      else none
  | .other db hwf => some ⟨.other db hwf, false⟩

/-- The commit of a merge that closes the review. -/
def commitMerge (b : ReviewBoard id) (c : ReviewCommit) (hc : c.status = .merged)
    (call : MergeCall) : Option (ReviewBoard id) :=
  match h : b.db.mergeDuplicateEvents { call with reviewId := some id } with
  | .ok (_, db) =>
      some (b.record c db
        (by
          obtain ⟨_, _, hm⟩ := Db.merge_cases b.wellFormed h
          exact hm.wellFormed)
        (by
          rw [hc, Db.reviewStatus, Db.status_merge b.wellFormed rfl h, Db.reviewStatus,
            Option.map_map]
          rfl))
  | .error _ => none

/-- The commit of a call. -/
def commitCall (b : ReviewBoard id) : ReviewTx → Option (ReviewBoard id)
  | .reject resolvedBy note =>
      some (b.record .rejection (b.db.updateReviewStatus id .rejected resolvedBy note)
        (b.wellFormed.of_sameTables ⟨rfl, rfl, rfl, rfl, rfl, rfl⟩)
        (by
          rw [Db.reviewStatus, Db.status_updateReviewStatus, Db.reviewStatus, Option.map_map]
          rfl))
  | .confirm call => commitMerge b .confirmation rfl call
  | .merge call => commitMerge b .merge rfl call
  | .other db hwf =>
      if h : db.reviewStatus id = b.db.reviewStatus id then
        some { b with db := db, wellFormed := hwf, latest := h.trans b.latest }
      else none

/-- The calls on one review. -/
def reviewCalls (id : Uuid) : Overtaking.Protocol (ReviewBoard id) ReviewRequest ReviewTx where
  read := readCall
  write := commitCall
  overtakes := ReviewTx.overtakes

/-! ## Final decisions -/

variable {b b' : ReviewBoard id} {tx : ReviewTx}

theorem commitMerge_some {c : ReviewCommit} (hc : c.status = .merged) {call : MergeCall}
    (h : commitMerge b c hc call = some b') : b'.first = b.first ∧ b'.commits = b.commits ++ [c] := by
  unfold commitMerge at h
  split at h
  · cases h
    exact ⟨rfl, rfl⟩
  · cases h

/-- A call that decides the review adds its decision. -/
theorem commitCall_decides {c : ReviewCommit} (hc : tx.commit = some c)
    (h : commitCall b tx = some b') : b'.first = b.first ∧ b'.commits = b.commits ++ [c] := by
  cases tx with
  | reject resolvedBy note =>
      cases hc
      cases h
      exact ⟨rfl, rfl⟩
  | confirm call =>
      cases hc
      exact commitMerge_some rfl h
  | merge call =>
      cases hc
      exact commitMerge_some rfl h
  | other db hwf => cases hc

/-- Another commit leaves all of it as it is. -/
theorem commitCall_other (hc : tx.commit = none) (h : commitCall b tx = some b') :
    b'.first = b.first ∧ b'.commits = b.commits ∧
      b'.db.reviewStatus id = b.db.reviewStatus id := by
  cases tx with
  | reject resolvedBy note => cases hc
  | confirm call => cases hc
  | merge call => cases hc
  | other db hwf =>
      by_cases hsame : db.reviewStatus id = b.db.reviewStatus id
      · rw [commitCall, dif_pos hsame, Option.some.injEq] at h
        subst h
        exact ⟨rfl, rfl, hsame⟩
      · rw [commitCall, dif_neg hsame] at h
        cases h

omit [PyText] in
/-- A last decision is the review's status. -/
theorem ReviewBoard.status_append {c : ReviewCommit} {cs : List ReviewCommit}
    (h : b.commits = cs ++ [c]) : b.db.reviewStatus id = some c.status := by
  rw [b.latest, h]
  simp

omit [PyText] in
/-- A review that is not PENDING was so at first, or has been decided. -/
theorem ReviewBoard.status_cases (b : ReviewBoard id) :
    b.db.reviewStatus id = some b.first ∨ ∃ c ∈ b.commits, b.db.reviewStatus id = some c.status := by
  rcases List.eq_nil_or_concat b.commits with hnil | ⟨cs, c, hcs⟩
  · rw [b.latest, hnil]
    exact .inl rfl
  · rw [List.concat_eq_append] at hcs
    exact .inr ⟨c, by simp [hcs], ReviewBoard.status_append hcs⟩

omit [PyText] in
theorem ReviewBoard.stale_iff {c : ReviewCommit} (hc : tx.commit = some c) :
    b.stale tx = true ↔
      b.db.reviewStatus id ≠ some .pending ∧ b.db.reviewStatus id ≠ some c.status := by
  simp [stale, hc]

omit [PyText] in
theorem ReviewCommit.status_ne_pending (c : ReviewCommit) : c.status ≠ .pending := by
  cases c <;> decide

omit [PyText] in
/-- One more decision is final exactly when the review is PENDING or has been given
this status before. -/
theorem ReviewBoard.Final.decide_iff {c : ReviewCommit} (hb : b.Final) (hfirst : b'.first = b.first)
    (hcommits : b'.commits = b.commits ++ [c]) :
    b'.Final ↔ b.db.reviewStatus id = some .pending ∨ b.db.reviewStatus id = some c.status := by
  have hstatus : b'.db.reviewStatus id = some c.status := status_append hcommits
  constructor
  · intro hb'
    rcases b.status_cases with hst | ⟨d, hd, hst⟩
    · by_cases hpending : b.first = .pending
      · exact .inl (by rw [hst, hpending])
      · have hfirst' := hb'.first (by rwa [hfirst])
        rw [hfirst, hstatus] at hfirst'
        exact .inr (by rw [hst, hfirst'])
    · have hsettled := hb'.settled d (by simp [hcommits, hd])
      rw [hstatus] at hsettled
      exact .inr (by rw [hst, hsettled])
  · intro hbefore
    -- a PENDING review has not been decided and was PENDING at first
    have hfirst_c : b.first ≠ .pending → b.first = c.status := by
      intro hne
      have hst := hb.first hne
      rcases hbefore with hpending | hsame
      · rw [hst, Option.some.injEq] at hpending
        exact absurd hpending hne
      · rw [hst, Option.some.injEq] at hsame
        exact hsame
    have hsettled_c : ∀ d ∈ b.commits, d.status = c.status := by
      intro d hd
      have hst := hb.settled d hd
      rcases hbefore with hpending | hsame
      · rw [hst, Option.some.injEq] at hpending
        exact absurd hpending d.status_ne_pending
      · rw [hst, Option.some.injEq] at hsame
        exact hsame
    have hall : ∀ d ∈ b'.commits, d.status = c.status := by
      intro d hd
      rw [hcommits, List.mem_append, List.mem_singleton] at hd
      rcases hd with hd | rfl
      · exact hsettled_c d hd
      · rfl
    refine ⟨?_, ?_, ?_⟩
    · intro hne
      rw [hfirst] at hne ⊢
      rw [hstatus, hfirst_c hne]
    · intro d hd
      rw [hstatus, hall d hd]
    · intro hrejected hconfirmed
      have hmerged : ReviewCommit.confirmation.status = c.status := hall _ hconfirmed
      rw [hstatus, ← hmerged] at hrejected
      simp [ReviewCommit.status] at hrejected

omit [PyText] in
/-- A commit that leaves the review alone keeps decisions final. -/
theorem ReviewBoard.Final.other_iff (hb : b.Final) (hfirst : b'.first = b.first)
    (hcommits : b'.commits = b.commits) (hstatus : b'.db.reviewStatus id = b.db.reviewStatus id) :
    b'.Final := by
  refine ⟨?_, ?_, ?_⟩
  · rw [hfirst, hstatus]
    exact hb.first
  · rw [hcommits, hstatus]
    exact hb.settled
  · rw [hcommits, hstatus]
    exact hb.unmerged

omit [PyText] in
/-- What a call reads is PENDING, unless it comes with the review's id. -/
theorem readCall_stale {req : ReviewRequest} {c : Overtaking.Call ReviewTx}
    (h : readCall b req = some c) : c.overtaken = true ↔ b.stale c.tx = true := by
  cases req with
  | merge call =>
      simp only [readCall, Option.ite_none_right_eq_some, Option.some.injEq] at h
      rw [← h.2]
  | other db hwf =>
      cases h
      simp [ReviewBoard.stale, ReviewTx.commit]
  | review call =>
      simp only [readCall, Option.ite_none_right_eq_some] at h
      obtain ⟨rfl, h⟩ := h
      cases hread : b.db.readReview call with
      | error e => simp [hread] at h
      | ok d =>
          have hpending : b.db.reviewStatus call.reviewId = some .pending :=
            Db.readReview_pending hread
          cases d with
          | reject resolvedBy note =>
              simp only [hread, Option.some.injEq] at h
              subst h
              simp [ReviewBoard.stale, ReviewTx.commit, hpending]
          | confirm merge =>
              simp only [hread, Option.some.injEq] at h
              subst h
              simp [ReviewBoard.stale, ReviewTx.commit, hpending]

/-- What makes a call too late is a decision of the other kind. -/
theorem reviewCalls_tracks (id : Uuid) :
    (reviewCalls id).Tracks ReviewBoard.Final (fun b tx => b.stale tx = true) where
  read _ h := readCall_stale h
  write {b tx b'} hb h := by
    cases hc : tx.commit with
    | none =>
        obtain ⟨hfirst, hcommits, hstatus⟩ := commitCall_other hc h
        simp [ReviewBoard.stale, hc, hb.other_iff hfirst hcommits hstatus]
    | some c =>
        obtain ⟨hfirst, hcommits⟩ := commitCall_decides hc h
        rw [hb.decide_iff hfirst hcommits, ReviewBoard.stale_iff hc]
        tauto
  overtakes {b tx b'} hb h hb' tx' := by
    show _ ↔ _ ∨ tx.overtakes tx' = true
    cases hc' : tx'.commit with
    | none => simp [ReviewBoard.stale, ReviewTx.overtakes, hc']
    | some c' =>
        rw [ReviewBoard.stale_iff hc', ReviewBoard.stale_iff hc']
        cases hc : tx.commit with
        | none =>
            obtain ⟨-, -, hstatus⟩ := commitCall_other hc h
            simp [hstatus, ReviewTx.overtakes, hc]
        | some c =>
            obtain ⟨hfirst, hcommits⟩ := commitCall_decides hc h
            have hbefore := (hb.decide_iff hfirst hcommits).mp hb'
            rw [ReviewBoard.status_append hcommits]
            simp only [ReviewTx.overtakes, hc, hc', ne_eq, Option.some.injEq, decide_eq_true_eq]
            rcases hbefore with hpending | hsame
            · simp [hpending, c.status_ne_pending]
            · simp [hsame, c.status_ne_pending]

end Protocol

/-- **Final duplicate decisions.**  In a run of any calls on one review, every
decision is final in every state exactly when no call goes through that another
decision has overtaken since the call read the review. -/
theorem duplicate_decisions_final_iff [PyText] {id : Uuid} {db : Db} (hdb : Reachable db)
    {r : PendingDuplicateReview} (hr : db.getReview id = some r)
    (acts : List (Overtaking.Act ReviewRequest)) :
    Runs.EveryState (reviewCalls id).step (fun w => w.state.Final)
        (.start (ReviewBoard.start hdb hr)) acts ↔
      Runs.EveryStep (reviewCalls id).step (reviewCalls id).InTime
        (.start (ReviewBoard.start hdb hr)) acts := by
  apply (reviewCalls_tracks id).everyState_iff
  refine ⟨?_, by simp [ReviewBoard.start], by simp [ReviewBoard.start]⟩
  intro _
  exact (ReviewBoard.start hdb hr).latest

/-- Two reports that may be about one accident: event 9 is queued for review against
event 5, as review 10. -/
def possibleTwins : List Op :=
  [operatorReport 0 100 none none 1 1,
    .ingest ⟨1, 101, "", none, none, [⟨"operator", .num (.int 1)⟩], .review [5], 10, 2⟩]

def curatorDecides (action : Db.ReviewAction) : ReviewRequest :=
  .review ⟨10, action, 7, "", none, 3⟩

theorem possibleTwins_reachable : Reachable (after fourSources possibleTwins) :=
  ⟨fourSources, possibleTwins, rfl⟩

theorem possibleTwins_review :
    (after fourSources possibleTwins).getReview 10 = some ⟨10, 5, 9, .pending, none, none⟩ := by
  decide +kernel

/-- The review of the two reports. -/
def twinsBoard : ReviewBoard 10 := .start possibleTwins_reachable possibleTwins_review

/-- Two curators reject the review side by side; a third comes to confirm it. -/
def rejectedTwice : List (Overtaking.Act ReviewRequest) :=
  [.read 0 (curatorDecides .reject), .read 1 (curatorDecides .reject), .write 0, .write 1,
    .read 2 (curatorDecides .confirm), .write 2]

/-- Both rejections go through, and the confirmation is refused when it reads the review. -/
theorem rejection_final :
    Runs.EveryState (reviewCalls 10).step (fun w => w.state.Final) (.start twinsBoard)
        rejectedTwice ∧
      (Runs.run (reviewCalls 10).step (.start twinsBoard) rejectedTwice).state.commits =
        [.rejection, .rejection] ∧
      (Runs.run (reviewCalls 10).step (.start twinsBoard) rejectedTwice).state.db.readReview
        ⟨10, .confirm, 7, "", none, 3⟩ = .error (.reviewAlreadyResolved 10 .rejected) := by
  refine ⟨?_, by decide +kernel, by decide +kernel⟩
  refine (duplicate_decisions_final_iff possibleTwins_reachable possibleTwins_review _).mpr ?_
  simp only [rejectedTwice, Runs.EveryStep.cons]
  refine ⟨trivial, trivial, ?_, ?_, trivial, ?_, by simp [Runs.EveryStep]⟩
  all_goals
    apply Overtaking.inTime_write
    decide +kernel

/-- Two curators read the review before either of them commits. -/
def rejectedAndConfirmed : List (Overtaking.Act ReviewRequest) :=
  [.read 0 (curatorDecides .reject), .read 1 (curatorDecides .confirm), .write 0, .write 1]

/-- The rejected pair is merged all the same. -/
theorem rejected_review_confirmed :
    ¬ Runs.EveryState (reviewCalls 10).step (fun w => w.state.Final) (.start twinsBoard)
      rejectedAndConfirmed := by
  intro h
  have hlast := h rejectedAndConfirmed (List.prefix_refl _)
  have hcommits : (Runs.run (reviewCalls 10).step (.start twinsBoard)
      rejectedAndConfirmed).state.commits = [.rejection, .confirmation] := by
    decide +kernel
  have hrejected := hlast.settled .rejection (by simp [hcommits])
  have hmerged := hlast.settled .confirmation (by simp [hcommits])
  rw [hrejected] at hmerged
  simp [ReviewCommit.status] at hmerged

end Atlas
