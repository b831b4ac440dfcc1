import Atlas.Argus
import Atlas.Lib.Slots
import Mathlib.Data.Rat.Defs
import Mathlib.Algebra.Order.Ring.Rat
import Mathlib.Logic.Relation

/-!
# Reviews and detections of Argus signals

Detection passes and Echo runs raise signals in transactions of many upserts;
reviewers decide on signals in transactions that insert the review row, update the
signal under a version check and roll back when the check fails.  Any number of them
are open at once.

A statement that writes a signal locks its dedupe key until the end of its
transaction, and waits while another transaction has locked it.  What it found is
therefore still there when the transaction commits, which is where it takes effect
here.  A review reads its signal without a lock.
-/

namespace Atlas

open Rows

/-! ## Entities -/

inductive ArgusReviewDecision where
  | confirmed
  | dismissed
  | needsMoreReview
deriving DecidableEq, Repr

/-- `_DECISION_TO_STATUS`. -/
def ArgusReviewDecision.status : ArgusReviewDecision → ArgusSignalStatus
  | confirmed => .confirmed
  | dismissed => .dismissed
  | needsMoreReview => .needsMoreReview

structure ArgusSignalReview where
  id : Uuid
  signalId : Uuid
  decision : ArgusReviewDecision
  reviewerId : Option Uuid
  note : Option String
deriving DecidableEq, Repr

structure ReviewArgusSignalInput where
  signalId : Uuid
  decision : ArgusReviewDecision
  expectedVersion : Int
  reviewerId : Option Uuid
  note : Option String
deriving DecidableEq, Repr

/-! ## Transactions -/

/-- An open transaction, by what it has done. -/
inductive ArgusTx where
  /-- A detection pass or an Echo run, with the signals it has raised. -/
  | detection (upserts : List ArgusSignal)
  /-- `ReviewArgusSignal` has read a signal of the expected version. -/
  | loaded (input : ReviewArgusSignalInput) (signal : ArgusSignal)
  /-- It has inserted its review row. -/
  | inserted (input : ReviewArgusSignalInput) (review : ArgusSignalReview)
  /-- Its update has returned a row. -/
  | updated (input : ReviewArgusSignalInput) (review : ArgusSignalReview) (dedupeKey : String)

namespace ArgusTx

/-- The signals a transaction has raised. -/
def upserts : ArgusTx → List ArgusSignal
  | detection upserts => upserts
  | _ => []

/-- The transaction has locked the key. -/
def Locks : ArgusTx → String → Prop
  | detection upserts, key => ∃ s ∈ upserts, s.dedupeKey = key
  | updated _ _ dedupeKey, key => dedupeKey = key
  | _, _ => False

/-- The transaction has made a signal with this id. -/
def Makes (tx : ArgusTx) (id : Uuid) : Prop := ∃ s ∈ tx.upserts, s.id = id

end ArgusTx

/-- The committed tables and the open transactions.  `succeeded` lists the reviews whose
version-checked update has changed a row for good. -/
structure ArgusWorld where
  nextId : Uuid
  signals : List ArgusSignal
  reviews : List ArgusSignalReview
  succeeded : List ArgusSignalReview
  txs : Nat → Option ArgusTx

/-- The row a review is to change. -/
def ArgusSignal.matchesVersion (signalId : Uuid) (expectedVersion : Int) (s : ArgusSignal) : Bool :=
  s.id = signalId ∧ (s.version : Int) = expectedVersion

/-- What `update_with_version_check` writes for a decision. -/
def ArgusSignal.reviewed (decision : ArgusReviewDecision) (s : ArgusSignal) : ArgusSignal :=
  { s with status := decision.status, version := s.version + 1 }

/-- `argus_signals.update_with_version_check`: the rows after it. -/
def updateWithVersionCheck (signals : List ArgusSignal) (signalId : Uuid) (expectedVersion : Int)
    (decision : ArgusReviewDecision) : List ArgusSignal :=
  updateWhere (ArgusSignal.matchesVersion signalId expectedVersion) (ArgusSignal.reviewed decision)
    signals

namespace ArgusWorld

/-- No signal was raised yet. -/
def start : ArgusWorld := ⟨0, [], [], [], fun _ => none⟩

def getSignal (W : ArgusWorld) (id : Uuid) : Option ArgusSignal :=
  W.signals.find? fun s => s.id = id

/-- No other transaction has locked the key. -/
def FreeFor (W : ArgusWorld) (t : Nat) (key : String) : Prop :=
  ∀ t' tx, t' ≠ t → W.txs t' = some tx → ¬ tx.Locks key

/-- The review row of an execution. -/
def reviewRow (input : ReviewArgusSignalInput) (signal : ArgusSignal) (id : Uuid) :
    ArgusSignalReview :=
  ⟨id, signal.id, input.decision, input.reviewerId, input.note⟩

/-- One statement, a commit, or the end of a transaction without one. -/
inductive Step (W : ArgusWorld) : ArgusWorld → Prop where
  | detect {t : Nat} (hfree : W.txs t = none) :
      Step W { W with txs := Slots.put W.txs t (.detection []) }
  | upsert {t : Nat} {upserts : List ArgusSignal} {signal : ArgusSignal}
      (hopen : W.txs t = some (.detection upserts)) (hid : signal.id = W.nextId)
      (hlock : W.FreeFor t signal.dedupeKey) :
      Step W { W with
        nextId := W.nextId + 1
        txs := Slots.put W.txs t (.detection (upserts ++ [signal])) }
  /-- Echo rolls back to the savepoint before its last upsert. -/
  | savepoint {t : Nat} {upserts : List ArgusSignal} {signal : ArgusSignal}
      (hopen : W.txs t = some (.detection (upserts ++ [signal]))) :
      Step W { W with txs := Slots.put W.txs t (.detection upserts) }
  | commitDetection {t : Nat} {upserts : List ArgusSignal}
      (hopen : W.txs t = some (.detection upserts)) :
      Step W { W with
        signals := upserts.foldl upsertSignal W.signals
        txs := Slots.clear W.txs t }
  | load {t : Nat} {input : ReviewArgusSignalInput} {signal : ArgusSignal} (hfree : W.txs t = none)
      (hfound : W.getSignal input.signalId = some signal)
      (hversion : (signal.version : Int) = input.expectedVersion) :
      Step W { W with txs := Slots.put W.txs t (.loaded input signal) }
  | insertReview {t : Nat} {input : ReviewArgusSignalInput} {signal : ArgusSignal}
      (hopen : W.txs t = some (.loaded input signal)) :
      Step W { W with
        nextId := W.nextId + 1
        txs := Slots.put W.txs t (.inserted input (reviewRow input signal W.nextId)) }
  | update {t : Nat} {input : ReviewArgusSignalInput} {review : ArgusSignalReview}
      {signal : ArgusSignal} (hopen : W.txs t = some (.inserted input review))
      (hrow : signal ∈ W.signals)
      (hmatches : signal.matchesVersion review.signalId input.expectedVersion = true)
      (hlock : W.FreeFor t signal.dedupeKey) :
      Step W { W with txs := Slots.put W.txs t (.updated input review signal.dedupeKey) }
  | commitReview {t : Nat} {input : ReviewArgusSignalInput} {review : ArgusSignalReview}
      {dedupeKey : String} (hopen : W.txs t = some (.updated input review dedupeKey)) :
      Step W { W with
        signals := updateWithVersionCheck W.signals review.signalId input.expectedVersion
          input.decision
        reviews := W.reviews ++ [review]
        succeeded := W.succeeded ++
          if W.signals.any (ArgusSignal.matchesVersion review.signalId input.expectedVersion) then
            [review]
          else []
        txs := Slots.clear W.txs t }
  /-- The update returned no row, an error was raised, or the process died. -/
  | rollback {t : Nat} : Step W { W with txs := Slots.clear W.txs t }

/-! ## What is claimed of a world -/

/-- The committed review rows of a signal, oldest first. -/
def reviewsOf (reviews : List ArgusSignalReview) (signalId : Uuid) : List ArgusSignalReview :=
  reviews.filter fun r => r.signalId = signalId

/-- The status that reviews leave. -/
def statusAfter (reviews : List ArgusSignalReview) : ArgusSignalStatus :=
  (reviews.getLast?.map fun r => r.decision.status).getD .open

/-- One signal for a key; its version counts its reviews, and its status is that of the
last of them. -/
structure Consistent (W : ArgusWorld) : Prop where
  oneSignal : Rows.Unique ArgusSignal.dedupeKey W.signals
  version : ∀ s ∈ W.signals, s.version = 1 + (reviewsOf W.reviews s.id).length
  succeeded : ∀ s ∈ W.signals, reviewsOf W.reviews s.id = reviewsOf W.succeeded s.id
  status : ∀ s ∈ W.signals, s.status = statusAfter (reviewsOf W.reviews s.id)

/-- What later worlds keep of a signal. -/
structure Keeps (W W' : ArgusWorld) (s s' : ArgusSignal) : Prop where
  same : s'.id = s.id ∧ s'.dedupeKey = s.dedupeKey
  severity : s.severity.rank ≤ s'.severity.rank
  confidence : s.confidence ≤ s'.confidence
  /-- Its status changes only when a review of it is committed. -/
  status : s'.status = s.status ∨
    ∃ later, W'.reviews = W.reviews ++ later ∧ ∃ r ∈ later, r.signalId = s.id

/-! ## The committed tables -/

variable {signals signals' : List ArgusSignal} {reviews : List ArgusSignalReview} {W W' : ArgusWorld}

theorem statusAfter_ne_autoResolved (reviews : List ArgusSignalReview) :
    statusAfter reviews ≠ .autoResolved := by
  unfold statusAfter
  cases reviews.getLast? with
  | none => decide
  | some r => cases hd : r.decision <;> simp [hd, ArgusReviewDecision.status]

theorem reviewsOf_append (reviews later : List ArgusSignalReview) (id : Uuid) :
    reviewsOf (reviews ++ later) id = reviewsOf reviews id ++ reviewsOf later id :=
  List.filter_append _ _

/-- A review of another signal does not count. -/
theorem reviewsOf_append_ne (reviews : List ArgusSignalReview) {review : ArgusSignalReview} {id : Uuid}
    (h : review.signalId ≠ id) : reviewsOf (reviews ++ [review]) id = reviewsOf reviews id := by
  rw [reviewsOf_append]
  simp [reviewsOf, h]

theorem reviewsOf_append_self (reviews : List ArgusSignalReview) (review : ArgusSignalReview) :
    reviewsOf (reviews ++ [review]) review.signalId = reviewsOf reviews review.signalId ++ [review] := by
  rw [reviewsOf_append]
  simp [reviewsOf]

/-- What holds of the committed signals and reviews. -/
structure Good (signals : List ArgusSignal) (reviews : List ArgusSignalReview) : Prop where
  keys : Rows.Unique ArgusSignal.dedupeKey signals
  ids : Rows.Unique ArgusSignal.id signals
  version : ∀ s ∈ signals, s.version = 1 + (reviewsOf reviews s.id).length
  status : ∀ s ∈ signals, s.status = statusAfter (reviewsOf reviews s.id)
  known : ∀ r ∈ reviews, ∃ s ∈ signals, s.id = r.signalId

/-- A signal nobody has made yet. -/
def Unmade (signals : List ArgusSignal) (id : Uuid) : Prop := ∀ s ∈ signals, s.id ≠ id

/-- An id without a signal has no reviews. -/
theorem Good.reviewsOf_unmade (h : Good signals reviews) {id : Uuid} (hid : Unmade signals id) :
    reviewsOf reviews id = [] := by
  refine List.filter_eq_nil_iff.mpr ?_
  intro r hr heq
  obtain ⟨s, hs, hsid⟩ := h.known r hr
  exact hid s hs (hsid.trans (of_decide_eq_true heq))

/-- Every signal is still there, with its id and key, and is not weaker. -/
def Raised (signals signals' : List ArgusSignal) : Prop :=
  ∀ s ∈ signals, ∃ s' ∈ signals', (s'.id = s.id ∧ s'.dedupeKey = s.dedupeKey) ∧
    s.severity.rank ≤ s'.severity.rank ∧ s.confidence ≤ s'.confidence

theorem Raised.refl (signals : List ArgusSignal) : Raised signals signals := by
  intro s hs
  exact ⟨s, hs, ⟨rfl, rfl⟩, le_rfl, le_rfl⟩

theorem Raised.trans {signals'' : List ArgusSignal} (h : Raised signals signals')
    (h' : Raised signals' signals'') : Raised signals signals'' := by
  intro s hs
  obtain ⟨s', hs', ⟨hid, hkey⟩, hseverity, hconfidence⟩ := h s hs
  obtain ⟨s'', hs'', ⟨hid', hkey'⟩, hseverity', hconfidence'⟩ := h' s' hs'
  exact ⟨s'', hs'', ⟨hid'.trans hid, hkey'.trans hkey⟩, hseverity.trans hseverity',
    hconfidence.trans hconfidence'⟩

/-! ### An upsert -/

theorem refresh_rank (new old : ArgusSignal) :
    old.severity.rank ≤ (new.refresh old).severity.rank := by
  unfold ArgusSignal.refresh
  dsimp only
  split
  · rename_i h
    exact h.le
  · exact le_rfl

theorem refresh_confidence (new old : ArgusSignal) :
    old.confidence ≤ (new.refresh old).confidence := by
  unfold ArgusSignal.refresh
  dsimp only
  split
  · rename_i h
    exact h.le
  · exact le_rfl

/-- A refresh leaves a signal that is not auto-resolved in its status. -/
theorem refresh_status (new : ArgusSignal) {old : ArgusSignal} (h : old.status ≠ .autoResolved) :
    (new.refresh old).status = old.status := if_neg h

/-- A signal after an upsert: an old one, a refreshed one, or the new one. -/
theorem mem_upsertSignal {signal s : ArgusSignal} :
    s ∈ upsertSignal signals signal ↔
      (s ∈ signals ∧ s.dedupeKey ≠ signal.dedupeKey) ∨
        (∃ old ∈ signals, old.dedupeKey = signal.dedupeKey ∧ s = signal.refresh old) ∨
        (s = { signal with status := .open, version := 1 } ∧
          ∀ old ∈ signals, old.dedupeKey ≠ signal.dedupeKey) := mem_upsertWith

theorem raised_upsertSignal (signals : List ArgusSignal) (signal : ArgusSignal) :
    Raised signals (upsertSignal signals signal) := by
  intro s hs
  by_cases hkey : s.dedupeKey = signal.dedupeKey
  · exact ⟨signal.refresh s, mem_upsertSignal.mpr (.inr (.inl ⟨s, hs, hkey, rfl⟩)), ⟨rfl, rfl⟩,
      refresh_rank signal s, refresh_confidence signal s⟩
  · exact ⟨s, mem_upsertSignal.mpr (.inl ⟨hs, hkey⟩), ⟨rfl, rfl⟩, le_rfl, le_rfl⟩

/-- The ids after an upsert are the old ones and the new one. -/
theorem id_upsertSignal {signal s : ArgusSignal} (hs : s ∈ upsertSignal signals signal) :
    s.id = signal.id ∨ ∃ old ∈ signals, old.id = s.id ∧ old.version = s.version ∧
      old.dedupeKey = s.dedupeKey := by
  rcases mem_upsertSignal.mp hs with ⟨hold, -⟩ | ⟨old, hold, -, rfl⟩ | ⟨rfl, -⟩
  · exact .inr ⟨s, hold, rfl, rfl, rfl⟩
  · exact .inr ⟨old, hold, rfl, rfl, rfl⟩
  · exact .inl rfl

theorem unique_ids_upsertSignal (h : Rows.Unique ArgusSignal.id signals) {signal : ArgusSignal}
    (hid : Unmade signals signal.id) : Rows.Unique ArgusSignal.id (upsertSignal signals signal) := by
  unfold upsertSignal upsertWith
  split
  · exact h.updateWhere fun _ => rfl
  · exact h.append_single fun x hx heq => hid x hx heq

/-- **An upsert keeps the tables good.** -/
theorem Good.upsertSignal (h : Good signals reviews) {signal : ArgusSignal}
    (hid : Unmade signals signal.id) : Good (upsertSignal signals signal) reviews where
  keys := h.keys.upsertWith fun _ => rfl
  ids := unique_ids_upsertSignal h.ids hid
  version := by
    intro s hs
    rcases mem_upsertSignal.mp hs with ⟨hold, -⟩ | ⟨old, hold, -, rfl⟩ | ⟨rfl, -⟩
    · exact h.version s hold
    · exact h.version old hold
    · change 1 = 1 + (reviewsOf reviews signal.id).length
      rw [h.reviewsOf_unmade hid]
      rfl
  status := by
    intro s hs
    rcases mem_upsertSignal.mp hs with ⟨hold, -⟩ | ⟨old, hold, -, rfl⟩ | ⟨rfl, -⟩
    · exact h.status s hold
    · have hstatus := h.status old hold
      rw [refresh_status signal (hstatus ▸ statusAfter_ne_autoResolved _)]
      exact hstatus
    · change ArgusSignalStatus.open = statusAfter (reviewsOf reviews signal.id)
      rw [h.reviewsOf_unmade hid]
      rfl
  known := by
    intro r hr
    obtain ⟨s, hs, hsid⟩ := h.known r hr
    obtain ⟨s', hs', ⟨hid', -⟩, -⟩ := raised_upsertSignal signals signal s hs
    exact ⟨s', hs', hid'.trans hsid⟩

/-- The upserts of a transaction, whose signals are all new. -/
theorem Good.upsertSignals {upserts : List ArgusSignal} (h : Good signals reviews)
    (hids : (upserts.map ArgusSignal.id).Nodup) (hnew : ∀ s ∈ upserts, Unmade signals s.id) :
    Good (upserts.foldl Atlas.upsertSignal signals) reviews := by
  induction upserts generalizing signals with
  | nil => exact h
  | cons signal upserts ih =>
      obtain ⟨hfirst, hrest⟩ := List.nodup_cons.mp hids
      refine ih (h.upsertSignal (hnew signal List.mem_cons_self)) hrest ?_
      intro s hs x hx heq
      rcases id_upsertSignal hx with hxid | ⟨old, hold, holdid, -⟩
      · exact hfirst (List.mem_map.mpr ⟨s, hs, heq.symm.trans hxid⟩)
      · exact hnew s (List.mem_cons_of_mem _ hs) old hold (holdid.trans heq)

theorem raised_upsertSignals (signals upserts : List ArgusSignal) :
    Raised signals (upserts.foldl upsertSignal signals) := by
  induction upserts generalizing signals with
  | nil => exact Raised.refl signals
  | cons signal upserts ih => exact (raised_upsertSignal signals signal).trans (ih _)

/-- A signal after the upserts of a transaction was made by it or keeps its id, version
and key. -/
theorem id_upsertSignals {upserts : List ArgusSignal} {s : ArgusSignal}
    (hs : s ∈ upserts.foldl upsertSignal signals) :
    (∃ u ∈ upserts, u.id = s.id) ∨ ∃ old ∈ signals, old.id = s.id ∧ old.version = s.version ∧
      old.dedupeKey = s.dedupeKey := by
  induction upserts generalizing signals with
  | nil => exact .inr ⟨s, hs, rfl, rfl, rfl⟩
  | cons signal upserts ih =>
      rcases ih hs with ⟨u, hu, hid⟩ | ⟨x, hx, hid, hversion, hkey⟩
      · exact .inl ⟨u, List.mem_cons_of_mem _ hu, hid⟩
      · rcases id_upsertSignal hx with hnew | ⟨old, hold, hid', hversion', hkey'⟩
        · exact .inl ⟨signal, List.mem_cons_self, hnew.symm.trans hid⟩
        · exact .inr ⟨old, hold, hid'.trans hid, hversion'.trans hversion, hkey'.trans hkey⟩

/-! ### A review -/

theorem raised_updateWithVersionCheck (signals : List ArgusSignal) (signalId : Uuid)
    (expectedVersion : Int) (decision : ArgusReviewDecision) :
    Raised signals (updateWithVersionCheck signals signalId expectedVersion decision) := by
  intro s hs
  refine ⟨_, mem_updateWhere.mpr ⟨s, hs, rfl⟩, ?_⟩
  split
  · exact ⟨⟨rfl, rfl⟩, le_rfl, le_rfl⟩
  · exact ⟨⟨rfl, rfl⟩, le_rfl, le_rfl⟩

/-- A row of another signal is not touched. -/
theorem mem_updateWithVersionCheck_ne {signalId : Uuid} {expectedVersion : Int}
    {decision : ArgusReviewDecision} {s : ArgusSignal} (hs : s ∈ signals) (hne : s.id ≠ signalId) :
    s ∈ updateWithVersionCheck signals signalId expectedVersion decision := by
  refine mem_updateWhere.mpr ⟨s, hs, if_neg ?_⟩
  simp [ArgusSignal.matchesVersion, hne]

/-- **A review that changes its row keeps the tables good.** -/
theorem Good.review (h : Good signals reviews) {review : ArgusSignalReview} {expectedVersion : Int}
    {s₀ : ArgusSignal} (hs₀ : s₀ ∈ signals)
    (hmatches : s₀.matchesVersion review.signalId expectedVersion = true) :
    Good (updateWithVersionCheck signals review.signalId expectedVersion review.decision)
      (reviews ++ [review]) := by
  obtain ⟨hid₀, hversion₀⟩ := of_decide_eq_true hmatches
  -- ids are unique, so the row that matches is the only one with the id
  have honly : ∀ s ∈ signals, s.id = review.signalId →
      s.matchesVersion review.signalId expectedVersion = true := by
    intro s hs hid
    rw [h.ids.eq_of_key hs hs₀ (hid.trans hid₀.symm)]
    exact hmatches
  have hcases : ∀ s' ∈ updateWithVersionCheck signals review.signalId expectedVersion review.decision,
      (∃ s ∈ signals, s.id = review.signalId ∧ s' = s.reviewed review.decision) ∨
        (s' ∈ signals ∧ s'.id ≠ review.signalId) := by
    intro s' hs'
    obtain ⟨s, hs, rfl⟩ := mem_updateWhere.mp hs'
    by_cases hid : s.id = review.signalId
    · exact .inl ⟨s, hs, hid, if_pos (honly s hs hid)⟩
    · have hnot : ¬ s.matchesVersion review.signalId expectedVersion = true :=
        fun hm => hid (of_decide_eq_true hm).1
      rw [if_neg hnot]
      exact .inr ⟨hs, hid⟩
  refine ⟨h.keys.updateWhere fun _ => rfl, h.ids.updateWhere fun _ => rfl, ?_, ?_, ?_⟩
  · intro s' hs'
    rcases hcases s' hs' with ⟨s, hs, hid, rfl⟩ | ⟨hs, hne⟩
    · change s.version + 1 = 1 + (reviewsOf (reviews ++ [review]) s.id).length
      rw [h.version s hs, hid, reviewsOf_append_self, List.length_append]
      rfl
    · rw [reviewsOf_append_ne reviews (Ne.symm hne)]
      exact h.version s' hs
  · intro s' hs'
    rcases hcases s' hs' with ⟨s, hs, hid, rfl⟩ | ⟨hs, hne⟩
    · change review.decision.status = statusAfter (reviewsOf (reviews ++ [review]) s.id)
      rw [hid, reviewsOf_append_self, statusAfter, List.getLast?_concat]
      rfl
    · rw [reviewsOf_append_ne reviews (Ne.symm hne)]
      exact h.status s' hs
  · intro r hr
    have hold : ∃ s ∈ signals, s.id = r.signalId := by
      rcases List.mem_append.mp hr with hr | hr
      · exact h.known r hr
      · rw [List.mem_singleton.mp hr]
        exact ⟨s₀, hs₀, hid₀⟩
    obtain ⟨s, hs, hid⟩ := hold
    obtain ⟨s', hs', ⟨hid', -⟩, -⟩ := raised_updateWithVersionCheck signals review.signalId
      expectedVersion review.decision s hs
    exact ⟨s', hs', hid'.trans hid⟩

/-! ## The open transactions -/

/-- What is known of an open transaction: its signals are new, its review row has its
decision, and the row its update returned is still there. -/
def TxOk (W : ArgusWorld) : ArgusTx → Prop
  | .detection upserts => (upserts.map ArgusSignal.id).Nodup ∧
      ∀ s ∈ upserts, s.id < W.nextId ∧ Unmade W.signals s.id
  | .loaded _ _ => True
  | .inserted input review => review.decision = input.decision
  | .updated input review dedupeKey => review.decision = input.decision ∧
      ∃ s ∈ W.signals, s.dedupeKey = dedupeKey ∧
        s.matchesVersion review.signalId input.expectedVersion = true

structure Inv (W : ArgusWorld) : Prop where
  good : Good W.signals W.reviews
  succeeded : W.succeeded = W.reviews
  bounded : ∀ s ∈ W.signals, s.id < W.nextId
  txs : Slots.All W.TxOk W.txs
  locks : Slots.Exclusive ArgusTx.Locks W.txs
  makes : Slots.Exclusive ArgusTx.Makes W.txs

theorem inv_start : start.Inv where
  good := ⟨unique_nil _, unique_nil _, by simp [start], by simp [start], by simp [start]⟩
  succeeded := rfl
  bounded := by simp [start]
  txs := Slots.all_empty _
  locks := Slots.exclusive_empty _
  makes := Slots.exclusive_empty _

/-- New identifiers disturb no transaction. -/
theorem TxOk.next {tx : ArgusTx} (h : W.TxOk tx) (n : Uuid) (hn : W.nextId ≤ n)
    (txs : Nat → Option ArgusTx) : ({ W with nextId := n, txs := txs } : ArgusWorld).TxOk tx := by
  cases tx with
  | detection upserts =>
      refine ⟨h.1, ?_⟩
      intro s hs
      exact ⟨(h.2 s hs).1.trans_le hn, (h.2 s hs).2⟩
  | loaded input signal => trivial
  | inserted input review => exact h
  | updated input review dedupeKey => exact h

/-- A transaction begins, or moves on without a commit. -/
theorem Inv.put (h : W.Inv) {t : Nat} {tx : ArgusTx} {n : Uuid} (hn : W.nextId ≤ n)
    (htx : ({ W with nextId := n } : ArgusWorld).TxOk tx)
    (hlocks : Slots.Exclusive ArgusTx.Locks (Slots.put W.txs t tx))
    (hmakes : Slots.Exclusive ArgusTx.Makes (Slots.put W.txs t tx)) :
    ({ W with nextId := n, txs := Slots.put W.txs t tx } : ArgusWorld).Inv where
  good := h.good
  succeeded := h.succeeded
  bounded := fun s hs => (h.bounded s hs).trans_le hn
  txs := by
    refine Slots.All.put ?_ (htx.next n le_rfl _)
    exact h.txs.imp fun tx' htx' => htx'.next n hn _
  locks := hlocks
  makes := hmakes

theorem makes_not (tx : ArgusTx) (h : tx.upserts = []) (id : Uuid) : ¬ tx.Makes id := by
  rintro ⟨s, hs, -⟩
  rw [h] at hs
  cases hs

/-- A step of a transaction that raises no signal and takes no lock. -/
theorem Inv.quiet (h : W.Inv) {t : Nat} {tx : ArgusTx} {n : Uuid} (hn : W.nextId ≤ n)
    (htx : ({ W with nextId := n } : ArgusWorld).TxOk tx) (hlocks : ∀ key, ¬ tx.Locks key)
    (hmakes : ∀ id, ¬ tx.Makes id) :
    ({ W with nextId := n, txs := Slots.put W.txs t tx } : ArgusWorld).Inv := by
  refine h.put hn htx (h.locks.put ?_) (h.makes.put ?_)
  · intro key hkey
    exact absurd hkey (hlocks key)
  · intro id hid
    exact absurd hid (hmakes id)

/-- The ids of open upserts are below the next one. -/
theorem Inv.lt_of_makes (h : W.Inv) {t : Nat} {tx : ArgusTx} (htx : W.txs t = some tx) {id : Uuid}
    (hid : tx.Makes id) : id < W.nextId := by
  obtain ⟨s, hs, rfl⟩ := hid
  cases tx with
  | detection upserts => exact ((h.txs t _ htx).2 s hs).1
  | loaded input signal => cases hs
  | inserted input review => cases hs
  | updated input review dedupeKey => cases hs

theorem Inv.upsert (h : W.Inv) {t : Nat} {upserts : List ArgusSignal} {signal : ArgusSignal}
    (hopen : W.txs t = some (.detection upserts)) (hid : signal.id = W.nextId)
    (hlock : W.FreeFor t signal.dedupeKey) :
    ({ W with
      nextId := W.nextId + 1
      txs := Slots.put W.txs t (.detection (upserts ++ [signal])) } : ArgusWorld).Inv := by
  have hok := h.txs t _ hopen
  refine h.put (Nat.le_succ _) ⟨?_, ?_⟩ (h.locks.put ?_) (h.makes.put ?_)
  · rw [List.map_append]
    refine List.nodup_append.mpr ⟨hok.1, List.nodup_singleton _, ?_⟩
    intro a ha b hb
    obtain ⟨s, hs, rfl⟩ := List.mem_map.mp ha
    rw [List.mem_singleton.mp hb, hid]
    exact (hok.2 s hs).1.ne
  · intro s hs
    rcases List.mem_append.mp hs with hs | hs
    · exact ⟨(hok.2 s hs).1.trans (Nat.lt_succ_self _), (hok.2 s hs).2⟩
    · rw [List.mem_singleton.mp hs, hid]
      exact ⟨Nat.lt_succ_self _, fun s hs => (h.bounded s hs).ne⟩
  · rintro key ⟨s, hs, rfl⟩ t' tx hne htx hheld
    rcases List.mem_append.mp hs with hs | hs
    · exact hne (h.locks htx hopen hheld ⟨s, hs, rfl⟩)
    · rw [List.mem_singleton.mp hs] at hheld
      exact hlock t' tx hne htx hheld
  · rintro id ⟨s, hs, rfl⟩ t' tx hne htx hmade
    rcases List.mem_append.mp hs with hs | hs
    · exact hne (h.makes htx hopen hmade ⟨s, hs, rfl⟩)
    · rw [List.mem_singleton.mp hs, hid] at hmade
      exact (h.lt_of_makes htx hmade).false

theorem Inv.savepoint (h : W.Inv) {t : Nat} {upserts : List ArgusSignal} {signal : ArgusSignal}
    (hopen : W.txs t = some (.detection (upserts ++ [signal]))) :
    ({ W with txs := Slots.put W.txs t (.detection upserts) } : ArgusWorld).Inv := by
  have hok := h.txs t _ hopen
  have hsub : ∀ s ∈ upserts, s ∈ upserts ++ [signal] := fun s hs => List.mem_append_left _ hs
  refine h.put le_rfl ⟨?_, fun s hs => hok.2 s (hsub s hs)⟩ ?_ ?_
  · refine hok.1.sublist ?_
    exact (List.sublist_append_left upserts [signal]).map _
  · refine h.locks.advance hopen ?_
    rintro key ⟨s, hs, hkey⟩
    exact ⟨s, hsub s hs, hkey⟩
  · refine h.makes.advance hopen ?_
    rintro id ⟨s, hs, hid⟩
    exact ⟨s, hsub s hs, hid⟩

/-- The row an update returns is locked from then on. -/
theorem Inv.update (h : W.Inv) {t : Nat} {input : ReviewArgusSignalInput} {review : ArgusSignalReview}
    {signal : ArgusSignal} (hopen : W.txs t = some (.inserted input review))
    (hrow : signal ∈ W.signals)
    (hmatches : signal.matchesVersion review.signalId input.expectedVersion = true)
    (hlock : W.FreeFor t signal.dedupeKey) :
    ({ W with txs := Slots.put W.txs t (.updated input review signal.dedupeKey) } : ArgusWorld).Inv := by
  refine h.put le_rfl ⟨h.txs t _ hopen, signal, hrow, rfl, hmatches⟩ (h.locks.put ?_) (h.makes.put ?_)
  · rintro key rfl
    exact hlock
  · intro id hid
    exact absurd hid (makes_not _ rfl id)

/-! ### Commits -/

/-- A row that was there is there after the upserts of a transaction, with its version. -/
theorem Inv.row_upsertSignals (h : W.Inv) {t : Nat} {upserts : List ArgusSignal}
    (hopen : W.txs t = some (.detection upserts)) {s : ArgusSignal} (hs : s ∈ W.signals) :
    ∃ s' ∈ upserts.foldl upsertSignal W.signals, s'.id = s.id ∧ s'.dedupeKey = s.dedupeKey ∧
      s'.version = s.version := by
  obtain ⟨s', hs', ⟨hid, hkey⟩, -⟩ := raised_upsertSignals W.signals upserts s hs
  refine ⟨s', hs', hid, hkey, ?_⟩
  rcases id_upsertSignals hs' with ⟨u, hu, hmade⟩ | ⟨old, hold, holdid, hversion, -⟩
  · exact absurd (hmade.trans hid).symm (((h.txs t _ hopen).2 u hu).2 s hs)
  · rw [← hversion, h.good.ids.eq_of_key hold hs (holdid.trans hid)]

theorem Inv.commitDetection (h : W.Inv) {t : Nat} {upserts : List ArgusSignal}
    (hopen : W.txs t = some (.detection upserts)) :
    ({ W with
      signals := upserts.foldl upsertSignal W.signals
      txs := Slots.clear W.txs t } : ArgusWorld).Inv := by
  have hok := h.txs t _ hopen
  refine ⟨h.good.upsertSignals hok.1 fun s hs => (hok.2 s hs).2, h.succeeded, ?_, ?_,
    h.locks.clear, h.makes.clear⟩
  · intro s hs
    rcases id_upsertSignals hs with ⟨u, hu, hid⟩ | ⟨old, hold, hid, -⟩
    · rw [← hid]
      exact (hok.2 u hu).1
    · rw [← hid]
      exact h.bounded old hold
  · intro t' tx htx
    obtain ⟨hne, htx⟩ := Slots.clear_some htx
    have hother := h.txs t' tx htx
    cases tx with
    | loaded input signal => trivial
    | inserted input review => exact hother
    | detection others =>
        refine ⟨hother.1, ?_⟩
        intro s hs
        refine ⟨(hother.2 s hs).1, ?_⟩
        intro x hx heq
        rcases id_upsertSignals hx with ⟨u, hu, hid⟩ | ⟨old, hold, hid, -⟩
        · exact hne (h.makes htx hopen ⟨s, hs, rfl⟩ ⟨u, hu, hid.trans heq⟩)
        · exact (hother.2 s hs).2 old hold (hid.trans heq)
    | updated input review dedupeKey =>
        obtain ⟨hdecision, s, hs, hkey, hmatches⟩ := hother
        obtain ⟨s', hs', hid, hkey', hversion⟩ := h.row_upsertSignals hopen hs
        refine ⟨hdecision, s', hs', hkey'.trans hkey, ?_⟩
        unfold ArgusSignal.matchesVersion at *
        rw [hid, hversion]
        exact hmatches

theorem Inv.commitReview (h : W.Inv) {t : Nat} {input : ReviewArgusSignalInput}
    {review : ArgusSignalReview} {dedupeKey : String}
    (hopen : W.txs t = some (.updated input review dedupeKey)) :
    ({ W with
      signals := updateWithVersionCheck W.signals review.signalId input.expectedVersion
        input.decision
      reviews := W.reviews ++ [review]
      succeeded := W.succeeded ++
        if W.signals.any (ArgusSignal.matchesVersion review.signalId input.expectedVersion) then
          [review]
        else []
      txs := Slots.clear W.txs t } : ArgusWorld).Inv := by
  obtain ⟨hdecision, s₀, hs₀, hkey₀, hmatches⟩ := h.txs t _ hopen
  have hid₀ : s₀.id = review.signalId := (of_decide_eq_true hmatches).1
  rw [← hdecision]
  refine ⟨h.good.review hs₀ hmatches, ?_, ?_, ?_, h.locks.clear, h.makes.clear⟩
  · have hany : W.signals.any (ArgusSignal.matchesVersion review.signalId input.expectedVersion) =
        true := List.any_eq_true.mpr ⟨s₀, hs₀, hmatches⟩
    dsimp only
    rw [if_pos hany, h.succeeded]
  · intro s hs
    obtain ⟨old, hold, rfl⟩ := mem_updateWhere.mp hs
    split
    · exact h.bounded old hold
    · exact h.bounded old hold
  · intro t' tx htx
    obtain ⟨hne, htx⟩ := Slots.clear_some htx
    have hother := h.txs t' tx htx
    cases tx with
    | loaded input signal => trivial
    | inserted input review => exact hother
    | detection others =>
        refine ⟨hother.1, ?_⟩
        intro s hs
        refine ⟨(hother.2 s hs).1, ?_⟩
        intro x hx heq
        obtain ⟨old, hold, rfl⟩ := mem_updateWhere.mp hx
        refine (hother.2 s hs).2 old hold (Eq.trans ?_ heq)
        split <;> rfl
    | updated input' review' dedupeKey' =>
        obtain ⟨hdecision', s, hs, hkey, hmatches'⟩ := hother
        have hother : s.id ≠ review.signalId := by
          intro heq
          have hsame := h.good.ids.eq_of_key hs hs₀ (heq.trans hid₀.symm)
          have hkeys : dedupeKey = dedupeKey' := by rw [← hkey₀, ← hkey, hsame]
          have hlocked : (ArgusTx.updated input' review' dedupeKey').Locks dedupeKey' := rfl
          exact hne (h.locks htx hopen hlocked hkeys)
        exact ⟨hdecision', s, mem_updateWithVersionCheck_ne hs hother, hkey, hmatches'⟩

/-- **Every step keeps the invariant.** -/
theorem Inv.step (h : W.Inv) (hstep : Step W W') : W'.Inv := by
  cases hstep with
  | detect hfree =>
      refine h.quiet le_rfl ⟨List.nodup_nil, by simp⟩ ?_ fun id => makes_not _ rfl id
      rintro key ⟨s, hs, -⟩
      cases hs
  | upsert hopen hid hlock => exact h.upsert hopen hid hlock
  | savepoint hopen => exact h.savepoint hopen
  | commitDetection hopen => exact h.commitDetection hopen
  | load hfree hfound hversion =>
      exact h.quiet le_rfl trivial (fun _ => id) fun id => makes_not _ rfl id
  | insertReview hopen =>
      exact h.quiet (Nat.le_succ _) rfl (fun _ => id) fun id => makes_not _ rfl id
  | update hopen hrow hmatches hlock => exact h.update hopen hrow hmatches hlock
  | commitReview hopen => exact h.commitReview hopen
  | rollback =>
      exact ⟨h.good, h.succeeded, h.bounded, h.txs.clear, h.locks.clear, h.makes.clear⟩

/-! ## Runs -/

/-- A step adds at most one review. -/
theorem step_reviews (hstep : Step W W') : ∃ later, W'.reviews = W.reviews ++ later := by
  cases hstep with
  | commitReview hopen => exact ⟨_, rfl⟩
  | _ => exact ⟨[], (List.append_nil _).symm⟩

theorem step_raised (hstep : Step W W') : Raised W.signals W'.signals := by
  cases hstep with
  | commitDetection hopen => exact raised_upsertSignals _ _
  | commitReview hopen => exact raised_updateWithVersionCheck _ _ _ _
  | _ => exact Raised.refl _

/-- What a run from one world to another does to the committed tables. -/
theorem run_kept (hrun : Relation.ReflTransGen Step W W') (h : W.Inv) :
    W'.Inv ∧ Raised W.signals W'.signals ∧ ∃ later, W'.reviews = W.reviews ++ later := by
  induction hrun with
  | refl => exact ⟨h, Raised.refl _, [], (List.append_nil _).symm⟩
  | tail _ hstep ih =>
      obtain ⟨hmid, hraised, later, hlater⟩ := ih
      obtain ⟨more, hmore⟩ := step_reviews hstep
      refine ⟨hmid.step hstep, hraised.trans (step_raised hstep), later ++ more, ?_⟩
      rw [hmore, hlater, List.append_assoc]

theorem Inv.consistent (h : W.Inv) : W.Consistent where
  oneSignal := h.good.keys
  version := h.good.version
  succeeded := by
    intro s _
    rw [h.succeeded]
  status := h.good.status

/-- The status of a signal changes only with its reviews. -/
theorem status_of_no_review (h : W.Inv) (h' : W'.Inv) {later : List ArgusSignalReview}
    (hlater : W'.reviews = W.reviews ++ later) {s s' : ArgusSignal} (hs : s ∈ W.signals)
    (hs' : s' ∈ W'.signals) (hid : s'.id = s.id) (hnone : ¬ ∃ r ∈ later, r.signalId = s.id) :
    s'.status = s.status := by
  have hsame : reviewsOf later s.id = [] := by
    refine List.filter_eq_nil_iff.mpr ?_
    intro r hr heq
    exact hnone ⟨r, hr, of_decide_eq_true heq⟩
  rw [h'.good.status s' hs', h.good.status s hs, hid, hlater, reviewsOf_append, hsame,
    List.append_nil]

end ArgusWorld

/-- **Reviews and detections do not overwrite each other.**  However the statements and
commits of any number of detection passes, Echo runs and reviews interleave, with any of
them rolled back at any point: there is one signal for a dedupe key; its version is one
more than the number of its committed reviews, which are exactly those whose
version-checked update changed its row; and its status is that of the last of them.  From
then on the signal stays, its severity and confidence never decrease, and its status
changes only when a review of it is committed. -/
theorem argus_reviews_and_detections {W : ArgusWorld}
    (hrun : Relation.ReflTransGen ArgusWorld.Step ArgusWorld.start W) :
    W.Consistent ∧ ∀ W', Relation.ReflTransGen ArgusWorld.Step W W' →
      ∀ s ∈ W.signals, ∃ s' ∈ W'.signals, W.Keeps W' s s' := by
  obtain ⟨hinv, -⟩ := ArgusWorld.run_kept hrun ArgusWorld.inv_start
  refine ⟨hinv.consistent, ?_⟩
  intro W' hlater s hs
  obtain ⟨hinv', hraised, later, hreviews⟩ := ArgusWorld.run_kept hlater hinv
  obtain ⟨s', hs', hsame, hseverity, hconfidence⟩ := hraised s hs
  refine ⟨s', hs', hsame, hseverity, hconfidence, ?_⟩
  by_cases hreview : ∃ r ∈ later, r.signalId = s.id
  · exact .inr ⟨later, hreviews, hreview⟩
  · exact .inl (ArgusWorld.status_of_no_review hinv hinv' hreviews hs hs' hsame.1 hreview)

/-! ## One signal, detected and confirmed -/

namespace ArgusWorld

/-- A world with no open transaction. -/
def idle (nextId : Uuid) (signals : List ArgusSignal) (reviews succeeded : List ArgusSignalReview) :
    ArgusWorld :=
  ⟨nextId, signals, reviews, succeeded, fun _ => none⟩

theorem freeFor_alone {nextId : Uuid} {signals : List ArgusSignal}
    {reviews succeeded : List ArgusSignalReview} (tx : ArgusTx) (key : String) :
    FreeFor ⟨nextId, signals, reviews, succeeded, Slots.put (fun _ => none) 0 tx⟩ 0 key := by
  intro t' tx' hne htx
  have hput : Slots.put (fun _ => none) 0 tx t' = some tx' := htx
  rcases Slots.put_some hput with ⟨heq, -⟩ | ⟨-, hnone⟩
  · exact absurd heq hne
  · cases hnone

/-- A detection pass that raises one signal, with nobody else there. -/
theorem detection_alone (n : Uuid) (signals : List ArgusSignal)
    (reviews succeeded : List ArgusSignalReview) (signal : ArgusSignal) (hid : signal.id = n) :
    Relation.ReflTransGen Step (idle n signals reviews succeeded)
      (idle (n + 1) (upsertSignal signals signal) reviews succeeded) := by
  have hbegun : Step (idle n signals reviews succeeded)
      ⟨n, signals, reviews, succeeded, Slots.put (fun _ => none) 0 (.detection [])⟩ := .detect rfl
  have hraised : Step ⟨n, signals, reviews, succeeded, Slots.put (fun _ => none) 0 (.detection [])⟩
      ⟨n + 1, signals, reviews, succeeded,
        Slots.put (Slots.put (fun _ => none) 0 (.detection [])) 0 (.detection ([] ++ [signal]))⟩ :=
    .upsert rfl hid (freeFor_alone _ _)
  rw [Slots.put_put] at hraised
  have hcommitted : Step ⟨n + 1, signals, reviews, succeeded,
        Slots.put (fun _ => none) 0 (.detection [signal])⟩
      ⟨n + 1, [signal].foldl upsertSignal signals, reviews, succeeded,
        Slots.clear (Slots.put (fun _ => none) 0 (.detection [signal])) 0⟩ :=
    .commitDetection rfl
  rw [Slots.clear_put, Slots.clear_of_none rfl] at hcommitted
  exact ((Relation.ReflTransGen.single hbegun).tail hraised).tail hcommitted

/-- A review that finds its signal at the expected version, with nobody else there. -/
theorem review_alone (n : Uuid) (signals : List ArgusSignal)
    (reviews succeeded : List ArgusSignalReview) (input : ReviewArgusSignalInput) (signal : ArgusSignal)
    (hfound : signals.find? (fun s => s.id = input.signalId) = some signal)
    (hversion : (signal.version : Int) = input.expectedVersion) :
    Relation.ReflTransGen Step (idle n signals reviews succeeded)
      (idle (n + 1)
        (updateWithVersionCheck signals signal.id input.expectedVersion input.decision)
        (reviews ++ [reviewRow input signal n]) (succeeded ++ [reviewRow input signal n])) := by
  have hmatches : signal.matchesVersion signal.id input.expectedVersion = true :=
    decide_eq_true ⟨rfl, hversion⟩
  have hany : signals.any (ArgusSignal.matchesVersion (reviewRow input signal n).signalId
      input.expectedVersion) = true :=
    List.any_eq_true.mpr ⟨signal, List.mem_of_find?_eq_some hfound, hmatches⟩
  have hloaded : Step (idle n signals reviews succeeded)
      ⟨n, signals, reviews, succeeded, Slots.put (fun _ => none) 0 (.loaded input signal)⟩ :=
    .load rfl hfound hversion
  have hinserted : Step
      ⟨n, signals, reviews, succeeded, Slots.put (fun _ => none) 0 (.loaded input signal)⟩
      ⟨n + 1, signals, reviews, succeeded,
        Slots.put (Slots.put (fun _ => none) 0 (.loaded input signal)) 0
          (.inserted input (reviewRow input signal n))⟩ := .insertReview rfl
  rw [Slots.put_put] at hinserted
  have hupdated : Step
      ⟨n + 1, signals, reviews, succeeded,
        Slots.put (fun _ => none) 0 (.inserted input (reviewRow input signal n))⟩
      ⟨n + 1, signals, reviews, succeeded,
        Slots.put (Slots.put (fun _ => none) 0 (.inserted input (reviewRow input signal n))) 0
          (.updated input (reviewRow input signal n) signal.dedupeKey)⟩ :=
    .update rfl (List.mem_of_find?_eq_some hfound) hmatches (freeFor_alone _ _)
  rw [Slots.put_put] at hupdated
  have hcommitted : Step
      ⟨n + 1, signals, reviews, succeeded,
        Slots.put (fun _ => none) 0 (.updated input (reviewRow input signal n) signal.dedupeKey)⟩
      ⟨n + 1, updateWithVersionCheck signals (reviewRow input signal n).signalId input.expectedVersion
          input.decision,
        reviews ++ [reviewRow input signal n],
        succeeded ++ (if signals.any (ArgusSignal.matchesVersion (reviewRow input signal n).signalId
            input.expectedVersion) then [reviewRow input signal n] else []),
        Slots.clear (Slots.put (fun _ => none) 0
          (.updated input (reviewRow input signal n) signal.dedupeKey)) 0⟩ :=
    .commitReview rfl
  rw [Slots.clear_put, Slots.clear_of_none rfl, if_pos hany] at hcommitted
  exact (((Relation.ReflTransGen.single hloaded).tail hinserted).tail hupdated).tail hcommitted

end ArgusWorld

def sequenceConflict : ArgusSignal :=
  ⟨0, .timelineSequenceConflict, .open, .medium, 1 / 2, "Timeline sequence conflict detected",
    "chronos", "ARGUS::TIMELINE_SEQUENCE_CONFLICT::chronos::9", 1, 0, 0⟩

/-- The signal is detected, confirmed, and detected again. -/
theorem confirmed_signal_consistent : ∃ W : ArgusWorld,
    (∃ s ∈ W.signals, s.status = .confirmed ∧ s.version = 2) ∧ W.Consistent := by
  have hdetected := ArgusWorld.detection_alone 0 [] [] [] sequenceConflict rfl
  have hconfirmed := ArgusWorld.review_alone 1 (upsertSignal [] sequenceConflict) [] []
    ⟨0, .confirmed, 1, some 7, none⟩ sequenceConflict rfl rfl
  have hagain := ArgusWorld.detection_alone 2
    (updateWithVersionCheck (upsertSignal [] sequenceConflict) 0 1 .confirmed)
    [⟨1, 0, .confirmed, some 7, none⟩] [⟨1, 0, .confirmed, some 7, none⟩]
    { sequenceConflict with id := 2, severity := .high } rfl
  refine ⟨_, ?_, (argus_reviews_and_detections ((hdetected.trans hconfirmed).trans hagain)).1⟩
  exact ⟨{ sequenceConflict with status := .confirmed, version := 2, severity := .high },
    by decide +kernel, rfl, rfl⟩

end Atlas
