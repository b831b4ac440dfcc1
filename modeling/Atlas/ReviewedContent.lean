import Atlas.Cms

/-!
# Published content and its review

A content row reaches PUBLISHED through APPROVED, so that what readers see has
been looked at.  The text, however, is changed by update requests, which are
accepted in every status.  The run below keeps, beside the table, the body every
row had when it was last approved; as long as no update changes the body of a
row that is APPROVED, PUBLISHED or ARCHIVED, published rows show that body.
-/

namespace Atlas

open Outcome Rows

variable {Row Create Update : Type}

/-- A creation, an update or a transition. -/
inductive CmsOp (Create Update : Type) where
  | create (input : Create) (now : Time)
  | change (req : CmsRequest Update)
deriving DecidableEq, Repr

/-- The table, with the body of each row at its last transition to APPROVED. -/
structure ReviewedTable (Row : Type) where
  table : CmsTable Row
  approvedBody : Uuid → Option String

namespace ReviewedTable

def empty : ReviewedTable Row := ⟨CmsTable.empty, fun _ => none⟩

variable (slot : CmsContentSlot Row Create Update)

/-- What an operation makes of the table; an exception rolls back. -/
def execute (table : CmsTable Row) : CmsOp Create Update → Except EditorialError (CmsTable Row)
  | .create input now => table.create slot input now
  | .change req => table.change slot req

/-- The record after a committed operation on the table given. -/
def recordApproval (table : CmsTable Row) (approved : Uuid → Option String) :
    CmsOp Create Update → Uuid → Option String
  | .change (.transition t input _) =>
      if t.target = .approved then
        Function.update approved input.entityId
          ((table.get slot input.entityId).map fun row => (slot.content row).bodyMarkdown)
      else approved
  | _ => approved

def step (s : ReviewedTable Row) (op : CmsOp Create Update) : ReviewedTable Row :=
  match execute slot s.table op with
  | .ok table => ⟨table, recordApproval slot table s.approvedBody op⟩
  | .error _ => s

/-- Every published row shows the body it had when it was last approved. -/
def PublishedAsApproved (s : ReviewedTable Row) : Prop :=
  ∀ row ∈ s.table.rows, (slot.content row).status = .published →
    s.approvedBody (slot.content row).id = some (slot.content row).bodyMarkdown

/-- The statuses a row can have between an approval and the next draft. -/
def pastReview : PublicationStatus → Bool
  | .approved => true
  | .published => true
  | .archived => true
  | _ => false

/-- If the operation is an update whose version is current, of a row that is
APPROVED, PUBLISHED or ARCHIVED, then it leaves the body as it is. -/
def KeepsReviewedBody (s : ReviewedTable Row) : CmsOp Create Update → Prop
  | .change (.update input now) => ∀ row, s.table.get slot (slot.target input) = some row →
      ((slot.content row).version : Int) = slot.expectedVersion input →
      pastReview (slot.content row).status = true →
      (slot.content (slot.edit input now row)).bodyMarkdown = (slot.content row).bodyMarkdown
  | _ => True

/-- The invariant: identifiers are distinct and below the next one, and a row
past its review has the body that was approved. -/
structure Reviewed (s : ReviewedTable Row) : Prop where
  unique : Unique (fun row => (slot.content row).id) s.table.rows
  fresh : ∀ row ∈ s.table.rows, (slot.content row).id < s.table.nextId
  approved : ∀ row ∈ s.table.rows, pastReview (slot.content row).status = true →
    s.approvedBody (slot.content row).id = some (slot.content row).bodyMarkdown

variable {slot} {s : ReviewedTable Row}

theorem reviewed_empty : Reviewed slot (empty : ReviewedTable Row) :=
  ⟨unique_nil _, fun _ h => (List.not_mem_nil h).elim, fun _ h => (List.not_mem_nil h).elim⟩

theorem Reviewed.publishedAsApproved (h : Reviewed slot s) : PublishedAsApproved slot s := by
  intro row hrow hstatus
  refine h.approved row hrow ?_
  rw [hstatus]
  rfl

/-- The rows after a committed change. -/
theorem mem_replaced {rows : List Row} {old new row : Row}
    (hrow : row ∈ updateWhere (fun row => (slot.content row).id = (slot.content old).id)
      (fun _ => new) rows) :
    row = new ∨ row ∈ rows ∧ (slot.content row).id ≠ (slot.content old).id := by
  obtain ⟨r, hr, heq⟩ := mem_updateWhere.mp hrow
  split at heq
  · exact .inl heq.symm
  · rename_i hid
    rw [← heq]
    exact .inr ⟨hr, by simpa using hid⟩

/-- Creating a draft keeps the invariant. -/
theorem Reviewed.create (h : Reviewed slot s) {input : Create} {now : Time} {table : CmsTable Row}
    (hok : s.table.create slot input now = .ok table) :
    Reviewed slot ⟨table, s.approvedBody⟩ := by
  obtain ⟨row, hid, hstatus, hrows, hnext⟩ := CmsTable.create_ok hok
  refine ⟨?_, ?_, ?_⟩
  · show Unique _ table.rows
    rw [hrows]
    refine h.unique.append_single ?_
    intro x hx
    have hlt := h.fresh x hx
    rw [hid]
    exact Nat.ne_of_lt hlt
  · intro x hx
    show _ < table.nextId
    rw [hnext]
    rcases List.mem_append.mp (hrows ▸ hx) with hold | hnew
    · exact Nat.lt_succ_of_lt (h.fresh x hold)
    · rw [List.mem_singleton.mp hnew, hid]
      exact Nat.lt_succ_self _
  · intro x hx hpast
    rcases List.mem_append.mp (hrows ▸ hx) with hold | hnew
    · exact h.approved x hold hpast
    · rw [List.mem_singleton.mp hnew, hstatus] at hpast
      cases hpast

/-- The row that a change loaded, as a row of the table. -/
theorem get_some {table : CmsTable Row} {id : Uuid} {row : Row} (h : table.get slot id = some row) :
    row ∈ table.rows ∧ (slot.content row).id = id :=
  lookup_some h

/-- A change keeps the invariant if the row it stores is, when past its review,
recorded with its body, and the records of the other rows stay. -/
theorem Reviewed.replace (h : Reviewed slot s) {old new : Row} {table : CmsTable Row}
    {approved : Uuid → Option String} (hold : old ∈ s.table.rows)
    (hid : (slot.content new).id = (slot.content old).id)
    (hrows : table.rows = updateWhere (fun row => (slot.content row).id = (slot.content old).id)
      (fun _ => new) s.table.rows)
    (hnext : table.nextId = s.table.nextId)
    (hothers : ∀ id, id ≠ (slot.content old).id → approved id = s.approvedBody id)
    (hnew : pastReview (slot.content new).status = true →
      approved (slot.content old).id = some (slot.content new).bodyMarkdown) :
    Reviewed slot ⟨table, approved⟩ := by
  refine ⟨?_, ?_, ?_⟩
  · show Unique _ table.rows
    rw [hrows, ← hid]
    exact Unique.replace h.unique new
  · intro x hx
    show _ < table.nextId
    rw [hnext]
    rcases mem_replaced (hrows ▸ hx) with rfl | ⟨hmem, _⟩
    · rw [hid]
      exact h.fresh old hold
    · exact h.fresh x hmem
  · intro x hx hpast
    show approved _ = _
    rcases mem_replaced (hrows ▸ hx) with rfl | ⟨hmem, hne⟩
    · rw [hid]
      exact hnew hpast
    · rw [hothers _ hne]
      exact h.approved x hmem hpast

/-- A transition into a status past the review, other than an approval, starts
from such a status. -/
theorem pastReview_of_transition {t : Transition} {status : PublicationStatus}
    (hallowed : t.target ∈ allowedTransitions status) (hpast : pastReview t.target = true)
    (happroved : t.target ≠ .approved) : pastReview status = true := by
  cases t <;> cases status <;> simp_all [Transition.target, allowedTransitions, pastReview]

/-- A committed change keeps the invariant when it leaves reviewed bodies
alone. -/
theorem Reviewed.change (h : Reviewed slot s) {req : CmsRequest Update} {table : CmsTable Row}
    (hok : s.table.change slot req = .ok table) (hkeeps : KeepsReviewedBody slot s (.change req)) :
    Reviewed slot ⟨table, recordApproval slot table s.approvedBody (.change req)⟩ := by
  obtain ⟨old, new, hget, hedit, hversion, hrows, hnext⟩ := CmsTable.change_ok hok
  obtain ⟨hold, hentity⟩ := get_some hget
  have hid := (req.content_edit hedit).1
  rcases req.edit_ok hedit with ⟨input, now, rfl, rfl⟩ | ⟨t, input, now, rfl, hallowed, hnew⟩
  · refine h.replace hold hid hrows hnext (fun _ _ => rfl) ?_
    intro hpast
    rw [(slot.content_edit input now old).2.1] at hpast
    rw [hkeeps old hget hversion hpast]
    exact h.approved old hold hpast
  · have hentity : (slot.content old).id = input.entityId := hentity
    by_cases happroved : t.target = .approved
    · have hfound : table.get slot input.entityId = some new := by
        rw [← hentity, CmsTable.get, hrows, ← hid]
        exact lookup_replace_self ⟨old, hold, hid.symm⟩
      simp only [recordApproval, if_pos happroved, hfound, Option.map_some]
      refine h.replace hold hid hrows hnext ?_ ?_
      · intro id hne
        exact Function.update_of_ne (hentity ▸ hne) _ _
      · intro _
        rw [hentity, Function.update_self]
    · simp only [recordApproval, if_neg happroved]
      refine h.replace hold hid hrows hnext (fun _ _ => rfl) ?_
      intro hpast
      rw [hnew, Transition.applyCmsMutation_status] at hpast
      rw [hnew, Transition.applyCmsMutation_bodyMarkdown]
      exact h.approved old hold (pastReview_of_transition hallowed hpast happroved)

theorem Reviewed.step (h : Reviewed slot s) {op : CmsOp Create Update}
    (hkeeps : KeepsReviewedBody slot s op) : Reviewed slot (s.step slot op) := by
  cases hok : execute slot s.table op with
  | error e => simpa only [ReviewedTable.step, hok] using h
  | ok table =>
      simp only [ReviewedTable.step, hok]
      cases op with
      | create input now => exact h.create hok
      | change req => exact h.change hok hkeeps

end ReviewedTable

open ReviewedTable

/-- **Published content was reviewed.**  In every run of creations, updates and
transitions on one content kind in which no update changes the body of a row
that is APPROVED, PUBLISHED or ARCHIVED, every published row has, in every state,
the body of its last approval. -/
theorem published_content_was_reviewed (kind : CmsKind) (ops : List (CmsOp kind.Create kind.Update))
    (hkeeps : Runs.EveryStep (step kind.slot) (KeepsReviewedBody kind.slot) empty ops) :
    Runs.EveryState (step kind.slot) (PublishedAsApproved kind.slot) empty ops := by
  have hreviewed : Runs.EveryState (step kind.slot) (Reviewed kind.slot) empty ops :=
    Runs.everyState_of_everyStep (fun _ _ hs hop => hs.step hop) reviewed_empty hkeeps
  exact hreviewed.imp fun _ hs => hs.publishedAsApproved

/-- A term is drafted, reworded, reviewed and published. -/
def publishTerm : List (CmsOp CreateGlossaryTermInput UpdateGlossaryTermInput) :=
  [.create ⟨"tier", "Tier", "One to four.", 7⟩ 0,
   .change (.update ⟨0, 1, "Tier", "One to five.", 7⟩ 1),
   .change (.transition .submit ⟨0, 2, 7, none, none⟩ 2),
   .change (.transition .approve ⟨0, 3, 8, none, none⟩ 3),
   .change (.transition .publish ⟨0, 4, 8, none, none⟩ 4)]

/-- The term of `publishTerm` is published with the body that was approved. -/
theorem publishTerm_was_reviewed :
    Runs.EveryState (step glossarySlot) (PublishedAsApproved glossarySlot) empty publishTerm := by
  refine published_content_was_reviewed .glossaryTerm publishTerm ?_
  simp only [publishTerm, Runs.EveryStep.cons]
  refine ⟨trivial, ?_, trivial, trivial, trivial, ?_⟩
  · -- the update finds a draft
    intro row hrow _ hpast
    have hdraft : ∀ row ∈ (Runs.run (step glossarySlot) empty (publishTerm.take 1)).table.rows,
        pastReview row.status = false := by
      decide +kernel
    have hnot : pastReview row.status = false := hdraft row (get_some hrow).1
    have hpast : pastReview row.status = true := hpast
    simp [hnot] at hpast
  · intro pre op post heq
    simp at heq

/-- Once published, the term is reworded without a review. -/
theorem published_term_reworded :
    ¬ Runs.EveryState (step glossarySlot) (PublishedAsApproved glossarySlot) empty
      (publishTerm ++ [.change (.update ⟨0, 5, "Tier", "Any number.", 7⟩ 5)]) := by
  intro h
  have hlast := h _ (List.prefix_refl _)
  revert hlast
  simp only [PublishedAsApproved]
  decide +kernel

end Atlas
