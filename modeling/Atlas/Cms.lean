import Atlas.Lib.Rows
import Atlas.Lib.Runs
import Atlas.Publication

/-!
# CMS content

Glossary terms, methodology pages and changelog entries share the workflow of
the public event pages.  A `CmsContentSlot` is what the shared machinery needs of
a content kind: where its workflow columns are, its unique key, how a row is
created and how an update changes it.
-/

namespace Atlas

open Outcome Rows

/-- The columns every content kind has. -/
structure CmsContent where
  id : Uuid
  bodyMarkdown : String
  status : PublicationStatus := .draft
  version : Nat := 1
  firstPublishedAt : Option Time := none
  lastPublishedAt : Option Time := none
  retractionNote : Option String := none
  createdAt : Time
  updatedAt : Time
deriving DecidableEq, Repr

structure GlossaryTerm extends CmsContent where
  term : String
  displayTerm : String
deriving DecidableEq, Repr

structure MethodologyPage extends CmsContent where
  slug : String
  title : String
  sectionName : String
  sectionOrder : Int
deriving DecidableEq, Repr

/-- A changelog entry; `effectiveDate` counts days. -/
structure ChangelogEntry extends CmsContent where
  slug : String
  title : String
  effectiveDate : Int
deriving DecidableEq, Repr

/-- The audit row of a creation or a transition. -/
structure CmsRevision where
  entityId : Uuid
  fromStatus : Option PublicationStatus
  toStatus : PublicationStatus
  versionAtRevision : Nat
  editorUserId : Uuid
  transitionReason : Option String
  correctionNote : Option String
deriving DecidableEq, Repr

structure TransitionInput where
  entityId : Uuid
  expectedVersion : Int
  editorUserId : Uuid
  transitionReason : Option String := none
  retractionNote : Option String := none
deriving DecidableEq, Repr

/-- The `_apply_status_mutation` of `_CmsTransition` and its two mixins.  Unlike
the pages, content keeps its retraction note as given and no retraction time. -/
def Transition.applyCmsMutation (t : Transition) (input : TransitionInput) (now : Time)
    (content : CmsContent) : CmsContent :=
  let moved :=
    { content with status := t.target, version := content.version + 1, updatedAt := now }
  match t with
  | .publish =>
      { moved with
        lastPublishedAt := some now
        firstPublishedAt := some (content.firstPublishedAt.getD now) }
  | .retract => { moved with retractionNote := input.retractionNote }
  | _ => moved

/-! ## Content kinds -/

/-- `_CmsContentSlot`, with the creation and the update of the kind. -/
structure CmsContentSlot (Row Create Update : Type) where
  kindName : String
  content : Row → CmsContent
  setContent : Row → CmsContent → Row
  /-- the unique column and the index that enforces it -/
  key : Row → String
  keyIndex : String
  /-- the entity a creation builds, checked by the entity's own field limits -/
  new : Create → Uuid → Time → Except EditorialError Row
  creator : Create → Uuid
  target : Update → Uuid
  expectedVersion : Update → Int
  edit : Update → Time → Row → Row
  content_setContent : ∀ row c, content (setContent row c) = c
  content_new : ∀ {input id now row}, new input id now = .ok row →
    (content row).id = id ∧ (content row).status = .draft
  content_edit : ∀ input now row, (content (edit input now row)).id = (content row).id ∧
    (content (edit input now row)).status = (content row).status ∧
    (content (edit input now row)).version = (content row).version + 1

/-- A text column with `min_length` one and a `max_length`. -/
def requireLength (field text : String) (maxLength : Nat) : Except EditorialError Unit :=
  require (1 ≤ text.length ∧ text.length ≤ maxLength) (.validation field)

structure CreateGlossaryTermInput where
  term : String
  displayTerm : String
  bodyMarkdown : String
  editorUserId : Uuid
deriving DecidableEq, Repr

structure UpdateGlossaryTermInput where
  termId : Uuid
  expectedVersion : Int
  displayTerm : String
  bodyMarkdown : String
  editorUserId : Uuid
deriving DecidableEq, Repr

structure CreateMethodologyPageInput where
  slug : String
  title : String
  sectionName : String
  sectionOrder : Int
  bodyMarkdown : String
  editorUserId : Uuid
deriving DecidableEq, Repr

structure UpdateMethodologyPageInput where
  pageId : Uuid
  expectedVersion : Int
  title : String
  sectionName : String
  sectionOrder : Int
  bodyMarkdown : String
  editorUserId : Uuid
deriving DecidableEq, Repr

structure CreateChangelogEntryInput where
  slug : String
  title : String
  effectiveDate : Int
  bodyMarkdown : String
  editorUserId : Uuid
deriving DecidableEq, Repr

structure UpdateChangelogEntryInput where
  entryId : Uuid
  expectedVersion : Int
  title : String
  effectiveDate : Int
  bodyMarkdown : String
  editorUserId : Uuid
deriving DecidableEq, Repr

/-- `CreateGlossaryTerm` and `UpdateGlossaryTerm`.  None of the three updates
looks at the status. -/
def glossarySlot : CmsContentSlot GlossaryTerm CreateGlossaryTermInput UpdateGlossaryTermInput where
  kindName := "glossary_term"
  content := GlossaryTerm.toCmsContent
  setContent row c := { row with toCmsContent := c }
  key := GlossaryTerm.term
  keyIndex := "uq_glossary_terms_term"
  new input id now := do
    requireLength "term" input.term 120
    requireLength "display_term" input.displayTerm 200
    pure { id := id, bodyMarkdown := input.bodyMarkdown, createdAt := now, updatedAt := now,
           term := input.term, displayTerm := input.displayTerm }
  creator := CreateGlossaryTermInput.editorUserId
  target := UpdateGlossaryTermInput.termId
  expectedVersion := UpdateGlossaryTermInput.expectedVersion
  edit input now row :=
    { row with
      displayTerm := input.displayTerm
      bodyMarkdown := input.bodyMarkdown
      version := row.version + 1
      updatedAt := now }
  content_setContent _ _ := rfl
  content_new h := by
    simp only [bind_ok, pure_ok] at h
    obtain ⟨_, _, _, _, rfl⟩ := h
    exact ⟨rfl, rfl⟩
  content_edit _ _ _ := ⟨rfl, rfl, rfl⟩

/-- `CreateMethodologyPage` and `UpdateMethodologyPage`. -/
def methodologySlot :
    CmsContentSlot MethodologyPage CreateMethodologyPageInput UpdateMethodologyPageInput where
  kindName := "methodology_page"
  content := MethodologyPage.toCmsContent
  setContent row c := { row with toCmsContent := c }
  key := MethodologyPage.slug
  keyIndex := "uq_methodology_pages_slug"
  new input id now := do
    requireLength "slug" input.slug 160
    requireLength "title" input.title 300
    requireLength "section" input.sectionName 100
    require (0 ≤ input.sectionOrder) (.validation "section_order")
    pure { id := id, bodyMarkdown := input.bodyMarkdown, createdAt := now, updatedAt := now,
           slug := input.slug, title := input.title, sectionName := input.sectionName,
           sectionOrder := input.sectionOrder }
  creator := CreateMethodologyPageInput.editorUserId
  target := UpdateMethodologyPageInput.pageId
  expectedVersion := UpdateMethodologyPageInput.expectedVersion
  edit input now row :=
    { row with
      title := input.title
      sectionName := input.sectionName
      sectionOrder := input.sectionOrder
      bodyMarkdown := input.bodyMarkdown
      version := row.version + 1
      updatedAt := now }
  content_setContent _ _ := rfl
  content_new h := by
    simp only [bind_ok, pure_ok] at h
    obtain ⟨_, _, _, _, _, _, _, _, rfl⟩ := h
    exact ⟨rfl, rfl⟩
  content_edit _ _ _ := ⟨rfl, rfl, rfl⟩

/-- `CreateChangelogEntry` and `UpdateChangelogEntry`. -/
def changelogSlot :
    CmsContentSlot ChangelogEntry CreateChangelogEntryInput UpdateChangelogEntryInput where
  kindName := "changelog_entry"
  content := ChangelogEntry.toCmsContent
  setContent row c := { row with toCmsContent := c }
  key := ChangelogEntry.slug
  keyIndex := "uq_changelog_entries_slug"
  new input id now := do
    requireLength "slug" input.slug 160
    requireLength "title" input.title 300
    pure { id := id, bodyMarkdown := input.bodyMarkdown, createdAt := now, updatedAt := now,
           slug := input.slug, title := input.title, effectiveDate := input.effectiveDate }
  creator := CreateChangelogEntryInput.editorUserId
  target := UpdateChangelogEntryInput.entryId
  expectedVersion := UpdateChangelogEntryInput.expectedVersion
  edit input now row :=
    { row with
      title := input.title
      effectiveDate := input.effectiveDate
      bodyMarkdown := input.bodyMarkdown
      version := row.version + 1
      updatedAt := now }
  content_setContent _ _ := rfl
  content_new h := by
    simp only [bind_ok, pure_ok] at h
    obtain ⟨_, _, _, _, rfl⟩ := h
    exact ⟨rfl, rfl⟩
  content_edit _ _ _ := ⟨rfl, rfl, rfl⟩

/-- The three content kinds. -/
inductive CmsKind where
  | glossaryTerm
  | methodologyPage
  | changelogEntry
deriving DecidableEq, Repr

namespace CmsKind

abbrev Row : CmsKind → Type
  | glossaryTerm => GlossaryTerm
  | methodologyPage => MethodologyPage
  | changelogEntry => ChangelogEntry

abbrev Create : CmsKind → Type
  | glossaryTerm => CreateGlossaryTermInput
  | methodologyPage => CreateMethodologyPageInput
  | changelogEntry => CreateChangelogEntryInput

abbrev Update : CmsKind → Type
  | glossaryTerm => UpdateGlossaryTermInput
  | methodologyPage => UpdateMethodologyPageInput
  | changelogEntry => UpdateChangelogEntryInput

def slot : (k : CmsKind) → CmsContentSlot k.Row k.Create k.Update
  | glossaryTerm => glossarySlot
  | methodologyPage => methodologySlot
  | changelogEntry => changelogSlot

end CmsKind

/-! ## Requests and the table -/

/-- A request that changes existing content, with the time it reads. -/
inductive CmsRequest (Update : Type) where
  | update (input : Update) (now : Time)
  | transition (t : Transition) (input : TransitionInput) (now : Time)
deriving DecidableEq, Repr

section

variable {Row Create Update : Type} (slot : CmsContentSlot Row Create Update)

namespace CmsRequest

def entityId : CmsRequest Update → Uuid
  | update input _ => slot.target input
  | transition _ input _ => input.entityId

def expectedVersion : CmsRequest Update → Int
  | update input _ => slot.expectedVersion input
  | transition _ input _ => input.expectedVersion

/-- The row the request wants to store. -/
def edit : CmsRequest Update → Row → Except EditorialError Row
  | update input now, row => pure (slot.edit input now row)
  | transition t input now, row => do
      validateTransition (slot.content row).status t.target
      pure (slot.setContent row (t.applyCmsMutation input now (slot.content row)))

/-- The revision the request writes: transitions only. -/
def revision : CmsRequest Update → (old new : Row) → List CmsRevision
  | update _ _, _, _ => []
  | transition t input _, old, new =>
      [{ entityId := (slot.content new).id
         fromStatus := some (slot.content old).status
         toStatus := t.target
         versionAtRevision := (slot.content new).version
         editorUserId := input.editorUserId
         transitionReason := input.transitionReason
         correctionNote := if t.target = .retracted then input.retractionNote else none }]

end CmsRequest

/-- The table of one content kind with its revisions. -/
structure CmsTable (Row : Type) where
  nextId : Nat
  rows : List Row
  revisions : List CmsRevision
deriving Repr

def CmsTable.empty : CmsTable Row := ⟨0, [], []⟩

namespace CmsTable

/-- `get`. -/
def get (s : CmsTable Row) (id : Uuid) : Option Row := lookup (fun row => (slot.content row).id) id s.rows

/-- `update`: `WHERE id = … AND version = expected`. -/
def update (s : CmsTable Row) (new : Row) (expectedVersion : Int) :
    Except EditorialError (CmsTable Row) :=
  match s.get slot (slot.content new).id with
  | some current =>
      if ((slot.content current).version : Int) = expectedVersion then
        .ok { s with rows := updateWhere (fun row => (slot.content row).id = (slot.content new).id)
                              (fun _ => new) s.rows }
      else .error (.contentModified (slot.content new).id expectedVersion (slot.content current).version)
  | none => .error (.contentModified (slot.content new).id expectedVersion (-1))

/-- `Create*.execute`. -/
def create (s : CmsTable Row) (input : Create) (now : Time) : Except EditorialError (CmsTable Row) := do
  let row ← slot.new input s.nextId now
  require (∀ x ∈ s.rows, slot.key x ≠ slot.key row) (.integrity slot.keyIndex)
  pure { nextId := s.nextId + 1
         rows := s.rows ++ [row]
         revisions := s.revisions ++
           [{ entityId := (slot.content row).id
              fromStatus := none
              toStatus := (slot.content row).status
              versionAtRevision := (slot.content row).version
              editorUserId := slot.creator input
              transitionReason := some "created"
              correctionNote := none }] }

/-- `Update*.execute` and `_CmsTransition.execute`. -/
def change (s : CmsTable Row) (req : CmsRequest Update) : Except EditorialError (CmsTable Row) := do
  let existing ← fromOption (s.get slot (req.entityId slot)) (.contentNotFound (req.entityId slot))
  let updated ← req.edit slot existing
  let s ← s.update slot updated (req.expectedVersion slot)
  pure { s with revisions := s.revisions ++ req.revision slot existing updated }

end CmsTable

/-! ## What the requests do -/

variable {slot}

namespace Transition

variable (t : Transition) (input : TransitionInput) (now : Time) (content : CmsContent)

@[simp] theorem applyCmsMutation_id : (t.applyCmsMutation input now content).id = content.id := by
  cases t <;> rfl

@[simp] theorem applyCmsMutation_bodyMarkdown :
    (t.applyCmsMutation input now content).bodyMarkdown = content.bodyMarkdown := by
  cases t <;> rfl

@[simp] theorem applyCmsMutation_status :
    (t.applyCmsMutation input now content).status = t.target := by
  cases t <;> rfl

@[simp] theorem applyCmsMutation_version :
    (t.applyCmsMutation input now content).version = content.version + 1 := by
  cases t <;> rfl

end Transition

/-- What the row a request wants to store looks like. -/
theorem CmsRequest.edit_ok {req : CmsRequest Update} {old new : Row} (h : req.edit slot old = .ok new) :
    (∃ input now, req = .update input now ∧ new = slot.edit input now old) ∨
    (∃ t input now, req = .transition t input now ∧
      t.target ∈ allowedTransitions (slot.content old).status ∧
      slot.content new = t.applyCmsMutation input now (slot.content old)) := by
  cases req with
  | update input now =>
      simp only [CmsRequest.edit, pure_ok] at h
      exact .inl ⟨input, now, rfl, h.symm⟩
  | transition t input now =>
      simp only [CmsRequest.edit, validateTransition, bind_ok, pure_ok, require_ok, isAllowed_iff] at h
      obtain ⟨_, hallowed, rfl⟩ := h
      exact .inr ⟨t, input, now, rfl, hallowed, slot.content_setContent _ _⟩

/-- A request keeps the identifier and goes one version up. -/
theorem CmsRequest.content_edit {req : CmsRequest Update} {old new : Row}
    (h : req.edit slot old = .ok new) :
    (slot.content new).id = (slot.content old).id ∧
      (slot.content new).version = (slot.content old).version + 1 := by
  rcases req.edit_ok h with ⟨input, now, _, rfl⟩ | ⟨t, input, now, _, _, hnew⟩
  · exact ⟨(slot.content_edit input now old).1, (slot.content_edit input now old).2.2⟩
  · rw [hnew]
    exact ⟨t.applyCmsMutation_id input now _, t.applyCmsMutation_version input now _⟩

namespace CmsTable

variable {s s' : CmsTable Row}

/-- A committed creation adds one draft. -/
theorem create_ok {input : Create} {now : Time} (h : s.create slot input now = .ok s') :
    ∃ row, (slot.content row).id = s.nextId ∧ (slot.content row).status = .draft ∧
      s'.rows = s.rows ++ [row] ∧ s'.nextId = s.nextId + 1 := by
  simp only [create, bind_ok, pure_ok, require_ok] at h
  obtain ⟨row, hnew, _, _, rfl⟩ := h
  obtain ⟨hid, hstatus⟩ := slot.content_new hnew
  exact ⟨row, hid, hstatus, rfl, rfl⟩

/-- A committed request replaced the row it loaded by its edit, under the
version check. -/
theorem change_ok {req : CmsRequest Update} (h : s.change slot req = .ok s') :
    ∃ old new, s.get slot (req.entityId slot) = some old ∧ req.edit slot old = .ok new ∧
      ((slot.content old).version : Int) = req.expectedVersion slot ∧
      s'.rows = updateWhere (fun row => (slot.content row).id = (slot.content old).id)
        (fun _ => new) s.rows ∧ s'.nextId = s.nextId := by
  simp only [change, bind_ok, pure_ok, fromOption_ok] at h
  obtain ⟨old, hold, new, hnew, s₁, hupdate, rfl⟩ := h
  have hid := (req.content_edit hnew).1
  have hget : s.get slot (slot.content new).id = some old := by
    rw [hid, (lookup_some hold).2]
    exact hold
  simp only [update, hget] at hupdate
  split at hupdate
  · rename_i hv
    cases hupdate
    rw [hid]
    exact ⟨old, new, hold, hnew, hv, rfl, rfl⟩
  · cases hupdate

end CmsTable

end

end Atlas
