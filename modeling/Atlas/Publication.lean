import Atlas.Entities
import Atlas.Lib.Outcome

/-!
# Public event pages and the editorial workflow

A public event page is editorial text on top of an accident event.  Its status
moves along one transition table, shared by the pages and by the CMS content;
its text is edited only in DRAFT.  The functions below compute the row a request
wants to store from the row it loaded; loading and storing are in the modules
that use them.
-/

namespace Atlas

open Outcome

inductive PublicationStatus where
  | draft
  | inReview
  | approved
  | published
  | archived
  | retracted
deriving DecidableEq, Repr

/-- The exceptions of the editorial use cases. -/
inductive EditorialError where
  | invalidSlug (message : String)
  | slugAlreadyTaken (slug : String)
  | pageAlreadyExists (eventId : Uuid)
  | pageNotFound (pageId : Uuid)
  | pageModified (expectedVersion : Int) (actualVersion : Nat)
  | invalidPublicationTransition (fromStatus toStatus : PublicationStatus)
  | editorialFieldLocked (fieldName : String)
  | contentNotFound (entityId : Uuid)
  | contentModified (entityId : Uuid) (expectedVersion actualVersion : Int)
  | integrity (index : String)
  | validation (field : String)
  | overflow
  | reindexCeiling
deriving DecidableEq, Repr

/-! ## The workflow -/

/-- `_ALLOWED_TRANSITIONS`. -/
def allowedTransitions : PublicationStatus → List PublicationStatus
  | .draft => [.inReview]
  | .inReview => [.approved, .draft]
  | .approved => [.published, .draft]
  | .published => [.archived, .retracted]
  | .archived => [.published, .draft]
  | .retracted => []

def isAllowed (fromStatus toStatus : PublicationStatus) : Bool :=
  toStatus ∈ allowedTransitions fromStatus

def validateTransition (fromStatus toStatus : PublicationStatus) : Except EditorialError Unit :=
  require (isAllowed fromStatus toStatus) (.invalidPublicationTransition fromStatus toStatus)

/-! ## Slugs -/

def maxSlugLength : Nat := 160

/-- `[a-z0-9]`. -/
def isSlugChar (c : Char) : Bool := ('a' ≤ c && c ≤ 'z') || ('0' ≤ c && c ≤ '9')

/-- Replace every maximal run of other characters by one hyphen; the flag says
that the run being read has its hyphen already. -/
def hyphenateRuns : Bool → List Char → List Char
  | _, [] => []
  | inRun, c :: cs =>
      if isSlugChar c then c :: hyphenateRuns false cs
      else if inRun then hyphenateRuns true cs
      else '-' :: hyphenateRuns true cs

/-- Replace every run of two or more hyphens by one. -/
def collapseHyphens : Bool → List Char → List Char
  | _, [] => []
  | inRun, c :: cs =>
      if c = '-' then if inRun then collapseHyphens true cs else c :: collapseHyphens true cs
      else c :: collapseHyphens false cs

/-- `str.rstrip("-")`. -/
def rstripHyphens (cs : List Char) : List Char := (cs.reverse.dropWhile (· = '-')).reverse

/-- `str.strip("-")`. -/
def stripHyphens (cs : List Char) : List Char := rstripHyphens (cs.dropWhile (· = '-'))

def normalizeSlug (raw : String) : Except EditorialError String :=
  let asciiOnly := raw.toList.filter fun c => c.toNat < 128
  let lowered := stripChars (asciiOnly.map Char.toLower)
  let collapsed := stripHyphens (collapseHyphens false (hyphenateRuns false lowered))
  if collapsed = [] then .error (.invalidSlug "slug normalization produced an empty value")
  else if maxSlugLength < collapsed.length then
    let truncated := rstripHyphens (collapsed.take maxSlugLength)
    if truncated = [] then .error (.invalidSlug "slug truncated to empty value")
    else .ok (String.ofList truncated)
  else .ok (String.ofList collapsed)

/-! ## Pages -/

structure PublicEventPage where
  id : Uuid
  eventId : Uuid
  slug : String
  title : String
  shortSummary : Option String
  narrativeMarkdown : Option String
  status : PublicationStatus
  version : Nat
  firstPublishedAt : Option Time
  lastPublishedAt : Option Time
  retractedAt : Option Time
  retractionNote : Option String
  createdAt : Time
  updatedAt : Time
deriving DecidableEq, Repr

/-- The immutable audit row of an edit or a transition. -/
structure PublicEventPageRevision where
  pageId : Uuid
  versionAtMoment : Nat
  fromStatus : Option PublicationStatus
  toStatus : PublicationStatus
  title : String
  shortSummary : Option String
  narrativeMarkdown : Option String
  editorUserId : Uuid
  transitionReason : Option String
  correctionNote : Option String
deriving DecidableEq, Repr

structure CreatePublicEventPageInput where
  eventId : Uuid
  slug : String
  title : String
  shortSummary : Option String := none
  narrativeMarkdown : Option String := none
  editorUserId : Uuid := 0
deriving DecidableEq, Repr

structure UpdatePublicEventPageInput where
  pageId : Uuid
  expectedVersion : Int
  editorUserId : Uuid
  title : Option String := none
  shortSummary : Option String := none
  narrativeMarkdown : Option String := none
  slug : Option String := none
  correctionNote : Option String := none
  transitionReason : Option String := none
deriving DecidableEq, Repr

structure TransitionPublicEventPageInput where
  pageId : Uuid
  expectedVersion : Int
  editorUserId : Uuid
  transitionReason : Option String := none
  retractionNote : Option String := none
deriving DecidableEq, Repr

/-- `_EDITORIAL_FIELDS`. -/
def editorialFields : List String := ["title", "short_summary", "narrative_markdown", "slug"]

/-- `_validate_editorial_kwargs`: refuse the first name, in order, that is not
an editorial field. -/
def validateEditorialKwargs (extras : List String) : Except EditorialError Unit :=
  match ((extras.filter (· ∉ editorialFields)).insertionSort (· ≤ ·)).head? with
  | some name => .error (.editorialFieldLocked name)
  | none => .ok ()

/-- The names of the fields an update sets. -/
def UpdatePublicEventPageInput.provided (input : UpdatePublicEventPageInput) : List String :=
  (if input.title.isSome then ["title"] else []) ++
  (if input.shortSummary.isSome then ["short_summary"] else []) ++
  (if input.narrativeMarkdown.isSome then ["narrative_markdown"] else []) ++
  (if input.slug.isSome then ["slug"] else [])

/-- A nullable text: absent leaves it, the empty text clears it. -/
def setNullable (given current : Option String) : Option String :=
  match given with
  | none => current
  | some "" => none
  | some text => some text

/-- The slug after an update. -/
def setSlug (given : Option String) (current : String) : Except EditorialError String :=
  match given with
  | some raw => normalizeSlug raw
  | none => pure current

/-- The body of `UpdatePublicEventPage.execute` between the load and the
write. -/
def UpdatePublicEventPageInput.edit (input : UpdatePublicEventPageInput) (now : Time)
    (page : PublicEventPage) : Except EditorialError PublicEventPage := do
  require (page.status = .draft) (.invalidPublicationTransition page.status .draft)
  let slug ← setSlug input.slug page.slug
  validateEditorialKwargs input.provided
  pure { page with
    title := input.title.getD page.title
    shortSummary := setNullable input.shortSummary page.shortSummary
    narrativeMarkdown := setNullable input.narrativeMarkdown page.narrativeMarkdown
    slug := slug
    version := page.version + 1
    updatedAt := now }

/-- The subclasses of `_TransitionUseCase`, and the transitions of the CMS. -/
inductive Transition where
  | submit
  | requestChanges
  | approve
  | reject
  | publish
  | archive
  | reopen
  | retract
deriving DecidableEq, Repr

/-- `target_status`. -/
def Transition.target : Transition → PublicationStatus
  | submit => .inReview
  | requestChanges => .draft
  | approve => .approved
  | reject => .draft
  | publish => .published
  | archive => .archived
  | reopen => .draft
  | retract => .retracted

/-- `(note or None) and note[:1000]`. -/
def trimmedNote : Option String → Option String
  | none => none
  | some "" => none
  | some note => some (String.ofList (note.toList.take 1000))

/-- `_apply_status_mutation`. -/
def Transition.applyStatusMutation (t : Transition) (input : TransitionPublicEventPageInput)
    (now : Time) (page : PublicEventPage) : PublicEventPage :=
  let moved := { page with status := t.target, version := page.version + 1, updatedAt := now }
  match t with
  | .publish =>
      { moved with
        firstPublishedAt := some (page.firstPublishedAt.getD now)
        lastPublishedAt := some now }
  | .retract => { moved with retractedAt := some now, retractionNote := trimmedNote input.retractionNote }
  | _ => moved

/-- The body of `_TransitionUseCase.execute` between the load and the write. -/
def TransitionPublicEventPageInput.edit (input : TransitionPublicEventPageInput) (t : Transition)
    (now : Time) (page : PublicEventPage) : Except EditorialError PublicEventPage := do
  validateTransition page.status t.target
  pure (t.applyStatusMutation input now page)

/-- A request that changes a page, with the time it reads from the clock. -/
inductive PageRequest where
  | update (input : UpdatePublicEventPageInput) (now : Time)
  | transition (t : Transition) (input : TransitionPublicEventPageInput) (now : Time)
deriving DecidableEq, Repr

namespace PageRequest

def pageId : PageRequest → Uuid
  | update input _ => input.pageId
  | transition _ input _ => input.pageId

def expectedVersion : PageRequest → Int
  | update input _ => input.expectedVersion
  | transition _ input _ => input.expectedVersion

/-- The row the request wants to store. -/
def edit : PageRequest → PublicEventPage → Except EditorialError PublicEventPage
  | update input now, page => input.edit now page
  | transition t input now, page => input.edit t now page

end PageRequest

/-! ## What the edits do -/

theorem isAllowed_iff {a b : PublicationStatus} : isAllowed a b = true ↔ b ∈ allowedTransitions a := by
  simp [isAllowed]

/-- An update names editorial fields only. -/
theorem validateEditorialKwargs_provided (input : UpdatePublicEventPageInput) :
    validateEditorialKwargs input.provided = .ok () := by
  have hnone : input.provided.filter (· ∉ editorialFields) = [] := by
    rw [List.filter_eq_nil_iff]
    intro name hname
    simp only [UpdatePublicEventPageInput.provided, List.mem_append] at hname
    simp only [editorialFields]
    rcases hname with ((h | h) | h) | h <;> split at h <;> simp_all
  rw [validateEditorialKwargs, hnone]
  rfl

/-- An edit changes text only: in DRAFT, and one version up. -/
theorem UpdatePublicEventPageInput.edit_ok {input : UpdatePublicEventPageInput} {now : Time}
    {page new : PublicEventPage} (h : input.edit now page = .ok new) :
    page.status = .draft ∧ new.status = .draft ∧ new.version = page.version + 1 ∧
      new.id = page.id ∧ new.eventId = page.eventId := by
  simp only [UpdatePublicEventPageInput.edit, bind_ok, pure_ok, require_ok] at h
  obtain ⟨_, hdraft, slug, _, _, _, rfl⟩ := h
  exact ⟨hdraft, hdraft, rfl, rfl, rfl⟩

/-- A transition follows the table and changes no text. -/
theorem TransitionPublicEventPageInput.edit_ok {input : TransitionPublicEventPageInput}
    {t : Transition} {now : Time} {page new : PublicEventPage} (h : input.edit t now page = .ok new) :
    t.target ∈ allowedTransitions page.status ∧ new = t.applyStatusMutation input now page := by
  simp only [TransitionPublicEventPageInput.edit, validateTransition, bind_ok, pure_ok, require_ok,
    isAllowed_iff] at h
  obtain ⟨_, hallowed, rfl⟩ := h
  exact ⟨hallowed, rfl⟩

namespace Transition

variable (t : Transition) (input : TransitionPublicEventPageInput) (now : Time)
  (page : PublicEventPage)

@[simp] theorem applyStatusMutation_id : (t.applyStatusMutation input now page).id = page.id := by
  cases t <;> rfl

@[simp] theorem applyStatusMutation_eventId :
    (t.applyStatusMutation input now page).eventId = page.eventId := by
  cases t <;> rfl

@[simp] theorem applyStatusMutation_status :
    (t.applyStatusMutation input now page).status = t.target := by
  cases t <;> rfl

@[simp] theorem applyStatusMutation_version :
    (t.applyStatusMutation input now page).version = page.version + 1 := by
  cases t <;> rfl

end Transition

theorem PageRequest.version_edit {req : PageRequest} {page new : PublicEventPage}
    (h : req.edit page = .ok new) : new.version = page.version + 1 := by
  cases req with
  | update input now => exact (input.edit_ok h).2.2.1
  | transition t input now =>
      obtain ⟨_, rfl⟩ := input.edit_ok h
      exact t.applyStatusMutation_version input now page

end Atlas
