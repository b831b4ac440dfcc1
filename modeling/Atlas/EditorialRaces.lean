import Atlas.Cms
import Atlas.Lib.Optimistic

/-!
# Editing under the version check

Update and transition requests load a row, compute its successor and write it
under a version predicate.  The predicate is on the `expected_version` of the
request, while the version written is one above the version *loaded*: when the
two differ and another request commits in between, the write goes through with a
version that was given out before, and the edit in between is gone.
-/

namespace Atlas

open Optimistic

/-- What the editorial requests write: a public event page or CMS content. -/
inductive EditorialContent where
  | eventPage
  | cms (kind : CmsKind)
deriving DecidableEq, Repr

namespace EditorialContent

abbrev Row : EditorialContent → Type
  | eventPage => PublicEventPage
  | cms kind => kind.Row

abbrev Request : EditorialContent → Type
  | eventPage => PageRequest
  | cms kind => CmsRequest kind.Update

/-- The requests on a public event page: `UpdatePublicEventPage` and the
transitions.  `event_id`, `id` and `created_at` are not in the statement's SET
list; no request changes them. -/
def pageEditor : Editor PublicEventPage PageRequest where
  version := PublicEventPage.version
  expected := PageRequest.expectedVersion
  edit req page := (req.edit page).toOption
  version_edit {req row new} h := by
    cases hedit : req.edit row with
    | error e => simp [hedit, Except.toOption] at h
    | ok updated =>
        simp only [hedit, Except.toOption, Option.some.injEq] at h
        rw [← h]
        exact req.version_edit hedit

/-- The requests on one kind of CMS content. -/
def cmsEditor {Row Create Update : Type} (slot : CmsContentSlot Row Create Update) :
    Editor Row (CmsRequest Update) where
  version row := (slot.content row).version
  expected := CmsRequest.expectedVersion slot
  edit req row := (req.edit slot row).toOption
  version_edit {req row new} h := by
    cases hedit : req.edit slot row with
    | error e => simp [hedit, Except.toOption] at h
    | ok updated =>
        simp only [hedit, Except.toOption, Option.some.injEq] at h
        rw [← h]
        exact (req.content_edit hedit).2

def editor : (c : EditorialContent) → Editor c.Row c.Request
  | eventPage => pageEditor
  | cms kind => cmsEditor kind.slot

end EditorialContent

/-- **No editorial update is lost** in any state of a run of update and
transition requests on one row exactly when every write that the version check
lets through has, as its `expected_version`, the version its request loaded. -/
theorem no_editorial_update_lost_iff (c : EditorialContent) (row : c.Row)
    (acts : List (Act c.Request)) :
    Runs.EveryState (step c.editor) (NoLostUpdate c.editor) (World.start row) acts ↔
      Runs.EveryStep (step c.editor) (NamesLoaded c.editor) (World.start row) acts :=
  everyState_noLostUpdate row acts

/-- A draft nobody has edited. -/
def draftPage : PublicEventPage :=
  { id := 1, eventId := 2, slug := "n12345", title := "Report", shortSummary := none,
    narrativeMarkdown := none, status := .draft, version := 1, firstPublishedAt := none,
    lastPublishedAt := none, retractedAt := none, retractionNote := none, createdAt := 0,
    updatedAt := 0 }

/-- One editor loads version 1 and names version 2.  A second editor stores
version 2 before the first writes. -/
def guessedVersion : List (Act PageRequest) :=
  [.load 0 (.update { pageId := 1, expectedVersion := 2, editorUserId := 7, title := some "B" } 1),
   .load 1 (.update { pageId := 1, expectedVersion := 1, editorUserId := 8, title := some "A" } 1),
   .write 1, .write 0]

/-- The title of the second editor is gone and version 2 was given out twice. -/
theorem guessed_version_loses_update :
    ¬ Runs.EveryState (step EditorialContent.pageEditor) (NoLostUpdate EditorialContent.pageEditor)
      (World.start draftPage) guessedVersion := by
  intro h
  have hlast := (h guessedVersion (List.prefix_refl _)).increasing
  have hversions : ((Runs.run (step EditorialContent.pageEditor) (World.start draftPage)
      guessedVersion).history.map PublicEventPage.version) = [1, 2, 2] := by
    decide +kernel
  have hpair : ([1, 2, 2] : List Nat).Pairwise (· < ·) := hversions ▸ hlast
  simp at hpair

end Atlas
