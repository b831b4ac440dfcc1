import Atlas.HermesLeases
import Atlas.Lib.Histories
import Atlas.Lib.Runs

/-!
# The change log of Hermes

A successful fetch stores its content as a document unless the target has one
with the same hash, and logs a change row: FIRST_SEEN, CONTENT_CHANGED or
CONTENT_UNCHANGED.  The log should be a chain: a fetch is unchanged exactly when
its hash is that of the fetch before it, and a change names the hash and a
document of the fetch before it.

The code takes any stored document with the hash for an unchanged content, and
the newest stored document for the previous one.  Both are right as long as no
content comes back: after A and B, a third fetch that brings A again is logged as
unchanged.
-/

namespace Atlas

open Rows Histories

inductive HermesTargetStatus where
  | active
  | paused
  | disabled
deriving DecidableEq, Repr

structure HermesCrawlTarget where
  id : Uuid
  status : HermesTargetStatus
  lastFetchJobId : Option Uuid
  lastFetchedDocumentId : Option Uuid
  lastContentSha256 : Option String
  lastHttpStatus : Option Int
  lastFetchedAt : Option Time
deriving DecidableEq, Repr

structure HermesFetchedDocument where
  id : Uuid
  targetId : Uuid
  fetchJobId : Uuid
  finalUrl : String
  httpStatus : Int
  contentSha256 : String
  contentLength : Nat
  fetchedAt : Time
deriving DecidableEq, Repr

inductive HermesChangeType where
  | firstSeen
  | contentChanged
  | contentUnchanged
  | fetchFailed
deriving DecidableEq, Repr

structure HermesSourceChange where
  targetId : Uuid
  fetchJobId : Option Uuid
  previousDocumentId : Option Uuid
  newDocumentId : Option Uuid
  changeType : HermesChangeType
  previousSha256 : Option String
  newSha256 : Option String
  detectedAt : Time
deriving DecidableEq, Repr

/-- What `_fetch` returns. -/
structure FetchTuple where
  finalUrl : String
  httpStatus : Int
  body : List UInt8
deriving DecidableEq, Repr

/-- The tables a finalisation reads and writes besides the jobs. -/
structure HermesStore where
  nextId : Uuid
  targets : List HermesCrawlTarget
  documents : List HermesFetchedDocument
  changes : List HermesSourceChange
deriving DecidableEq, Repr

namespace HermesStore

def empty : HermesStore := ⟨1, [], [], []⟩

def getTarget (s : HermesStore) (id : Uuid) : Option HermesCrawlTarget :=
  lookup HermesCrawlTarget.id id s.targets

def documentsOf (s : HermesStore) (targetId : Uuid) : List HermesFetchedDocument :=
  s.documents.filter fun d => d.targetId = targetId

/-- `get_latest_for_target`. -/
def getLatestForTarget (s : HermesStore) (targetId : Uuid) : Option HermesFetchedDocument :=
  ((s.documentsOf targetId).insertionSort fun a b => b.fetchedAt ≤ a.fetchedAt).head?

/-- `find_by_target_and_hash`. -/
def findByTargetAndHash (s : HermesStore) (targetId : Uuid) (sha : String) :
    Option HermesFetchedDocument :=
  (s.documentsOf targetId).find? fun d => d.contentSha256 = sha

def saveTarget (s : HermesStore) (target : HermesCrawlTarget) : HermesStore :=
  { s with targets := updateWhere (fun t => t.id = target.id) (fun _ => target) s.targets }

def addChange (s : HermesStore) (change : HermesSourceChange) : HermesStore :=
  { s with changes := s.changes ++ [change] }

/-- The change row of `_finalize_failure`: none when the target is missing. -/
def finalizeFailure (s : HermesStore) (jobId targetId : Uuid) (now : Time) : HermesStore :=
  match s.getTarget targetId with
  | none => s
  | some target =>
      s.addChange ⟨target.id, some jobId, none, none, .fetchFailed, none, none, now⟩

/-- The target with its last fetch. -/
def afterFetch (jobId documentId : Uuid) (sha : String) (httpStatus : Int) (now : Time)
    (target : HermesCrawlTarget) : HermesCrawlTarget :=
  { target with
    lastFetchJobId := some jobId
    lastFetchedDocumentId := some documentId
    lastContentSha256 := some sha
    lastHttpStatus := some httpStatus
    lastFetchedAt := some now }

/-- The end of `_finalize_success`: the change row, and the target's last fetch. -/
def recordFetch (s : HermesStore) (target : HermesCrawlTarget) (jobId documentId : Uuid)
    (sha : String) (httpStatus : Int) (change : HermesSourceChange) (now : Time) : HermesStore :=
  (s.addChange change).saveTarget (afterFetch jobId documentId sha httpStatus now target)

variable (sha256 : List UInt8 → String)

/-- The document of a new content. -/
def newDocument (s : HermesStore) (target : HermesCrawlTarget) (jobId : Uuid) (fetch : FetchTuple)
    (now : Time) : HermesFetchedDocument where
  id := s.nextId
  targetId := target.id
  fetchJobId := jobId
  finalUrl := fetch.finalUrl
  httpStatus := fetch.httpStatus
  contentSha256 := sha256 fetch.body
  contentLength := fetch.body.length
  fetchedAt := now

/-- The change row of a new content: what was there before is the newest document
and the target's last hash. -/
def changedRow (s : HermesStore) (target : HermesCrawlTarget) (jobId : Uuid) (fetch : FetchTuple)
    (now : Time) : HermesSourceChange where
  targetId := target.id
  fetchJobId := some jobId
  previousDocumentId := (s.getLatestForTarget target.id).map HermesFetchedDocument.id
  newDocumentId := some s.nextId
  changeType :=
    if (s.getLatestForTarget target.id).isNone ∧ target.lastContentSha256.isNone then .firstSeen
    else .contentChanged
  previousSha256 := target.lastContentSha256
  newSha256 := some (sha256 fetch.body)
  detectedAt := now

/-- The change row of a content that the target has a document of. -/
def unchangedRow (target : HermesCrawlTarget) (jobId : Uuid) (doc : HermesFetchedDocument)
    (sha : String) (now : Time) : HermesSourceChange where
  targetId := target.id
  fetchJobId := some jobId
  previousDocumentId := some doc.id
  newDocumentId := some doc.id
  changeType := .contentUnchanged
  previousSha256 := some sha
  newSha256 := some sha
  detectedAt := now

def addDocument (s : HermesStore) (doc : HermesFetchedDocument) : HermesStore :=
  { s with nextId := s.nextId + 1, documents := s.documents ++ [doc] }

/-- The body of `_finalize_success`, for an active target. -/
def storeFetch (s : HermesStore) (target : HermesCrawlTarget) (jobId : Uuid) (fetch : FetchTuple)
    (now : Time) : HermesStore :=
  let sha := sha256 fetch.body
  match s.findByTargetAndHash target.id sha with
  | some doc =>
      s.recordFetch target jobId doc.id sha fetch.httpStatus (unchangedRow target jobId doc sha now) now
  | none =>
      let doc := s.newDocument sha256 target jobId fetch now
      (s.addDocument doc).recordFetch target jobId doc.id sha fetch.httpStatus
        (s.changedRow sha256 target jobId fetch now) now

/-- `_finalize_success` once the claim is locked. -/
def finalizeSuccess (s : HermesStore) (jobId targetId : Uuid) (fetch : FetchTuple) (now : Time) :
    HermesStore :=
  match s.getTarget targetId with
  | none => s.finalizeFailure jobId targetId now
  | some target =>
      if target.status = .active then s.storeFetch sha256 target jobId fetch now
      else s.finalizeFailure jobId targetId now

end HermesStore

/-- What happens to the tables. -/
inductive HermesOp where
  | addTarget
  | setStatus (targetId : Uuid) (status : HermesTargetStatus)
  | succeed (jobId targetId : Uuid) (fetch : FetchTuple) (now : Time)
  | fail (jobId targetId : Uuid) (now : Time)

/-- A successful fetch: whose, of what content, and when its document was made
if it made one. -/
structure Fetched where
  targetId : Uuid
  sha : String
  at' : Time
deriving DecidableEq, Repr

namespace HermesStore

variable (sha256 : List UInt8 → String)

def step (s : HermesStore) : HermesOp → HermesStore
  | .addTarget =>
      { s with
        nextId := s.nextId + 1
        targets := s.targets ++ [⟨s.nextId, .active, none, none, none, none, none⟩] }
  | .setStatus targetId status =>
      { s with
        targets := updateWhere (fun t => t.id = targetId) (fun t => { t with status := status })
          s.targets }
  | .succeed jobId targetId fetch now => s.finalizeSuccess sha256 jobId targetId fetch now
  | .fail jobId targetId now => s.finalizeFailure jobId targetId now

/-- The successful fetch an operation is, if it is one: its target is there and
active. -/
def fetched (s : HermesStore) : HermesOp → Option Fetched
  | .succeed _ targetId fetch now =>
      match s.getTarget targetId with
      | some target => if target.status = .active then some ⟨targetId, sha256 fetch.body, now⟩ else none
      | none => none
  | _ => none

/-- The tables after a run, with the successful fetches so far. -/
def trace (ops : List HermesOp) : HermesStore × List Fetched :=
  Runs.run (fun p op => (p.1.step sha256 op, p.2 ++ (p.1.fetched sha256 op).toList)) (empty, []) ops

/-- The change rows of the successful fetches of a target. -/
def fetchRows (s : HermesStore) (targetId : Uuid) : List HermesSourceChange :=
  s.changes.filter fun c => c.targetId = targetId ∧ c.changeType ≠ .fetchFailed

/-- The hash of the document a row names as the previous one. -/
def previousDocumentSha (s : HermesStore) (c : HermesSourceChange) : Option String :=
  c.previousDocumentId.bind fun id =>
    (lookup HermesFetchedDocument.id id s.documents).map HermesFetchedDocument.contentSha256

/-- A row is right: it says unchanged exactly when the fetch before it had the
same hash, and a change names the hash and a document of the fetch before it. -/
def RowRight (s : HermesStore) (before : List (Fetched × HermesSourceChange))
    (x : Fetched × HermesSourceChange) : Prop :=
  (x.2.changeType = .contentUnchanged ↔ ∃ prev ∈ before.getLast?, x.1.sha = prev.1.sha) ∧
    (x.2.changeType = .contentChanged → ∃ prev ∈ before.getLast?,
      x.2.previousSha256 = some prev.1.sha ∧ s.previousDocumentSha x.2 = some prev.1.sha)

instance (s : HermesStore) (before : List (Fetched × HermesSourceChange))
    (x : Fetched × HermesSourceChange) : Decidable (s.RowRight before x) :=
  inferInstanceAs (Decidable (_ ∧ _))

/-- **The change log of the target is a chain.** -/
def LogIsChain (s : HermesStore) (targetId : Uuid) (fetches : List Fetched) : Prop :=
  EachAfter s.RowRight (fetches.zip (s.fetchRows targetId))

instance (s : HermesStore) (targetId : Uuid) (fetches : List Fetched) :
    Decidable (s.LogIsChain targetId fetches) := inferInstanceAs (Decidable (EachAfter _ _))

end HermesStore

/-! ## When it is -/

/-- The contents of a list of fetches that make a document, each at its first
fetch. -/
def stored : List Fetched → List (String × Time) :=
  List.foldl (fun docs f => if f.sha ∈ docs.map Prod.fst then docs else docs ++ [(f.sha, f.at')]) []

/-- The newest of the stored contents. -/
def newest (docs : List (String × Time)) : Option (String × Time) :=
  (docs.insertionSort fun a b => b.2 ≤ a.2).head?

/-- The fetch does not return to an older content; and if it brings a new one,
the document of the content before it is the newest. -/
def InOrder (before : List Fetched) (f : Fetched) : Prop :=
  ∀ prev, before.getLast? = some prev →
    if f.sha ∈ before.map Fetched.sha then f.sha = prev.sha
    else (newest (stored before)).map Prod.fst = some prev.sha

theorem stored_append (before : List Fetched) (f : Fetched) :
    stored (before ++ [f]) = if f.sha ∈ (stored before).map Prod.fst then stored before
      else stored before ++ [(f.sha, f.at')] := by
  unfold stored
  rw [List.foldl_append]
  rfl

/-- The stored contents are those that were fetched. -/
theorem mem_stored (fetches : List Fetched) (sha : String) :
    sha ∈ (stored fetches).map Prod.fst ↔ sha ∈ fetches.map Fetched.sha := by
  induction fetches using List.reverseRecOn with
  | nil => simp [stored]
  | append_singleton before f ih =>
      rw [stored_append, List.map_append]
      split
      · rename_i hold
        rw [ih, List.mem_append]
        constructor
        · exact .inl
        · rintro (h | h)
          · exact h
          · rw [List.map_singleton, List.mem_singleton] at h
            subst h
            exact ih.mp hold
      · rw [List.map_append, List.mem_append, List.mem_append, ih]
        simp

theorem stored_eq_nil {fetches : List Fetched} : stored fetches = [] ↔ fetches = [] := by
  constructor
  · intro h
    cases fetches with
    | nil => rfl
    | cons f rest =>
        have hmem := (mem_stored (f :: rest) f.sha).mpr (by simp)
        rw [h] at hmem
        cases hmem
  · rintro rfl
    rfl

namespace HermesStore

/-! ## What a step does to one target -/

/-- Ids are unique, and the documents that rows name are there. -/
structure Tidy (s : HermesStore) : Prop where
  targetIds : Unique HermesCrawlTarget.id s.targets
  target_lt : ∀ t ∈ s.targets, t.id < s.nextId
  documentIds : Unique HermesFetchedDocument.id s.documents
  document_lt : ∀ d ∈ s.documents, d.id < s.nextId
  named : ∀ c ∈ s.changes, ∀ id, c.previousDocumentId = some id → ∃ d ∈ s.documents, d.id = id

/-- The tables hold what was fetched from a target: a document for each stored
content, a row for each fetch, and the hash of the last one. -/
structure Tracks (s : HermesStore) (targetId : Uuid) (fetches : List Fetched) : Prop where
  documents : (s.documentsOf targetId).map (fun d => (d.contentSha256, d.fetchedAt)) = stored fetches
  rows : (s.fetchRows targetId).map HermesSourceChange.newSha256 =
    fetches.map fun f => some f.sha
  last : ∀ t, s.getTarget targetId = some t → t.lastContentSha256 = fetches.getLast?.map Fetched.sha
  absent : s.getTarget targetId = none → fetches = []

/-- The step leaves the target's documents, rows and last hash alone. -/
structure Quiet (s s' : HermesStore) (targetId : Uuid) : Prop where
  documents : s'.documentsOf targetId = s.documentsOf targetId
  rows : s'.fetchRows targetId = s.fetchRows targetId
  target : (s'.getTarget targetId).map HermesCrawlTarget.lastContentSha256 =
      (s.getTarget targetId).map HermesCrawlTarget.lastContentSha256 ∨
    s.getTarget targetId = none ∧
      (s'.getTarget targetId).map HermesCrawlTarget.lastContentSha256 = some none
  previous : ∀ c ∈ s.changes, s'.previousDocumentSha c = s.previousDocumentSha c

variable {s s' : HermesStore} {targetId : Uuid} {fetches : List Fetched}

theorem Quiet.tracks (h : Quiet s s' targetId) (ht : s.Tracks targetId fetches) :
    s'.Tracks targetId fetches := by
  refine ⟨by rw [h.documents, ht.documents], by rw [h.rows, ht.rows], ?_, ?_⟩
  · intro t hget
    rcases h.target with hsame | ⟨hnone, hnew⟩
    · rw [hget, Option.map_some] at hsame
      obtain ⟨u, hu, hlast⟩ := Option.map_eq_some_iff.mp hsame.symm
      rw [← hlast]
      exact ht.last u hu
    · rw [hget, Option.map_some, Option.some.injEq] at hnew
      rw [hnew, ht.absent hnone]
      rfl
  · intro hget
    rcases h.target with hsame | ⟨hnone, -⟩
    · rw [hget, Option.map_none] at hsame
      exact ht.absent (Option.map_eq_none_iff.mp hsame.symm)
    · exact ht.absent hnone

/-- A row is as right as it was while the document it names is the same. -/
theorem rowRight_congr {before : List (Fetched × HermesSourceChange)}
    {x : Fetched × HermesSourceChange}
    (h : s'.previousDocumentSha x.2 = s.previousDocumentSha x.2) :
    s'.RowRight before x ↔ s.RowRight before x := by
  unfold RowRight
  rw [h]

theorem mem_changes_of_zip {x : Fetched × HermesSourceChange}
    (hx : x ∈ fetches.zip (s.fetchRows targetId)) : x.2 ∈ s.changes :=
  (List.mem_filter.mp (List.of_mem_zip hx).2).1

theorem Quiet.logIsChain (h : Quiet s s' targetId) :
    s'.LogIsChain targetId fetches ↔ s.LogIsChain targetId fetches := by
  unfold LogIsChain
  rw [h.rows]
  refine EachAfter.congr fun before x hx => rowRight_congr (h.previous x.2 ?_)
  exact mem_changes_of_zip hx

/-- Where the documents stay and only rows that are no fetch of the target are
added, the target's history is left alone. -/
theorem quiet_of_changes {news : List HermesSourceChange}
    (hdocuments : s'.documents = s.documents) (hchanges : s'.changes = s.changes ++ news)
    (hnews : ∀ c ∈ news, c.changeType = .fetchFailed) (htargets : s'.targets = s.targets) :
    Quiet s s' targetId := by
  refine ⟨?_, ?_, .inl ?_, ?_⟩
  · unfold documentsOf
    rw [hdocuments]
  · unfold fetchRows
    rw [hchanges, List.filter_append]
    have hnone : news.filter (fun c => c.targetId = targetId ∧ c.changeType ≠ .fetchFailed) = [] := by
      rw [List.filter_eq_nil_iff]
      intro c hc
      simp [hnews c hc]
    rw [hnone, List.append_nil]
  · unfold getTarget
    rw [htargets]
  · intro c _
    unfold previousDocumentSha
    rw [hdocuments]

/-- A failed fetch adds at most one row of its own kind. -/
theorem finalizeFailure_eq (s : HermesStore) (jobId target : Uuid) (now : Time) :
    ∃ news, s.finalizeFailure jobId target now = { s with changes := s.changes ++ news } ∧
      ∀ c ∈ news, c.changeType = .fetchFailed ∧ c.previousDocumentId = none := by
  unfold finalizeFailure
  split
  · exact ⟨[], by simp, by simp⟩
  · exact ⟨_, rfl, by simp⟩

theorem Tidy.addFailures {news : List HermesSourceChange} (h : s.Tidy)
    (hnews : ∀ c ∈ news, c.changeType = .fetchFailed ∧ c.previousDocumentId = none) :
    ({ s with changes := s.changes ++ news } : HermesStore).Tidy := by
  refine ⟨h.targetIds, h.target_lt, h.documentIds, h.document_lt, ?_⟩
  intro c hc id hid
  rcases List.mem_append.mp hc with hc | hc
  · exact h.named c hc id hid
  · rw [(hnews c hc).2] at hid
    cases hid

theorem Tidy.addTarget (h : s.Tidy) (sha256 : List UInt8 → String) :
    (s.step sha256 .addTarget).Tidy := by
  have hnew : ∀ t ∈ s.targets, t.id ≠ s.nextId := by
    intro t ht
    exact Nat.ne_of_lt (h.target_lt t ht)
  refine ⟨h.targetIds.append_single hnew, ?_, h.documentIds, ?_, h.named⟩
  · intro t ht
    rcases List.mem_append.mp ht with ht | ht
    · exact Nat.lt_succ_of_lt (h.target_lt t ht)
    · rw [List.mem_singleton.mp ht]
      exact Nat.lt_succ_self s.nextId
  · intro d hd
    exact Nat.lt_succ_of_lt (h.document_lt d hd)

theorem quiet_addTarget (h : s.Tidy) (sha256 : List UInt8 → String) :
    Quiet s (s.step sha256 .addTarget) targetId := by
  have hnew : ∀ t ∈ s.targets, t.id ≠ s.nextId := by
    intro t ht
    exact Nat.ne_of_lt (h.target_lt t ht)
  refine ⟨rfl, rfl, ?_, fun _ _ => rfl⟩
  have hget : (s.step sha256 .addTarget).getTarget targetId =
      if targetId = s.nextId then some ⟨s.nextId, .active, none, none, none, none, none⟩
      else s.getTarget targetId := lookup_append_single hnew
  rw [hget]
  by_cases hid : targetId = s.nextId
  · rw [if_pos hid, hid]
    exact .inr ⟨lookup_none.mpr hnew, rfl⟩
  · rw [if_neg hid]
    exact .inl rfl

theorem Tidy.setStatus (h : s.Tidy) (sha256 : List UInt8 → String) (id : Uuid)
    (status : HermesTargetStatus) : (s.step sha256 (.setStatus id status)).Tidy := by
  refine ⟨h.targetIds.updateWhere fun _ => rfl, ?_, h.documentIds, h.document_lt, h.named⟩
  intro t ht
  obtain ⟨u, hu, rfl⟩ := mem_updateWhere.mp ht
  split
  · exact h.target_lt u hu
  · exact h.target_lt u hu

theorem quiet_setStatus (sha256 : List UInt8 → String) (id : Uuid) (status : HermesTargetStatus) :
    Quiet s (s.step sha256 (.setStatus id status)) targetId := by
  refine ⟨rfl, rfl, .inl ?_, fun _ _ => rfl⟩
  simp only [step, getTarget]
  apply map_lookup_updateWhere
  · intro t
    rfl
  · intro t
    rfl

/-! ## A fetch of the target -/

/-- The step logs a fetch of the target. -/
structure LogsFetch (s s' : HermesStore) (f : Fetched) (fetches : List Fetched)
    (row : HermesSourceChange) : Prop where
  documents : (s'.documentsOf f.targetId).map (fun d => (d.contentSha256, d.fetchedAt)) =
    stored (fetches ++ [f])
  rows : s'.fetchRows f.targetId = s.fetchRows f.targetId ++ [row]
  hash : row.newSha256 = some f.sha
  target : ∃ t, s'.getTarget f.targetId = some t ∧ t.lastContentSha256 = some f.sha
  previous : ∀ c ∈ s.changes, s'.previousDocumentSha c = s.previousDocumentSha c
  unchanged : row.changeType = .contentUnchanged ↔ f.sha ∈ fetches.map Fetched.sha
  changed : row.changeType = .contentChanged ↔ f.sha ∉ fetches.map Fetched.sha ∧ fetches ≠ []
  previousSha : row.changeType = .contentChanged →
    row.previousSha256 = fetches.getLast?.map Fetched.sha ∧
      s'.previousDocumentSha row = (newest (stored fetches)).map Prod.fst

theorem LogsFetch.tracks {f : Fetched} {row : HermesSourceChange}
    (h : LogsFetch s s' f fetches row) (ht : s.Tracks f.targetId fetches) :
    s'.Tracks f.targetId (fetches ++ [f]) := by
  obtain ⟨t, hget, hlast⟩ := h.target
  refine ⟨h.documents, ?_, ?_, ?_⟩
  · rw [h.rows, List.map_append, ht.rows, List.map_append, List.map_singleton, List.map_singleton,
      h.hash]
  · intro u hu
    rw [hget, Option.some.injEq] at hu
    rw [← hu, hlast, List.getLast?_concat, Option.map_some]
  · intro hnone
    rw [hget] at hnone
    cases hnone

theorem Tracks.length_eq (h : s.Tracks targetId fetches) :
    fetches.length = (s.fetchRows targetId).length := by
  have := congrArg List.length h.rows
  rw [List.length_map, List.length_map] at this
  exact this.symm

/-- The fetch before the next one, with or without its row. -/
theorem Tracks.getLast_zip (h : s.Tracks targetId fetches) :
    (fetches.zip (s.fetchRows targetId)).getLast?.map Prod.fst = fetches.getLast? := by
  rw [← List.getLast?_map, List.map_fst_zip (le_of_eq h.length_eq)]

/-- **The new row is right exactly when the fetch is in order.** -/
theorem LogsFetch.rowRight_iff {f : Fetched} {row : HermesSourceChange}
    (h : LogsFetch s s' f fetches row) (ht : s.Tracks f.targetId fetches) :
    s'.RowRight (fetches.zip (s.fetchRows f.targetId)) (f, row) ↔ InOrder fetches f := by
  have hlast := ht.getLast_zip
  cases hzip : (fetches.zip (s.fetchRows f.targetId)).getLast? with
  | none =>
      -- the first fetch: no row says unchanged or changed
      rw [hzip, Option.map_none] at hlast
      have hnil : fetches = [] := List.getLast?_eq_none_iff.mp hlast.symm
      subst hnil
      have hnot : row.changeType ≠ .contentUnchanged := by
        intro hrow
        have hmem := h.unchanged.mp hrow
        cases hmem
      have hnot' : row.changeType ≠ .contentChanged := by
        intro hrow
        exact (h.changed.mp hrow).2 rfl
      simp [RowRight, InOrder, hnot, hnot']
  | some prev =>
      rw [hzip, Option.map_some] at hlast
      have hne : fetches ≠ [] := by
        rintro rfl
        cases hlast
      unfold RowRight InOrder
      simp only [hzip, ← hlast, Option.some.injEq, forall_eq']
      by_cases hold : f.sha ∈ fetches.map Fetched.sha
      · rw [if_pos hold]
        have hrow := h.unchanged.mpr hold
        simp [hrow]
      · rw [if_neg hold]
        have hrow : row.changeType = .contentChanged := h.changed.mpr ⟨hold, hne⟩
        obtain ⟨hsha, hdoc⟩ := h.previousSha hrow
        rw [← hlast, Option.map_some] at hsha
        have hdiff : f.sha ≠ prev.1.sha := by
          intro heq
          apply hold
          rw [heq]
          exact List.mem_map_of_mem (List.mem_of_getLast? hlast.symm)
        simp [hrow, hsha, hdoc, hdiff]

/-- One more fetch: the log stays a chain exactly when the fetch is in order. -/
theorem LogsFetch.logIsChain {f : Fetched} {row : HermesSourceChange}
    (h : LogsFetch s s' f fetches row) (ht : s.Tracks f.targetId fetches) :
    s'.LogIsChain f.targetId (fetches ++ [f]) ↔ s.LogIsChain f.targetId fetches ∧ InOrder fetches f := by
  have hzip : (fetches ++ [f]).zip (s'.fetchRows f.targetId) =
      fetches.zip (s.fetchRows f.targetId) ++ [(f, row)] := by
    rw [h.rows, List.zip_append ht.length_eq]
    rfl
  unfold LogIsChain
  rw [hzip, eachAfter_append, h.rowRight_iff ht]
  have hold : EachAfter s'.RowRight (fetches.zip (s.fetchRows f.targetId)) ↔
      EachAfter s.RowRight (fetches.zip (s.fetchRows f.targetId)) := by
    refine EachAfter.congr fun before x hx => rowRight_congr (h.previous x.2 ?_)
    exact mem_changes_of_zip hx
  rw [hold]

/-! ## The fetch that is stored -/

section StoreFetch

variable {sha256 : List UInt8 → String} {t : HermesCrawlTarget} {jobId : Uuid} {fetch : FetchTuple}
  {now : Time}

/-- A stored document is looked for by its hash among the target's. -/
theorem findByTargetAndHash_isSome {sha : String} (ht : s.Tracks targetId fetches) :
    (s.findByTargetAndHash targetId sha).isSome ↔ sha ∈ fetches.map Fetched.sha := by
  rw [← mem_stored, ← ht.documents, List.map_map]
  unfold findByTargetAndHash
  rw [List.find?_isSome, List.mem_map]
  constructor
  · rintro ⟨d, hd, hsha⟩
    exact ⟨d, hd, by simpa using hsha⟩
  · rintro ⟨d, hd, hsha⟩
    exact ⟨d, hd, by simpa using hsha⟩

/-- The newest document is that of the newest stored content. -/
theorem getLatestForTarget_sha (ht : s.Tracks targetId fetches) :
    (s.getLatestForTarget targetId).map HermesFetchedDocument.contentSha256 =
      (newest (stored fetches)).map Prod.fst := by
  unfold getLatestForTarget newest
  rw [← ht.documents, ← List.map_insertionSort (fun a b => b.fetchedAt ≤ a.fetchedAt)
    (fun a b : String × Time => b.2 ≤ a.2) _ _ (fun _ _ _ _ => Iff.rfl), List.head?_map,
    Option.map_map]
  rfl

theorem getLatestForTarget_eq_none :
    s.getLatestForTarget targetId = none ↔ s.documentsOf targetId = [] := by
  unfold getLatestForTarget
  rw [List.head?_eq_none_iff]
  constructor
  · intro h
    have hlength := congrArg List.length h
    rw [List.length_insertionSort] at hlength
    exact List.eq_nil_of_length_eq_zero hlength
  · intro h
    rw [h]
    rfl

theorem getLatestForTarget_mem {d : HermesFetchedDocument}
    (h : s.getLatestForTarget targetId = some d) : d ∈ s.documents := by
  have hd := (List.mem_insertionSort _).mp (List.mem_of_head? h)
  exact (List.mem_filter.mp hd).1

/-- Recording a fetch adds its row to its target. -/
theorem fetchRows_recordFetch_self {documentId : Uuid} {sha : String} {status : Int}
    {change : HermesSourceChange} (hfetch : change.changeType ≠ .fetchFailed)
    (hid : change.targetId = targetId) :
    (s.recordFetch t jobId documentId sha status change now).fetchRows targetId =
      s.fetchRows targetId ++ [change] := by
  show (s.changes ++ [change]).filter _ = _
  rw [List.filter_append, List.filter_cons_of_pos (by simp [hid, hfetch])]
  rfl

theorem fetchRows_recordFetch_ne {documentId : Uuid} {sha : String} {status : Int}
    {change : HermesSourceChange} (hid : change.targetId ≠ targetId) :
    (s.recordFetch t jobId documentId sha status change now).fetchRows targetId =
      s.fetchRows targetId := by
  show (s.changes ++ [change]).filter _ = _
  rw [List.filter_append, List.filter_cons_of_neg (by simp [hid])]
  exact List.append_nil _

theorem getTarget_recordFetch_self {documentId : Uuid} {sha : String} {status : Int}
    {change : HermesSourceChange} (hget : s.getTarget t.id = some t) :
    ∃ u, (s.recordFetch t jobId documentId sha status change now).getTarget t.id = some u ∧
      u.lastContentSha256 = some sha := by
  obtain ⟨hmem, -⟩ := lookup_some hget
  have hfound : ∃ r ∈ s.targets, r.id = (afterFetch jobId documentId sha status now t).id :=
    ⟨t, hmem, rfl⟩
  exact ⟨_, lookup_replace_self hfound, rfl⟩

theorem getTarget_recordFetch_ne {documentId : Uuid} {sha : String} {status : Int}
    {change : HermesSourceChange} (hne : targetId ≠ t.id) :
    (s.recordFetch t jobId documentId sha status change now).getTarget targetId =
      s.getTarget targetId := by
  have hne' : targetId ≠ (afterFetch jobId documentId sha status now t).id := hne
  exact lookup_replace_ne hne' s.targets

theorem storeFetch_of_some {doc : HermesFetchedDocument}
    (hdoc : s.findByTargetAndHash t.id (sha256 fetch.body) = some doc) :
    s.storeFetch sha256 t jobId fetch now =
      s.recordFetch t jobId doc.id (sha256 fetch.body) fetch.httpStatus
        (unchangedRow t jobId doc (sha256 fetch.body) now) now := by
  unfold storeFetch
  simp only [hdoc]

theorem storeFetch_of_none (hdoc : s.findByTargetAndHash t.id (sha256 fetch.body) = none) :
    s.storeFetch sha256 t jobId fetch now =
      (s.addDocument (s.newDocument sha256 t jobId fetch now)).recordFetch t jobId s.nextId
        (sha256 fetch.body) fetch.httpStatus (s.changedRow sha256 t jobId fetch now) now := by
  unfold storeFetch
  simp only [hdoc]
  rfl

/-- The content was stored before. -/
theorem storeFetch_known {doc : HermesFetchedDocument} (hget : s.getTarget t.id = some t)
    (ht : s.Tracks t.id fetches)
    (hdoc : s.findByTargetAndHash t.id (sha256 fetch.body) = some doc) :
    LogsFetch s (s.storeFetch sha256 t jobId fetch now) ⟨t.id, sha256 fetch.body, now⟩ fetches
      (unchangedRow t jobId doc (sha256 fetch.body) now) := by
  have hold : sha256 fetch.body ∈ fetches.map Fetched.sha :=
    (findByTargetAndHash_isSome ht).mp (Option.isSome_of_eq_some hdoc)
  rw [storeFetch_of_some hdoc]
  refine ⟨?_, ?_, rfl, getTarget_recordFetch_self hget, fun _ _ => rfl, ?_, ?_, ?_⟩
  · rw [stored_append, if_pos ((mem_stored _ _).mpr hold)]
    exact ht.documents
  · exact fetchRows_recordFetch_self (by simp [unchangedRow]) rfl
  · exact ⟨fun _ => hold, fun _ => rfl⟩
  · simp [unchangedRow, hold]
  · intro h
    cases h

/-- A document that was there is found as before when one with a new id is
added. -/
theorem Tidy.lookup_addDocument (h : s.Tidy) {d : HermesFetchedDocument} (hd : d.id = s.nextId)
    {id : Uuid} (hid : ∃ x ∈ s.documents, x.id = id) :
    lookup HermesFetchedDocument.id id (s.addDocument d).documents =
      lookup HermesFetchedDocument.id id s.documents := by
  have hlt : ∀ y ∈ s.documents, y.id ≠ d.id := by
    intro y hy
    rw [hd]
    exact Nat.ne_of_lt (h.document_lt y hy)
  obtain ⟨x, hx, rfl⟩ := hid
  exact (lookup_append_single hlt).trans (if_neg (hlt x hx))

theorem Tidy.previousDocumentSha_addDocument (h : s.Tidy) {d : HermesFetchedDocument}
    (hd : d.id = s.nextId) {c : HermesSourceChange} (hc : c ∈ s.changes) :
    (s.addDocument d).previousDocumentSha c = s.previousDocumentSha c := by
  unfold previousDocumentSha
  cases hprev : c.previousDocumentId with
  | none => rfl
  | some id =>
      rw [Option.bind_some, Option.bind_some, h.lookup_addDocument hd (h.named c hc id hprev)]

/-- The target has no document and no last hash exactly before its first fetch. -/
theorem Tracks.first_iff (ht : s.Tracks t.id fetches) (hget : s.getTarget t.id = some t) :
    (s.getLatestForTarget t.id).isNone = true ∧ t.lastContentSha256.isNone = true ↔
      fetches = [] := by
  rw [Option.isNone_iff_eq_none, getLatestForTarget_eq_none, ht.last t hget]
  constructor
  · rintro ⟨hnone, -⟩
    rw [← stored_eq_nil, ← ht.documents, hnone]
    rfl
  · rintro rfl
    exact ⟨List.map_eq_nil_iff.mp ht.documents, rfl⟩

theorem changedRow_type (sha256 : List UInt8 → String) (jobId : Uuid) (fetch : FetchTuple)
    (now : Time) (ht : s.Tracks t.id fetches) (hget : s.getTarget t.id = some t) :
    (s.changedRow sha256 t jobId fetch now).changeType =
      if fetches = [] then .firstSeen else .contentChanged := by
  have hfirst := ht.first_iff hget
  unfold changedRow
  by_cases hnil : fetches = []
  · rw [if_pos hnil, if_pos (hfirst.mpr hnil)]
  · rw [if_neg hnil, if_neg (fun h => hnil (hfirst.mp h))]

/-- The content is new to the target. -/
theorem storeFetch_new (htidy : s.Tidy) (hget : s.getTarget t.id = some t)
    (ht : s.Tracks t.id fetches)
    (hdoc : s.findByTargetAndHash t.id (sha256 fetch.body) = none) :
    LogsFetch s (s.storeFetch sha256 t jobId fetch now) ⟨t.id, sha256 fetch.body, now⟩
      fetches (s.changedRow sha256 t jobId fetch now) := by
  have hnew : sha256 fetch.body ∉ fetches.map Fetched.sha := by
    rw [← findByTargetAndHash_isSome ht, hdoc]
    exact Bool.false_ne_true
  have htype := changedRow_type sha256 jobId fetch now ht hget
  have hnotFailed : (s.changedRow sha256 t jobId fetch now).changeType ≠ .fetchFailed := by
    rw [htype]
    split <;> decide
  rw [storeFetch_of_none hdoc]
  refine ⟨?_, ?_, rfl, getTarget_recordFetch_self hget, ?_, ?_, ?_, ?_⟩
  · show ((s.documents ++ [_]).filter _).map _ = _
    rw [List.filter_append, List.map_append, stored_append,
      if_neg (fun h => hnew ((mem_stored _ _).mp h)), ← ht.documents,
      List.filter_cons_of_pos (by simp [newDocument])]
    rfl
  · exact fetchRows_recordFetch_self hnotFailed rfl
  · intro c hc
    exact htidy.previousDocumentSha_addDocument rfl hc
  · rw [htype]
    simp only [hnew, iff_false]
    split <;> decide
  · rw [htype]
    by_cases hnil : fetches = []
    · simp [hnil]
    · simp [hnil, hnew]
  · intro _
    refine ⟨ht.last t hget, ?_⟩
    rw [← getLatestForTarget_sha ht]
    show ((s.getLatestForTarget t.id).map _).bind _ = _
    cases hlatest : s.getLatestForTarget t.id with
    | none => rfl
    | some d =>
        have hd := getLatestForTarget_mem hlatest
        have hfound : lookup HermesFetchedDocument.id d.id
            (s.addDocument (s.newDocument sha256 t jobId fetch now)).documents = some d :=
          (htidy.lookup_addDocument rfl ⟨d, hd, rfl⟩).trans (htidy.documentIds.lookup_eq hd)
        rw [Option.map_some, Option.bind_some]
        exact congrArg _ hfound

theorem storeFetch_quiet (htidy : s.Tidy) (hne : targetId ≠ t.id) :
    Quiet s (s.storeFetch sha256 t jobId fetch now) targetId := by
  cases hdoc : s.findByTargetAndHash t.id (sha256 fetch.body) with
  | some doc =>
      rw [storeFetch_of_some hdoc]
      refine ⟨rfl, fetchRows_recordFetch_ne (Ne.symm hne), .inl ?_, fun _ _ => rfl⟩
      rw [getTarget_recordFetch_ne hne]
  | none =>
      rw [storeFetch_of_none hdoc]
      refine ⟨?_, fetchRows_recordFetch_ne (Ne.symm hne), .inl ?_, ?_⟩
      · show (s.documents ++ [_]).filter _ = _
        rw [List.filter_append, List.filter_cons_of_neg (by simp [newDocument, Ne.symm hne])]
        exact List.append_nil _
      · rw [getTarget_recordFetch_ne hne]
        rfl
      · intro c hc
        exact htidy.previousDocumentSha_addDocument rfl hc

theorem Tidy.recordFetch {documentId : Uuid} {sha : String} {status : Int}
    {change : HermesSourceChange} (h : s.Tidy) (hget : s.getTarget t.id = some t)
    (hchange : ∀ id, change.previousDocumentId = some id → ∃ d ∈ s.documents, d.id = id) :
    (s.recordFetch t jobId documentId sha status change now).Tidy := by
  obtain ⟨hmem, -⟩ := lookup_some hget
  refine ⟨h.targetIds.replace _, ?_, h.documentIds, h.document_lt, ?_⟩
  · intro u hu
    obtain ⟨v, hv, rfl⟩ := mem_updateWhere.mp hu
    split
    · exact h.target_lt t hmem
    · exact h.target_lt v hv
  · intro c hc id hid
    rcases List.mem_append.mp hc with hc | hc
    · exact h.named c hc id hid
    · rw [List.mem_singleton.mp hc] at hid
      exact hchange id hid

theorem Tidy.addDocument {d : HermesFetchedDocument} (h : s.Tidy) (hd : d.id = s.nextId) :
    (s.addDocument d).Tidy := by
  have hnew : ∀ x ∈ s.documents, x.id ≠ d.id := by
    intro x hx
    rw [hd]
    exact Nat.ne_of_lt (h.document_lt x hx)
  refine ⟨h.targetIds, ?_, h.documentIds.append_single hnew, ?_, ?_⟩
  · intro u hu
    exact Nat.lt_succ_of_lt (h.target_lt u hu)
  · intro x hx
    rcases List.mem_append.mp hx with hx | hx
    · exact Nat.lt_succ_of_lt (h.document_lt x hx)
    · rw [List.mem_singleton.mp hx, hd]
      exact Nat.lt_succ_self s.nextId
  · intro c hc id hid
    obtain ⟨x, hx, hxid⟩ := h.named c hc id hid
    exact ⟨x, List.mem_append_left _ hx, hxid⟩

theorem Tidy.storeFetch (h : s.Tidy) (hget : s.getTarget t.id = some t) :
    (s.storeFetch sha256 t jobId fetch now).Tidy := by
  cases hdoc : s.findByTargetAndHash t.id (sha256 fetch.body) with
  | some doc =>
      rw [storeFetch_of_some hdoc]
      refine h.recordFetch hget ?_
      intro id hid
      have hmem := List.mem_of_find?_eq_some hdoc
      simp only [unchangedRow, Option.some.injEq] at hid
      exact ⟨doc, (List.mem_filter.mp hmem).1, hid⟩
  | none =>
      rw [storeFetch_of_none hdoc]
      have htidy := h.addDocument (d := s.newDocument sha256 t jobId fetch now) rfl
      refine htidy.recordFetch hget ?_
      intro id hid
      obtain ⟨d, hd, rfl⟩ := Option.map_eq_some_iff.mp hid
      exact ⟨d, List.mem_append_left _ (getLatestForTarget_mem hd), rfl⟩

end StoreFetch

/-! ## Whole runs -/

variable (sha256 : List UInt8 → String)

/-- A step is a fetch of its target, or leaves every target's history alone. -/
theorem step_cases (htidy : s.Tidy) (op : HermesOp) :
    (s.step sha256 op).Tidy ∧
      ((s.fetched sha256 op = none ∧ ∀ targetId, Quiet s (s.step sha256 op) targetId) ∨
        ∃ f, s.fetched sha256 op = some f ∧
          (∀ targetId, targetId ≠ f.targetId → Quiet s (s.step sha256 op) targetId) ∧
          ∀ fetches, s.Tracks f.targetId fetches →
            ∃ row, LogsFetch s (s.step sha256 op) f fetches row) := by
  have hfailure : ∀ jobId target now, (s.finalizeFailure jobId target now).Tidy ∧
      ∀ targetId, Quiet s (s.finalizeFailure jobId target now) targetId := by
    intro jobId target now
    obtain ⟨news, heq, hnews⟩ := s.finalizeFailure_eq jobId target now
    rw [heq]
    refine ⟨htidy.addFailures hnews, fun targetId => ?_⟩
    exact quiet_of_changes rfl rfl (fun c hc => (hnews c hc).1) rfl
  cases op with
  | addTarget => exact ⟨htidy.addTarget sha256, .inl ⟨rfl, fun _ => quiet_addTarget htidy sha256⟩⟩
  | setStatus id status =>
      exact ⟨htidy.setStatus sha256 id status, .inl ⟨rfl, fun _ => quiet_setStatus sha256 id status⟩⟩
  | fail jobId target now =>
      exact ⟨(hfailure jobId target now).1, .inl ⟨rfl, (hfailure jobId target now).2⟩⟩
  | succeed jobId target fetch now =>
      cases hget : s.getTarget target with
      | none =>
          have hstep : s.step sha256 (.succeed jobId target fetch now) =
              s.finalizeFailure jobId target now := by
            simp [step, finalizeSuccess, hget]
          have hfetched : s.fetched sha256 (.succeed jobId target fetch now) = none := by
            simp [fetched, hget]
          rw [hstep, hfetched]
          exact ⟨(hfailure jobId target now).1, .inl ⟨rfl, (hfailure jobId target now).2⟩⟩
      | some t =>
          obtain ⟨-, rfl⟩ := lookup_some hget
          by_cases hactive : t.status = .active
          · have hstep : s.step sha256 (.succeed jobId t.id fetch now) =
                s.storeFetch sha256 t jobId fetch now := by
              simp [step, finalizeSuccess, hget, hactive]
            have hfetched : s.fetched sha256 (.succeed jobId t.id fetch now) =
                some ⟨t.id, sha256 fetch.body, now⟩ := by
              simp [fetched, hget, hactive]
            rw [hstep, hfetched]
            refine ⟨htidy.storeFetch hget, .inr ⟨_, rfl, fun _ => storeFetch_quiet htidy, ?_⟩⟩
            intro fetches ht
            cases hdoc : s.findByTargetAndHash t.id (sha256 fetch.body) with
            | some doc => exact ⟨_, storeFetch_known hget ht hdoc⟩
            | none => exact ⟨_, storeFetch_new htidy hget ht hdoc⟩
          · have hstep : s.step sha256 (.succeed jobId t.id fetch now) =
                s.finalizeFailure jobId t.id now := by
              simp [step, finalizeSuccess, hget, hactive]
            have hfetched : s.fetched sha256 (.succeed jobId t.id fetch now) = none := by
              simp [fetched, hget, hactive]
            rw [hstep, hfetched]
            exact ⟨(hfailure jobId t.id now).1, .inl ⟨rfl, (hfailure jobId t.id now).2⟩⟩

/-- The successful fetches of a target, in order. -/
def fetchesOf (fetches : List Fetched) (targetId : Uuid) : List Fetched :=
  fetches.filter fun f => f.targetId = targetId

/-- **The tables follow the fetches**, and the log is a chain exactly when every
fetch was in order. -/
theorem trace_spec (ops : List HermesOp) :
    (trace sha256 ops).1.Tidy ∧ ∀ targetId,
      (trace sha256 ops).1.Tracks targetId (fetchesOf (trace sha256 ops).2 targetId) ∧
        ((trace sha256 ops).1.LogIsChain targetId (fetchesOf (trace sha256 ops).2 targetId) ↔
          EachAfter InOrder (fetchesOf (trace sha256 ops).2 targetId)) := by
  induction ops using List.reverseRecOn with
  | nil =>
      refine ⟨⟨unique_nil _, by simp [trace, empty], unique_nil _, by simp [trace, empty],
        by simp [trace, empty]⟩, fun targetId => ⟨⟨rfl, rfl, ?_, fun _ => rfl⟩, ?_⟩⟩
      · intro t ht
        cases ht
      · exact ⟨fun _ => eachAfter_nil, fun _ => eachAfter_nil⟩
  | append_singleton ops op ih =>
      obtain ⟨htidy, htargets⟩ := ih
      have hstep : trace sha256 (ops ++ [op]) =
          ((trace sha256 ops).1.step sha256 op,
            (trace sha256 ops).2 ++ ((trace sha256 ops).1.fetched sha256 op).toList) := by
        unfold trace
        rw [Runs.run_append]
        rfl
      rw [hstep]
      obtain ⟨htidy', hquiet | ⟨f, hf, hothers, hlogs⟩⟩ := step_cases sha256 htidy op
      · obtain ⟨hnone, hquiet⟩ := hquiet
        refine ⟨htidy', fun targetId => ?_⟩
        obtain ⟨ht, hiff⟩ := htargets targetId
        rw [hnone, Option.toList_none, List.append_nil]
        exact ⟨(hquiet targetId).tracks ht, (hquiet targetId).logIsChain.trans hiff⟩
      · refine ⟨htidy', fun targetId => ?_⟩
        obtain ⟨ht, hiff⟩ := htargets targetId
        rw [hf, Option.toList_some]
        by_cases hid : targetId = f.targetId
        · subst hid
          have hfetches : fetchesOf ((trace sha256 ops).2 ++ [f]) f.targetId =
              fetchesOf (trace sha256 ops).2 f.targetId ++ [f] := by
            unfold fetchesOf
            rw [List.filter_append, List.filter_cons_of_pos (by simp)]
            rfl
          obtain ⟨row, hrow⟩ := hlogs _ ht
          rw [hfetches]
          refine ⟨hrow.tracks ht, ?_⟩
          rw [hrow.logIsChain ht, hiff, eachAfter_append]
        · have hfetches : fetchesOf ((trace sha256 ops).2 ++ [f]) targetId =
              fetchesOf (trace sha256 ops).2 targetId := by
            unfold fetchesOf
            rw [List.filter_append, List.filter_cons_of_neg (by simpa using Ne.symm hid)]
            exact List.append_nil _
          rw [hfetches]
          exact ⟨(hothers targetId hid).tracks ht, (hothers targetId hid).logIsChain.trans hiff⟩

end HermesStore

/-- **When the change log is a chain.**  After any run, the rows of a target's
successful fetches carry their hashes in order, and they form a chain exactly
when no fetch returned to an older content and, whenever a fetch brought a new
content, the document of the content before it was the newest of the target. -/
theorem change_log_is_chain_iff (sha256 : List UInt8 → String) (ops : List HermesOp)
    (targetId : Uuid) :
    ((HermesStore.trace sha256 ops).1.fetchRows targetId).map HermesSourceChange.newSha256 =
        (HermesStore.fetchesOf (HermesStore.trace sha256 ops).2 targetId).map
          (fun f => some f.sha) ∧
      ((HermesStore.trace sha256 ops).1.LogIsChain targetId
          (HermesStore.fetchesOf (HermesStore.trace sha256 ops).2 targetId) ↔
        EachAfter InOrder (HermesStore.fetchesOf (HermesStore.trace sha256 ops).2 targetId)) := by
  obtain ⟨-, htargets⟩ := HermesStore.trace_spec sha256 ops
  exact ⟨(htargets targetId).1.rows, (htargets targetId).2⟩

/-- A page changes and changes back. -/
def pageChangesBack : List HermesOp :=
  [.addTarget, .succeed 100 1 ⟨"", 200, [65]⟩ 1, .succeed 101 1 ⟨"", 200, [66]⟩ 2,
    .succeed 102 1 ⟨"", 200, [65]⟩ 3]

/-- The bytes as text, in place of a digest. -/
def plainDigest (body : List UInt8) : String := String.ofList (body.map fun b => Char.ofNat b.toNat)

theorem change_log_breaks_on_return :
    ¬ (HermesStore.trace plainDigest pageChangesBack).1.LogIsChain 1
      (HermesStore.fetchesOf (HermesStore.trace plainDigest pageChangesBack).2 1) := by
  decide +kernel

end Atlas
