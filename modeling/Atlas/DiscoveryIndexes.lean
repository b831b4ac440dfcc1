import Atlas.Editorial
import Atlas.Lib.Runs

/-!
# The discovery indexes mirror publication

Over every run of editorial operations and reindex runs, with the accident store
changing in any way in between, the search index holds exactly the published
pages and the map index exactly those of them whose projection had valid
coordinates when the page was last indexed.
-/

namespace Atlas

open Outcome Rows

/-! ## Rows by key -/

theorem mem_map_upsertRow {α : Type} {key : α → Uuid} {entry : α} {rows : List α} {id : Uuid} :
    id ∈ (upsertRow key entry rows).map key ↔ id = key entry ∨ id ∈ rows.map key := by
  unfold upsertRow
  split
  · rename_i hany
    obtain ⟨r, hr, hkey⟩ := List.any_eq_true.mp hany
    have hkey : key r = key entry := by simpa using hkey
    have hcolumn : (updateWhere (fun r => key r = key entry) (fun _ => entry) rows).map key =
        rows.map key := by
      rw [updateWhere, List.map_map]
      refine List.map_congr_left ?_
      intro x _
      by_cases hx : key x = key entry <;> simp [hx]
    rw [hcolumn]
    refine ⟨.inr, ?_⟩
    rintro (rfl | h)
    · exact hkey ▸ List.mem_map_of_mem hr
    · exact h
  · simp only [List.map_append, List.map_cons, List.map_nil, List.mem_append, List.mem_singleton]
    tauto

theorem mem_map_delete {α : Type} {key : α → Uuid} {rows : List α} {id gone : Uuid} :
    id ∈ (rows.filter fun r => key r ≠ gone).map key ↔ id ≠ gone ∧ id ∈ rows.map key := by
  simp only [List.mem_map, List.mem_filter, decide_eq_true_eq]
  constructor
  · rintro ⟨r, ⟨hr, hne⟩, rfl⟩
    exact ⟨hne, r, hr, rfl⟩
  · rintro ⟨hne, r, hr, rfl⟩
    exact ⟨r, ⟨hr, hne⟩, rfl⟩

/-- Rebuilding an index from entries leaves the keys of the entries. -/
theorem mem_map_rebuild {α : Type} {key : α → Uuid} {entries rows : List α} {id : Uuid} :
    id ∈ (entries.foldl (fun rows e => upsertRow key e rows) rows).map key ↔
      id ∈ rows.map key ∨ id ∈ entries.map key := by
  induction entries generalizing rows with
  | nil => simp
  | cons e entries ih =>
      rw [List.foldl_cons, ih, mem_map_upsertRow, List.map_cons, List.mem_cons]
      tauto

namespace EditorialDb

variable {s s' : EditorialDb}

/-! ## The use cases -/

/-- A published page has the id. -/
def Published (s : EditorialDb) (id : Uuid) : Prop :=
  ∃ p ∈ s.pages, p.id = id ∧ p.status = .published

/-- A committed creation adds one draft. -/
theorem createPage_ok {input : CreatePublicEventPageInput} {now : Time}
    (h : s.createPage input now = .ok s') :
    ∃ page : PublicEventPage, page.id = s.nextId ∧ page.status = .draft ∧
      s'.pages = s.pages ++ [page] ∧ s'.nextId = s.nextId + 1 ∧ s'.search = s.search ∧
      s'.maps = s.maps := by
  simp only [createPage, addPage, bind_ok, pure_ok, require_ok] at h
  obtain ⟨slug, _, s₁, ⟨_, _, _, _, _, _, rfl⟩, rfl⟩ := h
  exact ⟨_, rfl, rfl, rfl, rfl, rfl, rfl⟩

/-- What the update statement does when it matches. -/
theorem updatePage_ok {page : PublicEventPage} {expectedVersion : Int}
    (h : s.updatePage page expectedVersion = .ok s') :
    s' = { s with pages := updateWhere (fun p => p.id = page.id) (setColumns page) s.pages } := by
  simp only [updatePage, bind_ok, pure_ok, require_ok] at h
  obtain ⟨_, _, _, _, _, _, rfl⟩ := h
  rfl

/-- The pages after a committed update or transition: the loaded one with new
columns, the others as they were. -/
structure Replaced (s s' : EditorialDb) (old new : PublicEventPage) : Prop where
  loaded : old ∈ s.pages
  id : new.id = old.id
  pages : s'.pages = updateWhere (fun p => p.id = old.id) (setColumns new) s.pages
  nextId : s'.nextId = s.nextId

theorem loadPage_ok {id : Uuid} {page : PublicEventPage} (h : s.loadPage id = .ok page) :
    page ∈ s.pages ∧ page.id = id :=
  lookup_some (fromOption_ok.mp h)

theorem updatePublicEventPage_ok {input : UpdatePublicEventPageInput} {now : Time}
    (h : s.updatePublicEventPage input now = .ok s') :
    ∃ old new, Replaced s s' old new ∧ old.status = .draft ∧ new.status = .draft ∧
      s'.search = s.search ∧ s'.maps = s.maps := by
  simp only [updatePublicEventPage, bind_ok, pure_ok] at h
  obtain ⟨old, hold, new, hnew, s₁, hupdate, rfl⟩ := h
  obtain ⟨hdraft, hdraft', _, hid, _⟩ := input.edit_ok hnew
  obtain rfl := updatePage_ok hupdate
  refine ⟨old, new, ⟨(loadPage_ok hold).1, hid, ?_, rfl⟩, hdraft, hdraft', rfl, rfl⟩
  rw [← hid]
  rfl

/-- The published pages after a page was replaced. -/
theorem Replaced.published {old new : PublicEventPage} (h : Replaced s s' old new) (id : Uuid) :
    s'.Published id ↔ (id = old.id ∧ new.status = .published) ∨ (id ≠ old.id ∧ s.Published id) := by
  unfold Published
  rw [h.pages]
  constructor
  · rintro ⟨p, hp, rfl, hstatus⟩
    obtain ⟨q, hq, heq⟩ := mem_updateWhere.mp hp
    by_cases hid : q.id = old.id
    · rw [if_pos (by simpa using hid)] at heq
      subst heq
      exact .inl ⟨hid, hstatus⟩
    · rw [if_neg (by simpa using hid)] at heq
      subst heq
      exact .inr ⟨hid, q, hq, rfl, hstatus⟩
  · rintro (⟨rfl, hstatus⟩ | ⟨hne, p, hp, rfl, hstatus⟩)
    · exact ⟨setColumns new old, mem_updateWhere.mpr ⟨old, h.loaded, by simp⟩, rfl, hstatus⟩
    · exact ⟨p, mem_updateWhere.mpr ⟨p, hp, by simp [hne]⟩, rfl, hstatus⟩

/-! ## The reindex -/

/-- The published pages in the order of the walk. -/
def publishedListing (s : EditorialDb) : List PublicEventPage :=
  Keyset.listing PublicEventPage.editorialKey (s.pages.filter (·.status ∈ [.published]))

theorem mem_publishedListing {page : PublicEventPage} :
    page ∈ s.publishedListing ↔ page ∈ s.pages ∧ page.status = .published := by
  simp [publishedListing, Keyset.mem_listing]

theorem descending_publishedListing (hids : Unique PublicEventPage.id s.pages) :
    Keyset.Descending PublicEventPage.editorialKey s.publishedListing := by
  refine Keyset.descending_listing ?_
  have hfiltered : ((s.pages.filter (·.status ∈ [.published])).map PublicEventPage.id).Nodup :=
    hids.sublist (List.filter_sublist.map _)
  refine List.Nodup.of_map (fun k : Time ×ₗ Uuid => (ofLex k).2) ?_
  rw [List.map_map]
  exact hfiltered

/-- A batch of the walk: the cursor is the last page seen, and the rows behind it
are those not seen yet. -/
theorem editorialRows_after (hids : Unique PublicEventPage.id s.pages)
    {pre post : List PublicEventPage} {cursor : Option Uuid}
    (hsplit : s.publishedListing = pre ++ post)
    (hcursor : cursor = pre.getLast?.map PublicEventPage.id) :
    s.editorialRows [.published] cursor = post := by
  rcases List.eq_nil_or_concat pre with rfl | ⟨pre, c, rfl⟩
  · subst hcursor
    exact hsplit
  · have hsplit : s.publishedListing = pre ++ c :: post := by rw [hsplit]; simp
    have hcursor : cursor = some c.id := by rw [hcursor]; simp
    obtain ⟨hmem, hstatus⟩ := mem_publishedListing.mp (show c ∈ s.publishedListing by rw [hsplit]; simp)
    have hget : s.getById c.id = some c := hids.lookup_eq hmem
    have hbelow : Keyset.below PublicEventPage.editorialKey c.editorialKey s.publishedListing =
        post := by
      rw [hsplit]
      exact Keyset.below_eq (hsplit ▸ descending_publishedListing hids)
    have hin : c.status ∈ [PublicationStatus.published] := by simp [hstatus]
    rw [editorialRows, hcursor]
    simp only [Option.bind_some, hget, if_pos hin]
    exact hbelow

end EditorialDb

/-! ## Index entries -/

section

variable [PyText] [PyRepr] [PyIsoDate]

/-- The projection has coordinates that are numbers within range. -/
def HasCoords (projection : Option ProjectedAccidentRecord) : Prop :=
  ∃ coords, extractCoords (projectionFields projection) = .ok (some coords)

theorem entryFrom_pageId {page : PublicEventPage} {projection : Option ProjectedAccidentRecord}
    {entry : SearchIndexEntry} (h : entryFrom page projection = .ok entry) : entry.pageId = page.id := by
  simp only [entryFrom, bind_ok, pure_ok] at h
  obtain ⟨_, _, rfl⟩ := h
  rfl

theorem mapEntryAt_pageId {page : PublicEventPage} {projection : Option ProjectedAccidentRecord}
    {coords : PyFloat × PyFloat} {entry : MapIndexEntry}
    (h : mapEntryAt page projection coords = .ok entry) : entry.pageId = page.id := by
  simp only [mapEntryAt, bind_ok, pure_ok] at h
  obtain ⟨_, _, rfl⟩ := h
  rfl

/-- A page gets a map row exactly when its projection has coordinates. -/
theorem mapEntryFrom_cases {page : PublicEventPage} {projection : Option ProjectedAccidentRecord}
    {entry : Option MapIndexEntry} (h : mapEntryFrom page projection = .ok entry) :
    (∃ e, entry = some e ∧ e.pageId = page.id ∧ HasCoords projection) ∨
      (entry = none ∧ ¬ HasCoords projection) := by
  simp only [mapEntryFrom, bind_ok] at h
  obtain ⟨coords, hcoords, h⟩ := h
  cases coords with
  | none =>
      refine .inr ⟨(pure_ok.mp h).symm, ?_⟩
      rintro ⟨c, hc⟩
      rw [hcoords] at hc
      cases hc
  | some coords =>
      cases hentry : mapEntryAt page projection coords with
      | error e =>
          simp only [hentry] at h
          cases h
      | ok e =>
          simp only [hentry] at h
          cases h
          exact .inl ⟨e, rfl, mapEntryAt_pageId hentry, coords, hcoords⟩

namespace EditorialDb

variable {s s' : EditorialDb}

/-- A committed transition replaced the page and then ran its hook. -/
theorem transitionPage_ok {t : Transition} {input : TransitionPublicEventPageInput} {now : Time}
    (h : s.transitionPage t input now = .ok s') :
    ∃ old s₁, old ∈ s.pages ∧ old.id = input.pageId ∧ t.target ∈ allowedTransitions old.status ∧
      Replaced s s₁ old (t.applyStatusMutation input now old) ∧
      s₁.store = s.store ∧ s₁.search = s.search ∧ s₁.maps = s.maps ∧
      s₁.postTransitionHook t (t.applyStatusMutation input now old) = .ok s' := by
  simp only [transitionPage, bind_ok] at h
  obtain ⟨old, hold, new, hnew, s₁, hupdate, h⟩ := h
  obtain ⟨hallowed, rfl⟩ := input.edit_ok hnew
  have hs₁ := updatePage_ok hupdate
  obtain ⟨hmem, hid⟩ := loadPage_ok hold
  refine ⟨old, _, hmem, hid, hallowed, ⟨hmem, t.applyStatusMutation_id input now old, ?_, ?_⟩,
    ?_, ?_, ?_, h⟩
  · rw [hs₁, ← t.applyStatusMutation_id input now old]
    rfl
  all_goals rw [hs₁]; rfl

/-- **The walk visits every published page once.**  With one turn more than there
are pages left, the loop does what one pass over them does. -/
theorem reindexLoop_eq (hids : Unique PublicEventPage.id s.pages) {turns : Nat}
    {l post : List PublicEventPage} {cursor : Option Uuid}
    (hsplit : s.publishedListing = l ++ post)
    (hcursor : cursor = l.getLast?.map PublicEventPage.id) (hturns : post.length < turns)
    (acc : List SearchIndexEntry × List MapIndexEntry) :
    s.reindexLoop turns cursor acc = post.foldlM (reindexRow s) acc := by
  induction turns generalizing l post cursor acc with
  | zero => omega
  | succ turns ih =>
      rw [reindexLoop, listEditorial, editorialRows_after hids hsplit hcursor]
      rcases Keyset.batch_cases (show 0 < reindexBatchSize by decide) post with
        hall | ⟨items, c, rest, rfl, hpart⟩
      · simp only [hall, Option.map_none]
        exact bind_pure _
      · simp only [hpart, Option.map_some]
        have hrest : ∀ acc, s.reindexLoop turns (some c.id) acc = rest.foldlM (reindexRow s) acc := by
          intro acc
          refine ih (l := l ++ (items ++ [c])) ?_ ?_ ?_ acc
          · rw [hsplit]
            simp
          · simp
          · simp only [List.length_append, List.length_cons] at hturns
            omega
        have happend : items ++ c :: rest = (items ++ [c]) ++ rest := by simp
        simp only [hrest]
        rw [happend]
        exact List.foldlM_append.symm

theorem reindexLoop_all (hids : Unique PublicEventPage.id s.pages)
    (acc : List SearchIndexEntry × List MapIndexEntry) :
    s.reindexLoop (s.pages.length + 1) none acc = s.publishedListing.foldlM (reindexRow s) acc := by
  have hperm : s.publishedListing.length = (s.pages.filter (·.status ∈ [.published])).length :=
    (Keyset.perm_listing _).length_eq
  have hfilter := List.length_filter_le (fun p : PublicEventPage => p.status ∈ [.published]) s.pages
  exact reindexLoop_eq hids (l := []) (List.nil_append _).symm rfl (by omega) acc

/-- What a pass over pages collects. -/
theorem foldlM_reindexRow {pages : List PublicEventPage}
    {acc acc' : List SearchIndexEntry × List MapIndexEntry}
    (h : pages.foldlM (reindexRow s) acc = .ok acc') (id : Uuid) :
    (id ∈ acc'.1.map SearchIndexEntry.pageId ↔
      id ∈ acc.1.map SearchIndexEntry.pageId ∨ ∃ p ∈ pages, p.id = id) ∧
    (id ∈ acc'.2.map MapIndexEntry.pageId ↔ id ∈ acc.2.map MapIndexEntry.pageId ∨
      ∃ p ∈ pages, p.id = id ∧ HasCoords (s.store.getProjection p.eventId)) := by
  induction pages generalizing acc with
  | nil =>
      obtain rfl : acc = acc' := pure_ok.mp h
      simp
  | cons page pages ih =>
      rw [List.foldlM_cons, bind_ok] at h
      obtain ⟨acc₁, hrow, h⟩ := h
      obtain ⟨hsearch, hmaps⟩ := ih h
      simp only [reindexRow, bind_ok, pure_ok, require_ok] at hrow
      obtain ⟨entry, hentry, mapEntry, hmap, _, _, rfl⟩ := hrow
      have hpage := entryFrom_pageId hentry
      rw [hsearch, hmaps]
      constructor
      · simp only [List.map_append, List.map_cons, List.map_nil, List.mem_append, List.mem_singleton,
          hpage, List.exists_mem_cons_iff, eq_comm (a := id), or_assoc]
      · rcases mapEntryFrom_cases hmap with ⟨e, rfl, he, hcoords⟩ | ⟨rfl, hnone⟩
        · simp only [Option.toList_some, List.map_append, List.map_cons, List.map_nil,
            List.mem_append, List.mem_singleton, he, List.exists_mem_cons_iff, eq_comm (a := id),
            hcoords, and_true, or_assoc]
        · simp only [Option.toList_none, List.append_nil, List.exists_mem_cons_iff, hnone, and_false,
            false_or]

/-- A committed reindex leaves the published pages in the search index and those
with coordinates in the map index. -/
theorem reindexPublicEvents_ok (hids : Unique PublicEventPage.id s.pages)
    (h : s.reindexPublicEvents = .ok s') :
    s'.pages = s.pages ∧ s'.nextId = s.nextId ∧
    (∀ id, id ∈ s'.search.map SearchIndexEntry.pageId ↔ s.Published id) ∧
    ∀ id, id ∈ s'.maps.map MapIndexEntry.pageId ↔
      ∃ p ∈ s.pages, p.id = id ∧ p.status = .published ∧
        HasCoords (s.store.getProjection p.eventId) := by
  simp only [reindexPublicEvents, bind_ok, pure_ok, reindexLoop_all hids] at h
  obtain ⟨acc, hloop, rfl⟩ := h
  refine ⟨rfl, rfl, ?_, ?_⟩
  · intro id
    have hsearch := (foldlM_reindexRow hloop id).1
    show id ∈ (acc.1.foldl _ []).map _ ↔ _
    rw [mem_map_rebuild, hsearch]
    simp only [List.map_nil, List.not_mem_nil, false_or, mem_publishedListing, Published]
    constructor
    · rintro ⟨p, ⟨hp, hstatus⟩, hid⟩
      exact ⟨p, hp, hid, hstatus⟩
    · rintro ⟨p, hp, hid, hstatus⟩
      exact ⟨p, ⟨hp, hstatus⟩, hid⟩
  · intro id
    have hmaps := (foldlM_reindexRow hloop id).2
    show id ∈ (acc.2.foldl _ []).map _ ↔ _
    rw [mem_map_rebuild, hmaps]
    simp only [List.map_nil, List.not_mem_nil, false_or, mem_publishedListing]
    constructor
    · rintro ⟨p, ⟨hp, hstatus⟩, hid, hcoords⟩
      exact ⟨p, hp, hid, hstatus, hcoords⟩
    · rintro ⟨p, hp, hid, hstatus, hcoords⟩
      exact ⟨p, ⟨hp, hstatus⟩, hid, hcoords⟩

end EditorialDb

/-! ## Runs -/

/-- An editorial operation, a reindex run, or some change of the accident
store. -/
inductive EditorialOp where
  | create (input : CreatePublicEventPageInput) (now : Time)
  | update (input : UpdatePublicEventPageInput) (now : Time)
  | transition (t : Transition) (input : TransitionPublicEventPageInput) (now : Time)
  | reindex
  | evidence (store : Db)

/-- The editorial store, with the projection each page was last indexed with. -/
structure IndexedDb where
  db : EditorialDb
  indexedWith : Uuid → Option ProjectedAccidentRecord

namespace IndexedDb

open EditorialDb

def empty (store : Db) : IndexedDb := ⟨EditorialDb.empty store, fun _ => none⟩

/-- What an operation makes of the store. -/
def execute (s : EditorialDb) : EditorialOp → Except EditorialError EditorialDb
  | .create input now => s.createPage input now
  | .update input now => s.updatePublicEventPage input now
  | .transition t input now => s.transitionPage t input now
  | .reindex => s.reindexPublicEvents
  | .evidence store => .ok { s with store := store }

/-- The projection of a page's event. -/
def projectionOf (s : EditorialDb) (id : Uuid) : Option ProjectedAccidentRecord :=
  (s.getById id).bind fun page => s.store.getProjection page.eventId

/-- The record after a committed operation: a publication indexes its page, a
reindex every published page. -/
def recordIndexing (s : EditorialDb) (indexedWith : Uuid → Option ProjectedAccidentRecord) :
    EditorialOp → Uuid → Option ProjectedAccidentRecord
  | .transition .publish input _ => Function.update indexedWith input.pageId (projectionOf s input.pageId)
  | .reindex => fun id =>
      if s.pages.any fun p => p.id = id ∧ p.status = .published then projectionOf s id
      else indexedWith id
  | _ => indexedWith

/-- One operation; an exception rolls back. -/
def step (s : IndexedDb) (op : EditorialOp) : IndexedDb :=
  match execute s.db op with
  | .ok db => ⟨db, recordIndexing s.db s.indexedWith op⟩
  | .error _ => s

/-- The search index holds the published pages, the map index those of them whose
projection had valid coordinates when they were last indexed. -/
structure Mirrors (s : IndexedDb) : Prop where
  search : ∀ id, id ∈ s.db.search.map SearchIndexEntry.pageId ↔ s.db.Published id
  maps : ∀ id, id ∈ s.db.maps.map MapIndexEntry.pageId ↔
    s.db.Published id ∧ HasCoords (s.indexedWith id)

/-- The invariant: page identifiers are distinct and below the next one, and the
indexes mirror the pages. -/
structure Inv (s : IndexedDb) : Prop where
  ids : Unique PublicEventPage.id s.db.pages
  fresh : ∀ p ∈ s.db.pages, p.id < s.db.nextId
  mirrors : Mirrors s

omit [PyRepr] [PyIsoDate] in
theorem inv_empty (store : Db) : Inv (empty store) := by
  refine ⟨unique_nil _, fun p hp => (List.not_mem_nil hp).elim, ⟨?_, ?_⟩⟩
  · intro id
    simp [empty, EditorialDb.empty, Published]
  · intro id
    simp [empty, EditorialDb.empty, Published]

variable {s : IndexedDb} {db : EditorialDb}

omit [PyRepr] [PyIsoDate] in
/-- Replacing the columns of a page keeps the identifiers. -/
theorem Inv.ids_replaced (h : Inv s) {old new : PublicEventPage} (hrep : Replaced s.db db old new) :
    Unique PublicEventPage.id db.pages ∧ ∀ p ∈ db.pages, p.id < db.nextId := by
  have hids : db.pages.map PublicEventPage.id = s.db.pages.map PublicEventPage.id := by
    rw [hrep.pages]
    exact map_updateWhere PublicEventPage.id fun _ => rfl
  refine ⟨?_, ?_⟩
  · show (db.pages.map PublicEventPage.id).Nodup
    rw [hids]
    exact h.ids
  · intro p hp
    have hmem : p.id ∈ s.db.pages.map PublicEventPage.id := hids ▸ List.mem_map_of_mem hp
    obtain ⟨q, hq, hid⟩ := List.mem_map.mp hmem
    rw [← hid, hrep.nextId]
    exact h.fresh q hq

omit [PyRepr] [PyIsoDate] in
/-- A page was replaced.  The indexes mirror the pages if they treat that page by
its new status and the other pages as before. -/
theorem Inv.replaced (h : Inv s) {old new : PublicEventPage}
    {indexedWith : Uuid → Option ProjectedAccidentRecord} (hrep : Replaced s.db db old new)
    (hothers : ∀ id, id ≠ old.id → indexedWith id = s.indexedWith id ∧
      (id ∈ db.search.map SearchIndexEntry.pageId ↔ id ∈ s.db.search.map SearchIndexEntry.pageId) ∧
      (id ∈ db.maps.map MapIndexEntry.pageId ↔ id ∈ s.db.maps.map MapIndexEntry.pageId))
    (hsearch : old.id ∈ db.search.map SearchIndexEntry.pageId ↔ new.status = .published)
    (hmaps : old.id ∈ db.maps.map MapIndexEntry.pageId ↔
      new.status = .published ∧ HasCoords (indexedWith old.id)) :
    Inv ⟨db, indexedWith⟩ := by
  obtain ⟨hids, hfresh⟩ := h.ids_replaced hrep
  refine ⟨hids, hfresh, ⟨?_, ?_⟩⟩
  · intro id
    show id ∈ db.search.map _ ↔ db.Published id
    rw [hrep.published]
    by_cases hid : id = old.id
    · subst hid
      simp [hsearch]
    · rw [(hothers id hid).2.1, h.mirrors.search]
      simp [hid]
  · intro id
    show id ∈ db.maps.map _ ↔ db.Published id ∧ HasCoords (indexedWith id)
    rw [hrep.published]
    by_cases hid : id = old.id
    · subst hid
      simp [hmaps]
    · rw [(hothers id hid).2.2, h.mirrors.maps, (hothers id hid).1]
      simp [hid]

omit [PyRepr] [PyIsoDate] in
/-- A page that is not published is in neither index. -/
theorem Inv.not_indexed (h : Inv s) {page : PublicEventPage} (hpage : page ∈ s.db.pages)
    (hstatus : page.status ≠ .published) :
    page.id ∉ s.db.search.map SearchIndexEntry.pageId ∧
      page.id ∉ s.db.maps.map MapIndexEntry.pageId := by
  have hnot : ¬ s.db.Published page.id := by
    rintro ⟨q, hq, hid, hpub⟩
    rw [h.ids.eq_of_key hq hpage hid] at hpub
    exact hstatus hpub
  exact ⟨fun hin => hnot ((h.mirrors.search _).mp hin), fun hin => hnot ((h.mirrors.maps _).mp hin).1⟩

omit [PyRepr] [PyIsoDate] in
theorem Inv.create (h : Inv s) {input : CreatePublicEventPageInput} {now : Time}
    (hok : s.db.createPage input now = .ok db) : Inv ⟨db, s.indexedWith⟩ := by
  obtain ⟨page, hid, hstatus, hpages, hnext, hsearch, hmaps⟩ := createPage_ok hok
  have hpublished : ∀ id, db.Published id ↔ s.db.Published id := by
    intro id
    unfold Published
    rw [hpages]
    simp [or_and_right, exists_or, hstatus]
  refine ⟨?_, ?_, ⟨?_, ?_⟩⟩
  · show Unique _ db.pages
    rw [hpages]
    refine h.ids.append_single ?_
    intro p hp
    have hlt := h.fresh p hp
    rw [hid]
    exact Nat.ne_of_lt hlt
  · intro p hp
    show p.id < db.nextId
    rw [hnext]
    rcases List.mem_append.mp (hpages ▸ hp) with hold | hnew
    · exact Nat.lt_succ_of_lt (h.fresh p hold)
    · rw [List.mem_singleton.mp hnew, hid]
      exact Nat.lt_succ_self _
  · intro id
    show id ∈ db.search.map _ ↔ db.Published id
    rw [hsearch, hpublished]
    exact h.mirrors.search id
  · intro id
    show id ∈ db.maps.map _ ↔ db.Published id ∧ _
    rw [hmaps, hpublished]
    exact h.mirrors.maps id

omit [PyRepr] [PyIsoDate] in
/-- A page moves between statuses that are not PUBLISHED and the indexes are left
alone. -/
theorem Inv.unpublished (h : Inv s) {old new : PublicEventPage} (hrep : Replaced s.db db old new)
    (hold : old.status ≠ .published) (hnew : new.status ≠ .published)
    (hsearch : db.search = s.db.search) (hmaps : db.maps = s.db.maps) :
    Inv ⟨db, s.indexedWith⟩ := by
  obtain ⟨hnotSearch, hnotMap⟩ := h.not_indexed hrep.loaded hold
  refine h.replaced hrep (fun id _ => ⟨rfl, by rw [hsearch], by rw [hmaps]⟩) ?_ ?_
  · rw [hsearch]
    exact ⟨fun hin => (hnotSearch hin).elim, fun hpub => (hnew hpub).elim⟩
  · rw [hmaps]
    exact ⟨fun hin => (hnotMap hin).elim, fun hpub => (hnew hpub.1).elim⟩

omit [PyRepr] [PyIsoDate] in
/-- A page leaves PUBLISHED and both indexes. -/
theorem Inv.removed (h : Inv s) {old new : PublicEventPage} {s₁ : EditorialDb}
    (hrep : Replaced s.db s₁ old new) (hnew : new.status ≠ .published)
    (hsearch : s₁.search = s.db.search) (hmaps : s₁.maps = s.db.maps) :
    Inv ⟨(s₁.deleteSearch new.id).deleteMap new.id, s.indexedWith⟩ := by
  have hrep' : Replaced s.db ((s₁.deleteSearch new.id).deleteMap new.id) old new :=
    ⟨hrep.loaded, hrep.id, hrep.pages, hrep.nextId⟩
  have hdeleted : ∀ id, (id ∈ ((s₁.deleteSearch new.id).deleteMap new.id).search.map
      SearchIndexEntry.pageId ↔ id ≠ old.id ∧ id ∈ s.db.search.map SearchIndexEntry.pageId) ∧
      (id ∈ ((s₁.deleteSearch new.id).deleteMap new.id).maps.map MapIndexEntry.pageId ↔
        id ≠ old.id ∧ id ∈ s.db.maps.map MapIndexEntry.pageId) := by
    intro id
    rw [← hrep.id, ← hsearch, ← hmaps]
    exact ⟨mem_map_delete, mem_map_delete⟩
  refine h.replaced hrep' (fun id hid => ⟨rfl, ?_, ?_⟩) ?_ ?_
  · rw [(hdeleted id).1]
    simp [hid]
  · rw [(hdeleted id).2]
    simp [hid]
  · rw [(hdeleted old.id).1]
    simp [hnew]
  · rw [(hdeleted old.id).2]
    simp [hnew]

/-- The hook of a publication: a search row, and a map row or none. -/
structure PublishedInto (s s' : EditorialDb) (page : PublicEventPage) (entry : SearchIndexEntry)
    (mapEntry : Option MapIndexEntry) : Prop where
  made : entryFrom page (s.store.getProjection page.eventId) = .ok entry
  mapMade : mapEntryFrom page (s.store.getProjection page.eventId) = .ok mapEntry
  pages : s'.pages = s.pages
  nextId : s'.nextId = s.nextId
  store : s'.store = s.store
  search : s'.search = upsertRow SearchIndexEntry.pageId entry s.search
  maps : s'.maps = match mapEntry with
    | some e => upsertRow MapIndexEntry.pageId e s.maps
    | none => s.maps.filter fun e => e.pageId ≠ page.id

theorem publish_hook {s s' : EditorialDb} {page : PublicEventPage}
    (h : s.postTransitionHook .publish page = .ok s') :
    ∃ entry mapEntry, PublishedInto s s' page entry mapEntry := by
  simp only [postTransitionHook, indexPublishedPage, indexPublishedPageInMap, bind_ok, pure_ok] at h
  obtain ⟨s₁, ⟨entry, hentry, rfl⟩, mapEntry, hmap, h⟩ := h
  refine ⟨entry, mapEntry, ?_⟩
  cases mapEntry with
  | some e =>
      cases h
      exact ⟨hentry, hmap, rfl, rfl, rfl, rfl, rfl⟩
  | none =>
      cases h
      exact ⟨hentry, hmap, rfl, rfl, rfl, rfl, rfl⟩

/-- The pages in the indexes after a publication. -/
theorem PublishedInto.ids {s s' : EditorialDb} {page : PublicEventPage} {entry : SearchIndexEntry}
    {mapEntry : Option MapIndexEntry} (h : PublishedInto s s' page entry mapEntry) (id : Uuid) :
    (id ∈ s'.search.map SearchIndexEntry.pageId ↔
      id = page.id ∨ id ∈ s.search.map SearchIndexEntry.pageId) ∧
    (id ∈ s'.maps.map MapIndexEntry.pageId ↔
      (id = page.id ∧ HasCoords (s.store.getProjection page.eventId)) ∨
      (id ≠ page.id ∧ id ∈ s.maps.map MapIndexEntry.pageId)) := by
  constructor
  · rw [h.search, mem_map_upsertRow, entryFrom_pageId h.made]
  · rw [h.maps]
    rcases mapEntryFrom_cases h.mapMade with ⟨e, rfl, he, hcoords⟩ | ⟨rfl, hnone⟩
    · simp only [mem_map_upsertRow, he]
      by_cases hid : id = page.id <;> simp [hid, hcoords]
    · simp only [mem_map_delete]
      simp [hnone]

/-- A page enters PUBLISHED and the indexes. -/
theorem Inv.publish (h : Inv s) {old new : PublicEventPage} {s₁ : EditorialDb}
    (hrep : Replaced s.db s₁ old new) (hevent : new.eventId = old.eventId)
    (hstore : s₁.store = s.db.store) (hsearch : s₁.search = s.db.search)
    (hmaps : s₁.maps = s.db.maps) (hnew : new.status = .published)
    (hhook : s₁.postTransitionHook .publish new = .ok db) :
    Inv ⟨db, Function.update s.indexedWith old.id (projectionOf s.db old.id)⟩ := by
  obtain ⟨entry, mapEntry, hinto⟩ := publish_hook hhook
  have hinSearch := fun id => (hinto.ids id).1
  have hinMaps := fun id => (hinto.ids id).2
  have hrep' : Replaced s.db db old new :=
    ⟨hrep.loaded, hrep.id, hinto.pages.trans hrep.pages, hinto.nextId.trans hrep.nextId⟩
  have hprojection : projectionOf s.db old.id = s₁.store.getProjection new.eventId := by
    have hget : s.db.getById old.id = some old := h.ids.lookup_eq hrep.loaded
    rw [projectionOf, hget, hstore, hevent]
    rfl
  refine h.replaced hrep' (fun id hid => ⟨Function.update_of_ne hid _ _, ?_, ?_⟩) ?_ ?_
  · rw [hinSearch, hrep.id, hsearch]
    simp [hid]
  · rw [hinMaps, hrep.id, hmaps]
    simp [hid]
  · rw [hinSearch, hrep.id]
    simp [hnew]
  · rw [hinMaps, hrep.id, Function.update_self, hprojection]
    simp [hnew]

omit [PyText] [PyRepr] [PyIsoDate] in
/-- A transition that touches no index neither starts nor ends at PUBLISHED. -/
theorem unpublished_of_quiet {t : Transition} {status : PublicationStatus}
    (hallowed : t.target ∈ allowedTransitions status) (hpublish : t ≠ .publish)
    (harchive : t ≠ .archive) (hretract : t ≠ .retract) :
    status ≠ .published ∧ t.target ≠ .published := by
  cases t <;> cases status <;> simp_all [Transition.target, allowedTransitions]

theorem Inv.transition (h : Inv s) {t : Transition} {input : TransitionPublicEventPageInput}
    {now : Time} (hok : s.db.transitionPage t input now = .ok db) :
    Inv ⟨db, recordIndexing s.db s.indexedWith (.transition t input now)⟩ := by
  obtain ⟨old, s₁, _, hid, hallowed, hrep, hstore, hsearch, hmaps, hhook⟩ := transitionPage_ok hok
  have hstatus := t.applyStatusMutation_status input now old
  cases t with
  | publish =>
      have hpublished := h.publish hrep (Transition.applyStatusMutation_eventId _ _ _ _) hstore hsearch
        hmaps hstatus hhook
      rw [hid] at hpublished
      exact hpublished
  | archive =>
      cases hhook
      exact h.removed hrep (by rw [hstatus]; decide) hsearch hmaps
  | retract =>
      cases hhook
      exact h.removed hrep (by rw [hstatus]; decide) hsearch hmaps
  | submit | requestChanges | approve | reject | reopen =>
      obtain ⟨hold, hnew⟩ := unpublished_of_quiet hallowed (by decide) (by decide) (by decide)
      cases hhook
      exact h.unpublished hrep hold (by rw [hstatus]; exact hnew) hsearch hmaps

theorem Inv.reindex (h : Inv s) (hok : s.db.reindexPublicEvents = .ok db) :
    Inv ⟨db, recordIndexing s.db s.indexedWith .reindex⟩ := by
  obtain ⟨hpages, hnext, hsearch, hmaps⟩ := reindexPublicEvents_ok h.ids hok
  have hpublished : ∀ id, db.Published id ↔ s.db.Published id := by
    intro id
    unfold Published
    rw [hpages]
  refine ⟨?_, ?_, ⟨?_, ?_⟩⟩
  · show Unique _ db.pages
    rw [hpages]
    exact h.ids
  · show ∀ p ∈ db.pages, p.id < db.nextId
    rw [hpages, hnext]
    exact h.fresh
  · intro id
    show id ∈ db.search.map _ ↔ db.Published id
    rw [hsearch, hpublished]
  · intro id
    show id ∈ db.maps.map _ ↔ db.Published id ∧ HasCoords (recordIndexing s.db s.indexedWith .reindex id)
    rw [hmaps, hpublished]
    constructor
    · rintro ⟨p, hp, rfl, hstatus, hcoords⟩
      refine ⟨⟨p, hp, rfl, hstatus⟩, ?_⟩
      have hget : s.db.getById p.id = some p := h.ids.lookup_eq hp
      have hany : (s.db.pages.any fun q => q.id = p.id ∧ q.status = .published) = true :=
        List.any_eq_true.mpr ⟨p, hp, by simp [hstatus]⟩
      simp only [recordIndexing, hany, if_true, projectionOf, hget, Option.bind_some]
      exact hcoords
    · rintro ⟨⟨p, hp, rfl, hstatus⟩, hcoords⟩
      have hget : s.db.getById p.id = some p := h.ids.lookup_eq hp
      have hany : (s.db.pages.any fun q => q.id = p.id ∧ q.status = .published) = true :=
        List.any_eq_true.mpr ⟨p, hp, by simp [hstatus]⟩
      simp only [recordIndexing, hany, if_true, projectionOf, hget, Option.bind_some] at hcoords
      exact ⟨p, hp, rfl, hstatus, hcoords⟩

theorem Inv.step (h : Inv s) (op : EditorialOp) : Inv (s.step op) := by
  cases hok : execute s.db op with
  | error e => simpa only [IndexedDb.step, hok] using h
  | ok db =>
      simp only [IndexedDb.step, hok]
      cases op with
      | create input now => exact h.create hok
      | update input now =>
          obtain ⟨old, new, hrep, hold, hnew, hsearch, hmaps⟩ := updatePublicEventPage_ok hok
          exact h.unpublished hrep (by rw [hold]; decide) (by rw [hnew]; decide) hsearch hmaps
      | transition t input now => exact h.transition hok
      | reindex => exact h.reindex hok
      | evidence store =>
          cases hok
          exact ⟨h.ids, h.fresh, ⟨h.mirrors.search, h.mirrors.maps⟩⟩

end IndexedDb

/-- **The discovery indexes mirror publication** after any sequence of editorial
operations and reindex runs, whatever happens to the accident store in
between. -/
theorem discovery_indexes_mirror_publication (store : Db) (ops : List EditorialOp) :
    (Runs.run IndexedDb.step (IndexedDb.empty store) ops).Mirrors := by
  have hinv : (Runs.run IndexedDb.step (IndexedDb.empty store) ops).Inv :=
    Runs.invariant (I := IndexedDb.Inv) (fun _ op hs => hs.step op) (IndexedDb.inv_empty store) ops
  exact hinv.mirrors

end

end Atlas
