import Atlas.ConcurrentLaws
import Atlas.DiscoveryIndexes
import Atlas.PublicEvents

/-!
# The facets of the index rows and of the page shown

The index rows of a page are built from the projection stored under the page's
own event; the public reads show the projection of the canonical event.  The two
agree as long as the page's event is not merged away.  A merge removes the
projection of its source, and a reprojection of a merged event stores a minimal
record, so that from then on an index row of the page is blank.
-/

namespace Atlas

open Outcome Rows

/-- The facets of an index row. -/
structure Facets where
  operator : Option String := none
  aircraftType : Option String := none
  country : Option String := none
  eventDate : Option PyDate := none
  fatalitiesTotal : Option Int := none
  confidenceBand : ConfidenceBand := .unknown
deriving DecidableEq, Repr

/-- The facets of a row built without evidence. -/
def blankFacets : Facets := {}

def SearchIndexEntry.facets (e : SearchIndexEntry) : Facets :=
  ⟨e.operator, e.aircraftType, e.country, e.eventDate, e.fatalitiesTotal, e.confidenceBand⟩

def MapIndexEntry.facets (e : MapIndexEntry) : Facets :=
  ⟨e.operator, e.aircraftType, e.country, e.eventDate, e.fatalitiesTotal, e.confidenceBand⟩

section

variable [PyText] [PyRepr] [PyIsoDate]

/-- The facets a projection gives. -/
def facetsOf (projection : Option ProjectedAccidentRecord) : Except EditorialError Facets := do
  let fields := projectionFields projection
  let fatalitiesTotal ← coerceInt (fields.lookup "fatalities_total")
  pure { operator := strOrNone (fields.lookup "operator")
         aircraftType := strOrNone (fields.lookup "aircraft_type")
         country := strOrNone (fields.lookup "country")
         eventDate := parseEventDate (fields.lookup "event_date")
         fatalitiesTotal := fatalitiesTotal
         confidenceBand := confidenceBand projection }

/-- The index rows of the page carry the facets of this projection: the search
row its facets, the map row its facets and coordinates, and there is a map row
exactly when there are coordinates. -/
structure CarriesFacets (s : EditorialDb) (page : PublicEventPage)
    (projection : Option ProjectedAccidentRecord) : Prop where
  listed : page.id ∈ s.search.map SearchIndexEntry.pageId
  search : ∀ e ∈ s.search, e.pageId = page.id → facetsOf projection = .ok e.facets
  located : page.id ∈ s.maps.map MapIndexEntry.pageId ↔ HasCoords projection
  map : ∀ e ∈ s.maps, e.pageId = page.id → facetsOf projection = .ok e.facets ∧
    extractCoords (projectionFields projection) = .ok (some (e.latitude, e.longitude))

/-! ## What an index row carries -/

theorem facetsOf_of_entryFrom {page : PublicEventPage} {projection : Option ProjectedAccidentRecord}
    {entry : SearchIndexEntry} (h : entryFrom page projection = .ok entry) :
    facetsOf projection = .ok entry.facets := by
  simp only [entryFrom, bind_ok, pure_ok] at h
  obtain ⟨total, htotal, rfl⟩ := h
  simp only [facetsOf, bind_ok, pure_ok]
  exact ⟨total, htotal, rfl⟩

theorem facetsOf_of_mapEntryFrom {page : PublicEventPage}
    {projection : Option ProjectedAccidentRecord} {entry : MapIndexEntry}
    (h : mapEntryFrom page projection = .ok (some entry)) :
    facetsOf projection = .ok entry.facets ∧
      extractCoords (projectionFields projection) = .ok (some (entry.latitude, entry.longitude)) := by
  simp only [mapEntryFrom, bind_ok] at h
  obtain ⟨coords, hcoords, h⟩ := h
  cases coords with
  | none => cases pure_ok.mp h
  | some coords =>
      cases hentry : mapEntryAt page projection coords with
      | error e =>
          simp only [hentry] at h
          cases h
      | ok e =>
          simp only [hentry] at h
          cases h
          simp only [mapEntryAt, bind_ok, pure_ok] at hentry
          obtain ⟨total, htotal, rfl⟩ := hentry
          refine ⟨?_, hcoords⟩
          simp only [facetsOf, bind_ok, pure_ok]
          exact ⟨total, htotal, rfl⟩

end

theorem map_fst_canonicalFields (kvs : List (String × Json)) :
    (Json.canonicalFields kvs).map Prod.fst = kvs.map Prod.fst := by
  induction kvs with
  | nil => rfl
  | cons kv kvs ih =>
      obtain ⟨k, v⟩ := kv
      simp [Json.canonicalFields, ih]

/-- Records with the same content have the same field names. -/
theorem mem_fields_of_content {p q : ProjectedAccidentRecord} (h : p.content = q.content)
    (f : String) : f ∈ (serialiseFields p.fields).map Prod.fst ↔
      f ∈ (serialiseFields q.fields).map Prod.fst := by
  have hnames : ∀ r : ProjectedAccidentRecord, f ∈ r.content.fields.map Prod.fst ↔
      f ∈ (serialiseFields r.fields).map Prod.fst := by
    intro r
    rw [← map_fst_canonicalFields (serialiseFields r.fields)]
    exact ((List.perm_insertionSort _ _).map Prod.fst).mem_iff
  rw [← hnames p, ← hnames q, h]

/-- A row upserted is the only one with its key. -/
theorem eq_of_mem_upsertRow {α : Type} {key : α → Uuid} {entry r : α} {rows : List α}
    (hr : r ∈ upsertRow key entry rows) (hkey : key r = key entry) : r = entry := by
  unfold upsertRow at hr
  split at hr
  · obtain ⟨x, _, heq⟩ := mem_updateWhere.mp hr
    by_cases hx : key x = key entry
    · rw [if_pos (by simpa using hx)] at heq
      exact heq.symm
    · rw [if_neg (by simpa using hx)] at heq
      exact (hx (heq ▸ hkey)).elim
  · rename_i hnone
    rcases List.mem_append.mp hr with hold | hnew
    · refine absurd (List.any_eq_true.mpr ⟨r, hold, ?_⟩) hnone
      simpa using hkey
    · exact List.mem_singleton.mp hnew

theorem mem_of_mem_upsertRow {α : Type} {key : α → Uuid} {entry r : α} {rows : List α}
    (hr : r ∈ upsertRow key entry rows) : r = entry ∨ r ∈ rows := by
  unfold upsertRow at hr
  split at hr
  · obtain ⟨x, hx, heq⟩ := mem_updateWhere.mp hr
    split at heq
    · exact .inl heq.symm
    · exact .inr (heq ▸ hx)
  · rcases List.mem_append.mp hr with hold | hnew
    · exact .inr hold
    · exact .inl (List.mem_singleton.mp hnew)

/-- The rows of a rebuilt index are entries it was rebuilt from. -/
theorem mem_of_mem_rebuild {α : Type} {key : α → Uuid} {entries rows : List α} {r : α}
    (hr : r ∈ entries.foldl (fun rows e => upsertRow key e rows) rows) : r ∈ rows ∨ r ∈ entries := by
  induction entries generalizing rows with
  | nil => exact .inl hr
  | cons e entries ih =>
      rcases ih hr with h | h
      · rcases mem_of_mem_upsertRow h with rfl | h
        · exact .inr (List.mem_cons_self ..)
        · exact .inl h
      · exact .inr (List.mem_cons_of_mem _ h)

section

variable [PyText] [PyRepr] [PyIsoDate]

namespace EditorialDb

variable {s s' : EditorialDb}

/-- The entries a pass collects are built from its pages. -/
theorem entries_of_reindex {pages : List PublicEventPage}
    {acc acc' : List SearchIndexEntry × List MapIndexEntry}
    (h : pages.foldlM (reindexRow s) acc = .ok acc') :
    (∀ e ∈ acc'.1, e ∈ acc.1 ∨
      ∃ p ∈ pages, entryFrom p (s.store.getProjection p.eventId) = .ok e) ∧
    ∀ e ∈ acc'.2, e ∈ acc.2 ∨
      ∃ p ∈ pages, mapEntryFrom p (s.store.getProjection p.eventId) = .ok (some e) := by
  induction pages generalizing acc with
  | nil =>
      obtain rfl : acc = acc' := pure_ok.mp h
      exact ⟨fun e he => .inl he, fun e he => .inl he⟩
  | cons page pages ih =>
      rw [List.foldlM_cons, bind_ok] at h
      obtain ⟨acc₁, hrow, h⟩ := h
      obtain ⟨hsearch, hmaps⟩ := ih h
      simp only [reindexRow, bind_ok, pure_ok, require_ok] at hrow
      obtain ⟨entry, hentry, mapEntry, hmap, _, _, rfl⟩ := hrow
      constructor
      · intro e he
        rcases hsearch e he with hin | ⟨p, hp, hbuilt⟩
        · rcases List.mem_append.mp hin with hold | hnew
          · exact .inl hold
          · rw [List.mem_singleton.mp hnew]
            exact .inr ⟨page, List.mem_cons_self .., hentry⟩
        · exact .inr ⟨p, List.mem_cons_of_mem _ hp, hbuilt⟩
      · intro e he
        rcases hmaps e he with hin | ⟨p, hp, hbuilt⟩
        · rcases List.mem_append.mp hin with hold | hnew
          · exact .inl hold
          · have hsome : mapEntry = some e := Option.mem_toList.mp hnew
            exact .inr ⟨page, List.mem_cons_self .., hsome ▸ hmap⟩
        · exact .inr ⟨p, List.mem_cons_of_mem _ hp, hbuilt⟩

/-- After a reindex the rows of a published page carry the facets of the
projection under the page's own event. -/
theorem carriesFacets_of_reindex (hids : Unique PublicEventPage.id s.pages)
    (h : s.reindexPublicEvents = .ok s') {page : PublicEventPage} (hpage : page ∈ s'.pages)
    (hstatus : page.status = .published) :
    CarriesFacets s' page (s'.store.getProjection page.eventId) := by
  obtain ⟨hpages, _, hsearch, hmaps⟩ := reindexPublicEvents_ok hids h
  have hpage : page ∈ s.pages := hpages ▸ hpage
  have hown : ∀ p ∈ s.publishedListing, p.id = page.id → p = page := by
    intro p hp hid
    exact hids.eq_of_key (mem_publishedListing.mp hp).1 hpage hid
  simp only [reindexPublicEvents, bind_ok, pure_ok, reindexLoop_all hids] at h
  obtain ⟨acc, hloop, rfl⟩ := h
  obtain ⟨hbuilt, hbuiltMap⟩ := entries_of_reindex hloop
  refine ⟨?_, ?_, ?_, ?_⟩
  · exact (hsearch page.id).mpr ⟨page, hpage, rfl, hstatus⟩
  · intro e he hid
    rcases mem_of_mem_rebuild he with hin | hin
    · cases hin
    · rcases hbuilt e hin with hin | ⟨p, hp, hentry⟩
      · cases hin
      · obtain rfl := hown p hp ((entryFrom_pageId hentry).symm.trans hid)
        exact facetsOf_of_entryFrom hentry
  · rw [hmaps]
    constructor
    · rintro ⟨p, hp, hid, _, hcoords⟩
      rwa [← hids.eq_of_key hp hpage hid]
    · intro hcoords
      exact ⟨page, hpage, rfl, hstatus, hcoords⟩
  · intro e he hid
    rcases mem_of_mem_rebuild he with hin | hin
    · cases hin
    · rcases hbuiltMap e hin with hin | ⟨p, hp, hentry⟩
      · cases hin
      · rcases mapEntryFrom_cases hentry with ⟨e', he', hpageId, _⟩ | ⟨hnone, _⟩
        · cases he'
          obtain rfl := hown p hp (hpageId.symm.trans hid)
          exact facetsOf_of_mapEntryFrom hentry
        · cases hnone

/-- After its publication the rows of a page carry the facets of the projection
under the page's own event. -/
theorem carriesFacets_of_publish (hids : Unique PublicEventPage.id s.pages)
    {input : TransitionPublicEventPageInput} {now : Time}
    (h : s.transitionPage .publish input now = .ok s') {page : PublicEventPage}
    (hpage : page ∈ s'.pages) (hid : page.id = input.pageId) :
    s'.store = s.store ∧ CarriesFacets s' page (s'.store.getProjection page.eventId) := by
  obtain ⟨old, s₁, _, hold, _, hrep, hstore, _, _, hhook⟩ := transitionPage_ok h
  generalize hnew : Transition.applyStatusMutation .publish input now old = new at hrep hhook
  have hevent : new.eventId = old.eventId := by rw [← hnew]; rfl
  obtain ⟨entry, mapEntry, hinto⟩ := IndexedDb.publish_hook hhook
  have hcolumns : page.id = new.id ∧ page.eventId = new.eventId := by
    rw [hinto.pages, hrep.pages] at hpage
    obtain ⟨q, hq, heq⟩ := mem_updateWhere.mp hpage
    by_cases hqid : q.id = old.id
    · rw [if_pos (by simpa using hqid)] at heq
      obtain rfl := hids.eq_of_key hq hrep.loaded hqid
      subst heq
      exact ⟨hrep.id.symm, hevent.symm⟩
    · rw [if_neg (by simpa using hqid)] at heq
      subst heq
      exact (hqid (hid.trans hold.symm)).elim
  refine ⟨hinto.store.trans hstore, ?_⟩
  rw [hinto.store, hcolumns.2]
  refine ⟨?_, ?_, ?_, ?_⟩
  · exact (hinto.ids page.id).1.mpr (.inl hcolumns.1)
  · intro e he heid
    rw [hinto.search] at he
    have hkey : e.pageId = entry.pageId := by
      rw [heid, hcolumns.1, entryFrom_pageId hinto.made]
    rw [eq_of_mem_upsertRow he hkey]
    exact facetsOf_of_entryFrom hinto.made
  · rw [(hinto.ids page.id).2]
    simp [hcolumns.1]
  · intro e he heid
    rw [hinto.maps] at he
    rcases mapEntryFrom_cases hinto.mapMade with ⟨e', rfl, he', _⟩ | ⟨rfl, _⟩
    · have hkey : e.pageId = e'.pageId := by rw [heid, hcolumns.1, he']
      rw [eq_of_mem_upsertRow he hkey]
      exact facetsOf_of_mapEntryFrom hinto.mapMade
    · have hne := (List.mem_filter.mp he).2
      simp only [ne_eq, decide_not, Bool.not_eq_eq_eq_not, Bool.not_true, decide_eq_false_iff_not] at hne
      exact (hne (heid.trans hcolumns.1)).elim

end EditorialDb

/-! ## Fresh projections -/

namespace Db

/-- The content a reprojection of the event would store now. -/
def expectedContent (s : Db) (e : Uuid) : ProjectionContent :=
  match (s.getEvent e).bind AccidentEvent.mergedInto with
  | some target => (tombstone e target 0 0).content
  | none => (s.buildFrom e 0 0).content

/-- Every stored projection has the content a reprojection would store. -/
def AllFresh (s : Db) : Prop := ∀ p ∈ s.projections, p.content = s.expectedContent p.eventId

end Db

/-- The fields that the indexes read. -/
def indexedFields : List String :=
  ["operator", "aircraft_type", "country", "event_date", "fatalities_total"] ++ latKeys ++ lngKeys

/-- A projection without any of these fields and with score zero gives blank
rows. -/
theorem blank_of_absent {projection : Option ProjectedAccidentRecord}
    (habsent : ∀ f ∈ indexedFields, (projectionFields projection).lookup f = none)
    (hband : confidenceBand projection = .unknown) :
    facetsOf projection = .ok blankFacets ∧ ¬ HasCoords projection := by
  have hlookup : ∀ f, f ∈ indexedFields → (projectionFields projection).lookup f = none := habsent
  constructor
  · simp only [facetsOf, hband, hlookup "operator" (by decide), hlookup "aircraft_type" (by decide),
      hlookup "country" (by decide), hlookup "event_date" (by decide),
      hlookup "fatalities_total" (by decide)]
    rfl
  · rintro ⟨coords, hcoords⟩
    simp only [extractCoords, latKeys, lngKeys, firstFloat, hlookup "latitude" (by decide),
      hlookup "lat" (by decide), hlookup "longitude" (by decide), hlookup "lng" (by decide),
      hlookup "lon" (by decide)] at hcoords
    cases hcoords

/-- Where projections are fresh, a merged event has none or a blank one. -/
theorem blank_of_merged {s : Db} (hids : Unique AccidentEvent.id s.events) (hfresh : s.AllFresh)
    {e : Uuid} (hmerged : s.IsMerged e) :
    facetsOf (s.getProjection e) = .ok blankFacets ∧ ¬ HasCoords (s.getProjection e) := by
  obtain ⟨x, hx, hid, htarget⟩ := hmerged
  obtain ⟨target, htarget⟩ := Option.ne_none_iff_exists'.mp htarget
  cases hp : s.getProjection e with
  | none => exact blank_of_absent (fun _ _ => rfl) rfl
  | some p =>
      obtain ⟨hmem, hevent⟩ := lookup_some hp
      have hget : s.getEvent e = some x := by
        rw [← hid]
        exact hids.lookup_eq hx
      have hcontent : p.content = (Db.tombstone e target 0 0).content := by
        rw [hfresh p hmem, hevent]
        simp only [Db.expectedContent, hget, Option.bind_some, htarget]
      have hscore : p.completenessScore = 0 := congrArg ProjectionContent.completenessScore hcontent
      have hband : confidenceBand (some p) = .unknown := by
        simp only [confidenceBand, hscore]
        norm_num
      refine blank_of_absent ?_ hband
      intro f hf
      have hnot : f ∉ (serialiseFields p.fields).map Prod.fst := by
        rw [mem_fields_of_content hcontent]
        have hnames : ∀ f ∈ indexedFields, f ∉ ["is_merged", "merged_into_event_id"] := by decide
        exact hnames f hf
      refine List.lookup_eq_none_iff.mpr ?_
      intro kv hkv
      have hne : f ≠ kv.1 := fun heq => hnot (heq ▸ List.mem_map_of_mem hkv)
      exact bne_iff_ne.mpr hne

/-! ## Runs of the accident store and the pages together -/

/-- An operation of the accident system, or an editorial operation. -/
inductive SiteOp where
  | accident (op : Op)
  | create (input : CreatePublicEventPageInput) (now : Time)
  | update (input : UpdatePublicEventPageInput) (now : Time)
  | transition (t : Transition) (input : TransitionPublicEventPageInput) (now : Time)
  | reindex

namespace EditorialDb

/-- The operation on the editorial store. -/
def editorialOp (s : EditorialDb) : SiteOp → EditorialOp
  | .accident op => .evidence (step s.store op)
  | .create input now => .create input now
  | .update input now => .update input now
  | .transition t input now => .transition t input now
  | .reindex => .reindex

/-- What an operation makes of the site. -/
def siteRun (s : EditorialDb) (op : SiteOp) : Except EditorialError EditorialDb :=
  IndexedDb.execute s (s.editorialOp op)

def siteStep (s : EditorialDb) (op : SiteOp) : EditorialDb :=
  match s.siteRun op with
  | .ok s' => s'
  | .error _ => s

/-- The site after a run. -/
def siteAfter (sources : List Source) (ops : List SiteOp) : EditorialDb :=
  Runs.run siteStep (EditorialDb.empty (Db.empty sources)) ops

/-- What holds of the site: the store is one of the accident system, page
identifiers are distinct, and every page has its event. -/
structure SiteInv (s : EditorialDb) : Prop where
  store : Reachable s.store
  indexed : ∃ indexedWith, IndexedDb.Inv ⟨s, indexedWith⟩
  events : ∀ p ∈ s.pages, ∃ e ∈ s.store.events, e.id = p.eventId

end EditorialDb

omit [PyRepr] [PyIsoDate] in
/-- An event stays through every operation of the accident system. -/
theorem event_persists {s : Db} (hs : Reachable s) (op : Op) {id : Uuid}
    (h : ∃ e ∈ s.events, e.id = id) : ∃ e ∈ (step s op).events, e.id = id := by
  refine Db.step_rule (P := fun s' => ∃ e ∈ s'.events, e.id = id) hs.inv.wf h ?_ ?_ op
  · intro s' hchange
    obtain ⟨e, he, hid⟩ := h
    cases hchange with
    | upkeep h =>
        obtain ⟨_, _, _, _, rfl⟩ := h
        exact ⟨e, he, hid⟩
    | ingested h =>
        obtain ⟨extra, hev, _⟩ := h.events
        exact ⟨e, hev ▸ List.mem_append_left _ he, hid⟩
    | resolved h => exact ⟨e, h.events ▸ he, hid⟩
    | @merged call _ _ h =>
        have hcolumn : s'.events.map AccidentEvent.id = s.events.map AccidentEvent.id := by
          rw [h.events hs.inv.wf]
          exact map_updateWhere AccidentEvent.id fun _ => rfl
        have hin : id ∈ s'.events.map AccidentEvent.id := hcolumn ▸ hid ▸ List.mem_map_of_mem he
        exact List.mem_map.mp hin
  · intro s' call c hreopened
    obtain ⟨e, he, hid⟩ := h
    exact ⟨e, hreopened.events ▸ he, hid⟩

namespace EditorialDb

variable {s s' : EditorialDb}

omit [PyText] [PyRepr] [PyIsoDate] in
/-- The columns that an update or a transition leaves alone. -/
theorem Replaced.eventIds {old new : PublicEventPage} (h : Replaced s s' old new) :
    s'.pages.map PublicEventPage.eventId = s.pages.map PublicEventPage.eventId := by
  rw [h.pages]
  exact map_updateWhere PublicEventPage.eventId fun _ => rfl

/-- What an editorial operation does to the store and to the events of the
pages. -/
theorem siteRun_frame {op : SiteOp} (h : s.siteRun op = .ok s') :
    (∃ o, op = .accident o ∧ s'.store = step s.store o ∧ s'.pages = s.pages) ∨
    (s'.store = s.store ∧ ∀ id ∈ s'.pages.map PublicEventPage.eventId,
      id ∈ s.pages.map PublicEventPage.eventId ∨ (s.store.getEvent id).isSome) := by
  cases op with
  | accident o =>
      cases h
      exact .inl ⟨o, rfl, rfl, rfl⟩
  | create input now =>
      refine .inr ?_
      simp only [siteRun, editorialOp, IndexedDb.execute, createPage, addPage, bind_ok, pure_ok,
        require_ok] at h
      obtain ⟨slug, _, s₁, ⟨_, _, _, _, _, hevent, rfl⟩, rfl⟩ := h
      refine ⟨rfl, ?_⟩
      intro id hid
      simp only [writeRevision, List.map_append, List.map_cons, List.map_nil, List.mem_append,
        List.mem_singleton] at hid
      rcases hid with hold | rfl
      · exact .inl hold
      · exact .inr hevent
  | update input now =>
      obtain ⟨old, new, hrep, _⟩ := updatePublicEventPage_ok h
      refine .inr ⟨?_, fun id hid => .inl (hrep.eventIds ▸ hid)⟩
      simp only [siteRun, editorialOp, IndexedDb.execute, updatePublicEventPage, bind_ok, pure_ok] at h
      obtain ⟨_, _, _, _, s₁, hupdate, rfl⟩ := h
      rw [updatePage_ok hupdate]
      rfl
  | transition t input now =>
      obtain ⟨old, s₁, _, _, _, hrep, hstore, _, _, hhook⟩ := transitionPage_ok h
      have hframe : s'.store = s₁.store ∧ s'.pages = s₁.pages := by
        cases t with
        | publish =>
            obtain ⟨_, _, hinto⟩ := IndexedDb.publish_hook hhook
            exact ⟨hinto.store, hinto.pages⟩
        | submit | requestChanges | approve | reject | archive | reopen | retract =>
            cases hhook
            exact ⟨rfl, rfl⟩
      refine .inr ⟨hframe.1.trans hstore, fun id hid => .inl ?_⟩
      rw [hframe.2, hrep.eventIds] at hid
      exact hid
  | reindex =>
      simp only [siteRun, editorialOp, IndexedDb.execute, reindexPublicEvents, bind_ok, pure_ok] at h
      obtain ⟨_, _, rfl⟩ := h
      exact .inr ⟨rfl, fun id hid => .inl hid⟩

omit [PyRepr] [PyIsoDate] in
theorem siteInv_empty (sources : List Source) : SiteInv (EditorialDb.empty (Db.empty sources)) :=
  ⟨⟨sources, [], rfl⟩, ⟨_, IndexedDb.inv_empty _⟩, fun _ hp => (List.not_mem_nil hp).elim⟩

theorem SiteInv.step (h : SiteInv s) (op : SiteOp) : SiteInv (s.siteStep op) := by
  obtain ⟨indexedWith, hindexed⟩ := h.indexed
  have hnext := hindexed.step (s.editorialOp op)
  cases hok : s.siteRun op with
  | error e => simpa only [siteStep, hok] using h
  | ok s' =>
      have hexec : IndexedDb.execute s (s.editorialOp op) = .ok s' := hok
      simp only [IndexedDb.step, hexec] at hnext
      simp only [siteStep, hok]
      rcases siteRun_frame hok with ⟨o, rfl, hstore, hpages⟩ | ⟨hstore, hevents⟩
      · refine ⟨hstore ▸ h.store.step o, ⟨_, hnext⟩, ?_⟩
        intro p hp
        rw [hstore]
        exact event_persists h.store o (h.events p (hpages ▸ hp))
      · refine ⟨hstore ▸ h.store, ⟨_, hnext⟩, ?_⟩
        intro p hp
        rw [hstore]
        rcases hevents p.eventId (List.mem_map_of_mem hp) with hold | hnew
        · obtain ⟨q, hq, heq⟩ := List.mem_map.mp hold
          rw [← heq]
          exact h.events q hq
        · obtain ⟨e, he⟩ := Option.isSome_iff_exists.mp hnew
          exact ⟨e, lookup_some he⟩

theorem siteInv_after (sources : List Source) (ops : List SiteOp) : SiteInv (siteAfter sources ops) :=
  Runs.invariant (I := SiteInv) (fun _ op hs => hs.step op) (siteInv_empty sources) ops

omit [PyRepr] [PyIsoDate] in
/-- An event that is not merged is its own canonical event. -/
theorem SiteInv.publicCanonicalId_of_live (h : SiteInv s) {page : PublicEventPage}
    (hpage : page ∈ s.pages) (hlive : ¬ s.store.IsMerged page.eventId) :
    s.store.publicCanonicalId page.eventId = some page.eventId := by
  obtain ⟨e, he, hid⟩ := h.events page hpage
  have hnone : e.mergedInto = none := by
    by_contra hmerged
    exact hlive ⟨e, he, hid, hmerged⟩
  obtain ⟨r, _, _, hroot, hreturns⟩ := h.store.inv.forest.walkersReturn he
  have hself : s.store.Root e.id e.id := Db.root_of_isLive ⟨e, he, rfl, hnone⟩
  have hsame := hroot.unique h.store.inv.wf hself
  rw [← hid, hreturns.publicPages, hsame]

omit [PyRepr] [PyIsoDate] in
/-- The page of an event that is not merged shows the projection under its own
event. -/
theorem SiteInv.shownProjection_of_live (h : SiteInv s) {page : PublicEventPage}
    (hpage : page ∈ s.pages) (hlive : ¬ s.store.IsMerged page.eventId) :
    s.shownProjection page = s.store.getProjection page.eventId := by
  rw [shownProjection, h.publicCanonicalId_of_live hpage hlive]
  rfl

end EditorialDb

/-- The operation indexes the page. -/
def SiteOp.Indexes (op : SiteOp) (pageId : Uuid) : Prop :=
  op = .reindex ∨ ∃ input now, op = .transition .publish input now ∧ input.pageId = pageId

/-- **The index rows carry the facets of the page shown** exactly when the page's
event is not merged away, or the projection of the canonical event has no facets
at all. -/
theorem index_carries_shown_facets_iff {sources : List Source} {ops : List SiteOp} {op : SiteOp}
    {s' : EditorialDb} {page : PublicEventPage}
    (hfresh : (EditorialDb.siteAfter sources ops).store.AllFresh)
    (hok : (EditorialDb.siteAfter sources ops).siteRun op = .ok s') (hop : op.Indexes page.id)
    (hpage : page ∈ s'.pages) (hstatus : page.status = .published) :
    CarriesFacets s' page (s'.shownProjection page) ↔
      ¬ s'.store.IsMerged page.eventId ∨
        facetsOf (s'.shownProjection page) = .ok blankFacets ∧ ¬ HasCoords (s'.shownProjection page) := by
  have hinv := EditorialDb.siteInv_after sources ops
  generalize EditorialDb.siteAfter sources ops = s at hfresh hok hinv
  have hstep : s.siteStep op = s' := by simp only [EditorialDb.siteStep, hok]
  have hinv' : EditorialDb.SiteInv s' := hstep ▸ hinv.step op
  obtain ⟨_, hindexed⟩ := hinv.indexed
  have hown : s'.store = s.store ∧ CarriesFacets s' page (s'.store.getProjection page.eventId) := by
    rcases hop with rfl | ⟨input, now, rfl, hid⟩
    · have hstore : s'.store = s.store := by
        rcases EditorialDb.siteRun_frame hok with ⟨_, h, _⟩ | ⟨h, _⟩
        · cases h
        · exact h
      exact ⟨hstore, EditorialDb.carriesFacets_of_reindex hindexed.ids hok hpage hstatus⟩
    · exact EditorialDb.carriesFacets_of_publish hindexed.ids hok hpage hid.symm
  obtain ⟨hstore, hcarries⟩ := hown
  by_cases hmerged : s'.store.IsMerged page.eventId
  · obtain ⟨hblank, hnowhere⟩ := blank_of_merged hinv'.store.inv.wf.eventIds (hstore ▸ hfresh) hmerged
    constructor
    · intro hshown
      obtain ⟨e, he, hid⟩ := List.mem_map.mp hcarries.listed
      refine .inr ⟨?_, ?_⟩
      · rw [hshown.search e he hid, ← hcarries.search e he hid, hblank]
      · rw [← hshown.located, hcarries.located]
        exact hnowhere
    · rintro (hlive | ⟨hshown, hnocoords⟩)
      · exact (hlive hmerged).elim
      · have hnorow : page.id ∉ s'.maps.map MapIndexEntry.pageId := by
          rw [hcarries.located]
          exact hnowhere
        refine ⟨hcarries.listed, ?_, ?_, ?_⟩
        · intro e he hid
          rw [hshown, ← hblank, hcarries.search e he hid]
        · exact ⟨fun hrow => (hnorow hrow).elim, fun hcoords => (hnocoords hcoords).elim⟩
        · intro e he hid
          exact (hnorow (hid ▸ List.mem_map_of_mem he)).elim
  · rw [hinv'.shownProjection_of_live hpage hmerged]
    exact ⟨fun _ => .inl hmerged, fun _ => hcarries⟩

instance (s : Db) : Decidable s.AllFresh := by
  unfold Db.AllFresh
  infer_instance

end

/-- Two reports of an operator, and an approved page about the first. -/
def approvedPage : List SiteOp :=
  [.accident (operatorReport 0 100 none none 1 1), .accident (operatorReport 1 101 none none 1 2),
   .create { eventId := 5, slug := "n12345", title := "Report" } 3,
   .transition .submit ⟨0, 1, 7, none, none⟩ 4, .transition .approve ⟨0, 2, 8, none, none⟩ 5]

/-- The publication of the page. -/
def publishApproved : SiteOp := .transition .publish ⟨0, 3, 8, none, none⟩ 9

/-- The page is published while its event stands alone. -/
theorem approvedPage_carries_facets :
    ∃ s' page, (EditorialDb.siteAfter fourSources (approvedPage ++ [.accident (.rebuild none 6)])).siteRun
        publishApproved = .ok s' ∧ page ∈ s'.pages ∧ page.status = .published ∧
      CarriesFacets s' page (s'.shownProjection page) := by
  have hrun : ∃ s', (EditorialDb.siteAfter fourSources
      (approvedPage ++ [.accident (.rebuild none 6)])).siteRun publishApproved = .ok s' ∧
      ∃ page ∈ s'.pages, page.id = 0 ∧ page.status = .published ∧
        ¬ s'.store.IsMerged page.eventId :=
    exists_ok_of_any (by decide +kernel)
  obtain ⟨s', hok, page, hpage, hid, hstatus, hlive⟩ := hrun
  refine ⟨s', page, hok, hpage, hstatus, ?_⟩
  refine (index_carries_shown_facets_iff (by decide +kernel) hok ?_ hpage hstatus).mpr (.inl hlive)
  exact .inr ⟨_, _, rfl, hid.symm⟩

/-- The event of the approved page is merged before the publication.  All
projections are fresh; the search row has no operator, and the page shows one. -/
theorem merged_page_indexed_blank :
    (EditorialDb.siteAfter fourSources (approvedPage ++
        [.accident (.merge ⟨5, 9, 9, "", none, 6⟩), .accident (.rebuild none 7)])).store.AllFresh ∧
    ∃ s' page, (EditorialDb.siteAfter fourSources (approvedPage ++
        [.accident (.merge ⟨5, 9, 9, "", none, 6⟩), .accident (.rebuild none 7)])).siteRun
          publishApproved = .ok s' ∧
      page ∈ s'.pages ∧ page.status = .published ∧
      ¬ CarriesFacets s' page (s'.shownProjection page) := by
  have hrun : ∃ s', (EditorialDb.siteAfter fourSources (approvedPage ++
      [.accident (.merge ⟨5, 9, 9, "", none, 6⟩), .accident (.rebuild none 7)])).siteRun
        publishApproved = .ok s' ∧
      ∃ page ∈ s'.pages, page.status = .published ∧ ∃ e ∈ s'.search, e.pageId = page.id ∧
        (facetsOf (s'.shownProjection page)).toOption ≠ some e.facets :=
    exists_ok_of_any (by decide +kernel)
  obtain ⟨s', hok, page, hpage, hstatus, e, he, hid, hne⟩ := hrun
  refine ⟨by decide +kernel, s', page, hok, hpage, hstatus, ?_⟩
  intro hcarries
  rw [hcarries.search e he hid] at hne
  exact hne rfl

end Atlas
