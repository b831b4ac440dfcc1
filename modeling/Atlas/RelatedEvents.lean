import Atlas.IndexFacets
import Atlas.OrionRuns
import Mathlib

/-!
# Related events

`GetPublicEventRelated` follows the relationships of the canonical event of a page to its operators
and aircraft types, and from these to the events that name them.  It leaves out the canonical event
itself and lists the published pages of the others.

An absorbed event keeps its page and its relationships.  The events found are compared by their own
identifiers, so the page of an event that was merged into the requested one is listed as another
accident, and the pages of two events that were merged as two.
-/

namespace Atlas

open Outcome Rows

/-! ## The query -/

/-- The order in which the relationships of an event or an entity come; the queries have none. -/
structure RowOrder where
  rows : Uuid → List OrionRelationship → List OrionRelationship
  perm : ∀ id rs, (rows id rs).Perm rs

/-- The order of the table. -/
def RowOrder.asStored : RowOrder := ⟨fun _ rs => rs, fun _ _ => .refl _⟩

namespace OrionDb

/-- `orion_relationships.list_for_event`. -/
def listForEvent (R : OrionDb) (order : RowOrder) (eventId : Uuid) : List OrionRelationship :=
  order.rows eventId (R.relationships.filter fun r => r.accidentEventId = eventId)

/-- `orion_relationships.list_for_entity`. -/
def listForEntity (R : OrionDb) (order : RowOrder) (entityId : Uuid) : List OrionRelationship :=
  order.rows entityId (R.relationships.filter fun r =>
    r.subjectEntityId = some entityId ∨ r.objectEntityId = entityId)

end OrionDb

/-- `_RELATED_VIA_RELATIONSHIPS`. -/
def relatedViaRelationships : List OrionRelationshipType := [.operatedBy, .aircraftType]

/-- `PUBLIC_RELATED_LIMIT`. -/
def publicRelatedLimit : Nat := 25

/-- `PUBLIC_RELATED_CANDIDATE_LIMIT`. -/
def publicRelatedCandidateLimit : Nat := 200

structure PublicRelatedEvent where
  slug : String
  title : String
  shortSummary : Option String
  lastPublishedAt : Option Time
  relation : OrionRelationshipType
deriving DecidableEq, Repr

structure PublicRelatedResponse where
  slug : String
  canonicalEventId : Uuid
  items : List PublicRelatedEvent
deriving DecidableEq, Repr

/-- The entities to follow, each with the first relationship that names it. -/
def relatedSeeds (rels : List OrionRelationship) : List (Uuid × OrionRelationshipType) :=
  rels.foldl (fun seeds r =>
    if r.relationshipType ∈ relatedViaRelationships ∧ ∀ s ∈ seeds, s.1 ≠ r.objectEntityId then
      seeds ++ [(r.objectEntityId, r.relationshipType)]
    else seeds) []

/-- `candidate_events`: events, each with the first relationship seen. -/
abbrev Candidates := List (Uuid × OrionRelationshipType)

/-- The entry of a sibling, unless its event has one. -/
def addCandidate (seedRelation : OrionRelationshipType) (candidates : Candidates)
    (sibling : OrionRelationship) : Candidates :=
  if ∀ c ∈ candidates, c.1 ≠ sibling.accidentEventId then
    candidates ++ [(sibling.accidentEventId,
      if sibling.relationshipType ∈ relatedViaRelationships then sibling.relationshipType
      else seedRelation)]
  else candidates

/-- The loop over the siblings of one entity. -/
def addSiblings (canonicalId : Uuid) (seedRelation : OrionRelationshipType) :
    List OrionRelationship → Candidates → Candidates
  | [], candidates => candidates
  | sibling :: rest, candidates =>
      if sibling.accidentEventId = canonicalId then
        addSiblings canonicalId seedRelation rest candidates
      else
        let candidates := addCandidate seedRelation candidates sibling
        if publicRelatedCandidateLimit ≤ candidates.length then candidates
        else addSiblings canonicalId seedRelation rest candidates

/-- The loop over the entities. -/
def collectCandidates (R : OrionDb) (order : RowOrder) (canonicalId : Uuid) :
    List (Uuid × OrionRelationshipType) → Candidates → Candidates
  | [], candidates => candidates
  | (entityId, seedRelation) :: rest, candidates =>
      let candidates :=
        addSiblings canonicalId seedRelation (R.listForEntity order entityId) candidates
      if publicRelatedCandidateLimit ≤ candidates.length then candidates
      else collectCandidates R order canonicalId rest candidates

/-- The order of the list: `(last_published_at, slug)`. -/
def PublicRelatedEvent.key (r : PublicRelatedEvent) : Time ×ₗ String :=
  toLex (r.lastPublishedAt.getD 0, r.slug)

/-- `get_by_event_id`. -/
def EditorialDb.getByEventId (s : EditorialDb) (eventId : Uuid) : Option PublicEventPage :=
  lookup PublicEventPage.eventId eventId s.pages

/-- The site with its registry of entities. -/
structure RelatedDb where
  site : EditorialDb
  orion : OrionDb

namespace RelatedDb

/-- The entry of a candidate with a published page. -/
def relatedItem (w : RelatedDb) (candidate : Uuid × OrionRelationshipType) :
    Option PublicRelatedEvent :=
  ((w.site.getByEventId candidate.1).filter fun page => page.status = .published).map fun page =>
    ⟨page.slug, page.title, page.shortSummary, page.lastPublishedAt, candidate.2⟩

/-- `GetPublicEventRelated.execute`. -/
def getPublicEventRelated (w : RelatedDb) (order : RowOrder) (slug : String) :
    Except PublicReadError PublicRelatedResponse := do
  let (page, canonicalId) ← w.site.loadPageAndCheckVisibility slug
  let seeds := relatedSeeds (w.orion.listForEvent order canonicalId)
  let candidates := collectCandidates w.orion order canonicalId seeds []
  let related := candidates.filterMap w.relatedItem
  pure ⟨page.slug, canonicalId, (Keyset.listing PublicRelatedEvent.key related).take publicRelatedLimit⟩

/-- The items are other accidents: no item is the page of an event with the canonical event of the
request, and no two items are pages of events with one canonical event. -/
structure OtherAccidents (w : RelatedDb) : Prop where
  others : ∀ order slug response, w.getPublicEventRelated order slug = .ok response →
    ∀ item ∈ response.items, ∀ page ∈ w.site.pages, page.slug = item.slug →
      w.site.store.publicCanonicalId page.eventId ≠ some response.canonicalEventId
  distinct : ∀ order slug response, w.getPublicEventRelated order slug = .ok response →
    response.items.Pairwise fun a b => ∀ p ∈ w.site.pages, ∀ q ∈ w.site.pages,
      p.slug = a.slug → q.slug = b.slug →
        w.site.store.publicCanonicalId p.eventId ≠ w.site.store.publicCanonicalId q.eventId

/-! ## Candidates -/

/-- A relationship is about the event. -/
def HasRelationship (w : RelatedDb) (eventId : Uuid) : Prop :=
  ∃ r ∈ w.orion.relationships, r.accidentEventId = eventId

/-- What the candidates are: events with a relationship, none twice, and not the canonical one. -/
structure Found (w : RelatedDb) (canonicalId : Uuid) (candidates : Candidates) : Prop where
  nodup : (candidates.map Prod.fst).Nodup
  other : ∀ c ∈ candidates, c.1 ≠ canonicalId ∧ w.HasRelationship c.1

variable {w : RelatedDb} {canonicalId : Uuid}

theorem Found.addCandidate {candidates : Candidates} (h : w.Found canonicalId candidates)
    (seedRelation : OrionRelationshipType) {sibling : OrionRelationship}
    (hsibling : sibling ∈ w.orion.relationships) (hother : sibling.accidentEventId ≠ canonicalId) :
    w.Found canonicalId (addCandidate seedRelation candidates sibling) := by
  unfold Atlas.addCandidate
  split
  · rename_i hnew
    constructor
    · rw [List.map_append, List.map_singleton, List.nodup_append]
      refine ⟨h.nodup, List.nodup_singleton _, ?_⟩
      intro id hid x hx
      obtain ⟨c, hc, rfl⟩ := List.mem_map.mp hid
      rw [List.mem_singleton] at hx
      rw [hx]
      exact hnew c hc
    · intro c hc
      rcases List.mem_append.mp hc with hc | hc
      · exact h.other c hc
      · rw [List.mem_singleton] at hc
        subst hc
        exact ⟨hother, sibling, hsibling, rfl⟩
  · exact h

theorem Found.addSiblings {siblings : List OrionRelationship} {candidates : Candidates}
    (h : w.Found canonicalId candidates) (seedRelation : OrionRelationshipType)
    (hsiblings : ∀ r ∈ siblings, r ∈ w.orion.relationships) :
    w.Found canonicalId (addSiblings canonicalId seedRelation siblings candidates) := by
  induction siblings generalizing candidates with
  | nil => exact h
  | cons sibling rest ih =>
      have hrest : ∀ r ∈ rest, r ∈ w.orion.relationships :=
        fun r hr => hsiblings r (List.mem_cons_of_mem _ hr)
      unfold Atlas.addSiblings
      split
      · exact ih h hrest
      · rename_i hother
        have hnext := h.addCandidate seedRelation
          (hsiblings sibling List.mem_cons_self) hother
        dsimp only
        split
        · exact hnext
        · exact ih hnext hrest

theorem Found.collectCandidates {order : RowOrder} {seeds : List (Uuid × OrionRelationshipType)}
    {candidates : Candidates} (h : w.Found canonicalId candidates) :
    w.Found canonicalId (collectCandidates w.orion order canonicalId seeds candidates) := by
  induction seeds generalizing candidates with
  | nil => exact h
  | cons seed rest ih =>
      have hsiblings : ∀ r ∈ w.orion.listForEntity order seed.1, r ∈ w.orion.relationships :=
        fun r hr => (List.mem_filter.mp ((order.perm _ _).mem_iff.mp hr)).1
      have hnext := h.addSiblings seed.2 hsiblings
      unfold Atlas.collectCandidates
      dsimp only
      split
      · exact hnext
      · exact ih hnext

end RelatedDb

/-! ## What the steps do -/

namespace ExtractionContext

variable [PyText] {ctx : ExtractionContext} {R R' : OrionDb} {x : OrionEntity}

/-- The relationships that the second registry has beyond the first are about the event. -/
def FromEvent (ctx : ExtractionContext) (R R' : OrionDb) : Prop :=
  ∀ r ∈ R'.relationships, r ∈ R.relationships ∨ r.accidentEventId = ctx.eventId

omit [PyText] in
theorem fromEvent_of_eq (h : R'.relationships = R.relationships) : ctx.FromEvent R R' :=
  fun _ hr => .inl (h ▸ hr)

omit [PyText] in
theorem FromEvent.trans {R'' : OrionDb} (h : ctx.FromEvent R R') (h' : ctx.FromEvent R' R'') :
    ctx.FromEvent R R'' := by
  intro r hr
  rcases h' r hr with hr | hr
  · exact h r hr
  · exact .inr hr

theorem resolveOrCreate_relationships {c : ResolutionCandidate} {created : Bool}
    (h : ctx.resolveOrCreate R c = .ok (x, created, R')) : R'.relationships = R.relationships := by
  unfold resolveOrCreate at h
  dsimp only at h
  split at h
  · cases h
    rfl
  · simp only [OrionDb.addEntity, bind_ok, pure_ok, Prod.mk.injEq] at h
    obtain ⟨R₁, ⟨_, _, rfl⟩, -, -, rfl⟩ := h
    rfl

omit [PyText] in
theorem attachIdentifier_relationships {spec : IdentifierSpec} {claimField : Option String}
    (h : ctx.attachIdentifier R x spec claimField = .ok R') :
    R'.relationships = R.relationships := by
  simp only [attachIdentifier, OrionDb.tryAddIdentifier, bind_ok, pure_ok] at h
  obtain ⟨_, _, rfl⟩ := h
  split <;> rfl

omit [PyText] in
theorem attachExtras_relationships {specs : List IdentifierSpec}
    (h : specs.foldlM (fun R spec => ctx.attachIdentifier R x spec none) R = .ok R') :
    R'.relationships = R.relationships := by
  induction specs generalizing R with
  | nil =>
      cases h
      rfl
  | cons spec specs ih =>
      simp only [List.foldlM_cons, bind_ok] at h
      obtain ⟨R₁, hfirst, hrest⟩ := h
      exact (ih hrest).trans (attachIdentifier_relationships hfirst)

omit [PyText] in
theorem fromEvent_relate {relType : OrionRelationshipType} {subject : OrionSubject} {field : String}
    (st : ExtractionState) : ctx.FromEvent st.db (ctx.relate st relType subject x field).db := by
  unfold relate
  split
  · exact fromEvent_of_eq rfl
  · dsimp only [upsertRel, OrionDb.upsertRelationship]
    split
    · exact fromEvent_of_eq rfl
    · intro r hr
      rcases List.mem_append.mp hr with hr | hr
      · exact .inl hr
      · rw [List.mem_singleton] at hr
        subst hr
        exact .inr rfl

theorem fromEvent_extractEntity {relType : OrionRelationshipType} {subject : OrionSubject}
    {named : Option (String × ResolutionCandidate)} {st st' : ExtractionState}
    {found : Option OrionEntity} (h : ctx.extractEntity relType subject named st = .ok (found, st')) :
    ctx.FromEvent st.db st'.db := by
  unfold extractEntity at h
  cases named with
  | none =>
      cases h
      exact fromEvent_of_eq rfl
  | some named =>
      obtain ⟨field, c⟩ := named
      simp only [bind_ok, pure_ok, Prod.mk.injEq] at h
      obtain ⟨⟨x, created, R₁⟩, hresolve, R₂, hprimary, R₃, hextras, -, rfl⟩ := h
      have hsame : (ctx.maybeClaimLink R₃ x field).relationships = st.db.relationships := by
        have hlink : (ctx.maybeClaimLink R₃ x field).relationships = R₃.relationships := by
          unfold maybeClaimLink OrionDb.addClaimLink
          split
          · rfl
          · split <;> rfl
        rw [hlink, attachExtras_relationships hextras, attachIdentifier_relationships hprimary,
          resolveOrCreate_relationships hresolve]
      exact (fromEvent_of_eq hsame).trans (fromEvent_relate _)

end ExtractionContext

section Steps

variable [PyText] [PyUpper] [PyTitle] [PyRepr] [PyCasefold]

open ExtractionContext

/-- **An extraction adds relationships of its event only.** -/
theorem extractOrionEntities_relationships {pick : RowChoice} {pgLower : String → String} {s : Db}
    {eventId : Uuid} {R : OrionDb} :
    ∀ r ∈ (registryAfter R (extractOrionEntities pick pgLower s eventId R)).relationships,
      r ∈ R.relationships ∨ r.accidentEventId = eventId := by
  cases hrun : extractOrionEntities pick pgLower s eventId R with
  | error e => exact fun r hr => .inl hr
  | ok out =>
      obtain ⟨result, R'⟩ := out
      unfold extractOrionEntities at hrun
      cases hprojection : s.getProjection eventId with
      | none =>
          rw [hprojection] at hrun
          cases hrun
          exact fun r hr => .inl hr
      | some projection =>
          rw [hprojection] at hrun
          simp only [bind_ok, pure_ok, Prod.mk.injEq] at hrun
          obtain ⟨st, hfields, rfl, rfl⟩ := hrun
          simp only [extractFields, bind_ok, pure_ok] at hfields
          obtain ⟨⟨_, s₁⟩, h₁, ⟨_, s₂⟩, h₂, ⟨_, s₃⟩, h₃, ⟨_, s₄⟩, h₄, ⟨_, s₅⟩, h₅, ⟨_, s₆⟩, h₆,
            ⟨_, s₇⟩, h₇, rfl⟩ := hfields
          exact (fromEvent_extractEntity h₁).trans <| (fromEvent_extractEntity h₂).trans <|
            (fromEvent_extractEntity h₃).trans <| (fromEvent_extractEntity h₄).trans <|
            (fromEvent_extractEntity h₅).trans <| (fromEvent_extractEntity h₆).trans <|
            fromEvent_extractEntity h₇

end Steps

namespace EditorialDb

variable {s s' : EditorialDb}

/-- The statement that stores a page keeps the slugs apart. -/
theorem updatePage_slugs {page : PublicEventPage} {expectedVersion : Int}
    (hids : Rows.Unique PublicEventPage.id s.pages) (hslugs : Rows.Unique PublicEventPage.slug s.pages)
    (h : s.updatePage page expectedVersion = .ok s') : Rows.Unique PublicEventPage.slug s'.pages := by
  simp only [updatePage, bind_ok, pure_ok, require_ok] at h
  obtain ⟨_, _, _, _, _, hfree, rfl⟩ := h
  unfold Rows.Unique Rows.updateWhere
  rw [List.map_map]
  refine List.Nodup.map_on ?_ (List.Nodup.of_map _ hids)
  intro p hp q hq hpq
  simp only [Function.comp_apply, decide_eq_true_eq] at hpq
  by_cases hpid : p.id = page.id <;> by_cases hqid : q.id = page.id
  · exact hids.eq_of_key hp hq (hpid.trans hqid.symm)
  · rw [if_pos hpid, if_neg hqid] at hpq
    exact absurd hpq.symm (hfree q hq hqid)
  · rw [if_neg hpid, if_pos hqid] at hpq
    exact absurd hpq (hfree p hp hpid)
  · rw [if_neg hpid, if_neg hqid] at hpq
    exact hslugs.eq_of_key hp hq hpq

end EditorialDb

/-- The operation publishes the page. -/
def SiteOp.Publishes (op : SiteOp) (pageId : Uuid) : Prop :=
  ∃ input now, op = .transition .publish input now ∧ input.pageId = pageId

instance (op : SiteOp) (pageId : Uuid) : Decidable (op.Publishes pageId) :=
  match op with
  | .transition .publish input now =>
      decidable_of_iff (input.pageId = pageId) ⟨fun h => ⟨input, now, rfl, h⟩, fun ⟨_, _, h, hid⟩ => by
        cases h
        exact hid⟩
  | .transition .submit _ _ | .transition .requestChanges _ _ | .transition .approve _ _
  | .transition .reject _ _ | .transition .archive _ _ | .transition .reopen _ _
  | .transition .retract _ _ | .accident _ | .create _ _ | .update _ _ | .reindex =>
      .isFalse fun ⟨_, _, h, _⟩ => by cases h

section Pages

variable [PyText] [PyRepr] [PyIsoDate]

namespace EditorialDb

variable {s s' : EditorialDb}

/-- The hook of a transition leaves the pages alone. -/
theorem postTransitionHook_pages {t : Transition} {page : PublicEventPage}
    (h : s.postTransitionHook t page = .ok s') : s'.pages = s.pages := by
  cases t with
  | publish =>
      obtain ⟨_, _, hinto⟩ := IndexedDb.publish_hook h
      exact hinto.pages
  | submit | requestChanges | approve | reject | archive | reopen | retract =>
      cases h
      rfl

/-- A page that is published after an operation was so before, or is published by it. -/
theorem siteRun_published {op : SiteOp} (h : s.siteRun op = .ok s') {page : PublicEventPage}
    (hpage : page ∈ s'.pages) (hstatus : page.status = .published) :
    ∃ old ∈ s.pages, old.eventId = page.eventId ∧ (old.status = .published ∨ op.Publishes old.id) := by
  have hreplaced : ∀ {s₁ : EditorialDb} {old new : PublicEventPage}, Replaced s s₁ old new →
      s'.pages = s₁.pages → (new.status = .published → op.Publishes old.id) →
      ∃ old ∈ s.pages, old.eventId = page.eventId ∧
        (old.status = .published ∨ op.Publishes old.id) := by
    intro s₁ old new hrep hpages hnew
    rw [hpages, hrep.pages, mem_updateWhere] at hpage
    obtain ⟨p, hp, rfl⟩ := hpage
    by_cases hid : p.id = old.id
    · rw [if_pos (by simpa using hid)] at hstatus ⊢
      exact ⟨p, hp, rfl, .inr (hid ▸ hnew hstatus)⟩
    · rw [if_neg (by simpa using hid)] at hstatus ⊢
      exact ⟨p, hp, rfl, .inl hstatus⟩
  cases op with
  | accident o =>
      cases h
      exact ⟨page, hpage, rfl, .inl hstatus⟩
  | create input now =>
      obtain ⟨draft, -, hdraft, hpages, -⟩ := createPage_ok h
      rw [hpages] at hpage
      rcases List.mem_append.mp hpage with hpage | hpage
      · exact ⟨page, hpage, rfl, .inl hstatus⟩
      · rw [List.mem_singleton] at hpage
        rw [hpage, hdraft] at hstatus
        cases hstatus
  | update input now =>
      obtain ⟨old, new, hrep, -, hdraft, -⟩ := updatePublicEventPage_ok h
      refine hreplaced hrep rfl ?_
      intro hnew
      rw [hdraft] at hnew
      cases hnew
  | transition t input now =>
      obtain ⟨old, s₁, -, hid, -, hrep, -, -, -, hhook⟩ := transitionPage_ok h
      refine hreplaced hrep (postTransitionHook_pages hhook) ?_
      intro hnew
      cases t with
      | publish => exact ⟨input, now, rfl, hid.symm⟩
      | submit | requestChanges | approve | reject | archive | reopen | retract => cases hnew
  | reindex =>
      simp only [siteRun, editorialOp, IndexedDb.execute, reindexPublicEvents, bind_ok, pure_ok] at h
      obtain ⟨_, _, rfl⟩ := h
      exact ⟨page, hpage, rfl, .inl hstatus⟩

/-- Every operation keeps the slugs apart. -/
theorem siteRun_slugs {op : SiteOp} (hids : Rows.Unique PublicEventPage.id s.pages)
    (hslugs : Rows.Unique PublicEventPage.slug s.pages) (h : s.siteRun op = .ok s') :
    Rows.Unique PublicEventPage.slug s'.pages := by
  cases op with
  | accident o =>
      cases h
      exact hslugs
  | create input now =>
      simp only [siteRun, editorialOp, IndexedDb.execute, createPage, addPage, bind_ok, pure_ok,
        require_ok] at h
      obtain ⟨slug, _, s₁, ⟨_, hfree, _, _, _, _, rfl⟩, rfl⟩ := h
      exact hslugs.append_single hfree
  | update input now =>
      simp only [siteRun, editorialOp, IndexedDb.execute, updatePublicEventPage, bind_ok, pure_ok] at h
      obtain ⟨_, _, _, _, s₁, hupdate, rfl⟩ := h
      have hkept := updatePage_slugs hids hslugs hupdate
      exact hkept
  | transition t input now =>
      simp only [siteRun, editorialOp, IndexedDb.execute, transitionPage, bind_ok] at h
      obtain ⟨_, _, _, _, s₁, hupdate, hhook⟩ := h
      have hkept := updatePage_slugs hids hslugs hupdate
      rw [postTransitionHook_pages hhook]
      exact hkept
  | reindex =>
      simp only [siteRun, editorialOp, IndexedDb.execute, reindexPublicEvents, bind_ok, pure_ok] at h
      obtain ⟨_, _, rfl⟩ := h
      exact hslugs

end EditorialDb

end Pages

/-! ## Runs -/

/-- An operation of the site, or an extraction of the entities of an event. -/
inductive RelatedOp where
  | site (op : SiteOp)
  | extract (pick : RowChoice) (pgLower : String → String) (eventId : Uuid)

namespace RelatedDb

def empty (sources : List Source) : RelatedDb := ⟨EditorialDb.empty (Db.empty sources), .empty⟩

section Runs

variable [PyText] [PyUpper] [PyTitle] [PyRepr] [PyIsoDate] [PyCasefold]

def step (w : RelatedDb) : RelatedOp → RelatedDb
  | .site op => { w with site := w.site.siteStep op }
  | .extract pick pgLower eventId =>
      let run := extractOrionEntities pick pgLower w.site.store eventId w.orion
      { w with orion := registryAfter w.orion run }

/-- The system after a run. -/
def after (sources : List Source) (ops : List RelatedOp) : RelatedDb :=
  Runs.run step (empty sources) ops

/-- What holds of the system after every run. -/
structure Inv (w : RelatedDb) : Prop where
  site : EditorialDb.SiteInv w.site
  slugs : Rows.Unique PublicEventPage.slug w.site.pages

omit [PyUpper] [PyTitle] [PyRepr] [PyIsoDate] [PyCasefold] in
theorem inv_empty (sources : List Source) : (empty sources).Inv :=
  ⟨EditorialDb.siteInv_empty sources, Rows.unique_nil _⟩

theorem Inv.step {w : RelatedDb} (h : w.Inv) (op : RelatedOp) : (w.step op).Inv := by
  cases op with
  | extract pick pgLower eventId => exact ⟨h.site, h.slugs⟩
  | site op =>
      refine ⟨h.site.step op, ?_⟩
      change Rows.Unique PublicEventPage.slug (w.site.siteStep op).pages
      unfold EditorialDb.siteStep
      cases hok : w.site.siteRun op with
      | error e => exact h.slugs
      | ok s' =>
          obtain ⟨indexedWith, hindexed⟩ := h.site.indexed
          exact EditorialDb.siteRun_slugs hindexed.ids h.slugs hok

/-- The event has a published page and a relationship: a list of related events can show it. -/
def Shown (w : RelatedDb) (eventId : Uuid) : Prop :=
  (∃ page ∈ w.site.pages, page.status = .published ∧ page.eventId = eventId) ∧
    w.HasRelationship eventId

/-- No event that can be shown is merged into another one. -/
def Apart (w : RelatedDb) : Prop := ∀ e, w.Shown e → ¬ w.site.store.IsMerged e

omit [PyText] [PyUpper] [PyTitle] [PyRepr] [PyIsoDate] [PyCasefold] in
/-- An entry is that of a published page of the candidate. -/
theorem relatedItem_some {w : RelatedDb} {c : Uuid × OrionRelationshipType}
    {item : PublicRelatedEvent} (h : w.relatedItem c = some item) :
    ∃ page ∈ w.site.pages, page.eventId = c.1 ∧ page.status = .published ∧ page.slug = item.slug := by
  unfold relatedItem at h
  obtain ⟨page, hpage, rfl⟩ := Option.map_eq_some_iff.mp h
  rw [Option.filter_eq_some_iff] at hpage
  obtain ⟨hlookup, hstatus⟩ := hpage
  obtain ⟨hmem, hevent⟩ := lookup_some hlookup
  exact ⟨page, hmem, hevent, of_decide_eq_true hstatus, rfl⟩

omit [PyUpper] [PyTitle] [PyRepr] [PyIsoDate] [PyCasefold] in
/-- Where no absorbed event can be shown, the entry of a candidate is a page whose canonical event
is the candidate. -/
theorem Apart.canonical_of_item {w : RelatedDb} (hinv : w.Inv) (h : w.Apart)
    {c : Uuid × OrionRelationshipType} {item : PublicRelatedEvent} (hrel : w.HasRelationship c.1)
    (hitem : w.relatedItem c = some item) {page : PublicEventPage} (hpage : page ∈ w.site.pages)
    (hslug : page.slug = item.slug) : w.site.store.publicCanonicalId page.eventId = some c.1 := by
  obtain ⟨p, hp, hevent, hstatus, hpslug⟩ := relatedItem_some hitem
  obtain rfl : p = page := hinv.slugs.eq_of_key hp hpage (hpslug.trans hslug.symm)
  have hlive : ¬ w.site.store.IsMerged p.eventId := by
    rw [hevent]
    exact h c.1 ⟨⟨p, hp, hstatus, hevent⟩, hrel⟩
  rw [hinv.site.publicCanonicalId_of_live hp hlive, hevent]

omit [PyUpper] [PyTitle] [PyRepr] [PyIsoDate] [PyCasefold] in
/-- **Where no absorbed event can be shown, related events are other accidents.** -/
theorem Apart.otherAccidents {w : RelatedDb} (hinv : w.Inv) (h : w.Apart) : w.OtherAccidents := by
  have hresponse : ∀ {order slug response}, w.getPublicEventRelated order slug = .ok response →
      ∃ candidates, w.Found response.canonicalEventId candidates ∧
        response.items = (Keyset.listing PublicRelatedEvent.key
          (candidates.filterMap w.relatedItem)).take publicRelatedLimit := by
    intro order slug response hok
    unfold getPublicEventRelated at hok
    simp only [bind_ok, pure_ok] at hok
    obtain ⟨⟨requested, canonicalId⟩, -, rfl⟩ := hok
    have hnone : w.Found canonicalId [] :=
      ⟨List.nodup_nil, fun c hc => absurd hc List.not_mem_nil⟩
    exact ⟨_, hnone.collectCandidates, rfl⟩
  constructor
  · intro order slug response hok item hitem page hpage hslug
    obtain ⟨candidates, hfound, hitems⟩ := hresponse hok
    rw [hitems] at hitem
    have hlisted := (Keyset.perm_listing _).mem_iff.mp (List.mem_of_mem_take hitem)
    obtain ⟨c, hc, hcitem⟩ := List.mem_filterMap.mp hlisted
    obtain ⟨hother, hrel⟩ := hfound.other c hc
    rw [h.canonical_of_item hinv hrel hcitem hpage hslug]
    exact fun heq => hother (Option.some.inj heq)
  · intro order slug response hok
    obtain ⟨candidates, hfound, hitems⟩ := hresponse hok
    rw [hitems]
    refine List.Pairwise.sublist (List.take_sublist _ _) ?_
    rw [(Keyset.perm_listing _).pairwise_iff]
    · rw [List.pairwise_filterMap]
      have hpairs : candidates.Pairwise fun c d => c.1 ≠ d.1 := List.pairwise_map.mp hfound.nodup
      refine hpairs.imp_of_mem ?_
      intro c d hc hd hcd a ha b hb p hp q hq hpa hqb
      rw [h.canonical_of_item hinv (hfound.other c hc).2 ha hp hpa,
        h.canonical_of_item hinv (hfound.other d hd).2 hb hq hqb]
      exact fun heq => hcd (Option.some.inj heq)
    · intro a b hab p hp q hq hpb hqa heq
      exact hab q hq p hp hqa hpb heq.symm

/-- The step brings no absorbed event on show: it merges no event that can be shown, publishes no
page of a merged event with a relationship, and extracts no merged event with a published page. -/
def KeepsApart (w : RelatedDb) : RelatedOp → Prop
  | .site (.accident op) => ∀ page ∈ w.site.pages, page.status = .published →
      w.HasRelationship page.eventId → (Atlas.step w.site.store op).IsMerged page.eventId →
        w.site.store.IsMerged page.eventId
  | .site op => ∀ page ∈ w.site.pages, op.Publishes page.id → w.HasRelationship page.eventId →
      ¬ w.site.store.IsMerged page.eventId
  | .extract _ _ eventId => w.site.store.IsMerged eventId → ∀ page ∈ w.site.pages,
      page.eventId = eventId → page.status ≠ .published

theorem Apart.step {w : RelatedDb} (h : w.Apart) {op : RelatedOp} (hop : w.KeepsApart op) :
    (w.step op).Apart := by
  cases op with
  | extract pick pgLower eventId =>
      rintro e ⟨⟨page, hpage, hstatus, hevent⟩, r, hr, hre⟩ hmerged
      rcases extractOrionEntities_relationships r hr with hold | hnew
      · exact h e ⟨⟨page, hpage, hstatus, hevent⟩, r, hold, hre⟩ hmerged
      · obtain rfl : e = eventId := hre.symm.trans hnew
        exact hop hmerged page hpage hevent hstatus
  | site op =>
      change ({ w with site := w.site.siteStep op } : RelatedDb).Apart
      unfold EditorialDb.siteStep
      cases hok : w.site.siteRun op with
      | error e => exact h
      | ok s' =>
          rintro e ⟨⟨page, hpage, hstatus, hevent⟩, hrel⟩ hmerged
          obtain ⟨old, hold, holdEvent, hwas⟩ := EditorialDb.siteRun_published hok hpage hstatus
          rcases EditorialDb.siteRun_frame hok with ⟨o, rfl, hstore, -⟩ | ⟨hstore, -⟩
          · obtain rfl : old.eventId = e := holdEvent.trans hevent
            rcases hwas with hwas | ⟨_, _, hop', _⟩
            · exact h _ ⟨⟨old, hold, hwas, rfl⟩, hrel⟩ (hop old hold hwas hrel (hstore ▸ hmerged))
            · cases hop'
          · have hbefore : w.site.store.IsMerged e := hstore ▸ hmerged
            rcases hwas with hwas | hpublishes
            · exact h e ⟨⟨old, hold, hwas, holdEvent.trans hevent⟩, hrel⟩ hbefore
            · have hopen : w.HasRelationship old.eventId → ¬ w.site.store.IsMerged old.eventId := by
                cases op with
                | accident o =>
                    obtain ⟨_, _, hop', _⟩ := hpublishes
                    cases hop'
                | create | update | transition | reindex => exact hop old hold hpublishes
              rw [holdEvent.trans hevent] at hopen
              exact hopen hrel hbefore

/-- **Related events are other accidents** in every state of a run that brings no absorbed event
on show. -/
theorem related_events_apart (sources : List Source) (ops : List RelatedOp)
    (h : Runs.EveryStep step KeepsApart (empty sources) ops) :
    Runs.EveryState step OtherAccidents (empty sources) ops := by
  have hempty : (empty sources).Apart := by
    rintro e ⟨⟨page, hpage, -⟩, -⟩
    exact absurd hpage List.not_mem_nil
  have hboth : Runs.EveryState step (fun w => w.Inv ∧ w.Apart) (empty sources) ops :=
    Runs.everyState_of_everyStep (fun w op hw hop => ⟨hw.1.step op, hw.2.step hop⟩)
      ⟨inv_empty sources, hempty⟩ h
  exact hboth.imp fun w hw => hw.2.otherAccidents hw.1

end Runs

instance (w : RelatedDb) (eventId : Uuid) : Decidable (w.HasRelationship eventId) := by
  unfold HasRelationship
  infer_instance

instance (w : RelatedDb) (op : RelatedOp) : Decidable (w.KeepsApart op) := by
  rcases op with (_ | _ | _ | _ | _) | _ <;> unfold KeepsApart <;> infer_instance

/-- Two sources report accidents of one operator, and their entities are extracted. -/
def reportsOfOperator : List RelatedOp :=
  [.site (.accident (.ingest ⟨0, 100, "", none, some "r1",
      [⟨"registration", .str "N1"⟩, ⟨"operator", .str "Op"⟩], .new, 10, 1⟩)),
    .site (.accident (.ingest ⟨1, 101, "", none, some "r2",
      [⟨"registration", .str "N2"⟩, ⟨"operator", .str "Op"⟩], .new, 10, 2⟩)),
    .site (.accident (.rebuild none 3)), .extract .first id 5, .extract .first id 10]

/-- A page about the event is written and published. -/
def publishedPage (pageId : Nat) (eventId : Uuid) (slug : String) (now : Time) : List RelatedOp :=
  [.site (.create { eventId := eventId, slug := slug, title := "Report" } now),
    .site (.transition .submit ⟨pageId, 1, 7, none, none⟩ now),
    .site (.transition .approve ⟨pageId, 2, 8, none, none⟩ now),
    .site (.transition .publish ⟨pageId, 3, 8, none, none⟩ now)]

/-- The first event is merged into the second. -/
def mergeReports : RelatedOp := .site (.accident (.merge ⟨5, 10, 9, "", none, 6⟩))

/-- A third source reports another accident of the operator. -/
def thirdReportOfOperator : List RelatedOp :=
  [.site (.accident (.ingest ⟨2, 102, "", none, some "r3",
      [⟨"registration", .str "N3"⟩, ⟨"operator", .str "Op"⟩], .new, 10, 3⟩)),
    .site (.accident (.rebuild none 4)), .extract .first id 15]

/-- Two of the three accidents have published pages, and the one without is merged. -/
def unpublishedMerged : List RelatedOp :=
  reportsOfOperator ++ thirdReportOfOperator ++ publishedPage 0 10 "b" 4 ++
    publishedPage 1 15 "c" 5 ++ [mergeReports]

/-- An event without a page is merged into one that has a published page; the other accident of
the operator is listed. -/
theorem unpublished_report_merged :
    Runs.EveryState step OtherAccidents (empty fourSources) unpublishedMerged ∧
      ∃ response, (after fourSources unpublishedMerged).getPublicEventRelated .asStored "b" =
        .ok response ∧ response.items.map PublicRelatedEvent.slug = ["c"] := by
  refine ⟨related_events_apart fourSources _ (by decide +kernel), ?_⟩
  exact exists_ok_of_any (by decide +kernel)

/-- Both events have published pages when the first is merged into the second. -/
def mergedReports : List RelatedOp :=
  reportsOfOperator ++ publishedPage 0 5 "a" 4 ++ publishedPage 1 10 "b" 5 ++ [mergeReports]

/-- The page of the absorbed event is listed as related to the page of the event it is merged
into. -/
theorem absorbed_report_listed : ¬ (after fourSources mergedReports).OtherAccidents := by
  intro h
  have hlisted : ∃ response,
      (after fourSources mergedReports).getPublicEventRelated .asStored "b" = .ok response ∧
        response.canonicalEventId = 10 ∧ ∃ item ∈ response.items, item.slug = "a" :=
    exists_ok_of_any (by decide +kernel)
  have hpage : ∃ page ∈ (after fourSources mergedReports).site.pages, page.slug = "a" ∧
      (after fourSources mergedReports).site.store.publicCanonicalId page.eventId = some 10 := by
    decide +kernel
  obtain ⟨response, hok, hcanonical, item, hitem, hslug⟩ := hlisted
  obtain ⟨page, hmem, hpageSlug, hpageCanonical⟩ := hpage
  refine h.others _ _ response hok item hitem page hmem (hpageSlug.trans hslug.symm) ?_
  rw [hcanonical]
  exact hpageCanonical

end RelatedDb

end Atlas
