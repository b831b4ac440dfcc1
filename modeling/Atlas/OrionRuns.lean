import Atlas.Lib.Runs
import Atlas.Orion

/-!
# Extracting twice

What one extraction records of an entity is what the next one looks for: the first leaves an
active identifier under the key of the candidate, owned by the entity it settled on, so the
second finds that entity, and then finds every identifier, link and relationship of it in
place.  Rows are only added, and no two active identifiers share a key, so this still holds
after whatever the rest of the first extraction adds.
-/

namespace Atlas

open Rows Outcome

namespace OrionDb

/-- What every registry keeps: the keys of its tables, and an active owner of the same type for
every identifier. -/
structure Inv (R : OrionDb) : Prop where
  entityIds : Rows.Unique OrionEntity.id R.entities
  fresh : ∀ x ∈ R.entities, x.id < R.nextId
  active : ∀ x ∈ R.entities, x.status = .active
  current : ∀ i ∈ R.identifiers, i.validTo = none
  owned : ∀ i ∈ R.identifiers, ∃ x ∈ R.entities, x.id = i.entityId ∧ x.entityType = i.entityType
  identifierKeys : Rows.Unique OrionEntityIdentifier.key R.identifiers
  relationshipKeys : Rows.Unique OrionRelationship.key R.relationships

theorem inv_empty : empty.Inv where
  entityIds := unique_nil _
  fresh := by simp [empty]
  active := by simp [empty]
  current := by simp [empty]
  owned := by simp [empty]
  identifierKeys := unique_nil _
  relationshipKeys := unique_nil _

/-- The second registry has the rows of the first. -/
structure Extends (R R' : OrionDb) : Prop where
  entities : R.entities ⊆ R'.entities
  identifiers : R.identifiers ⊆ R'.identifiers
  relationships : R.relationships ⊆ R'.relationships
  claimLinks : R.claimLinks ⊆ R'.claimLinks

theorem Extends.refl (R : OrionDb) : R.Extends R :=
  ⟨List.Subset.refl _, List.Subset.refl _, List.Subset.refl _, List.Subset.refl _⟩

theorem Extends.trans {R R' R'' : OrionDb} (h : R.Extends R') (h' : R'.Extends R'') :
    R.Extends R'' :=
  ⟨List.Subset.trans h.entities h'.entities, List.Subset.trans h.identifiers h'.identifiers,
    List.Subset.trans h.relationships h'.relationships, List.Subset.trans h.claimLinks h'.claimLinks⟩

/-! ## Lookups -/

/-- The entity owns an identifier with the key. -/
def Owns (R : OrionDb) (x : OrionEntity) (key : IdentifierKey) : Prop :=
  x ∈ R.entities ∧ ∃ i ∈ R.identifiers, i.key = key ∧ i.entityId = x.id

/-- An identifier with the key is there. -/
def HasKey (R : OrionDb) (key : IdentifierKey) : Prop := ∃ i ∈ R.identifiers, i.key = key

theorem Extends.owns {R R' : OrionDb} (h : R.Extends R') {x : OrionEntity} {key : IdentifierKey}
    (hx : R.Owns x key) : R'.Owns x key := by
  obtain ⟨hmem, i, hi, hkey, hid⟩ := hx
  exact ⟨h.entities hmem, i, h.identifiers hi, hkey, hid⟩

theorem Extends.hasKey {R R' : OrionDb} (h : R.Extends R') {key : IdentifierKey}
    (hkey : R.HasKey key) : R'.HasKey key := by
  obtain ⟨i, hi, hkey⟩ := hkey
  exact ⟨i, h.identifiers hi, hkey⟩

variable {R : OrionDb} {pick : RowChoice} {t : OrionEntityType} {idType norm : String}

theorem Inv.mem_byIdentifier (hinv : R.Inv) {x : OrionEntity} :
    (x ∈ R.entities.filter fun x => x.entityType = t ∧ x.status = .active ∧
      R.identifiers.any fun i => i.entityId = x.id ∧ i.identifierType = idType ∧
        i.normalizedValue = norm ∧ i.validTo = none) ↔ R.Owns x (t, idType, norm) := by
  rw [List.mem_filter, decide_eq_true_eq, List.any_eq_true]
  constructor
  · intro h
    obtain ⟨hx, htype, -, i, hi, hcond⟩ := h
    simp only [decide_eq_true_eq] at hcond
    obtain ⟨hid, hidType, hnorm, -⟩ := hcond
    obtain ⟨y, hy, hyid, hytype⟩ := hinv.owned i hi
    have hsame : y = x := hinv.entityIds.eq_of_key hy hx (hyid.trans hid)
    refine ⟨hx, i, hi, ?_, hid⟩
    rw [OrionEntityIdentifier.key, ← hytype, hsame, htype, hidType, hnorm]
  · intro h
    obtain ⟨hx, i, hi, hkey, hid⟩ := h
    obtain ⟨htype, hidType, hnorm⟩ : i.entityType = t ∧ i.identifierType = idType ∧
        i.normalizedValue = norm := by simpa [OrionEntityIdentifier.key] using hkey
    obtain ⟨y, hy, hyid, hytype⟩ := hinv.owned i hi
    have hsame : y = x := hinv.entityIds.eq_of_key hy hx (hyid.trans hid)
    refine ⟨hx, ?_, hinv.active x hx, i, hi, ?_⟩
    · rw [← hsame, hytype, htype]
    · simp [hid, hidType, hnorm, hinv.current i hi]

/-- **The owner of an identifier is found by it.** -/
theorem Inv.findByIdentifier_eq (hinv : R.Inv) {x : OrionEntity} (h : R.Owns x (t, idType, norm)) :
    R.findByIdentifier pick t idType norm = some x := by
  unfold findByIdentifier
  cases hfound : pick.choose _ with
  | none =>
      have hmem := hinv.mem_byIdentifier.mpr h
      rw [pick.found hfound] at hmem
      exact absurd hmem List.not_mem_nil
  | some y =>
      obtain ⟨hy, j, hj, hjkey, hjid⟩ := hinv.mem_byIdentifier.mp (pick.mem hfound)
      obtain ⟨hx, i, hi, hikey, hiid⟩ := h
      have hsame : j = i := hinv.identifierKeys.eq_of_key hj hi (hjkey.trans hikey.symm)
      rw [hinv.entityIds.eq_of_key hy hx (hjid.symm.trans (hsame ▸ hiid))]

theorem Inv.findByIdentifier_some (hinv : R.Inv) {x : OrionEntity}
    (h : R.findByIdentifier pick t idType norm = some x) : R.Owns x (t, idType, norm) :=
  hinv.mem_byIdentifier.mp (pick.mem h)

theorem Inv.findByIdentifier_none (hinv : R.Inv)
    (h : R.findByIdentifier pick t idType norm = none) : ¬ R.HasKey (t, idType, norm) := by
  intro hkey
  obtain ⟨i, hi, hkey⟩ := hkey
  obtain ⟨x, hx, hid, -⟩ := hinv.owned i hi
  rw [hinv.findByIdentifier_eq ⟨hx, i, hi, hkey, hid.symm⟩] at h
  cases h

/-! ## Adding rows -/

variable {R' : OrionDb}

theorem addEntity_ok {x : OrionEntity} (hinv : R.Inv) (hid : x.id = R.nextId)
    (hactive : x.status = .active) (h : R.addEntity x = .ok R') :
    R'.Inv ∧ R.Extends R' ∧ x ∈ R'.entities ∧ R'.identifiers = R.identifiers := by
  unfold addEntity at h
  simp only [bind_ok, pure_ok] at h
  obtain ⟨-, -, rfl⟩ := h
  have hnew : ∀ y ∈ R.entities, y.id ≠ x.id := by
    intro y hy heq
    exact absurd (hinv.fresh y hy) (by rw [heq, hid]; exact lt_irrefl _)
  refine ⟨⟨hinv.entityIds.append_single hnew, ?_, ?_, hinv.current, ?_, hinv.identifierKeys,
    hinv.relationshipKeys⟩, ?_, List.mem_append_right _ (List.mem_singleton_self x), rfl⟩
  · intro y hy
    rcases List.mem_append.mp hy with hold | hnew
    · exact lt_trans (hinv.fresh y hold) (Nat.lt_succ_self _)
    · rw [List.mem_singleton.mp hnew, hid]
      exact Nat.lt_succ_self _
  · intro y hy
    rcases List.mem_append.mp hy with hold | hnew
    · exact hinv.active y hold
    · rw [List.mem_singleton.mp hnew]
      exact hactive
  · intro i hi
    obtain ⟨y, hy, howner⟩ := hinv.owned i hi
    exact ⟨y, List.mem_append_left _ hy, howner⟩
  · exact ⟨List.subset_append_left _ _, List.Subset.refl _, List.Subset.refl _, List.Subset.refl _⟩

theorem tryAddIdentifier_ok {i : OrionEntityIdentifier} (hinv : R.Inv) (hcurrent : i.validTo = none)
    (howner : ∃ x ∈ R.entities, x.id = i.entityId ∧ x.entityType = i.entityType)
    (h : R.tryAddIdentifier i = .ok R') :
    R'.Inv ∧ R.Extends R' ∧ R'.HasKey i.key ∧ (¬ R.HasKey i.key → i ∈ R'.identifiers) := by
  unfold tryAddIdentifier at h
  simp only [bind_ok, pure_ok] at h
  obtain ⟨-, -, rfl⟩ := h
  split
  · rename_i hthere
    obtain ⟨j, hj, hcond⟩ := List.any_eq_true.mp hthere
    have hkey : R.HasKey i.key := ⟨j, hj, (of_decide_eq_true hcond).1⟩
    exact ⟨hinv, .refl R, hkey, fun hnot => absurd hkey hnot⟩
  · rename_i hnone
    have hnew : ∀ j ∈ R.identifiers, j.key ≠ i.key := by
      intro j hj heq
      exact hnone (List.any_eq_true.mpr ⟨j, hj, decide_eq_true ⟨heq, hinv.current j hj⟩⟩)
    have hi : i ∈ R.identifiers ++ [i] := List.mem_append_right _ (List.mem_singleton_self i)
    refine ⟨⟨hinv.entityIds, ?_, hinv.active, ?_, ?_, hinv.identifierKeys.append_single hnew,
      hinv.relationshipKeys⟩, ?_, ⟨i, hi, rfl⟩, fun _ => hi⟩
    · intro x hx
      exact lt_trans (hinv.fresh x hx) (Nat.lt_succ_self _)
    · intro j hj
      rcases List.mem_append.mp hj with hold | hlast
      · exact hinv.current j hold
      · rw [List.mem_singleton.mp hlast]
        exact hcurrent
    · intro j hj
      rcases List.mem_append.mp hj with hold | hlast
      · exact hinv.owned j hold
      · rw [List.mem_singleton.mp hlast]
        exact howner
    · exact ⟨List.Subset.refl _, List.subset_append_left _ _, List.Subset.refl _,
        List.Subset.refl _⟩

theorem upsertRelationship_ok {r : OrionRelationship} (hinv : R.Inv) :
    (R.upsertRelationship r).2.2.Inv ∧ R.Extends (R.upsertRelationship r).2.2 ∧
      (R.upsertRelationship r).1 ∈ (R.upsertRelationship r).2.2.relationships ∧
      (R.upsertRelationship r).1.key = r.key := by
  unfold upsertRelationship
  cases hold : lookup OrionRelationship.key r.key R.relationships with
  | some old =>
      obtain ⟨hmem, hkey⟩ := lookup_some hold
      exact ⟨hinv, .refl R, hmem, hkey⟩
  | none =>
      refine ⟨⟨hinv.entityIds, ?_, hinv.active, hinv.current, hinv.owned, hinv.identifierKeys,
        hinv.relationshipKeys.append_single (lookup_none.mp hold)⟩, ?_,
        List.mem_append_right _ (List.mem_singleton_self r), rfl⟩
      · intro x hx
        exact lt_trans (hinv.fresh x hx) (Nat.lt_succ_self _)
      · exact ⟨List.Subset.refl _, List.Subset.refl _, List.subset_append_left _ _,
          List.Subset.refl _⟩

/-- A relationship with the key stays. -/
theorem upsertRelationship_again {r old : OrionRelationship} (hinv : R.Inv)
    (hold : old ∈ R.relationships) (hkey : old.key = r.key) :
    R.upsertRelationship r = (old, false, R) := by
  unfold upsertRelationship
  rw [← hkey, hinv.relationshipKeys.lookup_eq hold]

theorem addClaimLink_ok {l : OrionEntityClaimLink} (hinv : R.Inv) :
    (R.addClaimLink l).Inv ∧ R.Extends (R.addClaimLink l) ∧
      ∃ l' ∈ (R.addClaimLink l).claimLinks, l'.key = l.key := by
  unfold addClaimLink
  cases hold : lookup OrionEntityClaimLink.key l.key R.claimLinks with
  | some old =>
      obtain ⟨hmem, hkey⟩ := lookup_some hold
      exact ⟨hinv, .refl R, old, hmem, hkey⟩
  | none =>
      refine ⟨⟨hinv.entityIds, ?_, hinv.active, hinv.current, hinv.owned, hinv.identifierKeys,
        hinv.relationshipKeys⟩, ?_, l, List.mem_append_right _ (List.mem_singleton_self l), rfl⟩
      · intro x hx
        exact lt_trans (hinv.fresh x hx) (Nat.lt_succ_self _)
      · exact ⟨List.Subset.refl _, List.Subset.refl _, List.Subset.refl _,
          List.subset_append_left _ _⟩

theorem addClaimLink_again {l : OrionEntityClaimLink} (h : ∃ l' ∈ R.claimLinks, l'.key = l.key) :
    R.addClaimLink l = R := by
  unfold addClaimLink
  cases hold : lookup OrionEntityClaimLink.key l.key R.claimLinks with
  | some old => rfl
  | none =>
      obtain ⟨l', hl', hkey⟩ := h
      exact absurd hkey (lookup_none.mp hold l' hl')

end OrionDb

/-! ## One entity -/

/-- The texts of an identifier fit their columns. -/
def IdentifierSpec.Fits (spec : IdentifierSpec) : Prop :=
  spec.identifierValue.length ≤ OrionDb.columnWidth ∧ spec.normalizedValue.length ≤ OrionDb.columnWidth

namespace ExtractionContext

variable [PyText] {ctx : ExtractionContext} {R R' : OrionDb} {x : OrionEntity}
  {c : ResolutionCandidate} {field : String}

/-- The first lookups: the entity is there, and it owns the identifier of the candidate unless
nobody does. -/
theorem resolveOrCreate_ok {created : Bool} (hinv : R.Inv)
    (h : ctx.resolveOrCreate R c = .ok (x, created, R')) :
    R'.Inv ∧ R.Extends R' ∧ x ∈ R'.entities ∧ x.entityType = c.entityType ∧
      (R'.Owns x (c.key c.primaryIdentifier) ∨ ¬ R'.HasKey (c.key c.primaryIdentifier)) := by
  unfold resolveOrCreate at h
  dsimp only at h
  cases hident : R.findByIdentifier ctx.pick c.entityType c.primaryIdentifier.identifierType
      c.primaryIdentifier.normalizedValue with
  | some y =>
      rw [hident, Option.some_or] at h
      cases h
      have howns := hinv.findByIdentifier_some hident
      obtain ⟨i, hi, hkey, hid⟩ := howns.2
      obtain ⟨z, hz, hzid, hztype⟩ := hinv.owned i hi
      refine ⟨hinv, .refl R, howns.1, ?_, .inl howns⟩
      rw [← hinv.entityIds.eq_of_key hz howns.1 (hzid.trans hid), hztype]
      exact congrArg Prod.fst hkey
  | none =>
      have hnokey : ¬ R.HasKey (c.key c.primaryIdentifier) := hinv.findByIdentifier_none hident
      rw [hident, Option.none_or] at h
      cases hname : R.findByCanonicalName ctx.pick ctx.pgLower c.entityType
          (normalizeName c.canonicalName) with
      | some y =>
          rw [hname] at h
          cases h
          obtain ⟨hx, hcond⟩ := List.mem_filter.mp (ctx.pick.mem hname)
          exact ⟨hinv, .refl R, hx, (of_decide_eq_true hcond).1, .inr hnokey⟩
      | none =>
          rw [hname] at h
          simp only [bind_ok, pure_ok, Prod.mk.injEq] at h
          obtain ⟨R₁, hadd, rfl, -, rfl⟩ := h
          obtain ⟨hinv', hext, hmem, hidentifiers⟩ := OrionDb.addEntity_ok hinv rfl rfl hadd
          refine ⟨hinv', hext, hmem, rfl, .inr ?_⟩
          unfold OrionDb.HasKey
          rw [hidentifiers]
          exact hnokey

omit [PyText] in
theorem attachIdentifier_ok {spec : IdentifierSpec} {claimField : Option String} (hinv : R.Inv)
    (hx : x ∈ R.entities) (h : ctx.attachIdentifier R x spec claimField = .ok R') :
    R'.Inv ∧ R.Extends R' ∧ spec.Fits ∧
      R'.HasKey (x.entityType, spec.identifierType, spec.normalizedValue) ∧
      (¬ R.HasKey (x.entityType, spec.identifierType, spec.normalizedValue) →
        R'.Owns x (x.entityType, spec.identifierType, spec.normalizedValue)) := by
  unfold attachIdentifier at h
  dsimp only at h
  have hfits : spec.Fits := by
    unfold OrionDb.tryAddIdentifier at h
    simp only [bind_ok, require_ok] at h
    obtain ⟨-, hfits, -⟩ := h
    exact hfits
  obtain ⟨hinv', hext, hkey, hnew⟩ := OrionDb.tryAddIdentifier_ok hinv rfl ⟨x, hx, rfl, rfl⟩ h
  exact ⟨hinv', hext, hfits, hkey, fun hnone => ⟨hext.entities hx, _, hnew hnone, rfl, rfl⟩⟩

omit [PyText] in
theorem attachIdentifier_again {spec : IdentifierSpec} {claimField : Option String} (hinv : R.Inv)
    (hfits : spec.Fits)
    (hkey : R.HasKey (x.entityType, spec.identifierType, spec.normalizedValue)) :
    ctx.attachIdentifier R x spec claimField = .ok R := by
  obtain ⟨i, hi, hkey⟩ := hkey
  unfold attachIdentifier OrionDb.tryAddIdentifier
  dsimp only
  simp only [bind_ok, require_ok, pure_ok]
  refine ⟨(), hfits, ?_⟩
  rw [if_pos]
  exact List.any_eq_true.mpr ⟨i, hi, decide_eq_true ⟨hkey, hinv.current i hi⟩⟩

omit [PyText] in
/-- The further identifiers, one after another. -/
theorem attachExtras_ok {specs : List IdentifierSpec} (hinv : R.Inv) (hx : x ∈ R.entities)
    (h : specs.foldlM (fun R spec => ctx.attachIdentifier R x spec none) R = .ok R') :
    R'.Inv ∧ R.Extends R' ∧ ∀ spec ∈ specs, spec.Fits ∧
      R'.HasKey (x.entityType, spec.identifierType, spec.normalizedValue) := by
  induction specs generalizing R with
  | nil =>
      cases h
      exact ⟨hinv, .refl _, by simp⟩
  | cons spec specs ih =>
      rw [List.foldlM_cons, bind_ok] at h
      obtain ⟨R₁, hfirst, hrest⟩ := h
      obtain ⟨hinv₁, hext₁, hfits, hkey, -⟩ := attachIdentifier_ok hinv hx hfirst
      obtain ⟨hinv', hext, hall⟩ := ih hinv₁ (hext₁.entities hx) hrest
      refine ⟨hinv', hext₁.trans hext, ?_⟩
      intro other hother
      rcases List.mem_cons.mp hother with rfl | hother
      · exact ⟨hfits, hext.hasKey hkey⟩
      · exact hall other hother

omit [PyText] in
theorem attachExtras_again {specs : List IdentifierSpec} (hinv : R.Inv)
    (h : ∀ spec ∈ specs, spec.Fits ∧
      R.HasKey (x.entityType, spec.identifierType, spec.normalizedValue)) :
    specs.foldlM (fun R spec => ctx.attachIdentifier R x spec none) R = .ok R := by
  induction specs with
  | nil => rfl
  | cons spec specs ih =>
      obtain ⟨hfits, hkey⟩ := h spec List.mem_cons_self
      rw [List.foldlM_cons, attachIdentifier_again hinv hfits hkey]
      exact ih fun other hother => h other (List.mem_cons_of_mem spec hother)

/-- The claim of the field is linked to the entity. -/
def Linked (ctx : ExtractionContext) (x : OrionEntity) (field : String) (R : OrionDb) : Prop :=
  ∀ claim, ctx.claimsByField.lookup field = some claim →
    ∃ l ∈ R.claimLinks, l.key = (x.id, claim.id, ctx.eventId)

omit [PyText] in
theorem maybeClaimLink_ok (hinv : R.Inv) :
    (ctx.maybeClaimLink R x field).Inv ∧ R.Extends (ctx.maybeClaimLink R x field) ∧
      ctx.Linked x field (ctx.maybeClaimLink R x field) := by
  unfold maybeClaimLink Linked
  cases hclaim : ctx.claimsByField.lookup field with
  | none => exact ⟨hinv, .refl R, by simp⟩
  | some claim =>
      obtain ⟨hinv', hext, hlink⟩ := OrionDb.addClaimLink_ok (l := ⟨R.nextId, x.id, claim.id,
        claim.rawSnapshotId, claim.sourceId, ctx.eventId, 95 / 100⟩) hinv
      refine ⟨hinv', hext, ?_⟩
      intro other hother
      cases hother
      exact hlink

omit [PyText] in
theorem maybeClaimLink_again (h : ctx.Linked x field R) : ctx.maybeClaimLink R x field = R := by
  unfold maybeClaimLink
  cases hclaim : ctx.claimsByField.lookup field with
  | none => rfl
  | some claim => exact OrionDb.addClaimLink_again (h claim hclaim)

/-- The relationship of the entity is there, with this identifier; without a subject there is
none. -/
def Related (ctx : ExtractionContext) (relType : OrionRelationshipType) (subject : OrionSubject)
    (x : OrionEntity) (rel : Option Uuid) (R : OrionDb) : Prop :=
  match subject.start with
  | none => rel = none
  | some subjectId => ∃ r ∈ R.relationships,
      r.key = (subjectId, relType, x.id, ctx.eventId) ∧ rel = some r.id

omit [PyText] in
theorem relate_ok {relType : OrionRelationshipType} {subject : OrionSubject}
    {st st' : ExtractionState} (h : ctx.relate st relType subject x field = st')
    (hinv : st.db.Inv) :
    st'.db.Inv ∧ st.db.Extends st'.db ∧ st'.result.entityIds = st.result.entityIds ∧
      ∃ rel, ctx.Related relType subject x rel st'.db ∧
        st'.result.relationshipIds =
          rel.elim st.result.relationshipIds (listId st.result.relationshipIds) := by
  subst h
  unfold relate Related
  cases subject.start with
  | none => exact ⟨hinv, .refl st.db, rfl, none, rfl, rfl⟩
  | some subjectId =>
      have hok := fun r => OrionDb.upsertRelationship_ok (r := r) hinv
      obtain ⟨hinv', hext, hmem, hkey⟩ := hok ⟨st.db.nextId, subjectId, relType, x.id, ctx.eventId,
        (ctx.claimsByField.lookup field).map Claim.id,
        (ctx.claimsByField.lookup field).bind Claim.rawSnapshotId, 95 / 100⟩
      exact ⟨hinv', hext, rfl, _, ⟨_, hmem, hkey, rfl⟩, rfl⟩

omit [PyText] in
theorem relate_again {relType : OrionRelationshipType} {subject : OrionSubject} {rel : Option Uuid}
    {st : ExtractionState} (hinv : st.db.Inv) (h : ctx.Related relType subject x rel st.db) :
    (ctx.relate st relType subject x field).db = st.db ∧
      (ctx.relate st relType subject x field).result.entityIds = st.result.entityIds ∧
      (ctx.relate st relType subject x field).result.relationshipIds =
        rel.elim st.result.relationshipIds (listId st.result.relationshipIds) := by
  unfold Related at h
  unfold relate
  cases hstart : subject.start with
  | none =>
      rw [hstart] at h
      dsimp only at h
      subst h
      exact ⟨rfl, rfl, rfl⟩
  | some subjectId =>
      rw [hstart] at h
      obtain ⟨r, hr, hkey, rfl⟩ := h
      have hstays : ctx.upsertRel st.db relType x.id subjectId field = (r, false, st.db) :=
        OrionDb.upsertRelationship_again hinv hr hkey
      dsimp only
      rw [hstays]
      exact ⟨rfl, rfl, rfl⟩

/-- What an extraction leaves of one entity. -/
structure Settled (ctx : ExtractionContext) (relType : OrionRelationshipType)
    (subject : OrionSubject) (field : String) (c : ResolutionCandidate) (x : OrionEntity)
    (rel : Option Uuid) (R : OrionDb) : Prop where
  type : x.entityType = c.entityType
  fits : c.primaryIdentifier.Fits
  owner : R.Owns x (c.key c.primaryIdentifier)
  extras : ∀ spec ∈ c.extraIdentifiers, spec.Fits ∧ R.HasKey (c.key spec)
  linked : ctx.Linked x field R
  related : ctx.Related relType subject x rel R

omit [PyText] in
/-- It is still there in a larger registry. -/
theorem Settled.mono {relType : OrionRelationshipType} {subject : OrionSubject} {rel : Option Uuid}
    (h : ctx.Settled relType subject field c x rel R) (hext : R.Extends R') :
    ctx.Settled relType subject field c x rel R' where
  type := h.type
  fits := h.fits
  owner := hext.owns h.owner
  extras := by
    intro spec hspec
    obtain ⟨hfits, hkey⟩ := h.extras spec hspec
    exact ⟨hfits, hext.hasKey hkey⟩
  linked := by
    intro claim hclaim
    obtain ⟨l, hl, hkey⟩ := h.linked claim hclaim
    exact ⟨l, hext.claimLinks hl, hkey⟩
  related := by
    have hrelated := h.related
    unfold Related at hrelated ⊢
    cases hstart : subject.start with
    | none =>
        rw [hstart] at hrelated
        exact hrelated
    | some subjectId =>
        rw [hstart] at hrelated
        obtain ⟨r, hr, hkey, hid⟩ := hrelated
        exact ⟨r, hext.relationships hr, hkey, hid⟩

/-- The first extraction settles the entity. -/
theorem extractEntity_settles {relType : OrionRelationshipType} {subject : OrionSubject}
    {st st' : ExtractionState} {found : Option OrionEntity} (hinv : st.db.Inv)
    (h : ctx.extractEntity relType subject (some (field, c)) st = .ok (found, st')) :
    st'.db.Inv ∧ st.db.Extends st'.db ∧ ∃ x rel, found = some x ∧
      ctx.Settled relType subject field c x rel st'.db ∧
      st'.result.entityIds = listId st.result.entityIds x.id ∧
      st'.result.relationshipIds =
        rel.elim st.result.relationshipIds (listId st.result.relationshipIds) := by
  unfold extractEntity at h
  simp only [bind_ok, pure_ok, Prod.mk.injEq] at h
  obtain ⟨⟨x, created, R₁⟩, hresolve, R₂, hprimary, R₃, hextras, rfl, hrelate⟩ := h
  obtain ⟨hinv₁, hext₁, hx₁, htype, howns⟩ := resolveOrCreate_ok hinv hresolve
  obtain ⟨hinv₂, hext₂, hfits, -, hnew⟩ := attachIdentifier_ok hinv₁ hx₁ hprimary
  obtain ⟨hinv₃, hext₃, hextrasOk⟩ := attachExtras_ok hinv₂ (hext₂.entities hx₁) hextras
  obtain ⟨hinv₄, hext₄, hlinked⟩ : (ctx.maybeClaimLink R₃ x field).Inv ∧
      R₃.Extends (ctx.maybeClaimLink R₃ x field) ∧
      ctx.Linked x field (ctx.maybeClaimLink R₃ x field) := maybeClaimLink_ok hinv₃
  obtain ⟨hinv', hext₅, hentities, rel, hrelated, hrelationships⟩ := relate_ok hrelate hinv₄
  have howner : R₂.Owns x (c.key c.primaryIdentifier) := by
    rcases howns with howns | hnone
    · exact hext₂.owns howns
    · rw [ResolutionCandidate.key, ← htype] at hnone ⊢
      exact hnew hnone
  have hext : R₂.Extends st'.db := hext₃.trans (hext₄.trans hext₅)
  refine ⟨hinv', hext₁.trans (hext₂.trans hext), x, rel, rfl, ?_, hentities, hrelationships⟩
  refine ⟨htype, hfits, hext.owns howner, ?_, ?_, hrelated⟩
  · intro spec hspec
    obtain ⟨hspecFits, hspecKey⟩ := hextrasOk spec hspec
    rw [htype] at hspecKey
    exact ⟨hspecFits, (hext₄.trans hext₅).hasKey hspecKey⟩
  · intro claim hclaim
    obtain ⟨l, hl, hlkey⟩ := hlinked claim hclaim
    exact ⟨l, hext₅.claimLinks hl, hlkey⟩

/-- The extraction with another choice of rows. -/
def withPick (ctx : ExtractionContext) (pick : RowChoice) : ExtractionContext :=
  { ctx with pick := pick }

/-- Where the entity is settled, an extraction finds it and adds nothing, whichever rows the
queries choose. -/
theorem extractEntity_settled {relType : OrionRelationshipType} {subject : OrionSubject}
    {rel : Option Uuid} {st : ExtractionState} (pick : RowChoice) (hinv : st.db.Inv)
    (h : ctx.Settled relType subject field c x rel st.db) :
    ∃ st', (ctx.withPick pick).extractEntity relType subject (some (field, c)) st =
        .ok (some x, st') ∧ st'.db = st.db ∧
      st'.result.entityIds = listId st.result.entityIds x.id ∧
      st'.result.relationshipIds =
        rel.elim st.result.relationshipIds (listId st.result.relationshipIds) := by
  have hresolve : (ctx.withPick pick).resolveOrCreate st.db c = .ok (x, false, st.db) := by
    have hfound : st.db.findByIdentifier pick c.entityType c.primaryIdentifier.identifierType
        c.primaryIdentifier.normalizedValue = some x := hinv.findByIdentifier_eq h.owner
    unfold resolveOrCreate
    dsimp only [withPick]
    rw [hfound]
    rfl
  have hprimary : (ctx.withPick pick).attachIdentifier st.db x c.primaryIdentifier (some field) =
      .ok st.db := by
    refine attachIdentifier_again hinv h.fits ?_
    obtain ⟨-, i, hi, hkey, -⟩ := h.owner
    rw [h.type]
    exact ⟨i, hi, hkey⟩
  have hextras : c.extraIdentifiers.foldlM
      (fun R spec => (ctx.withPick pick).attachIdentifier R x spec none) st.db = .ok st.db := by
    refine attachExtras_again hinv ?_
    rw [h.type]
    exact h.extras
  have hlink : (ctx.withPick pick).maybeClaimLink st.db x field = st.db :=
    maybeClaimLink_again h.linked
  have hrelate : ∀ st₁ : ExtractionState, st₁.db = st.db →
      ((ctx.withPick pick).relate st₁ relType subject x field).db = st₁.db ∧
      ((ctx.withPick pick).relate st₁ relType subject x field).result.entityIds =
        st₁.result.entityIds ∧
      ((ctx.withPick pick).relate st₁ relType subject x field).result.relationshipIds =
        rel.elim st₁.result.relationshipIds (listId st₁.result.relationshipIds) := by
    intro st₁ hdb
    exact relate_again (hdb ▸ hinv) (hdb ▸ h.related)
  refine ⟨(ctx.withPick pick).relate ⟨st.db, st.result.countEntity x false⟩ relType subject x field,
    ?_, hrelate _ rfl⟩
  unfold extractEntity
  simp only [bind_ok, pure_ok]
  refine ⟨_, hresolve, _, hprimary, _, hextras, ?_⟩
  rw [hlink]

/-- The results of two runs name the same rows. -/
def SameIds (r r' : OrionExtractionResult) : Prop :=
  r.entityIds = r'.entityIds ∧ r.relationshipIds = r'.relationshipIds

/-- **One entity, extracted again.**  In any later registry the second extraction finds the
entity of the first and adds nothing. -/
theorem extractEntity_again {relType : OrionRelationshipType} {subject : OrionSubject}
    {named : Option (String × ResolutionCandidate)} {st st' : ExtractionState}
    {found : Option OrionEntity} (hinv : st.db.Inv)
    (h : ctx.extractEntity relType subject named st = .ok (found, st')) :
    st'.db.Inv ∧ st.db.Extends st'.db ∧ ∀ (pick : RowChoice) (st₂ : ExtractionState),
      st₂.db.Inv → st'.db.Extends st₂.db → SameIds st₂.result st.result →
      ∃ st₂', (ctx.withPick pick).extractEntity relType subject named st₂ = .ok (found, st₂') ∧
        st₂'.db = st₂.db ∧ SameIds st₂'.result st'.result := by
  cases named with
  | none =>
      cases h
      exact ⟨hinv, .refl _, fun pick st₂ _ _ hids => ⟨st₂, rfl, rfl, hids⟩⟩
  | some named =>
      obtain ⟨field, c⟩ := named
      obtain ⟨hinv', hext, x, rel, rfl, hsettled, hentities, hrelationships⟩ :=
        extractEntity_settles hinv h
      refine ⟨hinv', hext, ?_⟩
      intro pick st₂ hinv₂ hext₂ hids
      obtain ⟨st₂', hrun, hdb, hentities₂, hrelationships₂⟩ :=
        extractEntity_settled pick hinv₂ (hsettled.mono hext₂)
      refine ⟨st₂', hrun, hdb, ?_, ?_⟩
      · rw [hentities₂, hentities, hids.1]
      · rw [hrelationships₂, hrelationships, hids.2]

end ExtractionContext

/-! ## All entities -/

section Extract

variable [PyText] [PyUpper] [PyTitle] [PyRepr] [PyCasefold]

open ExtractionContext

omit [PyCasefold] in
/-- The extraction from the fields of a projection, again. -/
theorem extractFields_again {ctx : ExtractionContext} {fields : List (String × Json)}
    {st st' : ExtractionState} (hinv : st.db.Inv) (h : extractFields ctx fields st = .ok st') :
    st'.db.Inv ∧ ∀ (pick : RowChoice) (t : ExtractionState), t.db = st'.db →
      SameIds t.result st.result →
      ∃ t', extractFields (ctx.withPick pick) fields t = .ok t' ∧ t'.db = st'.db ∧
        SameIds t'.result st'.result := by
  unfold extractFields at h
  simp only [bind_ok, pure_ok] at h
  obtain ⟨⟨aircraft, st₁⟩, h₁, ⟨operator, st₂⟩, h₂, ⟨aircraftType, st₃⟩, h₃, ⟨manufacturer, st₄⟩, h₄,
    ⟨airport, st₅⟩, h₅, ⟨country, st₆⟩, h₆, ⟨agency, st₇⟩, h₇, rfl⟩ := h
  obtain ⟨hinv₁, -, hagain₁⟩ := extractEntity_again hinv h₁
  obtain ⟨hinv₂, hext₂, hagain₂⟩ := extractEntity_again hinv₁ h₂
  obtain ⟨hinv₃, hext₃, hagain₃⟩ := extractEntity_again hinv₂ h₃
  obtain ⟨hinv₄, hext₄, hagain₄⟩ := extractEntity_again hinv₃ h₄
  obtain ⟨hinv₅, hext₅, hagain₅⟩ := extractEntity_again hinv₄ h₅
  obtain ⟨hinv₆, hext₆, hagain₆⟩ := extractEntity_again hinv₅ h₆
  obtain ⟨hinv₇, hext₇, hagain₇⟩ := extractEntity_again hinv₆ h₇
  refine ⟨hinv₇, ?_⟩
  intro pick t hdb hids
  -- Each step of the first extraction is settled in the registry that the last one leaves.
  have hlast₆ : st₆.db.Extends st₇.db := hext₇
  have hlast₅ : st₅.db.Extends st₇.db := hext₆.trans hlast₆
  have hlast₄ : st₄.db.Extends st₇.db := hext₅.trans hlast₅
  have hlast₃ : st₃.db.Extends st₇.db := hext₄.trans hlast₄
  have hlast₂ : st₂.db.Extends st₇.db := hext₃.trans hlast₃
  have hlast₁ : st₁.db.Extends st₇.db := hext₂.trans hlast₂
  obtain ⟨t₁, hrun₁, hdb₁, hids₁⟩ := hagain₁ pick t (hdb ▸ hinv₇) (hdb ▸ hlast₁) hids
  replace hdb₁ := hdb₁.trans hdb
  obtain ⟨t₂, hrun₂, hdb₂, hids₂⟩ := hagain₂ pick t₁ (hdb₁ ▸ hinv₇) (hdb₁ ▸ hlast₂) hids₁
  replace hdb₂ := hdb₂.trans hdb₁
  obtain ⟨t₃, hrun₃, hdb₃, hids₃⟩ := hagain₃ pick t₂ (hdb₂ ▸ hinv₇) (hdb₂ ▸ hlast₃) hids₂
  replace hdb₃ := hdb₃.trans hdb₂
  obtain ⟨t₄, hrun₄, hdb₄, hids₄⟩ := hagain₄ pick t₃ (hdb₃ ▸ hinv₇) (hdb₃ ▸ hlast₄) hids₃
  replace hdb₄ := hdb₄.trans hdb₃
  obtain ⟨t₅, hrun₅, hdb₅, hids₅⟩ := hagain₅ pick t₄ (hdb₄ ▸ hinv₇) (hdb₄ ▸ hlast₅) hids₄
  replace hdb₅ := hdb₅.trans hdb₄
  obtain ⟨t₆, hrun₆, hdb₆, hids₆⟩ := hagain₆ pick t₅ (hdb₅ ▸ hinv₇) (hdb₅ ▸ hlast₆) hids₅
  replace hdb₆ := hdb₆.trans hdb₅
  obtain ⟨t₇, hrun₇, hdb₇, hids₇⟩ := hagain₇ pick t₆ (hdb₆ ▸ hinv₇) (hdb₆ ▸ .refl _) hids₆
  refine ⟨t₇, ?_, hdb₇.trans hdb₆, hids₇⟩
  unfold extractFields
  simp only [bind_ok, pure_ok]
  exact ⟨_, hrun₁, _, hrun₂, _, hrun₃, _, hrun₄, _, hrun₅, _, hrun₆, _, hrun₇, rfl⟩

/-- The registry after one run; a run that raises leaves it as it was. -/
def registryAfter (R : OrionDb)
    (run : Except AtlasError (OrionExtractionResult × OrionDb)) : OrionDb :=
  match run with
  | .ok (_, R') => R'
  | .error _ => R

/-- What one run meets: how its queries choose rows, the store, and the event. -/
structure OrionRun where
  pick : RowChoice
  store : Db
  eventId : Uuid

/-- The registry after a sequence of runs. -/
def registryOf (pgLower : String → String) (runs : List OrionRun) : OrionDb :=
  runs.foldl (fun R run =>
    registryAfter R (extractOrionEntities run.pick pgLower run.store run.eventId R)) .empty

/-- One run, and a second one after it. -/
theorem extractOrionEntities_again {pick : RowChoice} (pick' : RowChoice) {pgLower : String → String} {s : Db}
    {eventId : Uuid} {R R' : OrionDb} {result : OrionExtractionResult} (hinv : R.Inv)
    (h : extractOrionEntities pick pgLower s eventId R = .ok (result, R')) :
    R'.Inv ∧ ∃ result', extractOrionEntities pick' pgLower s eventId R' = .ok (result', R') ∧
      SameIds result' result := by
  unfold extractOrionEntities at h ⊢
  cases hprojection : s.getProjection eventId with
  | none =>
      rw [hprojection] at h
      cases h
      exact ⟨hinv, _, rfl, rfl, rfl⟩
  | some projection =>
      rw [hprojection] at h
      simp only [bind_ok, pure_ok, Prod.mk.injEq] at h
      obtain ⟨st, hfields, rfl, rfl⟩ := h
      obtain ⟨hinv', hagain⟩ := extractFields_again hinv hfields
      refine ⟨hinv', ?_⟩
      obtain ⟨t, hrun, hdb, hids⟩ := hagain pick' ⟨st.db, .start eventId⟩ rfl ⟨rfl, rfl⟩
      refine ⟨t.result, ?_, hids⟩
      simp only [bind_ok, pure_ok, Prod.mk.injEq]
      exact ⟨t, hrun, rfl, hdb⟩

theorem registryAfter_inv {pick : RowChoice} {pgLower : String → String} {s : Db} {eventId : Uuid}
    {R : OrionDb} (hinv : R.Inv) :
    (registryAfter R (extractOrionEntities pick pgLower s eventId R)).Inv := by
  cases hrun : extractOrionEntities pick pgLower s eventId R with
  | error e => exact hinv
  | ok out =>
      obtain ⟨result, R'⟩ := out
      exact (extractOrionEntities_again pick hinv hrun).1

/-- Every run keeps the invariant. -/
theorem registryOf_inv (pgLower : String → String) (runs : List OrionRun) :
    (registryOf pgLower runs).Inv := by
  unfold registryOf
  exact List.foldlRecOn runs _ OrionDb.inv_empty fun R hinv run _ => registryAfter_inv hinv

/-- **Extracting an event twice in a row is extracting it once.**  From every registry that runs
lead to, the second run leaves the registry as the first left it and returns the same entities
and relationships, whichever rows the queries of the two runs choose.  A run that raises leaves
the registry alone, and so does the next one. -/
theorem orion_extraction_idempotent (pgLower : String → String) (runs : List OrionRun)
    (pick : RowChoice) (s : Db) (eventId : Uuid) :
    let R := registryOf pgLower runs
    let first := extractOrionEntities pick pgLower s eventId R
    (∃ result R', first = .ok (result, R') ∧ ∀ pick',
      ∃ result', extractOrionEntities pick' pgLower s eventId R' = .ok (result', R') ∧
        SameIds result' result) ∨
    (∃ e, first = .error e ∧ registryAfter R first = R ∧
      extractOrionEntities pick pgLower s eventId (registryAfter R first) = .error e) := by
  dsimp only
  cases hfirst : extractOrionEntities pick pgLower s eventId (registryOf pgLower runs) with
  | ok out =>
      obtain ⟨result, R'⟩ := out
      refine .inl ⟨result, R', rfl, ?_⟩
      intro pick'
      exact (extractOrionEntities_again pick' (registryOf_inv pgLower runs) hfirst).2
  | error e => exact .inr ⟨e, rfl, rfl, hfirst⟩

end Extract

end Atlas
