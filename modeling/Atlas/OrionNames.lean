import Atlas.OrionRuns

/-!
# Entities by their names

Each event names at most one entity of a kind, and a run leaves the entities of the other kinds
alone.  So after two runs from an empty registry the entities of a kind are the one that the first
run created, and a second one unless the second run found it: by an identifier that the first run
recorded, or by the lowered canonical name.  Names are recorded and looked up under one normal form,
with two exceptions.  The identifier of a country keeps its inner blanks, while its fallback does
not.  An airport with a code is looked up by the code.
-/

namespace Atlas

open Rows Outcome

namespace ExtractionContext

variable [PyText] {ctx : ExtractionContext} {R R' : OrionDb} {x : OrionEntity}
  {c : ResolutionCandidate} {field : String}

/-! ## What one extraction adds -/

/-- The entity is found by one of the lookups, or it is new. -/
theorem resolveOrCreate_cases {created : Bool} (hinv : R.Inv)
    (h : ctx.resolveOrCreate R c = .ok (x, created, R')) :
    (R' = R ∧ x ∈ R.entities ∧ x.entityType = c.entityType ∧
        (R.HasKey (c.key c.primaryIdentifier) ∨
          ctx.pgLower x.canonicalName = normalizeName c.canonicalName)) ∨
      (R'.entities = R.entities ++ [x] ∧ R'.identifiers = R.identifiers ∧
        x.entityType = c.entityType ∧ x.canonicalName = c.canonicalName ∧
        ¬ R.HasKey (c.key c.primaryIdentifier) ∧
        ∀ y ∈ R.entities, y.entityType = c.entityType →
          ctx.pgLower y.canonicalName ≠ normalizeName c.canonicalName) := by
  obtain ⟨-, -, -, htype, -⟩ := resolveOrCreate_ok hinv h
  unfold resolveOrCreate at h
  dsimp only at h
  cases hident : R.findByIdentifier ctx.pick c.entityType c.primaryIdentifier.identifierType
      c.primaryIdentifier.normalizedValue with
  | some y =>
      rw [hident, Option.some_or] at h
      cases h
      obtain ⟨hmem, hkey⟩ := hinv.findByIdentifier_some hident
      obtain ⟨i, hi, hik, -⟩ := hkey
      exact .inl ⟨rfl, hmem, htype, .inl ⟨i, hi, hik⟩⟩
  | none =>
      have hnokey : ¬ R.HasKey (c.key c.primaryIdentifier) := hinv.findByIdentifier_none hident
      rw [hident, Option.none_or] at h
      cases hname : R.findByCanonicalName ctx.pick ctx.pgLower c.entityType
          (normalizeName c.canonicalName) with
      | some y =>
          rw [hname] at h
          cases h
          obtain ⟨hx, hcond⟩ := List.mem_filter.mp (ctx.pick.mem hname)
          exact .inl ⟨rfl, hx, htype, .inr (of_decide_eq_true hcond).2.2⟩
      | none =>
          rw [hname] at h
          simp only [bind_ok, pure_ok, Prod.mk.injEq] at h
          obtain ⟨R₁, hadd, rfl, -, rfl⟩ := h
          unfold OrionDb.addEntity at hadd
          simp only [bind_ok, pure_ok] at hadd
          obtain ⟨-, -, rfl⟩ := hadd
          refine .inr ⟨rfl, rfl, rfl, rfl, hnokey, fun y hy hytype hlower => ?_⟩
          have hnone := ctx.pick.found hname
          have hmem : y ∈ R.entities.filter fun x => x.entityType = c.entityType ∧
              x.status = .active ∧ ctx.pgLower x.canonicalName = normalizeName c.canonicalName :=
            List.mem_filter.mpr ⟨hy, decide_eq_true ⟨hytype, hinv.active y hy, hlower⟩⟩
          rw [hnone] at hmem
          cases hmem

omit [PyText] in
/-- An identifier is added under the type of its entity. -/
theorem attachIdentifier_keys {spec : IdentifierSpec} {claimField : Option String}
    (h : ctx.attachIdentifier R x spec claimField = .ok R') :
    R'.entities = R.entities ∧ ∀ key, R'.HasKey key →
      R.HasKey key ∨ key = (x.entityType, spec.identifierType, spec.normalizedValue) := by
  unfold attachIdentifier OrionDb.tryAddIdentifier at h
  simp only [bind_ok, pure_ok] at h
  obtain ⟨-, -, rfl⟩ := h
  split_ifs
  · exact ⟨rfl, fun _ hkey => .inl hkey⟩
  · refine ⟨rfl, fun key hkey => ?_⟩
    obtain ⟨i, hi, rfl⟩ := hkey
    rcases List.mem_append.mp hi with hi | hi
    · exact .inl ⟨i, hi, rfl⟩
    · rw [List.mem_singleton.mp hi]
      exact .inr rfl

omit [PyText] in
theorem attachExtras_keys {specs : List IdentifierSpec}
    (h : specs.foldlM (fun R spec => ctx.attachIdentifier R x spec none) R = .ok R') :
    R'.entities = R.entities ∧ ∀ key, R'.HasKey key → R.HasKey key ∨
      ∃ spec ∈ specs, key = (x.entityType, spec.identifierType, spec.normalizedValue) := by
  induction specs generalizing R with
  | nil =>
      cases h
      exact ⟨rfl, fun _ hkey => .inl hkey⟩
  | cons spec specs ih =>
      rw [List.foldlM_cons, bind_ok] at h
      obtain ⟨R₁, hfirst, hrest⟩ := h
      obtain ⟨hentities₁, hkeys₁⟩ := attachIdentifier_keys hfirst
      obtain ⟨hentities, hkeys⟩ := ih hrest
      refine ⟨hentities.trans hentities₁, fun key hkey => ?_⟩
      rcases hkeys key hkey with hkey | ⟨other, hother, rfl⟩
      · rcases hkeys₁ key hkey with hkey | rfl
        · exact .inl hkey
        · exact .inr ⟨spec, List.mem_cons_self, rfl⟩
      · exact .inr ⟨other, List.mem_cons_of_mem _ hother, rfl⟩

omit [PyText] in
theorem maybeClaimLink_rows :
    (ctx.maybeClaimLink R x field).entities = R.entities ∧
      (ctx.maybeClaimLink R x field).identifiers = R.identifiers := by
  unfold maybeClaimLink OrionDb.addClaimLink
  split
  · exact ⟨rfl, rfl⟩
  · split <;> exact ⟨rfl, rfl⟩

omit [PyText] in
theorem relate_rows {relType : OrionRelationshipType} {subject : OrionSubject}
    {st : ExtractionState} :
    (ctx.relate st relType subject x field).db.entities = st.db.entities ∧
      (ctx.relate st relType subject x field).db.identifiers = st.db.identifiers := by
  unfold relate
  split
  · exact ⟨rfl, rfl⟩
  · dsimp only [upsertRel]
    unfold OrionDb.upsertRelationship
    split <;> exact ⟨rfl, rfl⟩

/-- The candidate finds an entity of its kind. -/
def Finds (ctx : ExtractionContext) (R : OrionDb) (c : ResolutionCandidate) : Prop :=
  R.HasKey (c.key c.primaryIdentifier) ∨ ∃ y ∈ R.entities, y.entityType = c.entityType ∧
    ctx.pgLower y.canonicalName = normalizeName c.canonicalName

/-- The keys of a candidate's identifiers. -/
def keysOf (c : ResolutionCandidate) : List IdentifierKey :=
  (c.primaryIdentifier :: c.extraIdentifiers).map c.key

/-- What one extraction adds: at most an entity, and identifiers under the candidate's keys. -/
structure Adds (ctx : ExtractionContext) (c : ResolutionCandidate) (x : OrionEntity)
    (R R' : OrionDb) : Prop where
  entities : (ctx.Finds R c ∧ R'.entities = R.entities) ∨
    (¬ ctx.Finds R c ∧ R'.entities = R.entities ++ [x])
  member : x ∈ R'.entities
  type : x.entityType = c.entityType
  name : ¬ ctx.Finds R c → x.canonicalName = c.canonicalName
  keys : ∀ key, R'.HasKey key → R.HasKey key ∨ key ∈ keysOf c
  attached : ∀ key ∈ keysOf c, R'.HasKey key

theorem extractEntity_adds {relType : OrionRelationshipType} {subject : OrionSubject}
    {st st' : ExtractionState} {found : Option OrionEntity} (hinv : st.db.Inv)
    (h : ctx.extractEntity relType subject (some (field, c)) st = .ok (found, st')) :
    ∃ x, found = some x ∧ ctx.Adds c x st.db st'.db ∧
      st'.result.entityIds = listId st.result.entityIds x.id := by
  obtain ⟨-, -, y, rel, rfl, hsettled, hids, -⟩ := extractEntity_settles hinv h
  refine ⟨y, rfl, ?_, hids⟩
  unfold extractEntity at h
  simp only [bind_ok, pure_ok, Prod.mk.injEq] at h
  obtain ⟨⟨x, created, R₁⟩, hresolve, R₂, hprimary, R₃, hextras, hsome, hrelate⟩ := h
  obtain rfl := Option.some.inj hsome
  obtain ⟨hentities₂, hkeys₂⟩ := attachIdentifier_keys hprimary
  obtain ⟨hentities₃, hkeys₃⟩ := attachExtras_keys hextras
  have hlink : (ctx.maybeClaimLink R₃ x field).entities = R₃.entities ∧
    (ctx.maybeClaimLink R₃ x field).identifiers = R₃.identifiers := maybeClaimLink_rows
  have hrows : st'.db.entities = (ctx.maybeClaimLink R₃ x field).entities ∧
      st'.db.identifiers = (ctx.maybeClaimLink R₃ x field).identifiers := hrelate ▸ relate_rows
  have hentities : st'.db.entities = R₁.entities := by
    rw [hrows.1, hlink.1, hentities₃, hentities₂]
  have hkeys : ∀ key, st'.db.HasKey key → R₁.HasKey key ∨ key ∈ keysOf c := by
    intro key hkey
    unfold OrionDb.HasKey at hkey
    rw [hrows.2, hlink.2] at hkey
    unfold keysOf ResolutionCandidate.key
    rw [← hsettled.type, List.map_cons, List.mem_cons, List.mem_map]
    rcases hkeys₃ key hkey with hkey | ⟨spec, hspec, rfl⟩
    · rcases hkeys₂ key hkey with hkey | rfl
      · exact .inl hkey
      · exact .inr (.inl rfl)
    · exact .inr (.inr ⟨spec, hspec, rfl⟩)
  have hattached : ∀ key ∈ keysOf c, st'.db.HasKey key := by
    intro key hkey
    obtain ⟨spec, hspec, rfl⟩ := List.mem_map.mp hkey
    rcases List.mem_cons.mp hspec with rfl | hspec
    · obtain ⟨-, i, hi, hik, -⟩ := hsettled.owner
      exact ⟨i, hi, hik⟩
    · exact (hsettled.extras spec hspec).2
  rcases resolveOrCreate_cases hinv hresolve with
    ⟨rfl, hmem, htype, hfound⟩ | ⟨hadded, hsame, htype, hname, hnokey, hnoname⟩
  · have hfinds : ctx.Finds st.db c := hfound.imp id fun hlower => ⟨x, hmem, htype, hlower⟩
    exact ⟨.inl ⟨hfinds, hentities⟩, hentities ▸ hmem, htype, fun hnot => absurd hfinds hnot, hkeys,
      hattached⟩
  · have hfinds : ¬ ctx.Finds st.db c := by
      rintro (hkey | ⟨y, hy, hytype, hlower⟩)
      · exact hnokey hkey
      · exact hnoname y hy hytype hlower
    refine ⟨.inr ⟨hfinds, hentities.trans hadded⟩, ?_, htype, fun _ => hname, ?_, hattached⟩
    · rw [hentities, hadded]
      exact List.mem_append_right _ List.mem_cons_self
    · intro key hkey
      have hold : R₁.HasKey key ↔ st.db.HasKey key := by
        unfold OrionDb.HasKey
        rw [hsame]
      rw [← hold]
      exact hkeys key hkey

/-! ## One kind of entities -/

/-- The entities of a kind. -/
def entitiesOfType (t : OrionEntityType) (R : OrionDb) : List OrionEntity :=
  R.entities.filter fun x => x.entityType = t

/-- The second registry has the same entities of a kind, and the same keys for them. -/
structure SameKind (t : OrionEntityType) (R R' : OrionDb) : Prop where
  entities : entitiesOfType t R' = entitiesOfType t R
  keys : ∀ key : IdentifierKey, key.1 = t → (R'.HasKey key ↔ R.HasKey key)

omit [PyText] in
theorem SameKind.refl (t : OrionEntityType) (R : OrionDb) : SameKind t R R :=
  ⟨rfl, fun _ _ => Iff.rfl⟩

omit [PyText] in
theorem SameKind.trans {t : OrionEntityType} {R'' : OrionDb} (h : SameKind t R R')
    (h' : SameKind t R' R'') : SameKind t R R'' :=
  ⟨h'.entities.trans h.entities, fun key hkey => (h'.keys key hkey).trans (h.keys key hkey)⟩

/-- The candidate, if there is one, is of the kind. -/
def OfKind (t : OrionEntityType) (named : Option (String × ResolutionCandidate)) : Prop :=
  ∀ p ∈ named, p.2.entityType = t

/-- Between the states nothing happened to the entities of a kind, and no entity id was dropped. -/
structure Apart (t : OrionEntityType) (st st' : ExtractionState) : Prop where
  kind : SameKind t st.db st'.db
  ids : ∀ id ∈ st.result.entityIds, id ∈ st'.result.entityIds

omit [PyText] in
theorem Apart.refl (t : OrionEntityType) (st : ExtractionState) : Apart t st st :=
  ⟨.refl t _, fun _ hid => hid⟩

omit [PyText] in
theorem Apart.trans {t : OrionEntityType} {st st' st'' : ExtractionState} (h : Apart t st st')
    (h' : Apart t st' st'') : Apart t st st'' :=
  ⟨h.kind.trans h'.kind, fun id hid => h'.ids id (h.ids id hid)⟩

/-- An extraction keeps the invariant, and stays apart from the other kinds. -/
theorem extractEntity_frame {relType : OrionRelationshipType} {subject : OrionSubject}
    {named : Option (String × ResolutionCandidate)} {t' : OrionEntityType}
    {st st' : ExtractionState} {found : Option OrionEntity} (hinv : st.db.Inv)
    (htype : OfKind t' named) (h : ctx.extractEntity relType subject named st = .ok (found, st')) :
    st'.db.Inv ∧ ∀ t, t' ≠ t → Apart t st st' := by
  cases named with
  | none =>
      cases h
      exact ⟨hinv, fun t _ => .refl t _⟩
  | some p =>
      obtain ⟨field, c⟩ := p
      have hc : c.entityType = t' := htype (field, c) rfl
      obtain ⟨hinv', hext, -⟩ := extractEntity_settles hinv h
      obtain ⟨x, -, hadds, hids⟩ := extractEntity_adds hinv h
      refine ⟨hinv', fun t hne => ⟨⟨?_, fun key hkey => ⟨fun hnew => ?_, hext.hasKey⟩⟩, ?_⟩⟩
      · unfold entitiesOfType
        rcases hadds.entities with ⟨-, hsame⟩ | ⟨-, hadded⟩
        · rw [hsame]
        · rw [hadded, List.filter_append, List.filter_cons_of_neg, List.filter_nil, List.append_nil]
          rw [hadds.type, hc]
          simpa using hne
      · rcases hadds.keys key hnew with hold | hmem
        · exact hold
        · obtain ⟨spec, -, rfl⟩ := List.mem_map.mp hmem
          exact absurd (hc.symm.trans hkey) hne
      · rw [hids]
        intro id hid
        unfold listId
        split
        · exact hid
        · exact List.mem_append_left _ hid

end ExtractionContext

/-! ## The fields that carry names -/

section Names

variable [PyText] [PyUpper] [PyTitle] [PyRepr] [PyCasefold]

open ExtractionContext

inductive NameField where
  | operator
  | aircraftType
  | manufacturer
  | country
  | agency
  | airportName
deriving DecidableEq, Repr

def NameField.entityType : NameField → OrionEntityType
  | operator => .operator
  | aircraftType => .aircraftType
  | manufacturer => .manufacturer
  | country => .country
  | agency => .investigationAgency
  | airportName => .airport

/-- The names of the field. -/
def NameField.names : NameField → List String
  | operator => ["operator", "airline"]
  | aircraftType => ["aircraft_type"]
  | manufacturer => ["manufacturer"]
  | country => ["country"]
  | agency => ["investigation_agency", "agency"]
  | airportName => ["location"]

/-- The value that the fields of an event carry. -/
def NameField.value (kind : NameField) (fields : List (String × Json)) : Option String :=
  (firstField fields kind.names).map Prod.snd

/-- The candidate of the field. -/
def NameField.named (kind : NameField) (fields : List (String × Json)) :
    Option (String × ResolutionCandidate) :=
  match kind with
  | operator => namedEntity fields operator.names resolveOperator
  | aircraftType => namedEntity fields aircraftType.names resolveAircraftType
  | manufacturer => namedEntity fields manufacturer.names resolveManufacturer
  | country => namedEntity fields country.names resolveCountry
  | agency => namedEntity fields agency.names resolveInvestigationAgency
  | airportName => namedAirport fields

omit [PyText] [PyUpper] [PyTitle] [PyCasefold] in
theorem ofKind_namedEntity {fields : List (String × Json)} {names : List String}
    {resolve : String → Option ResolutionCandidate} {t : OrionEntityType}
    (h : ∀ v, ∀ c ∈ resolve v, c.entityType = t) : OfKind t (namedEntity fields names resolve) := by
  intro p hp
  unfold namedEntity at hp
  obtain ⟨⟨name, value⟩, -, hvalue⟩ := Option.bind_eq_some_iff.mp hp
  obtain ⟨c, hc, rfl⟩ := Option.map_eq_some_iff.mp hvalue
  exact h value c hc

omit [PyUpper] [PyTitle] [PyRepr] [PyCasefold] in
theorem nameCandidate_type {t : OrionEntityType} {name identifierType canonicalName : String}
    {confidence : ℚ} : ∀ c ∈ nameCandidate t name identifierType confidence canonicalName,
      c.entityType = t := by
  intro c hc
  unfold nameCandidate at hc
  dsimp only at hc
  split at hc
  · cases hc
  · obtain rfl := Option.some.inj hc
    rfl

omit [PyTitle] [PyCasefold] in
theorem ofKind_aircraft (fields : List (String × Json)) :
    OfKind .aircraft (namedEntity fields ["registration", "aircraft_registration"] resolveAircraft) := by
  refine ofKind_namedEntity fun v c hc => ?_
  unfold resolveAircraft at hc
  dsimp only at hc
  split at hc
  · cases hc
  · obtain rfl := Option.some.inj hc
    rfl

omit [PyTitle] [PyCasefold] in
theorem ofKind_airport (fields : List (String × Json)) : OfKind .airport (namedAirport fields) := by
  intro p hp
  unfold namedAirport at hp
  obtain ⟨c, hc, rfl⟩ := Option.map_eq_some_iff.mp hp
  unfold resolveAirport at hc
  split at hc
  · obtain rfl := Option.some.inj hc
    rfl
  · split at hc
    · obtain rfl := Option.some.inj hc
      rfl
    · obtain rfl := Option.some.inj hc
      rfl
    · cases hc

omit [PyCasefold] in
theorem ofKind_named (kind : NameField) (fields : List (String × Json)) :
    OfKind kind.entityType (kind.named fields) := by
  cases kind with
  | operator => exact ofKind_namedEntity fun v => nameCandidate_type
  | aircraftType => exact ofKind_namedEntity fun v => nameCandidate_type
  | manufacturer => exact ofKind_namedEntity fun v => nameCandidate_type
  | agency => exact ofKind_namedEntity fun v => nameCandidate_type
  | airportName => exact ofKind_airport fields
  | country =>
      refine ofKind_namedEntity fun v c hc => ?_
      obtain ⟨c', hc', rfl⟩ := Option.map_eq_some_iff.mp hc
      exact nameCandidate_type c' hc'

/-- The part of an extraction that a kind of entities sees: one step, and before and after it
nothing. -/
structure KindStep (ctx : ExtractionContext) (t : OrionEntityType)
    (named : Option (String × ResolutionCandidate)) (st st' : ExtractionState) : Prop where
  inv : st'.db.Inv
  step : ∃ relType subject found a b, a.db.Inv ∧ Apart t st a ∧
    ctx.extractEntity relType subject named a = .ok (found, b) ∧ Apart t b st'

omit [PyCasefold] in
/-- **Each kind of entities has one step.** -/
theorem extractFields_kindStep (kind : NameField) {ctx : ExtractionContext}
    {fields : List (String × Json)} {st st' : ExtractionState} (hinv : st.db.Inv)
    (h : extractFields ctx fields st = .ok st') :
    KindStep ctx kind.entityType (kind.named fields) st st' := by
  unfold extractFields at h
  simp only [bind_ok, pure_ok] at h
  obtain ⟨⟨aircraft, st₁⟩, h₁, ⟨operator, st₂⟩, h₂, ⟨aircraftType, st₃⟩, h₃, ⟨manufacturer, st₄⟩, h₄,
    ⟨airport, st₅⟩, h₅, ⟨country, st₆⟩, h₆, ⟨agency, st₇⟩, h₇, rfl⟩ := h
  obtain ⟨hinv₁, f₁⟩ := extractEntity_frame hinv (ofKind_aircraft fields) h₁
  obtain ⟨hinv₂, f₂⟩ := extractEntity_frame hinv₁ (ofKind_named .operator fields) h₂
  obtain ⟨hinv₃, f₃⟩ := extractEntity_frame hinv₂ (ofKind_named .aircraftType fields) h₃
  obtain ⟨hinv₄, f₄⟩ := extractEntity_frame hinv₃ (ofKind_named .manufacturer fields) h₄
  obtain ⟨hinv₅, f₅⟩ := extractEntity_frame hinv₄ (ofKind_named .airportName fields) h₅
  obtain ⟨hinv₆, f₆⟩ := extractEntity_frame hinv₅ (ofKind_named .country fields) h₆
  obtain ⟨hinv₇, f₇⟩ := extractEntity_frame hinv₆ (ofKind_named .agency fields) h₇
  refine ⟨hinv₇, ?_⟩
  cases kind with
  | operator =>
      exact ⟨_, _, _, st₁, st₂, hinv₁, f₁ _ (by decide), h₂,
        (f₃ _ (by decide)).trans ((f₄ _ (by decide)).trans ((f₅ _ (by decide)).trans
          ((f₆ _ (by decide)).trans (f₇ _ (by decide)))))⟩
  | aircraftType =>
      exact ⟨_, _, _, st₂, st₃, hinv₂, (f₁ _ (by decide)).trans (f₂ _ (by decide)), h₃,
        (f₄ _ (by decide)).trans ((f₅ _ (by decide)).trans
          ((f₆ _ (by decide)).trans (f₇ _ (by decide))))⟩
  | manufacturer =>
      exact ⟨_, _, _, st₃, st₄, hinv₃,
        (f₁ _ (by decide)).trans ((f₂ _ (by decide)).trans (f₃ _ (by decide))), h₄,
        (f₅ _ (by decide)).trans ((f₆ _ (by decide)).trans (f₇ _ (by decide)))⟩
  | airportName =>
      exact ⟨_, _, _, st₄, st₅, hinv₄,
        (f₁ _ (by decide)).trans ((f₂ _ (by decide)).trans
          ((f₃ _ (by decide)).trans (f₄ _ (by decide)))), h₅,
        (f₆ _ (by decide)).trans (f₇ _ (by decide))⟩
  | country =>
      exact ⟨_, _, _, st₅, st₆, hinv₅,
        (f₁ _ (by decide)).trans ((f₂ _ (by decide)).trans ((f₃ _ (by decide)).trans
          ((f₄ _ (by decide)).trans (f₅ _ (by decide))))), h₆, f₇ _ (by decide)⟩
  | agency =>
      exact ⟨_, _, _, st₆, st₇, hinv₆,
        (f₁ _ (by decide)).trans ((f₂ _ (by decide)).trans ((f₃ _ (by decide)).trans
          ((f₄ _ (by decide)).trans ((f₅ _ (by decide)).trans (f₆ _ (by decide)))))), h₇,
        .refl _ _⟩

/-! ## Two runs -/

/-- After two runs there is one entity of the kind, and both runs name it. -/
def SameEntity (t : OrionEntityType) (first second : OrionExtractionResult) (R : OrionDb) : Prop :=
  ∃ x, entitiesOfType t R = [x] ∧ x.id ∈ first.entityIds ∧ x.id ∈ second.entityIds

/-- The second candidate finds the entity of the first. -/
def FindsAfter (pgLower : String → String) (c₁ c₂ : ResolutionCandidate) : Prop :=
  c₂.key c₂.primaryIdentifier ∈ keysOf c₁ ∨
    pgLower c₁.canonicalName = normalizeName c₂.canonicalName

omit [PyText] [PyUpper] [PyTitle] [PyRepr] [PyCasefold] in
theorem mem_listId (ids : List Uuid) (id : Uuid) : id ∈ listId ids id := by
  unfold listId
  split
  · assumption
  · exact List.mem_append_right _ List.mem_cons_self

omit [PyUpper] [PyTitle] [PyRepr] [PyCasefold] in
/-- The first run creates the entity of the kind. -/
theorem KindStep.creates {ctx : ExtractionContext} {t : OrionEntityType} {field : String}
    {c : ResolutionCandidate} {st st' : ExtractionState}
    (h : KindStep ctx t (some (field, c)) st st') (hc : c.entityType = t) (hempty : st.db = .empty) :
    ∃ x, entitiesOfType t st'.db = [x] ∧ x.canonicalName = c.canonicalName ∧
      x.id ∈ st'.result.entityIds ∧
      ∀ key : IdentifierKey, key.1 = t → (st'.db.HasKey key ↔ key ∈ keysOf c) := by
  obtain ⟨relType, subject, found, a, b, hinva, ⟨hsame, -⟩, hrun, ⟨hafter, hids⟩⟩ := h.step
  obtain ⟨x, -, hadds, hlisted⟩ := extractEntity_adds hinva hrun
  rw [hempty] at hsame
  have hnone : entitiesOfType t a.db = [] := hsame.entities
  have hnokey : ∀ key : IdentifierKey, key.1 = t → ¬ a.db.HasKey key := by
    intro key hkey hhas
    obtain ⟨i, hi, -⟩ := (hsame.keys key hkey).mp hhas
    cases hi
  have hfinds : ¬ ctx.Finds a.db c := by
    rintro (hkey | ⟨y, hy, hytype, -⟩)
    · exact hnokey _ hc hkey
    · have hmem : y ∈ entitiesOfType t a.db := List.mem_filter.mpr ⟨hy, decide_eq_true (hytype.trans hc)⟩
      rw [hnone] at hmem
      cases hmem
  obtain ⟨hnot, -⟩ | ⟨-, hadded⟩ := hadds.entities
  · exact absurd hnot hfinds
  have hxtype : x.entityType = t := hadds.type.trans hc
  refine ⟨x, ?_, hadds.name hfinds, ?_, fun key hkey => ?_⟩
  · rw [hafter.entities]
    unfold entitiesOfType at hnone ⊢
    rw [hadded, List.filter_append, hnone, List.nil_append, List.filter_cons_of_pos, List.filter_nil]
    exact decide_eq_true hxtype
  · refine hids _ ?_
    rw [hlisted]
    exact mem_listId _ _
  · rw [hafter.keys key hkey]
    constructor
    · intro hhas
      exact (hadds.keys key hhas).resolve_left (hnokey key hkey)
    · exact hadds.attached key

omit [PyUpper] [PyTitle] [PyRepr] [PyCasefold] in
/-- The second run finds the entity of the kind, or adds another one. -/
theorem KindStep.finds_cases {ctx : ExtractionContext} {t : OrionEntityType} {field : String}
    {c₁ c : ResolutionCandidate} {st st' : ExtractionState} {x : OrionEntity}
    (h : KindStep ctx t (some (field, c)) st st') (hc : c.entityType = t)
    (hx : entitiesOfType t st.db = [x]) (hname : x.canonicalName = c₁.canonicalName)
    (hkeys : ∀ key : IdentifierKey, key.1 = t → (st.db.HasKey key ↔ key ∈ keysOf c₁)) :
    (FindsAfter ctx.pgLower c₁ c ∧ entitiesOfType t st'.db = [x] ∧ x.id ∈ st'.result.entityIds) ∨
      (¬ FindsAfter ctx.pgLower c₁ c ∧ ∃ y, entitiesOfType t st'.db = [x, y]) := by
  obtain ⟨relType, subject, found, a, b, hinva, ⟨hsame, -⟩, hrun, ⟨hafter, hids⟩⟩ := h.step
  obtain ⟨y, -, hadds, hlisted⟩ := extractEntity_adds hinva hrun
  have honly : entitiesOfType t a.db = [x] := hsame.entities.trans hx
  have hxmem : x ∈ a.db.entities ∧ x.entityType = t := by
    have hmem : x ∈ entitiesOfType t a.db := honly ▸ List.mem_cons_self
    exact ⟨(List.mem_filter.mp hmem).1, of_decide_eq_true (List.mem_filter.mp hmem).2⟩
  have hfinds : ctx.Finds a.db c ↔ FindsAfter ctx.pgLower c₁ c := by
    unfold Finds FindsAfter
    rw [hsame.keys _ hc, hkeys _ hc, ← hname]
    refine or_congr_right ⟨?_, fun hlower => ⟨x, hxmem.1, hxmem.2.trans hc.symm, hlower⟩⟩
    rintro ⟨z, hz, hztype, hlower⟩
    have hmem : z ∈ entitiesOfType t a.db :=
      List.mem_filter.mpr ⟨hz, decide_eq_true (hztype.trans hc)⟩
    rw [honly, List.mem_singleton] at hmem
    exact hmem ▸ hlower
  have hytype : y.entityType = t := hadds.type.trans hc
  have hymem : y ∈ entitiesOfType t b.db := List.mem_filter.mpr ⟨hadds.member, decide_eq_true hytype⟩
  rw [← hfinds, hafter.entities]
  rcases hadds.entities with ⟨hfound, hentities⟩ | ⟨hnot, hentities⟩
  · have hb : entitiesOfType t b.db = [x] := by
      rw [← honly]
      unfold entitiesOfType
      rw [hentities]
    rw [hb, List.mem_singleton] at hymem
    refine .inl ⟨hfound, hb, hids _ ?_⟩
    rw [hlisted, hymem]
    exact mem_listId _ _
  · refine .inr ⟨hnot, y, ?_⟩
    have hb : entitiesOfType t b.db = entitiesOfType t a.db ++ [y] := by
      unfold entitiesOfType
      rw [hentities, List.filter_append, List.filter_cons_of_pos, List.filter_nil]
      exact decide_eq_true hytype
    rw [hb, honly]
    rfl

/-! ## Names that are the same -/

/-- The text names something: neither it nor its normal form is blank. -/
def IsName (value : String) : Prop := isBlank (some value) = false ∧ normalizeName value ≠ ""

instance (value : String) : Decidable (IsName value) :=
  inferInstanceAs (Decidable (_ ∧ _))

/-- The canonical name of a country. -/
def countryName (value : String) : String :=
  if PyTitle.title (strip value) = "" then strip value else PyTitle.title (strip value)

/-- The airport code of an event. -/
def airportCode (fields : List (String × Json)) : Option String :=
  (chronosSafeStr ((fields.lookup "airport").getD .null)).filter fun code => codeIsStrong code

/-- The canonical name of an airport. -/
def airportName (fields : List (String × Json)) (value : String) : String :=
  ((airportCode fields).map normalizeAirportCode).getD (strip value)

/-- When a name finds the entity that an equal name created before. -/
def NameField.Agrees (pgLower : String → String) (kind : NameField)
    (fields₁ fields₂ : List (String × Json)) (v₁ v₂ : String) : Prop :=
  match kind with
  | country => normalizeCountry v₂ = normalizeCountry v₁ ∨
      pgLower (countryName v₁) = normalizeName (countryName v₂)
  | airportName => ∀ code ∈ airportCode fields₂,
      (∃ code₁ ∈ airportCode fields₁, normalizeAirportCode code = normalizeAirportCode code₁) ∨
        pgLower (Atlas.airportName fields₁ v₁) = normalizeName (normalizeAirportCode code)
  | _ => True

omit [PyUpper] [PyTitle] [PyRepr] [PyCasefold] in
theorem nameCandidate_of_isName {t : OrionEntityType} {name identifierType canonicalName : String}
    {confidence : ℚ} (h : IsName name) :
    nameCandidate t name identifierType confidence canonicalName =
      some ⟨t, if canonicalName = "" then strip name else canonicalName,
        ⟨identifierType, name, normalizeName name, 90 / 100⟩, [], confidence⟩ := by
  unfold nameCandidate
  refine if_neg ?_
  rintro (hblank | hnorm)
  · rw [h.1] at hblank
    cases hblank
  · exact h.2 hnorm

omit [PyText] [PyUpper] [PyTitle] [PyCasefold] in
theorem NameField.named_of_value {names : List String} {fields : List (String × Json)}
    {resolve : String → Option ResolutionCandidate} {c : ResolutionCandidate} {v : String}
    (hvalue : (firstField fields names).map Prod.snd = some v) (hc : resolve v = some c) :
    ∃ field, namedEntity fields names resolve = some (field, c) := by
  obtain ⟨⟨field, value⟩, hfirst, rfl⟩ := Option.map_eq_some_iff.mp hvalue
  unfold namedEntity
  rw [hfirst]
  exact ⟨field, congrArg (Option.map fun c => (field, c)) hc⟩

omit [PyTitle] [PyCasefold] in
/-- The candidate of an airport with a name. -/
theorem namedAirport_of_value {fields : List (String × Json)} {v : String}
    (hvalue : NameField.airportName.value fields = some v) (h : IsName v) :
    ∃ field c, namedAirport fields = some (field, c) ∧ c.canonicalName = airportName fields v ∧
      (∀ code, airportCode fields = some code →
        c.primaryIdentifier.normalizedValue = normalizeAirportCode code ∧
        c.primaryIdentifier.identifierType =
          (if (normalizeAirportCode code).length = 4 then "icao" else "iata") ∧
        c.extraIdentifiers = [⟨"name", v, normalizeName v, 90 / 100⟩]) ∧
      (airportCode fields = none → c.primaryIdentifier.normalizedValue = normalizeName v ∧
        c.primaryIdentifier.identifierType = "name" ∧
        ∀ spec ∈ c.extraIdentifiers, spec.identifierType = "name") := by
  have hlocation : chronosSafeStr ((fields.lookup "location").getD .null) = some v := by
    obtain ⟨⟨field, value⟩, hfirst, rfl⟩ := Option.map_eq_some_iff.mp hvalue
    unfold firstField NameField.names at hfirst
    rw [List.findSome?_cons] at hfirst
    cases hread : chronosSafeStr ((fields.lookup "location").getD .null) with
    | none =>
        rw [hread] at hfirst
        cases hfirst
    | some s =>
        rw [hread] at hfirst
        obtain ⟨-, rfl⟩ := Prod.mk.inj (Option.some.inj hfirst)
        rfl
  have hname : (some v).filter (fun n => !isBlank (some n)) = some v := by
    rw [Option.filter_some, if_pos]
    rw [h.1]
    rfl
  unfold namedAirport airportName
  dsimp only
  rw [hlocation]
  unfold airportCode resolveAirport
  rw [hname]
  cases (chronosSafeStr ((fields.lookup "airport").getD .null)).filter fun c => codeIsStrong c with
  | some code =>
      refine ⟨_, _, rfl, rfl, fun code' hcode => ?_, fun hnone => nomatch hnone⟩
      obtain rfl := Option.some.inj hcode
      exact ⟨rfl, rfl, rfl⟩
  | none =>
      refine ⟨_, _, rfl, rfl, fun code' hcode => (nomatch hcode), fun _ => ⟨rfl, rfl, ?_⟩⟩
      intro spec hspec
      obtain ⟨code, -, rfl⟩ := List.mem_map.mp hspec
      rfl

omit [PyUpper] [PyTitle] [PyRepr] [PyCasefold] in
/-- A candidate whose one identifier is the first one's finds it. -/
theorem findsAfter_of_key {pgLower : String → String} {c₁ c₂ : ResolutionCandidate}
    (h : c₂.key c₂.primaryIdentifier = c₁.key c₁.primaryIdentifier) : FindsAfter pgLower c₁ c₂ :=
  .inl (h ▸ List.mem_map_of_mem List.mem_cons_self)

omit [PyCasefold] in
/-- The candidates of two airports with names that are the same. -/
theorem findsAfter_airport {pgLower : String → String} {fields₁ fields₂ : List (String × Json)}
    {v₁ v₂ : String} (hv₁ : NameField.airportName.value fields₁ = some v₁)
    (hv₂ : NameField.airportName.value fields₂ = some v₂) (h₁ : IsName v₁) (h₂ : IsName v₂)
    (hnorm : normalizeName v₁ = normalizeName v₂) :
    ∃ f₁ c₁ f₂ c₂, namedAirport fields₁ = some (f₁, c₁) ∧ namedAirport fields₂ = some (f₂, c₂) ∧
      (FindsAfter pgLower c₁ c₂ ↔ NameField.airportName.Agrees pgLower fields₁ fields₂ v₁ v₂) := by
  obtain ⟨f₁, c₁, hc₁, hname₁, hcode₁, hplain₁⟩ := namedAirport_of_value hv₁ h₁
  obtain ⟨f₂, c₂, hc₂, hname₂, hcode₂, hplain₂⟩ := namedAirport_of_value hv₂ h₂
  have htype₁ : c₁.entityType = .airport := ofKind_airport fields₁ _ hc₁
  have htype₂ : c₂.entityType = .airport := ofKind_airport fields₂ _ hc₂
  refine ⟨f₁, c₁, f₂, c₂, hc₁, hc₂, ?_⟩
  unfold FindsAfter keysOf ResolutionCandidate.key NameField.Agrees
  rw [htype₁, htype₂, List.map_cons, List.mem_cons, List.mem_map, hname₁, hname₂]
  cases hfields₂ : airportCode fields₂ with
  | none =>
      obtain ⟨hnorm₂, hid₂, -⟩ := hplain₂ hfields₂
      refine iff_of_true (.inl ?_) (fun code hcode => nomatch hcode)
      rw [hnorm₂, hid₂]
      cases hfields₁ : airportCode fields₁ with
      | none =>
          obtain ⟨hnorm₁, hid₁, -⟩ := hplain₁ hfields₁
          rw [hnorm₁, hid₁, hnorm]
          exact .inl rfl
      | some code₁ =>
          obtain ⟨-, -, hextras⟩ := hcode₁ code₁ hfields₁
          rw [hextras, ← hnorm]
          exact .inr ⟨_, List.mem_cons_self, rfl⟩
  | some code =>
      obtain ⟨hnorm₂, hid₂, -⟩ := hcode₂ code hfields₂
      have hcanonical : airportName fields₂ v₂ = normalizeAirportCode code := by
        unfold airportName
        rw [hfields₂]
        rfl
      have hnotName : c₂.primaryIdentifier.identifierType ≠ "name" := by
        rw [hid₂]
        split <;> decide
      rw [hcanonical]
      have hkeys : ((OrionEntityType.airport, c₂.primaryIdentifier.identifierType,
              c₂.primaryIdentifier.normalizedValue) =
            (OrionEntityType.airport, c₁.primaryIdentifier.identifierType,
              c₁.primaryIdentifier.normalizedValue) ∨
          ∃ spec ∈ c₁.extraIdentifiers, (OrionEntityType.airport, spec.identifierType,
              spec.normalizedValue) =
            (OrionEntityType.airport, c₂.primaryIdentifier.identifierType,
              c₂.primaryIdentifier.normalizedValue)) ↔
          ∃ code₁ ∈ airportCode fields₁, normalizeAirportCode code = normalizeAirportCode code₁ := by
        rw [hnorm₂]
        cases hfields₁ : airportCode fields₁ with
        | none =>
            obtain ⟨-, hid₁, hextras⟩ := hplain₁ hfields₁
            refine iff_of_false ?_ (fun ⟨_, hmem, _⟩ => nomatch hmem)
            rintro (hkey | ⟨spec, hspec, hkey⟩)
            · have hids := (Prod.mk.inj (Prod.mk.inj hkey).2).1
              exact hnotName (hids.trans hid₁)
            · have hids := (Prod.mk.inj (Prod.mk.inj hkey).2).1
              exact hnotName (hids.symm.trans (hextras spec hspec))
        | some code₁ =>
            obtain ⟨hnorm₁, hid₁, hextras⟩ := hcode₁ code₁ hfields₁
            rw [hnorm₁, hid₁, hid₂, hextras]
            constructor
            · rintro (hkey | ⟨spec, hspec, hkey⟩)
              · exact ⟨code₁, rfl, (Prod.mk.inj (Prod.mk.inj hkey).2).2⟩
              · rw [List.mem_singleton.mp hspec] at hkey
                have hids := (Prod.mk.inj (Prod.mk.inj hkey).2).1
                exact absurd (hid₂.trans hids.symm) hnotName
            · rintro ⟨code', hcode', heq⟩
              obtain rfl := Option.some.inj hcode'
              rw [heq]
              exact .inl rfl
      rw [hkeys]
      constructor
      · intro h code' hcode'
        obtain rfl := Option.some.inj hcode'
        exact h
      · exact fun h => h code rfl

omit [PyCasefold] in
/-- The candidates of two names that are the same. -/
theorem findsAfter_iff_agrees {pgLower : String → String} (kind : NameField)
    {fields₁ fields₂ : List (String × Json)} {v₁ v₂ : String} (hv₁ : kind.value fields₁ = some v₁)
    (hv₂ : kind.value fields₂ = some v₂) (h₁ : IsName v₁) (h₂ : IsName v₂)
    (hnorm : normalizeName v₁ = normalizeName v₂) :
    ∃ f₁ c₁ f₂ c₂, kind.named fields₁ = some (f₁, c₁) ∧ kind.named fields₂ = some (f₂, c₂) ∧
      (FindsAfter pgLower c₁ c₂ ↔ kind.Agrees pgLower fields₁ fields₂ v₁ v₂) := by
  -- One candidate with a name for an identifier.
  have hplain : ∀ {names : List String} {resolve : String → Option ResolutionCandidate}
      {t : OrionEntityType} {idType : String} {confidence : ℚ},
      (∀ v, resolve v = nameCandidate t v idType confidence "") →
      (firstField fields₁ names).map Prod.snd = some v₁ →
      (firstField fields₂ names).map Prod.snd = some v₂ →
      ∃ f₁ c₁ f₂ c₂, namedEntity fields₁ names resolve = some (f₁, c₁) ∧
        namedEntity fields₂ names resolve = some (f₂, c₂) ∧ FindsAfter pgLower c₁ c₂ := by
    intro names resolve t idType confidence hresolve hv₁ hv₂
    obtain ⟨f₁, hf₁⟩ := NameField.named_of_value hv₁ ((hresolve v₁).trans (nameCandidate_of_isName h₁))
    obtain ⟨f₂, hf₂⟩ := NameField.named_of_value hv₂ ((hresolve v₂).trans (nameCandidate_of_isName h₂))
    refine ⟨f₁, _, f₂, _, hf₁, hf₂, findsAfter_of_key ?_⟩
    unfold ResolutionCandidate.key
    rw [hnorm]
  cases kind with
  | operator =>
      obtain ⟨f₁, c₁, f₂, c₂, hc₁, hc₂, hfinds⟩ := hplain (fun _ => rfl) hv₁ hv₂
      exact ⟨f₁, c₁, f₂, c₂, hc₁, hc₂, iff_of_true hfinds trivial⟩
  | aircraftType =>
      obtain ⟨f₁, c₁, f₂, c₂, hc₁, hc₂, hfinds⟩ := hplain (fun _ => rfl) hv₁ hv₂
      exact ⟨f₁, c₁, f₂, c₂, hc₁, hc₂, iff_of_true hfinds trivial⟩
  | manufacturer =>
      obtain ⟨f₁, c₁, f₂, c₂, hc₁, hc₂, hfinds⟩ := hplain (fun _ => rfl) hv₁ hv₂
      exact ⟨f₁, c₁, f₂, c₂, hc₁, hc₂, iff_of_true hfinds trivial⟩
  | agency =>
      obtain ⟨f₁, c₁, f₂, c₂, hc₁, hc₂, hfinds⟩ := hplain (fun _ => rfl) hv₁ hv₂
      exact ⟨f₁, c₁, f₂, c₂, hc₁, hc₂, iff_of_true hfinds trivial⟩
  | airportName => exact findsAfter_airport hv₁ hv₂ h₁ h₂ hnorm
  | country =>
      have hresolve : ∀ v, IsName v → resolveCountry v = some ⟨.country, countryName v,
          ⟨"name", v, normalizeCountry v, 90 / 100⟩, [], 80 / 100⟩ := by
        intro v hv
        unfold resolveCountry
        rw [nameCandidate_of_isName hv]
        rfl
      obtain ⟨f₁, hf₁⟩ := NameField.named_of_value hv₁ (hresolve v₁ h₁)
      obtain ⟨f₂, hf₂⟩ := NameField.named_of_value hv₂ (hresolve v₂ h₂)
      refine ⟨f₁, _, f₂, _, hf₁, hf₂, or_congr_left ?_⟩
      unfold keysOf ResolutionCandidate.key
      rw [List.map_singleton, List.mem_singleton]
      exact ⟨fun h => (Prod.mk.inj (Prod.mk.inj h).2).2, fun h => by rw [h]⟩

/-- The fields of the projection of an event. -/
def projectedFields (s : Db) (eventId : Uuid) : List (String × Json) :=
  ((s.getProjection eventId).map ProjectedAccidentRecord.readFields).getD []

/-- A run on an event with a projection. -/
theorem extractOrionEntities_fields {pick : RowChoice} {pgLower : String → String} {s : Db}
    {eventId : Uuid} {R R' : OrionDb} {result : OrionExtractionResult}
    (hne : projectedFields s eventId ≠ [])
    (h : extractOrionEntities pick pgLower s eventId R = .ok (result, R')) :
    ∃ claims st, extractFields ⟨eventId, claims, pick, pgLower⟩ (projectedFields s eventId)
        ⟨R, .start eventId⟩ = .ok st ∧ st.result = result ∧ st.db = R' := by
  unfold extractOrionEntities at h
  unfold projectedFields at hne ⊢
  cases hprojection : s.getProjection eventId with
  | none =>
      rw [hprojection] at hne
      exact absurd rfl hne
  | some projection =>
      rw [hprojection] at h
      simp only [bind_ok, pure_ok, Prod.mk.injEq] at h
      obtain ⟨st, hst, hresult, hdb⟩ := h
      exact ⟨_, st, hst, hresult, hdb⟩

/-- Two runs with candidates of a kind. -/
theorem sameEntity_iff_findsAfter (kind : NameField) {pick₁ pick₂ : RowChoice}
    {pgLower : String → String} {s₁ s₂ : Db} {event₁ event₂ : Uuid}
    {result₁ result₂ : OrionExtractionResult} {R₁ R₂ : OrionDb} {f₁ f₂ : String}
    {c₁ c₂ : ResolutionCandidate}
    (hc₁ : kind.named (projectedFields s₁ event₁) = some (f₁, c₁))
    (hc₂ : kind.named (projectedFields s₂ event₂) = some (f₂, c₂))
    (hne₁ : projectedFields s₁ event₁ ≠ []) (hne₂ : projectedFields s₂ event₂ ≠ [])
    (hrun₁ : extractOrionEntities pick₁ pgLower s₁ event₁ .empty = .ok (result₁, R₁))
    (hrun₂ : extractOrionEntities pick₂ pgLower s₂ event₂ R₁ = .ok (result₂, R₂)) :
    SameEntity kind.entityType result₁ result₂ R₂ ↔ FindsAfter pgLower c₁ c₂ := by
  obtain ⟨claims₁, st₁, hfields₁, rfl, rfl⟩ := extractOrionEntities_fields hne₁ hrun₁
  obtain ⟨claims₂, st₂, hfields₂, rfl, rfl⟩ := extractOrionEntities_fields hne₂ hrun₂
  have hstep₁ := extractFields_kindStep kind OrionDb.inv_empty hfields₁
  have hinv : (ExtractionState.mk st₁.db (.start event₂)).db.Inv := hstep₁.inv
  have hstep₂ := extractFields_kindStep kind hinv hfields₂
  rw [hc₁] at hstep₁
  rw [hc₂] at hstep₂
  have htype₁ : c₁.entityType = kind.entityType := ofKind_named kind _ _ hc₁
  have htype₂ : c₂.entityType = kind.entityType := ofKind_named kind _ _ hc₂
  obtain ⟨x, hx, hname, hid₁, hkeys⟩ := hstep₁.creates htype₁ rfl
  rcases hstep₂.finds_cases htype₂ hx hname hkeys with ⟨hfinds, honly, hid₂⟩ | ⟨hfinds, y, hboth⟩
  · exact iff_of_true ⟨x, honly, hid₁, hid₂⟩ hfinds
  · refine iff_of_false ?_ hfinds
    rintro ⟨z, hz, -⟩
    rw [hboth] at hz
    cases hz

omit [PyText] [PyUpper] [PyTitle] [PyCasefold] in
theorem NameField.fields_ne_nil {kind : NameField} {fields : List (String × Json)} {v : String}
    (h : kind.value fields = some v) : fields ≠ [] := by
  rintro rfl
  cases kind <;> cases h

/-- **Two events with one name share its entity**: always for operators, aircraft types,
manufacturers and agencies; for countries when the second name has the same inner blanks or is the
lowered canonical name of the first; for airport names unless a code of the second event says
otherwise. -/
theorem orion_names_shared_iff (kind : NameField) {pick₁ pick₂ : RowChoice}
    {pgLower : String → String} {s₁ s₂ : Db} {event₁ event₂ : Uuid} {v₁ v₂ : String}
    {result₁ result₂ : OrionExtractionResult} {R₁ R₂ : OrionDb}
    (hv₁ : kind.value (projectedFields s₁ event₁) = some v₁)
    (hv₂ : kind.value (projectedFields s₂ event₂) = some v₂)
    (hname₁ : IsName v₁) (hname₂ : IsName v₂) (hnorm : normalizeName v₁ = normalizeName v₂)
    (hrun₁ : extractOrionEntities pick₁ pgLower s₁ event₁ .empty = .ok (result₁, R₁))
    (hrun₂ : extractOrionEntities pick₂ pgLower s₂ event₂ R₁ = .ok (result₂, R₂)) :
    SameEntity kind.entityType result₁ result₂ R₂ ↔
      kind.Agrees pgLower (projectedFields s₁ event₁) (projectedFields s₂ event₂) v₁ v₂ := by
  obtain ⟨f₁, c₁, f₂, c₂, hc₁, hc₂, hagrees⟩ :=
    @findsAfter_iff_agrees _ _ _ _ pgLower kind _ _ _ _ hv₁ hv₂ hname₁ hname₂ hnorm
  rw [← hagrees]
  exact sameEntity_iff_findsAfter kind hc₁ hc₂ (NameField.fields_ne_nil hv₁)
    (NameField.fields_ne_nil hv₂) hrun₁ hrun₂

end Names

/-! ## Examples -/

/-- A store with one projection for each event. -/
def storeOf (events : List (Uuid × List (String × Projected))) : Db :=
  { Db.empty [] with projections := events.map fun e => ⟨e.1, 1, e.2, 0, [], 0⟩ }

/-- The airline in two spellings. -/
def airlineEvents : Db :=
  storeOf [(0, [("operator", .value (.str "A  B"))]),
    (1, [("airline", .value (.str " a B"))])]

/-- The country with two blanks and with one. -/
def countryEvents : Db :=
  storeOf [(0, [("country", .value (.str "U  K"))]),
    (1, [("country", .value (.str "U K"))])]

/-- The `lower` of a database on ASCII texts. -/
def lowerAscii (text : String) : String := text.map Char.toLower

/-- The second of two runs from an empty registry. -/
def runTwice (s : Db) (first second : Uuid) :
    Except AtlasError (OrionExtractionResult × OrionExtractionResult × OrionDb) := do
  let (result₁, R₁) ← extractOrionEntities .first lowerAscii s first .empty
  let (result₂, R₂) ← extractOrionEntities .first lowerAscii s second R₁
  pure (result₁, result₂, R₂)

theorem runTwice_ok {s : Db} {first second : Uuid} {P : OrionDb → Prop} [DecidablePred P]
    (h : ((runTwice s first second).toOption.any fun r => P r.2.2) = true) :
    ∃ result₁ R₁ result₂ R₂, extractOrionEntities .first lowerAscii s first .empty = .ok (result₁, R₁) ∧
      extractOrionEntities .first lowerAscii s second R₁ = .ok (result₂, R₂) ∧ P R₂ := by
  obtain ⟨⟨result₁, result₂, R₂⟩, hrun, hP⟩ :
    ∃ r, runTwice s first second = .ok r ∧ P r.2.2 := exists_ok_of_any h
  unfold runTwice at hrun
  simp only [bind_ok, pure_ok, Prod.mk.injEq, Prod.exists] at hrun
  obtain ⟨result₁', R₁, hrun₁, result₂', R₂', hrun₂, rfl, rfl, rfl⟩ := hrun
  exact ⟨_, _, _, _, hrun₁, hrun₂, hP⟩

/-- What the events carry, and what two runs lead to. -/
theorem spellings_read :
    (NameField.operator.value (projectedFields airlineEvents 0) = some "A  B" ∧
      NameField.operator.value (projectedFields airlineEvents 1) = some "a B" ∧
      IsName "A  B" ∧ IsName "a B" ∧ normalizeName "A  B" = normalizeName "a B") ∧
    (NameField.country.value (projectedFields countryEvents 0) = some "U  K" ∧
      NameField.country.value (projectedFields countryEvents 1) = some "U K" ∧
      IsName "U  K" ∧ IsName "U K" ∧ normalizeName "U  K" = normalizeName "U K") ∧
    ((runTwice airlineEvents 0 1).toOption.any fun r => r.2.2.entities.length = 1) = true ∧
    ((runTwice countryEvents 0 1).toOption.any fun r =>
      (ExtractionContext.entitiesOfType .country r.2.2).length = 2) = true := by
  decide +kernel

/-- The two spellings of the airline name one entity. -/
theorem airline_spellings_shared : ∃ result₁ R₁ result₂ R₂,
    extractOrionEntities .first lowerAscii airlineEvents 0 .empty = .ok (result₁, R₁) ∧
      extractOrionEntities .first lowerAscii airlineEvents 1 R₁ = .ok (result₂, R₂) ∧
      SameEntity .operator result₁ result₂ R₂ := by
  obtain ⟨⟨hv₁, hv₂, hname₁, hname₂, hnorm⟩, -, hany, -⟩ := spellings_read
  obtain ⟨result₁, R₁, result₂, R₂, hrun₁, hrun₂, -⟩ :=
    @runTwice_ok _ _ _ (fun R => R.entities.length = 1) _ hany
  have hshared := orion_names_shared_iff .operator hv₁ hv₂ hname₁ hname₂ hnorm hrun₁ hrun₂
  exact ⟨result₁, R₁, result₂, R₂, hrun₁, hrun₂, hshared.mpr trivial⟩

/-- The two spellings of the country are equal under `normalize_name` and become two entities. -/
theorem country_spellings_split : ¬ ∀ (kind : NameField) (s : Db) (v₁ v₂ : String)
    (result₁ result₂ : OrionExtractionResult) (R₁ R₂ : OrionDb),
    kind.value (projectedFields s 0) = some v₁ → kind.value (projectedFields s 1) = some v₂ →
      IsName v₁ → IsName v₂ → normalizeName v₁ = normalizeName v₂ →
      extractOrionEntities .first lowerAscii s 0 .empty = .ok (result₁, R₁) →
      extractOrionEntities .first lowerAscii s 1 R₁ = .ok (result₂, R₂) →
      SameEntity kind.entityType result₁ result₂ R₂ := by
  intro h
  obtain ⟨-, ⟨hv₁, hv₂, hname₁, hname₂, hnorm⟩, -, hany⟩ := spellings_read
  obtain ⟨result₁, R₁, result₂, R₂, hrun₁, hrun₂, htwo⟩ :=
    @runTwice_ok _ _ _ (fun R => (ExtractionContext.entitiesOfType .country R).length = 2) _ hany
  obtain ⟨x, hone, -⟩ := h .country countryEvents _ _ result₁ result₂ R₁ R₂ hv₁ hv₂ hname₁ hname₂
    hnorm hrun₁ hrun₂
  have hlength : 2 = 1 := htwo.symm.trans (congrArg List.length hone)
  cases hlength

end Atlas
