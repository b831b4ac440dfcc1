import Atlas.Normalizer
import Atlas.Provenance

/-!
# Canonical entities of an event

`ExtractOrionEntitiesFromEvent` turns the fields of a projection into entities: the aircraft,
its operator, its type and manufacturer, the airport, the country and the investigating
agency.  An entity is looked up by its strongest identifier and then by its name, and created
when neither finds one; then its identifiers, the claim it comes from and its relationship are
recorded, each unless it is there already.

The two lookups end in `LIMIT 1` without an order.  Which of the rows that meet the condition
is returned is left open: every result holds for any choice.
-/

namespace Atlas

open Rows Outcome

inductive OrionEntityType where
  | aircraft
  | operator
  | airport
  | aircraftType
  | manufacturer
  | investigationAgency
  | country
deriving DecidableEq, Repr

inductive OrionRelationshipType where
  | involvedAircraft
  | operatedBy
  | aircraftType
  | manufacturedBy
  | occurredAt
  | locatedIn
  | investigatedBy
deriving DecidableEq, Repr

inductive OrionEntityStatus where
  | active
  | merged
  | deprecated
deriving DecidableEq, Repr

structure OrionEntity where
  id : Uuid
  entityType : OrionEntityType
  canonicalName : String
  status : OrionEntityStatus
  confidence : ℚ
deriving DecidableEq, Repr

structure OrionEntityIdentifier where
  id : Uuid
  entityId : Uuid
  entityType : OrionEntityType
  identifierType : String
  identifierValue : String
  normalizedValue : String
  sourceClaimId : Option Uuid
  rawSnapshotId : Option Uuid
  confidence : ℚ
  validTo : Option Time
deriving DecidableEq, Repr

structure OrionRelationship where
  id : Uuid
  subjectEntityId : Option Uuid
  relationshipType : OrionRelationshipType
  objectEntityId : Uuid
  accidentEventId : Uuid
  sourceClaimId : Option Uuid
  rawSnapshotId : Option Uuid
  confidence : ℚ
deriving DecidableEq, Repr

structure OrionEntityClaimLink where
  id : Uuid
  entityId : Uuid
  claimId : Uuid
  rawSnapshotId : Option Uuid
  sourceId : Uuid
  accidentEventId : Uuid
  confidence : ℚ
deriving DecidableEq, Repr

/-- The registry. -/
structure OrionDb where
  nextId : Uuid
  entities : List OrionEntity
  identifiers : List OrionEntityIdentifier
  relationships : List OrionRelationship
  claimLinks : List OrionEntityClaimLink
deriving DecidableEq, Repr

def OrionDb.empty : OrionDb := ⟨0, [], [], [], []⟩

/-! ## Resolution candidates -/

/-- `str.title`. -/
class PyTitle where
  title : String → String

/-- The text itself, enough to run the model on names in title case. -/
instance (priority := low) plainTitle : PyTitle where
  title s := s

structure IdentifierSpec where
  identifierType : String
  identifierValue : String
  normalizedValue : String
  confidence : ℚ

/-- `ResolutionCandidate`.  Every resolver gives a primary identifier. -/
structure ResolutionCandidate where
  entityType : OrionEntityType
  canonicalName : String
  primaryIdentifier : IdentifierSpec
  extraIdentifiers : List IdentifierSpec
  newEntityConfidence : ℚ

section Resolvers

variable [PyText] [PyUpper] [PyTitle]

/-- `normalize_registration`. -/
def normalizeRegistration (value : String) : String :=
  String.ofList (dropSeparators (PyText.lower (strip value)).toList)

/-- `normalize_name`. -/
def normalizeName (value : String) : String :=
  String.ofList (collapseBlanks false (PyText.lower (strip value)).toList)

/-- `normalize_airport_code`. -/
def normalizeAirportCode (value : String) : String := PyUpper.upper (strip value)

/-- `normalize_country`. -/
def normalizeCountry (value : String) : String := PyText.lower (strip value)

/-- `is_blank`. -/
def isBlank : Option String → Bool
  | none => true
  | some value => strip value = ""

/-- `resolve_aircraft`. -/
def resolveAircraft (registration : String) : Option ResolutionCandidate :=
  let norm := normalizeRegistration registration
  if isBlank (some registration) ∨ norm = "" then none
  else some ⟨.aircraft, PyUpper.upper (strip registration),
    ⟨"registration", registration, norm, 98 / 100⟩, [], 85 / 100⟩

/-- `_name_candidate`. -/
def nameCandidate (entityType : OrionEntityType) (name identifierType : String)
    (newConfidence : ℚ) (canonicalName : String) : Option ResolutionCandidate :=
  let norm := normalizeName name
  if isBlank (some name) ∨ norm = "" then none
  else some ⟨entityType, if canonicalName = "" then strip name else canonicalName,
    ⟨identifierType, name, norm, 90 / 100⟩, [], newConfidence⟩

/-- `resolve_operator`. -/
def resolveOperator (name : String) : Option ResolutionCandidate :=
  nameCandidate .operator name "name" (80 / 100) ""

/-- `resolve_aircraft_type`. -/
def resolveAircraftType (model : String) : Option ResolutionCandidate :=
  nameCandidate .aircraftType model "model" (82 / 100) ""

/-- `resolve_manufacturer`. -/
def resolveManufacturer (name : String) : Option ResolutionCandidate :=
  nameCandidate .manufacturer name "name" (80 / 100) ""

/-- `resolve_investigation_agency`. -/
def resolveInvestigationAgency (name : String) : Option ResolutionCandidate :=
  nameCandidate .investigationAgency name "name" (80 / 100) ""

/-- `resolve_country`: the identifier keeps inner blanks. -/
def resolveCountry (name : String) : Option ResolutionCandidate :=
  (nameCandidate .country name "name" (80 / 100) (PyTitle.title (strip name))).map fun c =>
    { c with primaryIdentifier :=
      { c.primaryIdentifier with normalizedValue := normalizeCountry name } }

/-- Only ASCII letters, three or four of them. -/
def codeIsStrong (code : String) : Bool :=
  (strip code).toList.all Char.isAlpha ∧ ((strip code).length = 3 ∨ (strip code).length = 4)

/-- `resolve_airport`: only three or four letters are a code. -/
def resolveAirport (code name : Option String) : Option ResolutionCandidate :=
  match code.filter fun c => codeIsStrong c with
  | some code =>
      let normCode := normalizeAirportCode code
      let idType := if normCode.length = 4 then "icao" else "iata"
      some ⟨.airport, normCode, ⟨idType, code, normCode, 98 / 100⟩,
        (name.filter fun n => !isBlank (some n)).toList.map fun n =>
          ⟨"name", n, normalizeName n, 90 / 100⟩, 82 / 100⟩
  | none =>
      match name.filter fun n => !isBlank (some n), code.filter fun c => !isBlank (some c) with
      | some name, code =>
          some ⟨.airport, strip name, ⟨"name", name, normalizeName name, 90 / 100⟩,
            (code.filter fun c => strip c ≠ strip name).toList.map fun c =>
              ⟨"name", c, normalizeName c, 80 / 100⟩, 82 / 100⟩
      | none, some code =>
          some ⟨.airport, strip code, ⟨"name", code, normalizeName code, 80 / 100⟩, [], 82 / 100⟩
      | none, none => none

/-- `_first_field`: the first of the fields with a text. -/
def firstField [PyRepr] (fields : List (String × Json)) (names : List String) :
    Option (String × String) :=
  names.findSome? fun name =>
    (chronosSafeStr ((fields.lookup name).getD .null)).map fun value => (name, value)

/-- Which entity a field of the projection names, and the field. -/
def namedEntity [PyRepr] (fields : List (String × Json)) (names : List String)
    (resolve : String → Option ResolutionCandidate) : Option (String × ResolutionCandidate) :=
  (firstField fields names).bind fun (name, value) => (resolve value).map fun c => (name, c)

/-- The airport comes from two fields. -/
def namedAirport [PyRepr] (fields : List (String × Json)) : Option (String × ResolutionCandidate) :=
  let airportRaw := chronosSafeStr ((fields.lookup "airport").getD .null)
  let locationRaw := chronosSafeStr ((fields.lookup "location").getD .null)
  (resolveAirport airportRaw locationRaw).map fun c =>
    (if airportRaw.isSome then "airport" else "location", c)

end Resolvers

/-! ## The registry -/

/-- The row that a query with `LIMIT 1` and no order returns. -/
structure RowChoice where
  choose : List OrionEntity → Option OrionEntity
  mem : ∀ {rows x}, choose rows = some x → x ∈ rows
  found : ∀ {rows}, choose rows = none → rows = []

/-- The first row. -/
def RowChoice.first : RowChoice where
  choose := List.head?
  mem := List.mem_of_head?
  found := List.head?_eq_none_iff.mp

/-- The key of an active identifier. -/
abbrev IdentifierKey := OrionEntityType × String × String

def OrionEntityIdentifier.key (i : OrionEntityIdentifier) : IdentifierKey :=
  (i.entityType, i.identifierType, i.normalizedValue)

def OrionRelationship.key (r : OrionRelationship) :
    Option Uuid × OrionRelationshipType × Uuid × Uuid :=
  (r.subjectEntityId, r.relationshipType, r.objectEntityId, r.accidentEventId)

def OrionEntityClaimLink.key (l : OrionEntityClaimLink) : Uuid × Uuid × Uuid :=
  (l.entityId, l.claimId, l.accidentEventId)

def ResolutionCandidate.key (c : ResolutionCandidate) (spec : IdentifierSpec) : IdentifierKey :=
  (c.entityType, spec.identifierType, spec.normalizedValue)

namespace OrionDb

/-- The width of the text columns. -/
def columnWidth : Nat := 500

def tooLong : AtlasError := .runtime "value too long for type character varying(500)"

/-- `find_by_identifier`: the active entity that owns the active identifier. -/
def findByIdentifier (R : OrionDb) (pick : RowChoice) (entityType : OrionEntityType)
    (identifierType normalizedValue : String) : Option OrionEntity :=
  pick.choose (R.entities.filter fun x => x.entityType = entityType ∧ x.status = .active ∧
    R.identifiers.any fun i => i.entityId = x.id ∧ i.identifierType = identifierType ∧
      i.normalizedValue = normalizedValue ∧ i.validTo = none)

/-- `find_by_canonical_name`; `pgLower` is the `lower` of the database. -/
def findByCanonicalName (R : OrionDb) (pick : RowChoice) (pgLower : String → String)
    (entityType : OrionEntityType) (normalizedName : String) : Option OrionEntity :=
  pick.choose (R.entities.filter fun x => x.entityType = entityType ∧ x.status = .active ∧
    pgLower x.canonicalName = normalizedName)

/-- `orion_entities.add`. -/
def addEntity (R : OrionDb) (x : OrionEntity) : Except AtlasError OrionDb := do
  require (x.canonicalName.length ≤ columnWidth) tooLong
  pure { R with nextId := R.nextId + 1, entities := R.entities ++ [x] }

/-- `orion_identifiers.try_add`: an active identifier with the key stays. -/
def tryAddIdentifier (R : OrionDb) (i : OrionEntityIdentifier) : Except AtlasError OrionDb := do
  require (i.identifierValue.length ≤ columnWidth ∧ i.normalizedValue.length ≤ columnWidth) tooLong
  pure (if R.identifiers.any fun j => j.key = i.key ∧ j.validTo = none then R
    else { R with nextId := R.nextId + 1, identifiers := R.identifiers ++ [i] })

/-- `orion_relationships.upsert_relationship`: a relationship with the key stays. -/
def upsertRelationship (R : OrionDb) (r : OrionRelationship) : OrionRelationship × Bool × OrionDb :=
  match lookup OrionRelationship.key r.key R.relationships with
  | some old => (old, false, R)
  | none => (r, true, { R with nextId := R.nextId + 1, relationships := R.relationships ++ [r] })

/-- `orion_claim_links.add`: a link with the key stays. -/
def addClaimLink (R : OrionDb) (l : OrionEntityClaimLink) : OrionDb :=
  match lookup OrionEntityClaimLink.key l.key R.claimLinks with
  | some _ => R
  | none => { R with nextId := R.nextId + 1, claimLinks := R.claimLinks ++ [l] }

end OrionDb

/-! ## The extraction -/

structure OrionExtractionResult where
  eventId : Uuid
  entitiesCreatedCount : Nat
  entitiesReusedCount : Nat
  relationshipsCreatedCount : Nat
  entityIds : List Uuid
  relationshipIds : List Uuid
deriving DecidableEq, Repr

def OrionExtractionResult.start (eventId : Uuid) : OrionExtractionResult :=
  ⟨eventId, 0, 0, 0, [], []⟩

/-- Append an identifier that is not listed. -/
def listId (ids : List Uuid) (id : Uuid) : List Uuid := if id ∈ ids then ids else ids ++ [id]

/-- `_count_entity`. -/
def OrionExtractionResult.countEntity (r : OrionExtractionResult) (x : OrionEntity)
    (created : Bool) : OrionExtractionResult :=
  { r with
    entitiesCreatedCount := r.entitiesCreatedCount + if created then 1 else 0
    entitiesReusedCount := r.entitiesReusedCount + if created then 0 else 1
    entityIds := listId r.entityIds x.id }

/-- `_count_rel`. -/
def OrionExtractionResult.countRel (r : OrionExtractionResult) (rel : OrionRelationship)
    (created : Bool) : OrionExtractionResult :=
  { r with
    relationshipsCreatedCount := r.relationshipsCreatedCount + if created then 1 else 0
    relationshipIds := listId r.relationshipIds rel.id }

/-- `_ExtractionContext`, with what the database brings to it. -/
structure ExtractionContext where
  eventId : Uuid
  claimsByField : List (String × Claim)
  pick : RowChoice
  pgLower : String → String

/-- What a relationship starts from: the event, an entity, or an entity that was not found. -/
inductive OrionSubject where
  | event
  | entity (x : Option OrionEntity)

/-- The subject of the relationship; an event is none, and without an entity there is no
relationship. -/
def OrionSubject.start : OrionSubject → Option (Option Uuid)
  | .event => some none
  | .entity x => x.map fun y => some y.id

/-- The registry and the result so far. -/
structure ExtractionState where
  db : OrionDb
  result : OrionExtractionResult
deriving DecidableEq, Repr

namespace ExtractionContext

variable [PyText] (ctx : ExtractionContext)

/-- `_resolve_or_create`. -/
def resolveOrCreate (R : OrionDb) (c : ResolutionCandidate) :
    Except AtlasError (OrionEntity × Bool × OrionDb) :=
  let primary := c.primaryIdentifier
  let found := (R.findByIdentifier ctx.pick c.entityType primary.identifierType
    primary.normalizedValue).or
      (R.findByCanonicalName ctx.pick ctx.pgLower c.entityType (normalizeName c.canonicalName))
  match found with
  | some x => pure (x, false, R)
  | none => do
      let x : OrionEntity := ⟨R.nextId, c.entityType, c.canonicalName, .active, c.newEntityConfidence⟩
      let R ← R.addEntity x
      pure (x, true, R)

/-- `_attach_identifier`. -/
def attachIdentifier (R : OrionDb) (x : OrionEntity) (spec : IdentifierSpec)
    (claimField : Option String) : Except AtlasError OrionDb :=
  let claim := claimField.bind fun f => ctx.claimsByField.lookup f
  R.tryAddIdentifier ⟨R.nextId, x.id, x.entityType, spec.identifierType, spec.identifierValue,
    spec.normalizedValue, claim.map Claim.id, claim.bind Claim.rawSnapshotId, spec.confidence, none⟩

/-- `_maybe_claim_link`. -/
def maybeClaimLink (R : OrionDb) (x : OrionEntity) (fieldName : String) : OrionDb :=
  match ctx.claimsByField.lookup fieldName with
  | none => R
  | some claim => R.addClaimLink ⟨R.nextId, x.id, claim.id, claim.rawSnapshotId, claim.sourceId,
      ctx.eventId, 95 / 100⟩

/-- `_upsert_rel`. -/
def upsertRel (R : OrionDb) (relType : OrionRelationshipType) (object : Uuid)
    (subject : Option Uuid) (claimField : String) : OrionRelationship × Bool × OrionDb :=
  let claim := ctx.claimsByField.lookup claimField
  R.upsertRelationship ⟨R.nextId, subject, relType, object, ctx.eventId, claim.map Claim.id,
    claim.bind Claim.rawSnapshotId, 95 / 100⟩

/-- Record the relationship of an entity, when what it starts from was found. -/
def relate (st : ExtractionState) (relType : OrionRelationshipType) (subject : OrionSubject)
    (x : OrionEntity) (field : String) : ExtractionState :=
  match subject.start with
  | none => st
  | some subjectId =>
      let (rel, created, R) := ctx.upsertRel st.db relType x.id subjectId field
      ⟨R, st.result.countRel rel created⟩

/-- One entity of `ExtractOrionEntitiesFromEvent.execute`, when a field names it. -/
def extractEntity (relType : OrionRelationshipType) (subject : OrionSubject)
    (named : Option (String × ResolutionCandidate)) (st : ExtractionState) :
    Except AtlasError (Option OrionEntity × ExtractionState) :=
  match named with
  | none => pure (none, st)
  | some (field, c) => do
      let (x, created, R) ← ctx.resolveOrCreate st.db c
      let R ← ctx.attachIdentifier R x c.primaryIdentifier (some field)
      let R ← c.extraIdentifiers.foldlM (fun R spec => ctx.attachIdentifier R x spec none) R
      let R := ctx.maybeClaimLink R x field
      pure (some x, ctx.relate ⟨R, st.result.countEntity x created⟩ relType subject x field)

end ExtractionContext

section Extract

variable [PyText] [PyUpper] [PyTitle] [PyRepr] [PyCasefold]

/-- The extraction from the fields of a projection. -/
def extractFields (ctx : ExtractionContext) (fields : List (String × Json)) (st : ExtractionState) :
    Except AtlasError ExtractionState := do
  let (aircraft, st) ← ctx.extractEntity .involvedAircraft .event
    (namedEntity fields ["registration", "aircraft_registration"] resolveAircraft) st
  let (_, st) ← ctx.extractEntity .operatedBy (.entity aircraft)
    (namedEntity fields ["operator", "airline"] resolveOperator) st
  let (aircraftType, st) ← ctx.extractEntity .aircraftType (.entity aircraft)
    (namedEntity fields ["aircraft_type"] resolveAircraftType) st
  let (_, st) ← ctx.extractEntity .manufacturedBy (.entity aircraftType)
    (namedEntity fields ["manufacturer"] resolveManufacturer) st
  let (airport, st) ← ctx.extractEntity .occurredAt .event (namedAirport fields) st
  let (_, st) ← ctx.extractEntity .locatedIn (.entity airport)
    (namedEntity fields ["country"] resolveCountry) st
  let (_, st) ← ctx.extractEntity .investigatedBy .event
    (namedEntity fields ["investigation_agency", "agency"] resolveInvestigationAgency) st
  pure st

/-- `ExtractOrionEntitiesFromEvent.execute` on a store and a registry. -/
def extractOrionEntities (pick : RowChoice) (pgLower : String → String) (s : Db) (eventId : Uuid)
    (R : OrionDb) : Except AtlasError (OrionExtractionResult × OrionDb) :=
  match s.getProjection eventId with
  | none => pure (.start eventId, R)
  | some projection => do
      let fields := projection.readFields
      let claims := s.selectProjectedClaimsByField eventId fields chronosSafeStr
      let st ← extractFields ⟨eventId, claims, pick, pgLower⟩ fields ⟨R, .start eventId⟩
      pure (st.result, st.db)

end Extract

end Atlas
