import Atlas.Lib.Identities
import Atlas.Lib.Rows
import Atlas.Lib.Runs
import Atlas.Lib.Slots
import Atlas.Metering
import Atlas.Publication
import Mathlib.Data.List.Sort
import Mathlib.Data.Prod.Lex
import Mathlib.Data.String.Basic

/-!
# Causal analysis of events

Analysts attach two kinds of findings to an event: HFACS attributions, each to a category
of a fixed taxonomy, and SHELO factors with typed edges between them.  They may do so
before the event's page is public; the public reads go through the status of the page.

A use case that writes reads first and writes in a later statement, and other requests
come in between.  The database backs the writes with keys, foreign keys and checks; that
the two ends of an edge belong to the edge's event is checked by the use case alone, at the
time it reads.
-/

namespace Atlas

namespace Causality

open Outcome Rows Identities

/-! ## Findings -/

structure HfacsCategory where
  id : Uuid
  tierCode : String
  code : String
  name : String
deriving DecidableEq, Repr

structure HfacsSubcategory where
  id : Uuid
  categoryId : Uuid
  code : String
  name : String
deriving DecidableEq, Repr

structure EventHfacsAttribution where
  id : Uuid
  eventId : Uuid
  categoryId : Uuid
  subcategoryId : Option Uuid
  confidence : ℚ
  note : Option String
  editorUserId : Uuid
  version : Nat
  createdAt : Time
  updatedAt : Time
deriving DecidableEq, Repr

inductive SheloClass where
  | software
  | hardware
  | environment
  | liveware
  | other
deriving DecidableEq, Repr

def SheloClass.value : SheloClass → String
  | .software => "SOFTWARE"
  | .hardware => "HARDWARE"
  | .environment => "ENVIRONMENT"
  | .liveware => "LIVEWARE"
  | .other => "OTHER"

inductive SheloInteractionKind where
  | precondition
  | aggravated
  | mitigated
  | masked
deriving DecidableEq, Repr

def SheloInteractionKind.value : SheloInteractionKind → String
  | .precondition => "PRECONDITION"
  | .aggravated => "AGGRAVATED"
  | .mitigated => "MITIGATED"
  | .masked => "MASKED"

structure SheloFactor where
  id : Uuid
  eventId : Uuid
  factorClass : SheloClass
  label : String
  description : Option String
  editorUserId : Uuid
  version : Nat
  createdAt : Time
  updatedAt : Time
deriving DecidableEq, Repr

structure SheloFactorInteraction where
  id : Uuid
  eventId : Uuid
  sourceFactorId : Uuid
  targetFactorId : Uuid
  interactionKind : SheloInteractionKind
  note : Option String
  editorUserId : Uuid
  createdAt : Time
deriving DecidableEq, Repr

/-- `uq_shelo_factor_interactions_natural`. -/
def SheloFactorInteraction.naturalKey (i : SheloFactorInteraction) :
    Uuid × Uuid × Uuid × SheloInteractionKind :=
  (i.eventId, i.sourceFactorId, i.targetFactorId, i.interactionKind)

/-- `uq_event_hfacs_attributions_natural`. -/
def EventHfacsAttribution.naturalKey (a : EventHfacsAttribution) : Uuid × Uuid × Option Uuid :=
  (a.eventId, a.categoryId, a.subcategoryId)

inductive CausalityError where
  | notPublished (slug : String)
  | retracted (slug : String) (retractionNote : Option String)
  | hfacsCategoryNotFound (message : String)
  | hfacsSubcategoryNotFound (message : String)
  | hfacsAttributionNotFound (message : String)
  | hfacsAttributionConflict (message : String)
  | sheloFactorNotFound (message : String)
  | sheloFactorConflict (message : String)
  | interactionConflict (message : String)
  | interactionSameNode (message : String)
  | validation (field : String)
  | integrity (constraint : String)
deriving DecidableEq, Repr

/-- The tables.  `events` holds the ids of the accident events. -/
structure CausalityDb where
  nextId : Uuid
  events : List Uuid
  pages : List PublicEventPage
  categories : List HfacsCategory
  subcategories : List HfacsSubcategory
  attributions : List EventHfacsAttribution
  factors : List SheloFactor
  interactions : List SheloFactorInteraction
  usageEvents : List UsageEvent

namespace CausalityDb

variable (s : CausalityDb)

/-! ## Public reads -/

/-- `_require_published_event_for_slug`. -/
def requirePublishedEventForSlug (slug : String) : Except CausalityError Uuid := do
  let page ← fromOption (lookup PublicEventPage.slug slug s.pages) (.notPublished slug)
  require (page.status ≠ .retracted) (.retracted slug page.retractionNote)
  require (page.status = .published) (.notPublished slug)
  pure page.eventId

/-- `list_for_event` of the factors, by class and time. -/
def factorsForEvent (eventId : Uuid) : List SheloFactor :=
  (s.factors.filter fun f => decide (f.eventId = eventId)).insertionSort fun a b =>
    toLex (a.factorClass.value, a.createdAt) ≤ toLex (b.factorClass.value, b.createdAt)

/-- `list_for_event` of the interactions, by time. -/
def interactionsForEvent (eventId : Uuid) : List SheloFactorInteraction :=
  (s.interactions.filter fun i => decide (i.eventId = eventId)).insertionSort fun a b =>
    a.createdAt ≤ b.createdAt

/-- `list_for_event` of the attributions: joined with the category, by its tier and code. -/
def attributionsForEvent (eventId : Uuid) : List EventHfacsAttribution :=
  (((s.attributions.filter fun a => decide (a.eventId = eventId)).filterMap fun a =>
    (lookup HfacsCategory.id a.categoryId s.categories).map fun c => (a, c)).insertionSort
      fun x y => toLex (x.2.tierCode, x.2.code) ≤ toLex (y.2.tierCode, y.2.code)).map Prod.fst

structure EventSheloView where
  eventId : Uuid
  factors : List SheloFactor
  interactions : List SheloFactorInteraction
deriving DecidableEq, Repr

/-- `GetEventShelo.execute`. -/
def getEventShelo (slug : String) : Except CausalityError EventSheloView := do
  let eventId ← s.requirePublishedEventForSlug slug
  pure ⟨eventId, s.factorsForEvent eventId, s.interactionsForEvent eventId⟩

structure EventHfacsView where
  eventId : Uuid
  attributions : List (EventHfacsAttribution × HfacsCategory × Option HfacsSubcategory)
deriving DecidableEq, Repr

/-- An attribution with its category and subcategory, left out without a category. -/
def hydrate (a : EventHfacsAttribution) :
    Option (EventHfacsAttribution × HfacsCategory × Option HfacsSubcategory) :=
  (lookup HfacsCategory.id a.categoryId s.categories).map fun c =>
    (a, c, a.subcategoryId.bind fun id => lookup HfacsSubcategory.id id s.subcategories)

/-- `GetEventHfacs.execute`. -/
def getEventHfacs (slug : String) : Except CausalityError EventHfacsView := do
  let eventId ← s.requirePublishedEventForSlug slug
  pure ⟨eventId, (s.attributionsForEvent eventId).filterMap s.hydrate⟩

/-! ## Writes of one statement -/

def uuid4 : Uuid × CausalityDb := (s.nextId, { s with nextId := s.nextId + 1 })

structure AttachSheloFactorInput where
  eventId : Uuid
  factorClass : SheloClass
  label : String
  description : Option String
  editorUserId : Uuid

def maxLabelLength : Nat := 300

/-- `AttachSheloFactor.execute`. -/
def attachSheloFactor (input : AttachSheloFactorInput) (now : Time) :
    Except CausalityError (SheloFactor × CausalityDb) := do
  require (1 ≤ input.label.length ∧ input.label.length ≤ maxLabelLength) (.validation "label")
  require (input.eventId ∈ s.events) (.integrity "accident_events")
  let (id, s) := s.uuid4
  let factor : SheloFactor :=
    ⟨id, input.eventId, input.factorClass, input.label, input.description, input.editorUserId, 1, now, now⟩
  pure (factor, { s with factors := s.factors ++ [factor] })

/-- `DeleteSheloFactor.execute`: the edges at the factor go with it. -/
def deleteSheloFactor (factorId : Uuid) : CausalityDb :=
  { s with
    factors := s.factors.filter fun f => decide (f.id ≠ factorId)
    interactions := s.interactions.filter fun i =>
      decide (i.sourceFactorId ≠ factorId ∧ i.targetFactorId ≠ factorId) }

/-- `DeleteSheloInteraction.execute`. -/
def deleteSheloInteraction (interactionId : Uuid) : CausalityDb :=
  { s with interactions := s.interactions.filter fun i => decide (i.id ≠ interactionId) }

/-- `DeleteEventHfacsAttribution.execute`. -/
def deleteEventHfacsAttribution (attributionId : Uuid) : CausalityDb :=
  { s with attributions := s.attributions.filter fun a => decide (a.id ≠ attributionId) }

/-! ## Use cases that read first -/

structure AttachSheloInteractionInput where
  eventId : Uuid
  sourceFactorId : Uuid
  targetFactorId : Uuid
  interactionKind : SheloInteractionKind
  note : Option String
  editorUserId : Uuid

structure UpdateSheloFactorInput where
  factorId : Uuid
  expectedVersion : Int
  factorClass : SheloClass
  label : String
  description : Option String
  editorUserId : Uuid

structure AttachHfacsAttributionInput where
  eventId : Uuid
  categoryId : Uuid
  subcategoryId : Option Uuid
  confidence : ℚ
  note : Option String
  editorUserId : Uuid

structure UpdateHfacsAttributionInput where
  attributionId : Uuid
  expectedVersion : Int
  confidence : ℚ
  note : Option String
  editorUserId : Uuid

inductive Request where
  | attachInteraction (input : AttachSheloInteractionInput)
  | updateFactor (input : UpdateSheloFactorInput)
  | attachAttribution (input : AttachHfacsAttributionInput)
  | updateAttribution (input : UpdateHfacsAttributionInput)

/-- What a call has made of what it read, and is about to write. -/
inductive Intent where
  | addInteraction (interaction : SheloFactorInteraction)
  | updateFactor (updated : SheloFactor) (expectedVersion : Int)
  | addAttribution (attribution : EventHfacsAttribution)
  | updateAttribution (updated : EventHfacsAttribution) (expectedVersion : Int)

/-- A factor that must be on the event. -/
def factorOn (factorId eventId : Uuid) : Except CausalityError Unit :=
  require ((lookup SheloFactor.id factorId s.factors).any fun f => decide (f.eventId = eventId))
    (.sheloFactorNotFound
      ("SHELO factor " ++ toString factorId ++ " not found on event " ++ toString eventId))

/-- `AttachSheloInteraction.execute` up to its insert. -/
def readInteraction (input : AttachSheloInteractionInput) (now : Time) :
    Except CausalityError (Intent × CausalityDb) := do
  require (input.sourceFactorId ≠ input.targetFactorId)
    (.interactionSameNode "source_factor_id must differ from target_factor_id")
  s.factorOn input.sourceFactorId input.eventId
  s.factorOn input.targetFactorId input.eventId
  let (id, s) := s.uuid4
  let interaction : SheloFactorInteraction :=
    ⟨id, input.eventId, input.sourceFactorId, input.targetFactorId, input.interactionKind, input.note,
      input.editorUserId, now⟩
  require (∀ i ∈ s.interactions, i.naturalKey ≠ interaction.naturalKey)
    (.interactionConflict ("Interaction already exists for (" ++ toString input.sourceFactorId ++
      " -> " ++ toString input.targetFactorId ++ ", " ++ input.interactionKind.value ++ ")"))
  pure (.addInteraction interaction, s)

/-- `UpdateSheloFactor.execute` up to its update; nothing is validated. -/
def readFactorUpdate (input : UpdateSheloFactorInput) (now : Time) :
    Except CausalityError (Intent × CausalityDb) := do
  let existing ← fromOption (lookup SheloFactor.id input.factorId s.factors)
    (.sheloFactorNotFound ("SHELO factor " ++ toString input.factorId ++ " not found"))
  pure (.updateFactor
    { existing with
      factorClass := input.factorClass
      label := input.label
      description := input.description
      editorUserId := input.editorUserId
      version := existing.version + 1
      updatedAt := now } input.expectedVersion, s)

/-- The subcategory must exist and belong to the category. -/
def checkSubcategory (categoryId : Uuid) : Option Uuid → Except CausalityError Unit
  | none => pure ()
  | some id => do
      let sub ← fromOption (lookup HfacsSubcategory.id id s.subcategories)
        (.hfacsSubcategoryNotFound ("HFACS subcategory " ++ toString id ++ " not found"))
      require (sub.categoryId = categoryId) (.hfacsSubcategoryNotFound
        ("HFACS subcategory " ++ toString id ++ " does not belong to category " ++ toString categoryId))

/-- The text of an optional id. -/
def idText : Option Uuid → String
  | none => "None"
  | some id => toString id

/-- `AttachEventHfacsAttribution.execute` up to its insert. -/
def readAttribution (input : AttachHfacsAttributionInput) (now : Time) :
    Except CausalityError (Intent × CausalityDb) := do
  require ((lookup HfacsCategory.id input.categoryId s.categories).isSome)
    (.hfacsCategoryNotFound ("HFACS category " ++ toString input.categoryId ++ " not found"))
  s.checkSubcategory input.categoryId input.subcategoryId
  require (0 ≤ input.confidence ∧ input.confidence ≤ 1) (.validation "confidence")
  let (id, s) := s.uuid4
  let attribution : EventHfacsAttribution :=
    ⟨id, input.eventId, input.categoryId, input.subcategoryId, input.confidence, input.note,
      input.editorUserId, 1, now, now⟩
  require (∀ a ∈ s.attributions, a.naturalKey ≠ attribution.naturalKey)
    (.hfacsAttributionConflict ("An attribution already exists for event " ++ toString input.eventId ++
      ", category " ++ toString input.categoryId ++ ", subcategory " ++ idText input.subcategoryId ++ "."))
  pure (.addAttribution attribution, s)

/-- `UpdateEventHfacsAttribution.execute` up to its update; nothing is validated. -/
def readAttributionUpdate (input : UpdateHfacsAttributionInput) (now : Time) :
    Except CausalityError (Intent × CausalityDb) := do
  let existing ← fromOption (lookup EventHfacsAttribution.id input.attributionId s.attributions)
    (.hfacsAttributionNotFound ("HFACS attribution " ++ toString input.attributionId ++ " not found"))
  pure (.updateAttribution
    { existing with
      confidence := input.confidence
      note := input.note
      editorUserId := input.editorUserId
      version := existing.version + 1
      updatedAt := now } input.expectedVersion, s)

def read (now : Time) : Request → Except CausalityError (Intent × CausalityDb)
  | .attachInteraction input => s.readInteraction input now
  | .updateFactor input => s.readFactorUpdate input now
  | .attachAttribution input => s.readAttribution input now
  | .updateAttribution input => s.readAttributionUpdate input now

/-- The insert of an interaction, under its keys, its check and its foreign keys. -/
def addInteraction (i : SheloFactorInteraction) : Except CausalityError CausalityDb := do
  require (i.eventId ∈ s.events) (.integrity "accident_events")
  require (i.sourceFactorId ∈ s.factors.map SheloFactor.id) (.integrity "source_factor_id")
  require (i.targetFactorId ∈ s.factors.map SheloFactor.id) (.integrity "target_factor_id")
  require (i.sourceFactorId ≠ i.targetFactorId)
    (.integrity "ck_shelo_factor_interactions_no_self_loop")
  require (∀ i' ∈ s.interactions, i'.naturalKey ≠ i.naturalKey)
    (.integrity "uq_shelo_factor_interactions_natural")
  pure { s with interactions := s.interactions ++ [i] }

/-- `UPDATE shelo_factors … WHERE id = … AND version = …`. -/
def writeFactor (updated : SheloFactor) (expectedVersion : Int) : Except CausalityError CausalityDb := do
  let _ ← fromOption (s.factors.find? fun f =>
      decide (f.id = updated.id ∧ (f.version : Int) = expectedVersion))
    (.sheloFactorConflict ("SHELO factor " ++ toString updated.id ++
      " either vanished or its version moved past v" ++ toString expectedVersion ++ "."))
  require (updated.label.length ≤ maxLabelLength) (.integrity "label")
  pure { s with
    factors := updateWhere (fun f => decide (f.id = updated.id ∧ (f.version : Int) = expectedVersion))
      (fun _ => updated) s.factors }

/-- The insert of an attribution, its usage event with it. -/
def addAttribution (a : EventHfacsAttribution) (clock : Nat → Time) :
    Except CausalityError CausalityDb := do
  require (a.eventId ∈ s.events) (.integrity "accident_events")
  require (0 ≤ a.confidence ∧ a.confidence ≤ 1)
    (.integrity "ck_event_hfacs_attributions_confidence_range")
  require (∀ a' ∈ s.attributions, a'.naturalKey ≠ a.naturalKey)
    (.integrity "uq_event_hfacs_attributions_natural")
  pure { s with
    attributions := s.attributions ++ [a]
    usageEvents := record s.usageEvents .hfacsAttributionCreated none (some a.editorUserId)
      (some a.id) 1 clock }

/-- `UPDATE event_hfacs_attributions … WHERE id = … AND version = …`. -/
def writeAttribution (updated : EventHfacsAttribution) (expectedVersion : Int) :
    Except CausalityError CausalityDb := do
  let _ ← fromOption (s.attributions.find? fun a =>
      decide (a.id = updated.id ∧ (a.version : Int) = expectedVersion))
    (.hfacsAttributionConflict ("HFACS attribution " ++ toString updated.id ++
      " either vanished or its version moved past v" ++ toString expectedVersion ++ "."))
  require (0 ≤ updated.confidence ∧ updated.confidence ≤ 1)
    (.integrity "ck_event_hfacs_attributions_confidence_range")
  pure { s with
    attributions := updateWhere
      (fun a => decide (a.id = updated.id ∧ (a.version : Int) = expectedVersion))
      (fun _ => updated) s.attributions }

def write (clock : Nat → Time) : Intent → Except CausalityError CausalityDb
  | .addInteraction i => s.addInteraction i
  | .updateFactor updated expectedVersion => s.writeFactor updated expectedVersion
  | .addAttribution a => s.addAttribution a clock
  | .updateAttribution updated expectedVersion => s.writeAttribution updated expectedVersion

end CausalityDb

/-! ## Any interleaving -/

open CausalityDb in
/-- One thing that happens.  What the editorial workflow does to the pages is left open. -/
inductive Act where
  | attachSheloFactor (input : AttachSheloFactorInput) (now : Time)
  | deleteSheloFactor (factorId : Uuid)
  | deleteSheloInteraction (interactionId : Uuid)
  | deleteEventHfacsAttribution (attributionId : Uuid)
  | setPages (pages : List PublicEventPage)
  | read (call : Nat) (request : Request) (now : Time)
  | write (call : Nat) (clock : Nat → Time)
  | abort (call : Nat)

/-- The database and the calls between their reads and their write. -/
structure World where
  db : CausalityDb
  pending : Nat → Option CausalityDb.Intent

namespace World

/-- A database without findings. -/
def start (events : List Uuid) (categories : List HfacsCategory)
    (subcategories : List HfacsSubcategory) : World :=
  ⟨⟨0, events, [], categories, subcategories, [], [], [], []⟩, fun _ => none⟩

/-- The database a use case commits, or the one before when it raises. -/
def orElse (db : CausalityDb) : Except CausalityError CausalityDb → CausalityDb
  | .ok db' => db'
  | .error _ => db

def step (w : World) : Act → World
  | .attachSheloFactor input now =>
      { w with db := orElse w.db ((w.db.attachSheloFactor input now).map Prod.snd) }
  | .deleteSheloFactor factorId => { w with db := w.db.deleteSheloFactor factorId }
  | .deleteSheloInteraction interactionId => { w with db := w.db.deleteSheloInteraction interactionId }
  | .deleteEventHfacsAttribution attributionId =>
      { w with db := w.db.deleteEventHfacsAttribution attributionId }
  | .setPages pages => { w with db := { w.db with pages := pages } }
  | .read call request now =>
      match w.pending call, w.db.read now request with
      | none, .ok (intent, db) => ⟨db, Slots.put w.pending call intent⟩
      | _, _ => w
  | .write call clock =>
      match w.pending call with
      | some intent => ⟨orElse w.db (w.db.write clock intent), Slots.clear w.pending call⟩
      | none => w
  | .abort call => { w with pending := Slots.clear w.pending call }

/-! ## What holds in between -/

/-- The rows of factors that stand or are about to. -/
def factorRows (w : World) : Set SheloFactor :=
  {f | f ∈ w.db.factors ∨ ∃ call expected, w.pending call = some (.updateFactor f expected)}

/-- The edges that are about to be inserted. -/
def plannedEdges (w : World) : Set SheloFactorInteraction :=
  {i | ∃ call, w.pending call = some (.addInteraction i)}

/-- The rows of attributions that stand or are about to. -/
def attributionRows (w : World) : Set EventHfacsAttribution :=
  {a | a ∈ w.db.attributions ∨ (∃ call, w.pending call = some (.addAttribution a)) ∨
    ∃ call expected, w.pending call = some (.updateAttribution a expected)}

end World

/-- Both ends of an edge are factors of its event, and not one factor. -/
structure EdgeSound (factors : List SheloFactor) (i : SheloFactorInteraction) : Prop where
  apart : i.sourceFactorId ≠ i.targetFactorId
  source : ∃ f ∈ factors, f.id = i.sourceFactorId ∧ f.eventId = i.eventId
  target : ∃ f ∈ factors, f.id = i.targetFactorId ∧ f.eventId = i.eventId

/-- An attribution is to a category of the taxonomy and, if it goes further, to a
subcategory of that category. -/
structure Placed (categories : List HfacsCategory) (subcategories : List HfacsSubcategory)
    (a : EventHfacsAttribution) : Prop where
  category : ∃ c ∈ categories, c.id = a.categoryId
  subcategory : ∀ id, a.subcategoryId = some id →
    ∃ c ∈ subcategories, c.id = id ∧ c.categoryId = a.categoryId

namespace World

variable {w : World}

/-- Every row of the factor is on the event, those to come included. -/
def OnEvent (w : World) (factorId eventId : Uuid) : Prop :=
  Promised SheloFactor.id SheloFactor.eventId w.db.nextId w.factorRows factorId eventId

/-- The invariant: what stands is sound, and what is about to be written will be. -/
structure Inv (w : World) : Prop where
  factors : Agree SheloFactor.id SheloFactor.eventId w.db.nextId w.factorRows
  planned : ∀ i ∈ w.plannedEdges,
    w.OnEvent i.sourceFactorId i.eventId ∧ w.OnEvent i.targetFactorId i.eventId
  edges : ∀ i ∈ w.db.interactions, EdgeSound w.db.factors i
  naturalEdges : Unique SheloFactorInteraction.naturalKey w.db.interactions
  attributions : Agree EventHfacsAttribution.id EventHfacsAttribution.naturalKey w.db.nextId
    w.attributionRows
  placed : ∀ a ∈ w.attributionRows, Placed w.db.categories w.db.subcategories a
  confident : ∀ a ∈ w.db.attributions, 0 ≤ a.confidence ∧ a.confidence ≤ 1
  naturalAttributions : Unique EventHfacsAttribution.naturalKey w.db.attributions

theorem inv_start (events : List Uuid) (categories : List HfacsCategory)
    (subcategories : List HfacsSubcategory) : (start events categories subcategories).Inv := by
  have hfactors : ∀ f, f ∉ (start events categories subcategories).factorRows := by
    intro f hf
    cases hf with
    | inl hmem => exact List.not_mem_nil hmem
    | inr hpending =>
        obtain ⟨call, expected, h⟩ := hpending
        cases h
  have hattributions : ∀ a, a ∉ (start events categories subcategories).attributionRows := by
    intro a ha
    rcases ha with hmem | ⟨call, h⟩ | ⟨call, expected, h⟩
    · exact List.not_mem_nil hmem
    · cases h
    · cases h
  refine ⟨⟨?_, ?_⟩, ?_, ?_, unique_nil _, ⟨?_, ?_⟩, ?_, ?_, unique_nil _⟩
  · exact fun f hf => absurd hf (hfactors f)
  · exact fun f hf => absurd hf (hfactors f)
  · intro i hi
    obtain ⟨call, h⟩ := hi
    cases h
  · exact fun i hi => (List.not_mem_nil hi).elim
  · exact fun a ha => absurd ha (hattributions a)
  · exact fun a ha => absurd ha (hattributions a)
  · exact fun a ha => absurd ha (hattributions a)
  · exact fun a ha => (List.not_mem_nil ha).elim

/-! ### What happens to the calls -/

theorem pending_put {call t : Nat} {intent x : CausalityDb.Intent}
    (h : Slots.put w.pending call intent t = some x) : x = intent ∨ ∃ t, w.pending t = some x := by
  cases Slots.put_some h with
  | inl hnew => exact .inl hnew.2
  | inr hold => exact .inr ⟨t, hold.2⟩

/-- A call that has read adds the row it is about to write. -/
theorem factorRows_put {db : CausalityDb} (hdb : db.factors = w.db.factors) {call : Nat}
    {intent : CausalityDb.Intent} {f : SheloFactor}
    (h : f ∈ (⟨db, Slots.put w.pending call intent⟩ : World).factorRows) :
    f ∈ w.factorRows ∨ ∃ expected, intent = .updateFactor f expected := by
  cases h with
  | inl hmem =>
      left
      left
      rw [← hdb]
      exact hmem
  | inr hpending =>
      obtain ⟨t, expected, ht⟩ := hpending
      cases pending_put ht with
      | inl hnew => exact .inr ⟨expected, hnew.symm⟩
      | inr hold =>
          obtain ⟨t', ht'⟩ := hold
          exact .inl (.inr ⟨t', expected, ht'⟩)

theorem plannedEdges_put {db : CausalityDb} {call : Nat} {intent : CausalityDb.Intent}
    {i : SheloFactorInteraction} (h : i ∈ (⟨db, Slots.put w.pending call intent⟩ : World).plannedEdges) :
    i ∈ w.plannedEdges ∨ intent = .addInteraction i := by
  obtain ⟨t, ht⟩ := h
  cases pending_put ht with
  | inl hnew => exact .inr hnew.symm
  | inr hold => exact .inl hold

theorem attributionRows_put {db : CausalityDb} (hdb : db.attributions = w.db.attributions) {call : Nat}
    {intent : CausalityDb.Intent} {a : EventHfacsAttribution}
    (h : a ∈ (⟨db, Slots.put w.pending call intent⟩ : World).attributionRows) :
    a ∈ w.attributionRows ∨ intent = .addAttribution a ∨
      ∃ expected, intent = .updateAttribution a expected := by
  rcases h with hmem | ⟨t, ht⟩ | ⟨t, expected, ht⟩
  · left
    left
    rw [← hdb]
    exact hmem
  · cases pending_put ht with
    | inl hnew => exact .inr (.inl hnew.symm)
    | inr hold => exact .inl (.inr (.inl hold))
  · cases pending_put ht with
    | inl hnew => exact .inr (.inr ⟨expected, hnew.symm⟩)
    | inr hold =>
        obtain ⟨t', ht'⟩ := hold
        exact .inl (.inr (.inr ⟨t', expected, ht'⟩))

/-- A call that is over takes nothing along that stands in a row. -/
theorem factorRows_sub {db : CausalityDb} {pending : Nat → Option CausalityDb.Intent}
    (hdb : ∀ f ∈ db.factors, f ∈ w.factorRows) (hpending : ∀ t x, pending t = some x →
      ∃ t, w.pending t = some x) : (⟨db, pending⟩ : World).factorRows ⊆ w.factorRows := by
  intro f hf
  cases hf with
  | inl hmem => exact hdb f hmem
  | inr h =>
      obtain ⟨t, expected, ht⟩ := h
      obtain ⟨t', ht'⟩ := hpending t _ ht
      exact .inr ⟨t', expected, ht'⟩

theorem plannedEdges_sub {db : CausalityDb} {pending : Nat → Option CausalityDb.Intent}
    (hpending : ∀ t x, pending t = some x → ∃ t, w.pending t = some x) :
    (⟨db, pending⟩ : World).plannedEdges ⊆ w.plannedEdges := by
  intro i hi
  obtain ⟨t, ht⟩ := hi
  exact hpending t _ ht

theorem attributionRows_sub {db : CausalityDb} {pending : Nat → Option CausalityDb.Intent}
    (hdb : ∀ a ∈ db.attributions, a ∈ w.attributionRows) (hpending : ∀ t x, pending t = some x →
      ∃ t, w.pending t = some x) : (⟨db, pending⟩ : World).attributionRows ⊆ w.attributionRows := by
  intro a ha
  rcases ha with hmem | ⟨t, ht⟩ | ⟨t, expected, ht⟩
  · exact hdb a hmem
  · exact .inr (.inl (hpending t _ ht))
  · obtain ⟨t', ht'⟩ := hpending t _ ht
    exact .inr (.inr ⟨t', expected, ht'⟩)

theorem clear_sub {call : Nat} : ∀ t x, Slots.clear w.pending call t = some x →
    ∃ t, w.pending t = some x :=
  fun t _ h => ⟨t, (Slots.clear_some h).2⟩

/-- What is left of the invariant to show when nothing new is planned: the tables. -/
theorem Inv.of_sub (h : w.Inv) {db : CausalityDb} {pending : Nat → Option CausalityDb.Intent}
    (hpending : ∀ t x, pending t = some x → ∃ t, w.pending t = some x)
    (hnext : w.db.nextId ≤ db.nextId) (hcategories : db.categories = w.db.categories)
    (hsubcategories : db.subcategories = w.db.subcategories)
    (hfactors : ∀ f ∈ db.factors, f ∈ w.factorRows)
    (hattributions : ∀ a ∈ db.attributions, a ∈ w.attributionRows)
    (hedges : ∀ i ∈ db.interactions, EdgeSound db.factors i)
    (hnatural : Unique SheloFactorInteraction.naturalKey db.interactions)
    (hconfident : ∀ a ∈ db.attributions, 0 ≤ a.confidence ∧ a.confidence ≤ 1)
    (hnatural' : Unique EventHfacsAttribution.naturalKey db.attributions) :
    (⟨db, pending⟩ : World).Inv := by
  have hrows := factorRows_sub hfactors hpending
  have hrows' := attributionRows_sub hattributions hpending
  refine ⟨h.factors.mono hnext hrows, ?_, hedges, hnatural, h.attributions.mono hnext hrows', ?_,
    hconfident, hnatural'⟩
  · intro i hi
    obtain ⟨hsource, htarget⟩ := h.planned i (plannedEdges_sub hpending hi)
    exact ⟨hsource.mono hnext hrows, htarget.mono hnext hrows⟩
  · intro a ha
    rw [hcategories, hsubcategories]
    exact h.placed a (hrows' ha)

/-- Nothing but the calls, the pages or the usage events changes. -/
theorem Inv.of_same (h : w.Inv) {db : CausalityDb} {pending : Nat → Option CausalityDb.Intent}
    (hpending : ∀ t x, pending t = some x → ∃ t, w.pending t = some x)
    (hnext : db.nextId = w.db.nextId) (hcategories : db.categories = w.db.categories)
    (hsubcategories : db.subcategories = w.db.subcategories) (hfactors : db.factors = w.db.factors)
    (hinteractions : db.interactions = w.db.interactions)
    (hattributions : db.attributions = w.db.attributions) : (⟨db, pending⟩ : World).Inv := by
  apply h.of_sub hpending hnext.ge hcategories hsubcategories
  · intro f hf
    rw [hfactors] at hf
    exact .inl hf
  · intro a ha
    rw [hattributions] at ha
    exact .inl ha
  · rw [hinteractions, hfactors]
    exact h.edges
  · rw [hinteractions]
    exact h.naturalEdges
  · rw [hattributions]
    exact h.confident
  · rw [hattributions]
    exact h.naturalAttributions

/-! ### Each step -/

theorem EdgeSound_mono {factors factors' : List SheloFactor} {i : SheloFactorInteraction}
    (h : EdgeSound factors i)
    (hkept : ∀ f ∈ factors, f.id = i.sourceFactorId ∨ f.id = i.targetFactorId →
      ∃ f' ∈ factors', f'.id = f.id ∧ f'.eventId = f.eventId) : EdgeSound factors' i := by
  obtain ⟨hapart, ⟨f, hf, hfid, hfe⟩, ⟨g, hg, hgid, hge⟩⟩ := h
  refine ⟨hapart, ?_, ?_⟩
  · obtain ⟨f', hf', hid, he⟩ := hkept f hf (.inl hfid)
    exact ⟨f', hf', hid.trans hfid, he.trans hfe⟩
  · obtain ⟨g', hg', hid, he⟩ := hkept g hg (.inr hgid)
    exact ⟨g', hg', hid.trans hgid, he.trans hge⟩

theorem attachSheloFactor_ok {s db : CausalityDb} {input : CausalityDb.AttachSheloFactorInput}
    {now : Time} {factor : SheloFactor} (hok : s.attachSheloFactor input now = .ok (factor, db)) :
    factor.id = s.nextId ∧ factor.eventId = input.eventId ∧
      db = { s with nextId := s.nextId + 1, factors := s.factors ++ [factor] } := by
  unfold CausalityDb.attachSheloFactor CausalityDb.uuid4 at hok
  simp only [bind_ok, require_ok, pure_ok, Prod.mk.injEq] at hok
  obtain ⟨-, -, -, -, hfactor, rfl⟩ := hok
  rw [← hfactor]
  exact ⟨rfl, rfl, rfl⟩

theorem Inv.attachSheloFactor (h : w.Inv) {input : CausalityDb.AttachSheloFactorInput} {now : Time}
    {factor : SheloFactor} {db : CausalityDb}
    (hok : w.db.attachSheloFactor input now = .ok (factor, db)) : (⟨db, w.pending⟩ : World).Inv := by
  obtain ⟨hid, -, rfl⟩ := attachSheloFactor_ok hok
  have hrows : (⟨{ w.db with nextId := w.db.nextId + 1, factors := w.db.factors ++ [factor] },
      w.pending⟩ : World).factorRows ⊆ insert factor w.factorRows := by
    intro f hf
    cases hf with
    | inl hmem =>
        cases List.mem_append.mp hmem with
        | inl hold => exact .inr (.inl hold)
        | inr hnew => exact .inl (List.mem_singleton.mp hnew)
    | inr hpending => exact .inr (.inr hpending)
  refine ⟨(h.factors.insert_new hid).mono le_rfl hrows, ?_, ?_, h.naturalEdges,
    h.attributions.mono (Nat.le_succ _) (fun _ ha => ha), h.placed, h.confident, h.naturalAttributions⟩
  · intro i hi
    obtain ⟨hsource, htarget⟩ := h.planned i hi
    exact ⟨(hsource.insert_new hid).mono le_rfl hrows, (htarget.insert_new hid).mono le_rfl hrows⟩
  · intro i hi
    apply EdgeSound_mono (h.edges i hi)
    intro f hf _
    exact ⟨f, List.mem_append_left _ hf, rfl, rfl⟩

/-- A factor found on an event is promised to stay on it. -/
theorem Inv.onEvent (h : w.Inv) {factorId eventId : Uuid}
    (hok : w.db.factorOn factorId eventId = .ok ()) : w.OnEvent factorId eventId := by
  unfold CausalityDb.factorOn at hok
  rw [require_ok, Option.any_eq_true] at hok
  obtain ⟨f, hf, hevent⟩ := hok
  obtain ⟨hmem, hid⟩ := lookup_some hf
  have hpromised := h.factors.promised (Or.inl hmem)
  rw [hid, of_decide_eq_true hevent] at hpromised
  exact hpromised

theorem Inv.readInteraction (h : w.Inv) {input : CausalityDb.AttachSheloInteractionInput} {now : Time}
    {intent : CausalityDb.Intent} {db : CausalityDb}
    (hok : w.db.readInteraction input now = .ok (intent, db)) (call : Nat) :
    (⟨db, Slots.put w.pending call intent⟩ : World).Inv := by
  unfold CausalityDb.readInteraction CausalityDb.uuid4 at hok
  simp only [bind_ok, require_ok, pure_ok, Prod.mk.injEq] at hok
  obtain ⟨_, -, _, hsource, _, htarget, _, -, hintent, rfl⟩ := hok
  have hrows : (⟨{ w.db with nextId := w.db.nextId + 1 }, Slots.put w.pending call intent⟩ :
      World).factorRows ⊆ w.factorRows := by
    intro f hf
    cases factorRows_put (w := w) rfl hf with
    | inl hold => exact hold
    | inr hnew =>
        obtain ⟨expected, hnew⟩ := hnew
        rw [hnew] at hintent
        cases hintent
  have hrows' : (⟨{ w.db with nextId := w.db.nextId + 1 }, Slots.put w.pending call intent⟩ :
      World).attributionRows ⊆ w.attributionRows := by
    intro a ha
    rcases attributionRows_put (w := w) rfl ha with hold | hnew | ⟨expected, hnew⟩
    · exact hold
    · rw [hnew] at hintent
      cases hintent
    · rw [hnew] at hintent
      cases hintent
  refine ⟨h.factors.mono (Nat.le_succ _) hrows, ?_, h.edges, h.naturalEdges,
    h.attributions.mono (Nat.le_succ _) hrows', fun a ha => h.placed a (hrows' ha), h.confident,
    h.naturalAttributions⟩
  intro i hi
  have hboth : w.OnEvent i.sourceFactorId i.eventId ∧ w.OnEvent i.targetFactorId i.eventId := by
    cases plannedEdges_put hi with
    | inl hold => exact h.planned i hold
    | inr hnew =>
        rw [hnew] at hintent
        rw [← CausalityDb.Intent.addInteraction.inj hintent]
        exact ⟨h.onEvent hsource, h.onEvent htarget⟩
  exact ⟨hboth.1.mono (Nat.le_succ _) hrows, hboth.2.mono (Nat.le_succ _) hrows⟩

theorem Inv.readFactorUpdate (h : w.Inv) {input : CausalityDb.UpdateSheloFactorInput} {now : Time}
    {intent : CausalityDb.Intent} {db : CausalityDb}
    (hok : w.db.readFactorUpdate input now = .ok (intent, db)) (call : Nat) :
    (⟨db, Slots.put w.pending call intent⟩ : World).Inv := by
  unfold CausalityDb.readFactorUpdate at hok
  simp only [bind_ok, fromOption_ok, pure_ok, Prod.mk.injEq] at hok
  obtain ⟨existing, hfound, hintent, rfl⟩ := hok
  have hexisting : existing ∈ w.factorRows := .inl (lookup_some hfound).1
  obtain ⟨updated, hupdated, hid, hevent⟩ : ∃ updated, intent = .updateFactor updated input.expectedVersion ∧
      updated.id = existing.id ∧ updated.eventId = existing.eventId := ⟨_, hintent.symm, rfl, rfl⟩
  have hrows : (⟨w.db, Slots.put w.pending call intent⟩ : World).factorRows ⊆
      insert updated w.factorRows := by
    intro f hf
    cases factorRows_put (w := w) rfl hf with
    | inl hold => exact .inr hold
    | inr hnew =>
        obtain ⟨expected, hnew⟩ := hnew
        rw [hupdated] at hnew
        exact .inl (CausalityDb.Intent.updateFactor.inj hnew).1.symm
  have hrows' : (⟨w.db, Slots.put w.pending call intent⟩ : World).attributionRows ⊆
      w.attributionRows := by
    intro a ha
    rcases attributionRows_put (w := w) rfl ha with hold | hnew | ⟨expected, hnew⟩
    · exact hold
    · rw [hupdated] at hnew
      cases hnew
    · rw [hupdated] at hnew
      cases hnew
  refine ⟨(h.factors.insert_copy hexisting hid hevent).mono le_rfl hrows, ?_, h.edges, h.naturalEdges,
    h.attributions.mono le_rfl hrows', fun a ha => h.placed a (hrows' ha), h.confident,
    h.naturalAttributions⟩
  intro i hi
  cases plannedEdges_put hi with
  | inl hold =>
      obtain ⟨hsource, htarget⟩ := h.planned i hold
      exact ⟨(hsource.insert_copy hexisting hid hevent).mono le_rfl hrows,
        (htarget.insert_copy hexisting hid hevent).mono le_rfl hrows⟩
  | inr hnew =>
      rw [hupdated] at hnew
      cases hnew

/-- What the checks of the taxonomy establish. -/
theorem placed_of_checks {s : CausalityDb} {categoryId : Uuid} {subcategoryId : Option Uuid}
    (hcategory : (lookup HfacsCategory.id categoryId s.categories).isSome = true)
    (hsubcategory : s.checkSubcategory categoryId subcategoryId = .ok ()) {a : EventHfacsAttribution}
    (ha : a.categoryId = categoryId) (ha' : a.subcategoryId = subcategoryId) :
    Placed s.categories s.subcategories a := by
  obtain ⟨c, hc⟩ := Option.isSome_iff_exists.mp hcategory
  obtain ⟨hmem, hid⟩ := lookup_some hc
  refine ⟨⟨c, hmem, hid.trans ha.symm⟩, ?_⟩
  intro id hsub
  rw [ha'] at hsub
  rw [hsub] at hsubcategory
  unfold CausalityDb.checkSubcategory at hsubcategory
  simp only [bind_ok, fromOption_ok, require_ok] at hsubcategory
  obtain ⟨sub, hfound, hsame⟩ := hsubcategory
  obtain ⟨hmem', hid'⟩ := lookup_some hfound
  exact ⟨sub, hmem', hid', hsame.trans ha.symm⟩

theorem Inv.readAttribution (h : w.Inv) {input : CausalityDb.AttachHfacsAttributionInput} {now : Time}
    {intent : CausalityDb.Intent} {db : CausalityDb}
    (hok : w.db.readAttribution input now = .ok (intent, db)) (call : Nat) :
    (⟨db, Slots.put w.pending call intent⟩ : World).Inv := by
  unfold CausalityDb.readAttribution CausalityDb.uuid4 at hok
  simp only [bind_ok, require_ok, pure_ok, Prod.mk.injEq] at hok
  obtain ⟨_, hcategory, _, hsubcategory, _, -, _, -, hintent, rfl⟩ := hok
  obtain ⟨a, ha, hid, hplaced⟩ : ∃ a, intent = .addAttribution a ∧ a.id = w.db.nextId ∧
      Placed w.db.categories w.db.subcategories a :=
    ⟨_, hintent.symm, rfl, placed_of_checks hcategory hsubcategory rfl rfl⟩
  have hrows : (⟨{ w.db with nextId := w.db.nextId + 1 }, Slots.put w.pending call intent⟩ :
      World).factorRows ⊆ w.factorRows := by
    intro f hf
    cases factorRows_put (w := w) rfl hf with
    | inl hold => exact hold
    | inr hnew =>
        obtain ⟨expected, hnew⟩ := hnew
        rw [ha] at hnew
        cases hnew
  have hrows' : (⟨{ w.db with nextId := w.db.nextId + 1 }, Slots.put w.pending call intent⟩ :
      World).attributionRows ⊆ insert a w.attributionRows := by
    intro b hb
    rcases attributionRows_put (w := w) rfl hb with hold | hnew | ⟨expected, hnew⟩
    · exact .inr hold
    · rw [ha] at hnew
      exact .inl (CausalityDb.Intent.addAttribution.inj hnew).symm
    · rw [ha] at hnew
      cases hnew
  refine ⟨h.factors.mono (Nat.le_succ _) hrows, ?_, h.edges, h.naturalEdges,
    (h.attributions.insert_new hid).mono le_rfl hrows', ?_, h.confident, h.naturalAttributions⟩
  · intro i hi
    cases plannedEdges_put hi with
    | inl hold =>
        obtain ⟨hsource, htarget⟩ := h.planned i hold
        exact ⟨hsource.mono (Nat.le_succ _) hrows, htarget.mono (Nat.le_succ _) hrows⟩
    | inr hnew =>
        rw [ha] at hnew
        cases hnew
  · intro b hb
    cases hrows' hb with
    | inl hnew =>
        rw [hnew]
        exact hplaced
    | inr hold => exact h.placed b hold

theorem placed_congr {categories : List HfacsCategory} {subcategories : List HfacsSubcategory}
    {a b : EventHfacsAttribution} (h : Placed categories subcategories a)
    (hkey : b.naturalKey = a.naturalKey) : Placed categories subcategories b := by
  obtain ⟨-, hcategory, hsubcategory⟩ : b.eventId = a.eventId ∧ b.categoryId = a.categoryId ∧
      b.subcategoryId = a.subcategoryId := by
    simpa [EventHfacsAttribution.naturalKey] using hkey
  obtain ⟨hc, hs⟩ := h
  refine ⟨?_, ?_⟩
  · rw [hcategory]
    exact hc
  · rw [hcategory, hsubcategory]
    exact hs

theorem Inv.readAttributionUpdate (h : w.Inv) {input : CausalityDb.UpdateHfacsAttributionInput}
    {now : Time} {intent : CausalityDb.Intent} {db : CausalityDb}
    (hok : w.db.readAttributionUpdate input now = .ok (intent, db)) (call : Nat) :
    (⟨db, Slots.put w.pending call intent⟩ : World).Inv := by
  unfold CausalityDb.readAttributionUpdate at hok
  simp only [bind_ok, fromOption_ok, pure_ok, Prod.mk.injEq] at hok
  obtain ⟨existing, hfound, hintent, rfl⟩ := hok
  have hexisting : existing ∈ w.attributionRows := .inl (lookup_some hfound).1
  obtain ⟨updated, hupdated, hid, hkey⟩ : ∃ updated,
      intent = .updateAttribution updated input.expectedVersion ∧ updated.id = existing.id ∧
        updated.naturalKey = existing.naturalKey := ⟨_, hintent.symm, rfl, rfl⟩
  have hrows : (⟨w.db, Slots.put w.pending call intent⟩ : World).factorRows ⊆ w.factorRows := by
    intro f hf
    cases factorRows_put (w := w) rfl hf with
    | inl hold => exact hold
    | inr hnew =>
        obtain ⟨expected, hnew⟩ := hnew
        rw [hupdated] at hnew
        cases hnew
  have hrows' : (⟨w.db, Slots.put w.pending call intent⟩ : World).attributionRows ⊆
      insert updated w.attributionRows := by
    intro a ha
    rcases attributionRows_put (w := w) rfl ha with hold | hnew | ⟨expected, hnew⟩
    · exact .inr hold
    · rw [hupdated] at hnew
      cases hnew
    · rw [hupdated] at hnew
      exact .inl (CausalityDb.Intent.updateAttribution.inj hnew).1.symm
  refine ⟨h.factors.mono le_rfl hrows, ?_, h.edges, h.naturalEdges,
    (h.attributions.insert_copy hexisting hid hkey).mono le_rfl hrows', ?_, h.confident,
    h.naturalAttributions⟩
  · intro i hi
    cases plannedEdges_put hi with
    | inl hold =>
        obtain ⟨hsource, htarget⟩ := h.planned i hold
        exact ⟨hsource.mono le_rfl hrows, htarget.mono le_rfl hrows⟩
    | inr hnew =>
        rw [hupdated] at hnew
        cases hnew
  · intro a ha
    cases hrows' ha with
    | inl hnew =>
        rw [hnew]
        exact placed_congr (h.placed existing hexisting) hkey
    | inr hold => exact h.placed a hold

/-- A factor that was promised and stands is on the event. -/
theorem OnEvent.standing {factorId eventId : Uuid} (h : w.OnEvent factorId eventId)
    (hmem : factorId ∈ w.db.factors.map SheloFactor.id) :
    ∃ f ∈ w.db.factors, f.id = factorId ∧ f.eventId = eventId := by
  obtain ⟨f, hf, hid⟩ := List.mem_map.mp hmem
  exact ⟨f, hf, hid, h.2 f (.inl hf) hid⟩

theorem Inv.addInteraction (h : w.Inv) {call : Nat} {i : SheloFactorInteraction} {db : CausalityDb}
    (hcall : w.pending call = some (.addInteraction i)) (hok : w.db.addInteraction i = .ok db) :
    (⟨db, Slots.clear w.pending call⟩ : World).Inv := by
  unfold CausalityDb.addInteraction at hok
  simp only [bind_ok, require_ok, pure_ok] at hok
  obtain ⟨_, -, _, hsource, _, htarget, _, hapart, _, hnatural, rfl⟩ := hok
  obtain ⟨hon, hon'⟩ := h.planned i ⟨call, hcall⟩
  refine h.of_sub clear_sub le_rfl rfl rfl (fun f hf => .inl hf) (fun a ha => .inl ha) ?_ ?_ ?_ ?_
  · intro j hj
    cases List.mem_append.mp hj with
    | inl hold => exact h.edges j hold
    | inr hnew =>
        rw [List.mem_singleton.mp hnew]
        exact ⟨hapart, OnEvent.standing hon hsource, OnEvent.standing hon' htarget⟩
  · exact h.naturalEdges.append_single hnatural
  · exact h.confident
  · exact h.naturalAttributions

theorem Inv.writeFactor (h : w.Inv) {call : Nat} {updated : SheloFactor} {expected : Int}
    {db : CausalityDb} (hcall : w.pending call = some (.updateFactor updated expected))
    (hok : w.db.writeFactor updated expected = .ok db) :
    (⟨db, Slots.clear w.pending call⟩ : World).Inv := by
  unfold CausalityDb.writeFactor at hok
  simp only [bind_ok, fromOption_ok, require_ok, pure_ok] at hok
  obtain ⟨-, -, _, -, rfl⟩ := hok
  have hupdated : updated ∈ w.factorRows := .inr ⟨call, expected, hcall⟩
  refine h.of_sub clear_sub le_rfl rfl rfl ?_ ?_ ?_ ?_ ?_ ?_
  · intro f hf
    obtain ⟨old, hold, hf⟩ := mem_updateWhere.mp hf
    split at hf
    · rw [← hf]
      exact hupdated
    · rw [← hf]
      exact .inl hold
  · exact fun a ha => .inl ha
  · intro i hi
    apply EdgeSound_mono (h.edges i hi)
    intro f hf _
    refine ⟨_, mem_updateWhere.mpr ⟨f, hf, rfl⟩, ?_⟩
    -- The row that is replaced has the identity of the new one, and so its event.
    by_cases hrow : f.id = updated.id ∧ (f.version : Int) = expected
    · rw [if_pos (decide_eq_true hrow)]
      exact ⟨hrow.1.symm, h.factors.agree updated hupdated f (.inl hf) hrow.1.symm⟩
    · rw [if_neg (by simpa using hrow)]
      exact ⟨rfl, rfl⟩
  · exact h.naturalEdges
  · exact h.confident
  · exact h.naturalAttributions

theorem Inv.addAttribution (h : w.Inv) {call : Nat} {a : EventHfacsAttribution} {clock : Nat → Time}
    {db : CausalityDb} (hcall : w.pending call = some (.addAttribution a))
    (hok : w.db.addAttribution a clock = .ok db) :
    (⟨db, Slots.clear w.pending call⟩ : World).Inv := by
  unfold CausalityDb.addAttribution at hok
  simp only [bind_ok, require_ok, pure_ok] at hok
  obtain ⟨_, -, _, hconfident, _, hnatural, rfl⟩ := hok
  refine h.of_sub clear_sub le_rfl rfl rfl (fun f hf => .inl hf) ?_ ?_ ?_ ?_ ?_
  · intro b hb
    cases List.mem_append.mp hb with
    | inl hold => exact .inl hold
    | inr hnew =>
        rw [List.mem_singleton.mp hnew]
        exact .inr (.inl ⟨call, hcall⟩)
  · exact h.edges
  · exact h.naturalEdges
  · intro b hb
    cases List.mem_append.mp hb with
    | inl hold => exact h.confident b hold
    | inr hnew =>
        rw [List.mem_singleton.mp hnew]
        exact hconfident
  · exact h.naturalAttributions.append_single hnatural

theorem Inv.writeAttribution (h : w.Inv) {call : Nat} {updated : EventHfacsAttribution}
    {expected : Int} {db : CausalityDb}
    (hcall : w.pending call = some (.updateAttribution updated expected))
    (hok : w.db.writeAttribution updated expected = .ok db) :
    (⟨db, Slots.clear w.pending call⟩ : World).Inv := by
  unfold CausalityDb.writeAttribution at hok
  simp only [bind_ok, fromOption_ok, require_ok, pure_ok] at hok
  obtain ⟨-, -, _, hconfident, rfl⟩ := hok
  have hupdated : updated ∈ w.attributionRows := .inr (.inr ⟨call, expected, hcall⟩)
  refine h.of_sub clear_sub le_rfl rfl rfl (fun f hf => .inl hf) ?_ ?_ ?_ ?_ ?_
  · intro a ha
    obtain ⟨old, hold, ha⟩ := mem_updateWhere.mp ha
    split at ha
    · rw [← ha]
      exact hupdated
    · rw [← ha]
      exact .inl hold
  · exact h.edges
  · exact h.naturalEdges
  · intro a ha
    obtain ⟨old, hold, ha⟩ := mem_updateWhere.mp ha
    split at ha
    · rw [← ha]
      exact hconfident
    · rw [← ha]
      exact h.confident old hold
  · unfold Rows.Unique
    rw [map_updateWhere_of_mem]
    · exact h.naturalAttributions
    · intro a ha hrow
      exact h.attributions.agree updated hupdated a (.inl ha) (of_decide_eq_true hrow).1.symm

theorem Inv.write (h : w.Inv) {call : Nat} {intent : CausalityDb.Intent} {clock : Nat → Time}
    {db : CausalityDb} (hcall : w.pending call = some intent) (hok : w.db.write clock intent = .ok db) :
    (⟨db, Slots.clear w.pending call⟩ : World).Inv := by
  cases intent with
  | addInteraction i => exact h.addInteraction hcall hok
  | updateFactor updated expected => exact h.writeFactor hcall hok
  | addAttribution a => exact h.addAttribution hcall hok
  | updateAttribution updated expected => exact h.writeAttribution hcall hok

theorem Inv.read (h : w.Inv) {request : CausalityDb.Request} {now : Time}
    {intent : CausalityDb.Intent} {db : CausalityDb} (hok : w.db.read now request = .ok (intent, db))
    (call : Nat) : (⟨db, Slots.put w.pending call intent⟩ : World).Inv := by
  cases request with
  | attachInteraction input => exact h.readInteraction hok call
  | updateFactor input => exact h.readFactorUpdate hok call
  | attachAttribution input => exact h.readAttribution hok call
  | updateAttribution input => exact h.readAttributionUpdate hok call

theorem Inv.deleteSheloFactor (h : w.Inv) (factorId : Uuid) :
    (⟨w.db.deleteSheloFactor factorId, w.pending⟩ : World).Inv := by
  refine h.of_sub (fun t _ ht => ⟨t, ht⟩) le_rfl rfl rfl ?_ (fun a ha => .inl ha) ?_ ?_ h.confident
    h.naturalAttributions
  · intro f hf
    exact .inl (List.mem_filter.mp hf).1
  · intro i hi
    obtain ⟨hmem, hends⟩ := List.mem_filter.mp hi
    obtain ⟨hsource, htarget⟩ := of_decide_eq_true hends
    apply EdgeSound_mono (h.edges i hmem)
    intro f hf hend
    refine ⟨f, List.mem_filter.mpr ⟨hf, ?_⟩, rfl, rfl⟩
    cases hend with
    | inl heq => exact decide_eq_true (heq ▸ hsource)
    | inr heq => exact decide_eq_true (heq ▸ htarget)
  · exact h.naturalEdges.sublist (List.filter_sublist.map _)

/-! ### What a step can do -/

theorem step_attachSheloFactor (w : World) (input : CausalityDb.AttachSheloFactorInput) (now : Time) :
    w.step (.attachSheloFactor input now) = w ∨ ∃ factor db,
      w.db.attachSheloFactor input now = .ok (factor, db) ∧
        w.step (.attachSheloFactor input now) = ⟨db, w.pending⟩ := by
  cases hok : w.db.attachSheloFactor input now with
  | error e => exact .inl (by simp [World.step, hok, orElse, Except.map])
  | ok r => exact .inr ⟨r.1, r.2, rfl, by simp [World.step, hok, orElse, Except.map]⟩

theorem step_read (w : World) (call : Nat) (request : CausalityDb.Request) (now : Time) :
    w.step (.read call request now) = w ∨ ∃ intent db, w.db.read now request = .ok (intent, db) ∧
      w.step (.read call request now) = ⟨db, Slots.put w.pending call intent⟩ := by
  cases hcall : w.pending call with
  | some intent => exact .inl (by simp [World.step, hcall])
  | none =>
      cases hok : w.db.read now request with
      | error e => exact .inl (by simp [World.step, hcall, hok])
      | ok r => exact .inr ⟨r.1, r.2, rfl, by simp [World.step, hcall, hok]⟩

theorem step_write (w : World) (call : Nat) (clock : Nat → Time) :
    w.step (.write call clock) = w ∨ ∃ intent, w.pending call = some intent ∧
      (w.step (.write call clock) = ⟨w.db, Slots.clear w.pending call⟩ ∨
        ∃ db, w.db.write clock intent = .ok db ∧
          w.step (.write call clock) = ⟨db, Slots.clear w.pending call⟩) := by
  cases hcall : w.pending call with
  | none => exact .inl (by simp [World.step, hcall])
  | some intent =>
      refine .inr ⟨intent, rfl, ?_⟩
      cases hok : w.db.write clock intent with
      | error e => exact .inl (by simp [World.step, hcall, hok, orElse])
      | ok db => exact .inr ⟨db, rfl, by simp [World.step, hcall, hok, orElse]⟩

theorem Inv.step (h : w.Inv) (act : Act) : (w.step act).Inv := by
  have hself : ∀ t x, w.pending t = some x → ∃ t, w.pending t = some x := fun t _ ht => ⟨t, ht⟩
  cases act with
  | attachSheloFactor input now =>
      rcases w.step_attachSheloFactor input now with hsame | ⟨factor, db, hok, hstep⟩
      · rw [hsame]
        exact h
      · rw [hstep]
        exact h.attachSheloFactor hok
  | deleteSheloFactor factorId => exact h.deleteSheloFactor factorId
  | deleteSheloInteraction interactionId =>
      refine h.of_sub hself le_rfl rfl rfl (fun f hf => .inl hf) (fun a ha => .inl ha) ?_ ?_ h.confident
        h.naturalAttributions
      · intro i hi
        exact h.edges i (List.mem_filter.mp hi).1
      · exact h.naturalEdges.sublist (List.filter_sublist.map _)
  | deleteEventHfacsAttribution attributionId =>
      refine h.of_sub hself le_rfl rfl rfl (fun f hf => .inl hf) ?_ h.edges h.naturalEdges ?_ ?_
      · intro a ha
        exact .inl (List.mem_filter.mp ha).1
      · intro a ha
        exact h.confident a (List.mem_filter.mp ha).1
      · exact h.naturalAttributions.sublist (List.filter_sublist.map _)
  | setPages pages => exact h.of_same hself rfl rfl rfl rfl rfl rfl
  | read call request now =>
      rcases w.step_read call request now with hsame | ⟨intent, db, hok, hstep⟩
      · rw [hsame]
        exact h
      · rw [hstep]
        exact h.read hok call
  | write call clock =>
      rcases w.step_write call clock with hsame | ⟨intent, hcall, hstep | ⟨db, hok, hstep⟩⟩
      · rw [hsame]
        exact h
      · rw [hstep]
        exact h.of_same clear_sub rfl rfl rfl rfl rfl rfl
      · rw [hstep]
        exact h.write hcall hok
  | abort call => exact h.of_same clear_sub rfl rfl rfl rfl rfl rfl

/-- **Findings hang together.**  Whatever requests come in between the reads and the write of a
call: the two ends of every edge are different factors of the edge's event, every
attribution is to a category of the taxonomy, and to a subcategory of that category if to
any, with a confidence in the unit interval, and no two edges or attributions of an event
say the same. -/
theorem findings_sound (events : List Uuid) (categories : List HfacsCategory)
    (subcategories : List HfacsSubcategory) (acts : List Act) :
    let db := (Runs.run step (start events categories subcategories) acts).db
    (∀ i ∈ db.interactions, EdgeSound db.factors i) ∧
      (∀ a ∈ db.attributions, Placed db.categories db.subcategories a ∧
        0 ≤ a.confidence ∧ a.confidence ≤ 1) ∧
      Rows.Unique SheloFactorInteraction.naturalKey db.interactions ∧
      Rows.Unique EventHfacsAttribution.naturalKey db.attributions := by
  intro db
  have hinv : (Runs.run step (start events categories subcategories) acts).Inv :=
    Runs.invariant (I := World.Inv) (fun w act h => h.step act)
      (inv_start events categories subcategories) acts
  refine ⟨hinv.edges, ?_, hinv.naturalEdges, hinv.naturalAttributions⟩
  intro a ha
  exact ⟨hinv.placed a (.inl ha), hinv.confident a ha⟩

/-! ### What a public read can see -/

end World

/-- The event of the finding a call is about to write. -/
def CausalityDb.Intent.eventId : CausalityDb.Intent → Uuid
  | .addInteraction i => i.eventId
  | .updateFactor f _ => f.eventId
  | .addAttribution a => a.eventId
  | .updateAttribution a _ => a.eventId

namespace World

variable {w : World}

/-- The events whose findings an act may change. -/
def touches (w : World) : Act → Set Uuid
  | .attachSheloFactor input _ => {input.eventId}
  | .deleteSheloFactor factorId => {e | ∃ f ∈ w.db.factors, f.id = factorId ∧ f.eventId = e}
  | .deleteSheloInteraction interactionId =>
      {e | ∃ i ∈ w.db.interactions, i.id = interactionId ∧ i.eventId = e}
  | .deleteEventHfacsAttribution attributionId =>
      {e | ∃ a ∈ w.db.attributions, a.id = attributionId ∧ a.eventId = e}
  | .write call _ =>
      {e | ∃ intent, w.pending call = some intent ∧ intent.eventId = e}
  | .setPages _ | .read .. | .abort _ => ∅

/-- The page of the slug stays, and what is changed is not on the event it makes public. -/
def Elsewhere (slug : String) (w : World) (act : Act) : Prop :=
  (∀ pages, act = .setPages pages →
    lookup PublicEventPage.slug slug pages = lookup PublicEventPage.slug slug w.db.pages) ∧
  ∀ e ∈ w.touches act, w.db.requirePublishedEventForSlug slug ≠ .ok e

/-- The rows of an event. -/
structure SameRows (e : Uuid) (db db' : CausalityDb) : Prop where
  factors : (db'.factors.filter fun f => decide (f.eventId = e)) =
    db.factors.filter fun f => decide (f.eventId = e)
  interactions : (db'.interactions.filter fun i => decide (i.eventId = e)) =
    db.interactions.filter fun i => decide (i.eventId = e)
  attributions : (db'.attributions.filter fun a => decide (a.eventId = e)) =
    db.attributions.filter fun a => decide (a.eventId = e)

/-- All that the public reads of a slug depend on. -/
structure SameAt (slug : String) (db db' : CausalityDb) : Prop where
  page : lookup PublicEventPage.slug slug db'.pages = lookup PublicEventPage.slug slug db.pages
  categories : db'.categories = db.categories
  subcategories : db'.subcategories = db.subcategories
  rows : ∀ e, db.requirePublishedEventForSlug slug = .ok e → SameRows e db db'

/-- A call that reads takes an id at most. -/
theorem read_db {s db : CausalityDb} {now : Time} {request : CausalityDb.Request}
    {intent : CausalityDb.Intent} (hok : s.read now request = .ok (intent, db)) :
    db = s ∨ db = { s with nextId := s.nextId + 1 } := by
  cases request with
  | attachInteraction input =>
      unfold CausalityDb.read CausalityDb.readInteraction CausalityDb.uuid4 at hok
      simp only [bind_ok, pure_ok, Prod.mk.injEq] at hok
      obtain ⟨_, -, _, -, _, -, _, -, -, rfl⟩ := hok
      exact .inr rfl
  | updateFactor input =>
      unfold CausalityDb.read CausalityDb.readFactorUpdate at hok
      simp only [bind_ok, pure_ok, Prod.mk.injEq] at hok
      obtain ⟨_, -, -, rfl⟩ := hok
      exact .inl rfl
  | attachAttribution input =>
      unfold CausalityDb.read CausalityDb.readAttribution CausalityDb.uuid4 at hok
      simp only [bind_ok, pure_ok, Prod.mk.injEq] at hok
      obtain ⟨_, -, _, -, _, -, _, -, -, rfl⟩ := hok
      exact .inr rfl
  | updateAttribution input =>
      unfold CausalityDb.read CausalityDb.readAttributionUpdate at hok
      simp only [bind_ok, pure_ok, Prod.mk.injEq] at hok
      obtain ⟨_, -, -, rfl⟩ := hok
      exact .inl rfl

/-- A factor that goes takes edges of its own event along. -/
theorem Inv.deleteSheloFactor_rows (h : w.Inv) {factorId e : Uuid}
    (he : e ∉ w.touches (.deleteSheloFactor factorId)) :
    SameRows e w.db (w.db.deleteSheloFactor factorId) := by
  have hnone : ∀ f ∈ w.db.factors, f.id = factorId → f.eventId ≠ e :=
    fun f hf hid heq => he ⟨f, hf, hid, heq⟩
  refine ⟨?_, ?_, rfl⟩
  · apply filter_filter_of_none
    intro f hf hgone
    have hid : f.id = factorId := by simpa using hgone
    exact decide_eq_false (hnone f hf hid)
  · apply filter_filter_of_none
    intro i hi hgone
    have hend : i.sourceFactorId = factorId ∨ i.targetFactorId = factorId := by
      by_contra hnot
      rw [not_or] at hnot
      exact absurd (decide_eq_true hnot) (by rw [hgone]; decide)
    obtain ⟨-, ⟨f, hf, hfid, hfe⟩, ⟨g, hg, hgid, hge⟩⟩ := h.edges i hi
    apply decide_eq_false
    cases hend with
    | inl hsource =>
        rw [← hfe]
        exact hnone f hf (hfid.trans hsource)
    | inr htarget =>
        rw [← hge]
        exact hnone g hg (hgid.trans htarget)

/-- What a call writes is on the event it names. -/
theorem Inv.write_rows (h : w.Inv) {call : Nat} {intent : CausalityDb.Intent} {clock : Nat → Time}
    {db : CausalityDb} (hcall : w.pending call = some intent) (hok : w.db.write clock intent = .ok db)
    {e : Uuid} (he : e ∉ w.touches (.write call clock)) : SameRows e w.db db := by
  have hne : intent.eventId ≠ e := fun heq => he ⟨intent, hcall, heq⟩
  cases intent with
  | addInteraction i =>
      unfold CausalityDb.write CausalityDb.addInteraction at hok
      simp only [bind_ok, pure_ok] at hok
      obtain ⟨_, -, _, -, _, -, _, -, _, -, rfl⟩ := hok
      exact ⟨rfl, filter_append_single (decide_eq_false (hne)), rfl⟩
  | updateFactor updated expected =>
      unfold CausalityDb.write CausalityDb.writeFactor at hok
      simp only [bind_ok, pure_ok] at hok
      obtain ⟨_, -, _, -, rfl⟩ := hok
      refine ⟨filter_updateWhere ?_, rfl, rfl⟩
      intro f hf hrow
      have hsame := h.factors.agree updated (.inr ⟨call, expected, hcall⟩) f (.inl hf)
        (of_decide_eq_true hrow).1.symm
      exact ⟨decide_eq_false (hsame ▸ hne), decide_eq_false (hne)⟩
  | addAttribution a =>
      unfold CausalityDb.write CausalityDb.addAttribution at hok
      simp only [bind_ok, pure_ok] at hok
      obtain ⟨_, -, _, -, _, -, rfl⟩ := hok
      exact ⟨rfl, rfl, filter_append_single (decide_eq_false (hne))⟩
  | updateAttribution updated expected =>
      unfold CausalityDb.write CausalityDb.writeAttribution at hok
      simp only [bind_ok, pure_ok] at hok
      obtain ⟨_, -, _, -, rfl⟩ := hok
      refine ⟨rfl, rfl, filter_updateWhere ?_⟩
      intro a ha hrow
      have hkey := h.attributions.agree updated (.inr (.inr ⟨call, expected, hcall⟩)) a (.inl ha)
        (of_decide_eq_true hrow).1.symm
      have hsame : updated.eventId = a.eventId := congrArg Prod.fst hkey
      exact ⟨decide_eq_false (hsame ▸ hne), decide_eq_false (hne)⟩

/-- An act leaves the rows of the events alone that it does not touch. -/
theorem Inv.step_rows (h : w.Inv) {act : Act} {e : Uuid} (he : e ∉ w.touches act) :
    SameRows e w.db (w.step act).db := by
  cases act with
  | attachSheloFactor input now =>
      rcases w.step_attachSheloFactor input now with hsame | ⟨factor, db, hok, hstep⟩
      · rw [hsame]
        exact ⟨rfl, rfl, rfl⟩
      · rw [hstep]
        obtain ⟨-, hevent, rfl⟩ := attachSheloFactor_ok hok
        exact ⟨filter_append_single (decide_eq_false fun heq => he (heq.symm.trans hevent)), rfl, rfl⟩
  | deleteSheloFactor factorId => exact h.deleteSheloFactor_rows he
  | deleteSheloInteraction interactionId =>
      refine ⟨rfl, filter_filter_of_none ?_, rfl⟩
      intro i hi hgone
      have hid : i.id = interactionId := by simpa using hgone
      exact decide_eq_false fun heq => he ⟨i, hi, hid, heq⟩
  | deleteEventHfacsAttribution attributionId =>
      refine ⟨rfl, rfl, filter_filter_of_none ?_⟩
      intro a ha hgone
      have hid : a.id = attributionId := by simpa using hgone
      exact decide_eq_false fun heq => he ⟨a, ha, hid, heq⟩
  | setPages pages => exact ⟨rfl, rfl, rfl⟩
  | read call request now =>
      rcases w.step_read call request now with hsame | ⟨intent, db, hok, hstep⟩
      · rw [hsame]
        exact ⟨rfl, rfl, rfl⟩
      · rw [hstep]
        cases read_db hok with
        | inl hdb =>
            rw [hdb]
            exact ⟨rfl, rfl, rfl⟩
        | inr hdb =>
            rw [hdb]
            exact ⟨rfl, rfl, rfl⟩
  | write call clock =>
      rcases w.step_write call clock with hsame | ⟨intent, hcall, hstep | ⟨db, hok, hstep⟩⟩
      · rw [hsame]
        exact ⟨rfl, rfl, rfl⟩
      · rw [hstep]
        exact ⟨rfl, rfl, rfl⟩
      · rw [hstep]
        exact h.write_rows hcall hok he
  | abort call => exact ⟨rfl, rfl, rfl⟩

theorem write_reference {s db : CausalityDb} {intent : CausalityDb.Intent} {clock : Nat → Time}
    (hok : s.write clock intent = .ok db) : db.categories = s.categories ∧
      db.subcategories = s.subcategories ∧ db.pages = s.pages := by
  cases intent with
  | addInteraction i =>
      unfold CausalityDb.write CausalityDb.addInteraction at hok
      simp only [bind_ok, pure_ok] at hok
      obtain ⟨_, -, _, -, _, -, _, -, _, -, rfl⟩ := hok
      exact ⟨rfl, rfl, rfl⟩
  | updateFactor updated expected =>
      unfold CausalityDb.write CausalityDb.writeFactor at hok
      simp only [bind_ok, pure_ok] at hok
      obtain ⟨_, -, _, -, rfl⟩ := hok
      exact ⟨rfl, rfl, rfl⟩
  | addAttribution a =>
      unfold CausalityDb.write CausalityDb.addAttribution at hok
      simp only [bind_ok, pure_ok] at hok
      obtain ⟨_, -, _, -, _, -, rfl⟩ := hok
      exact ⟨rfl, rfl, rfl⟩
  | updateAttribution updated expected =>
      unfold CausalityDb.write CausalityDb.writeAttribution at hok
      simp only [bind_ok, pure_ok] at hok
      obtain ⟨_, -, _, -, rfl⟩ := hok
      exact ⟨rfl, rfl, rfl⟩

/-- No act changes the taxonomy, and only `setPages` the pages. -/
theorem step_reference (w : World) (act : Act) :
    (w.step act).db.categories = w.db.categories ∧
      (w.step act).db.subcategories = w.db.subcategories ∧
      ((w.step act).db.pages = w.db.pages ∨
        ∃ pages, act = .setPages pages ∧ (w.step act).db.pages = pages) := by
  cases act with
  | attachSheloFactor input now =>
      rcases w.step_attachSheloFactor input now with hsame | ⟨factor, db, hok, hstep⟩
      · rw [hsame]
        exact ⟨rfl, rfl, .inl rfl⟩
      · rw [hstep]
        obtain ⟨-, -, rfl⟩ := attachSheloFactor_ok hok
        exact ⟨rfl, rfl, .inl rfl⟩
  | deleteSheloFactor factorId => exact ⟨rfl, rfl, .inl rfl⟩
  | deleteSheloInteraction interactionId => exact ⟨rfl, rfl, .inl rfl⟩
  | deleteEventHfacsAttribution attributionId => exact ⟨rfl, rfl, .inl rfl⟩
  | setPages pages => exact ⟨rfl, rfl, .inr ⟨pages, rfl, rfl⟩⟩
  | read call request now =>
      rcases w.step_read call request now with hsame | ⟨intent, db, hok, hstep⟩
      · rw [hsame]
        exact ⟨rfl, rfl, .inl rfl⟩
      · rw [hstep]
        cases read_db hok with
        | inl hdb => exact ⟨by rw [hdb], by rw [hdb], .inl (by rw [hdb])⟩
        | inr hdb => exact ⟨by rw [hdb], by rw [hdb], .inl (by rw [hdb])⟩
  | write call clock =>
      rcases w.step_write call clock with hsame | ⟨intent, hcall, hstep | ⟨db, hok, hstep⟩⟩
      · rw [hsame]
        exact ⟨rfl, rfl, .inl rfl⟩
      · rw [hstep]
        exact ⟨rfl, rfl, .inl rfl⟩
      · rw [hstep]
        obtain ⟨hcategories, hsubcategories, hpages⟩ := write_reference hok
        exact ⟨hcategories, hsubcategories, .inl hpages⟩
  | abort call => exact ⟨rfl, rfl, .inl rfl⟩

variable {slug : String} {db db' db'' : CausalityDb}

theorem SameAt.gate (h : SameAt slug db db') :
    db'.requirePublishedEventForSlug slug = db.requirePublishedEventForSlug slug := by
  unfold CausalityDb.requirePublishedEventForSlug
  rw [h.page]

theorem SameAt.trans (h : SameAt slug db db') (h' : SameAt slug db' db'') : SameAt slug db db'' := by
  refine ⟨h'.page.trans h.page, h'.categories.trans h.categories,
    h'.subcategories.trans h.subcategories, ?_⟩
  intro e he
  obtain ⟨hfactors, hinteractions, hattributions⟩ := h.rows e he
  obtain ⟨hfactors', hinteractions', hattributions'⟩ := h'.rows e (h.gate.trans he)
  exact ⟨hfactors'.trans hfactors, hinteractions'.trans hinteractions,
    hattributions'.trans hattributions⟩

theorem Inv.step_sameAt (h : w.Inv) {act : Act} (hact : Elsewhere slug w act) :
    SameAt slug w.db (w.step act).db := by
  obtain ⟨hcategories, hsubcategories, hpages⟩ := step_reference w act
  refine ⟨?_, hcategories, hsubcategories, ?_⟩
  · cases hpages with
    | inl hkept => rw [hkept]
    | inr hset =>
        obtain ⟨pages, hset, heq⟩ := hset
        rw [heq]
        exact hact.1 pages hset
  · intro e he
    exact h.step_rows fun htouched => hact.2 e htouched he

theorem SameAt.getEventShelo (h : SameAt slug db db') :
    db'.getEventShelo slug = db.getEventShelo slug := by
  unfold CausalityDb.getEventShelo
  rw [h.gate]
  cases hgate : db.requirePublishedEventForSlug slug with
  | error e => rfl
  | ok eventId =>
      obtain ⟨hfactors, hinteractions, -⟩ := h.rows eventId hgate
      simp only [ok_bind, CausalityDb.factorsForEvent, CausalityDb.interactionsForEvent, hfactors,
        hinteractions]

theorem SameAt.getEventHfacs (h : SameAt slug db db') :
    db'.getEventHfacs slug = db.getEventHfacs slug := by
  unfold CausalityDb.getEventHfacs
  rw [h.gate]
  cases hgate : db.requirePublishedEventForSlug slug with
  | error e => rfl
  | ok eventId =>
      have hhydrate : db'.hydrate = db.hydrate := by
        funext a
        unfold CausalityDb.hydrate
        rw [h.categories, h.subcategories]
      simp only [ok_bind, CausalityDb.attributionsForEvent, (h.rows eventId hgate).attributions,
        h.categories, hhydrate]

/-- **Work elsewhere is invisible.**  As long as what is done is not on the event that the
page of a slug makes public, both public reads of the slug give what they gave, whatever is
begun, written, deleted or given up in between: findings on an event that is not public
show nowhere. -/
theorem work_elsewhere_invisible (events : List Uuid) (categories : List HfacsCategory)
    (subcategories : List HfacsSubcategory) (acts acts' : List Act)
    (helsewhere : Runs.EveryStep step (Elsewhere slug)
      (Runs.run step (start events categories subcategories) acts) acts') :
    let before := (Runs.run step (start events categories subcategories) acts).db
    let after := (Runs.run step (start events categories subcategories) (acts ++ acts')).db
    after.getEventShelo slug = before.getEventShelo slug ∧
      after.getEventHfacs slug = before.getEventHfacs slug := by
  intro before after
  have hinv : (Runs.run step (start events categories subcategories) acts).Inv :=
    Runs.invariant (I := World.Inv) (fun w act h => h.step act)
      (inv_start events categories subcategories) acts
  have hsame : (Runs.run step (Runs.run step (start events categories subcategories) acts) acts').Inv ∧
      SameAt slug before
        (Runs.run step (Runs.run step (start events categories subcategories) acts) acts').db := by
    refine Runs.invariant_of_everyStep (P := fun w => w.Inv ∧ SameAt slug before w.db) ?_
      ⟨hinv, rfl, rfl, rfl, fun _ _ => ⟨rfl, rfl, rfl⟩⟩ helsewhere
    intro w act h hact
    exact ⟨h.1.step act, h.2.trans (h.1.step_sameAt hact)⟩
  rw [← Runs.run_append] at hsame
  exact ⟨hsame.2.getEventShelo, hsame.2.getEventHfacs⟩

def publishedPage : PublicEventPage :=
  { id := 1, eventId := 1, slug := "a", title := "Report", shortSummary := none,
    narrativeMarkdown := none, status := .published, version := 4, firstPublishedAt := some 0,
    lastPublishedAt := some 0, retractedAt := none, retractionNote := none, createdAt := 0,
    updatedAt := 0 }

/-- An event that is public, and work on another one. -/
def publicWork : List Act :=
  [.setPages [publishedPage], .attachSheloFactor ⟨1, .liveware, "Fatigue", none, 7⟩ 1]

def draftWork : List Act :=
  [.attachSheloFactor ⟨2, .hardware, "Seal", none, 7⟩ 2,
    .attachSheloFactor ⟨2, .environment, "Icing", none, 7⟩ 3,
    .read 0 (.attachInteraction ⟨2, 1, 2, .aggravated, none, 7⟩) 4,
    .write 0 fun _ => 5]

theorem elsewhere_of_gate {act : Act} {e : Uuid} (hgate : w.db.requirePublishedEventForSlug slug = .ok e)
    (hpages : ∀ pages, act ≠ .setPages pages) (he : e ∉ w.touches act) : Elsewhere slug w act := by
  refine ⟨fun pages h => absurd h (hpages pages), ?_⟩
  intro e' he' hgate'
  rw [hgate] at hgate'
  cases hgate'
  exact he he'

theorem work_elsewhere_invisible_draft :
    let before := (Runs.run step (start [1, 2] [] []) publicWork).db
    let after := (Runs.run step (start [1, 2] [] []) (publicWork ++ draftWork)).db
    after.interactions.length = 1 ∧ (before.getEventShelo "a").toOption.isSome ∧
      after.getEventShelo "a" = before.getEventShelo "a" ∧
      after.getEventHfacs "a" = before.getEventHfacs "a" := by
  refine ⟨by decide, by decide, ?_⟩
  apply work_elsewhere_invisible
  unfold draftWork
  simp only [Runs.EveryStep.cons]
  refine ⟨elsewhere_of_gate (e := 1) rfl (fun _ h => by cases h) ?_,
    elsewhere_of_gate (e := 1) rfl (fun _ h => by cases h) ?_,
    elsewhere_of_gate (e := 1) rfl (fun _ h => by cases h) ?_,
    elsewhere_of_gate (e := 1) rfl (fun _ h => by cases h) ?_, ?_⟩
  · intro h
    exact absurd (Set.mem_singleton_iff.mp h) (by decide)
  · intro h
    exact absurd (Set.mem_singleton_iff.mp h) (by decide)
  · exact fun h => h
  · intro h
    obtain ⟨intent, hcall, hevent⟩ := h
    rw [← Option.some.inj hcall] at hevent
    exact absurd hevent (by decide)
  · intro pre act post h
    simp at h

end World

end Causality

end Atlas
