import Atlas.Forest
import Atlas.IngestLaws
import Atlas.MatchingLaws
import Atlas.MergedMatches

/-!
# Two first reports of one accident

Ingestions resolve their events concurrently.  Each takes an advisory lock on its
normalised date and registration before it reads the index, and holds it until its
transaction ends; each statement sees what is committed when it runs.  Reports with
one date and registration therefore read, write and commit one after another: the
first creates the event and its row, and every later one finds that row with a score
no other row reaches.

The queries look one day back and one day ahead.  The first and the last day of the
calendar have no such neighbours, and the `OverflowError` is not caught: there no
report gets an event at all.
-/

namespace Atlas

open Rows Outcome IdentityStore

/-! ## Transactions -/

/-- How far the resolution of an ingestion without an event and without a continuity
link has come. -/
inductive ReportStage where
  | called
  | locked
  | datesRead (rows : List EventIdentityIndex)
  | candidatesRead (rows : List EventIdentityIndex)
  /-- Resolved; nobody else sees the writes yet. -/
  | resolved (decision : Db.MatchDecision) (eventId : Uuid) (created : Bool)
  | committed (eventId : Uuid) (created : Bool)
  | failed (error : AtlasError)

namespace ReportStage

/-- The transaction has the advisory lock. -/
def HoldsLock : ReportStage → Prop
  | called => False
  | locked | datesRead _ | candidatesRead _ | resolved _ _ _ => True
  | committed _ _ => False
  | failed _ => False

def Finished : ReportStage → Prop
  | committed _ _ => True
  | failed _ => True
  | _ => False

/-- The stage after a statement that may raise. -/
def after {α : Type} (next : α → ReportStage) : Except AtlasError α → ReportStage
  | .ok a => next a
  | .error e => failed e

/-- The statements that are left. -/
def remaining : ReportStage → Nat
  | called => 5
  | locked => 4
  | datesRead _ => 3
  | candidatesRead _ => 2
  | resolved _ _ _ => 1
  | committed _ _ => 0
  | failed _ => 0

end ReportStage

/-- The committed store, and the ingestions on it. -/
structure ReportWorld (ι : Type) where
  store : IdentityStore
  stage : ι → ReportStage

namespace ReportWorld

variable {ι : Type} [DecidableEq ι]

def idle (store : IdentityStore) : ReportWorld ι := ⟨store, fun _ => .called⟩

def goTo (w : ReportWorld ι) (i : ι) (stage : ReportStage) : ReportWorld ι :=
  { w with stage := Function.update w.stage i stage }

variable [PyText] [PyRepr]

/-- The text whose hash is locked. -/
def lockKey (fields : ClaimFields) : Option PyDate × Text :=
  (eventDateOf fields, (registrationOf fields).getD [])

variable (hashtext : Option PyDate × Text → Int) (call : ι → Db.IngestCall)

/-- The identity fields of an ingestion. -/
def fieldsOf (i : ι) : ClaimFields := claimsDataFields (call i).claims

/-- One statement of an ingestion, or its commit.  The commit may change whatever
else the ingestion writes; of the event rows it only adds the new one. -/
inductive Step (w : ReportWorld ι) : ReportWorld ι → Prop where
  | lock {i : ι} (hstage : w.stage i = .called) (hdate : fieldsOf call i "event_date" ≠ .null)
      (hfree : ∀ j, j ≠ i → (w.stage j).HoldsLock →
        hashtext (lockKey (fieldsOf call j)) ≠ hashtext (lockKey (fieldsOf call i))) :
      Step w (w.goTo i .locked)
  | skipLock {i : ι} (hstage : w.stage i = .called) (hdate : fieldsOf call i "event_date" = .null) :
      Step w (w.goTo i (.candidatesRead []))
  | readDates {i : ι} (hstage : w.stage i = .locked) :
      Step w (w.goTo i (.after .datesRead (w.store.findCandidates (eventDateOf (fieldsOf call i)))))
  | readRegistration {i : ι} {rows : List EventIdentityIndex} (hstage : w.stage i = .datesRead rows) :
      Step w (w.goTo i (.after .candidatesRead (w.store.addByRegistration (fieldsOf call i) rows)))
  | resolve {i : ι} {rows : List EventIdentityIndex} {resolved : Db.ResolvedEvent}
      (hstage : w.stage i = .candidatesRead rows)
      (hresolve : w.store.resolveAmong (call i) rows = .ok resolved) :
      Step w ⟨⟨{ w.store.db with nextId := resolved.db.nextId }, w.store.index⟩,
        Function.update w.stage i (.resolved (withDecision (call i) rows).decision
          resolved.eventId resolved.eventCreated)⟩
  | resolveFails {i : ι} {rows : List EventIdentityIndex} {e : AtlasError}
      (hstage : w.stage i = .candidatesRead rows)
      (hresolve : w.store.resolveAmong (call i) rows = .error e) : Step w (w.goTo i (.failed e))
  | commit {i : ι} {decision : Db.MatchDecision} {eventId : Uuid} {created : Bool} {s' : Db}
      (hstage : w.stage i = .resolved decision eventId created)
      (hevents : s'.events = w.store.db.events ++ if created then [⟨eventId, none⟩] else [])
      (hnext : w.store.db.nextId ≤ s'.nextId) :
      Step w ⟨⟨s', recordIdentity w.store.index decision created (entryOf (call i) eventId)⟩,
        Function.update w.stage i (.committed eventId created)⟩

end ReportWorld

/-! ## Rows with the identity of a report -/

section Identity

variable [PyText] [PyRepr]

/-- The report has this date and this registration, once they are normalised. -/
structure Reports (call : Db.IngestCall) (d : PyDate) (reg : Text) : Prop where
  date : eventDateOf (claimsDataFields call.claims) = some d
  registration : registrationOf (claimsDataFields call.claims) = some reg
  nonempty : reg ≠ []

/-- The row has the date and the registration. -/
structure HasIdentity (d : PyDate) (reg : Text) (row : EventIdentityIndex) : Prop where
  date : row.eventDateNorm = some (some d)
  registration : row.registrationNorm = some reg

/-- The row lies within a day of the date. -/
def Near (d : PyDate) (row : EventIdentityIndex) : Prop :=
  ∃ r, row.eventDateNorm = some (some r) ∧ d.toOrdinal ≤ r.toOrdinal + 1 ∧
    r.toOrdinal ≤ d.toOrdinal + 1

omit [PyRepr] in
/-- The row has the registration as its primary one, or as an alias. -/
def HasRegistration (reg : Text) (row : EventIdentityIndex) : Prop :=
  (∃ c, row.registrationNorm = some c ∧ dropSeparators (normText (String.ofList c)) = reg) ∨
    reg ∈ row.registrationNorms

/-- No row of the index matches the date and the registration. -/
def NoMatchingRow (d : PyDate) (reg : Text) (index : List EventIdentityIndex) : Prop :=
  ∀ row ∈ index, Near d row → ¬ HasRegistration reg row

omit [PyText] [PyRepr] in
theorem HasIdentity.near {d : PyDate} {reg : Text} {row : EventIdentityIndex}
    (h : HasIdentity d reg row) : Near d row :=
  ⟨d, h.date, Nat.le_succ _, Nat.le_succ _⟩

variable [LawfulPyText]

namespace Reports

variable {call : Db.IngestCall} {d : PyDate} {reg : Text} {row : EventIdentityIndex}

theorem date_truthy (h : Reports call d reg) :
    (claimsDataFields call.claims "event_date").truthy = true := truthy_of_normDate h.date

theorem date_ne_null (h : Reports call d reg) : claimsDataFields call.claims "event_date" ≠ .null := by
  intro hnull
  have htruthy := h.date_truthy
  rw [hnull] at htruthy
  exact Bool.false_ne_true htruthy

omit [LawfulPyText] in
theorem norm_of_truthy {v : Json} (h : v.truthy = true) : norm v = normText (pyStr v) := by
  cases v with
  | null => exact absurd h Bool.false_ne_true
  | _ => rfl

omit [LawfulPyText] in
/-- The registration is the text of a value without its separators. -/
theorem registration_eq (h : Reports call d reg) :
    (claimsDataFields call.claims "registration").truthy = true ∧
      reg = dropSeparators (norm (claimsDataFields call.claims "registration")) ∧
      ∃ s, norm (claimsDataFields call.claims "registration") = normText s := by
  have hreg := h.registration
  unfold registrationOf at hreg
  split_ifs at hreg with htruthy
  rw [Option.some.injEq] at hreg
  exact ⟨htruthy, hreg.symm, _, norm_of_truthy htruthy⟩

theorem normal (h : Reports call d reg) : dropSeparators (normText (String.ofList reg)) = reg ∧
    normText (String.ofList reg) = reg ∧ normaliseRegistrationLookup reg = reg := by
  obtain ⟨-, hreg, s, hs⟩ := h.registration_eq
  rw [hs] at hreg
  subst hreg
  rw [normText_dropSeparators, dropSeparators_idem, normaliseRegistrationLookup_dropSeparators]
  exact ⟨rfl, rfl, rfl⟩

/-- The entry of a report has its identity. -/
theorem hasIdentity_entry (h : Reports call d reg) (e : Uuid) : HasIdentity d reg (entryOf call e) := by
  obtain ⟨htruthy, hreg, -⟩ := h.registration_eq
  refine ⟨?_, ?_⟩
  · change (if _ then some (eventDateOf _) else none) = _
    rw [if_pos h.date_truthy, h.date]
  · change normReg (claimsDataFields call.claims "registration") = some reg
    unfold normReg
    dsimp only
    rw [if_pos htruthy, ← hreg, if_neg h.nonempty]

theorem hasIdentity_updatedBy (h : Reports call d reg) (e : Uuid) (row : EventIdentityIndex) :
    HasIdentity d reg (EventIdentityIndex.updatedBy (entryOf call e) row) := by
  have hentry := h.hasIdentity_entry e
  refine ⟨?_, ?_⟩
  · change (entryOf call e).eventDateNorm.or row.eventDateNorm = _
    rw [hentry.date, Option.some_or]
  · change (entryOf call e).registrationNorm.or row.registrationNorm = _
    rw [hentry.registration, Option.some_or]

/-- **A row with the identity of the report is above the threshold.** -/
theorem high (h : Reports call d reg) (hrow : HasIdentity d reg row) :
    highConfidence ≤ rowScore (claimsDataFields call.claims) row := by
  obtain ⟨htruthy, hreg, s, hs⟩ := h.registration_eq
  have hcandidate : row.fields.registration = some reg := by
    change row.registrationNorm.filter (· ≠ []) = some reg
    simp [hrow.registration, h.nonempty]
  have hdate : row.fields.eventDate = some d := by
    change row.eventDateNorm.join = some d
    rw [hrow.date]
    rfl
  apply high_scoreMatch
  · have hincoming : norm (claimsDataFields call.claims "registration") ≠ [] := by
      intro hnil
      rw [hnil] at hreg
      exact h.nonempty hreg
    rw [hcandidate]
    unfold registrationScore
    dsimp only
    rw [h.normal.2.1, if_neg (by simp [hincoming, h.nonempty]), ← hreg, if_pos]
    obtain ⟨hdrop, hnorm, -⟩ := h.normal
    rw [hnorm] at hdrop
    exact hdrop.symm
  · have hnorm : normDate (String.ofList (norm (claimsDataFields call.claims "event_date"))) = some d := by
      rw [norm_of_truthy h.date_truthy, normDate, normText_normText]
      exact h.date
    rw [hdate]
    unfold eventDateScore
    rw [hnorm]
    simp [dateScore]

omit [LawfulPyText] in
/-- A row without the registration is below it. -/
theorem low (h : Reports call d reg) (hrow : ¬ HasRegistration reg row) :
    rowScore (claimsDataFields call.claims) row < highConfidence := by
  obtain ⟨htruthy, hreg, -⟩ := h.registration_eq
  apply low_scoreMatch
  · change registrationScore _ (row.registrationNorm.filter (· ≠ [])) = 0
    unfold registrationScore
    split
    · rfl
    · next c hc =>
      obtain ⟨hc, -⟩ := Option.filter_eq_some_iff.mp hc
      dsimp only
      split_ifs with hempty heq
      · rfl
      · exact absurd (.inl ⟨c, hc, heq.symm.trans hreg.symm⟩) hrow
      · rfl
  · unfold matchesAlias
    rw [← hreg]
    have hnot : reg ∉ row.fields.registrationNorms := by
      intro hmem
      exact hrow (.inr (List.mem_of_mem_filter hmem))
    simp [hnot]

end Reports

end Identity

/-! ## Candidates -/

/-- The candidates of a report: rows of the index near its date, one for each event. -/
structure Selected (index : List EventIdentityIndex) (d : PyDate) (rows : List EventIdentityIndex) :
    Prop where
  near : ∀ row ∈ rows, row ∈ index ∧ Near d row
  ids : (rows.map EventIdentityIndex.eventId).Nodup

section Select

variable {S : IdentityStore} {d : PyDate} {cond : EventIdentityIndex → Bool} {limit : Nat}
  {tieBreak : EventIdentityIndex → EventIdentityIndex → Bool}

theorem dateBetween_iff {lo hi : Nat} (hround : d.around = .ok (lo, hi)) {row : EventIdentityIndex} :
    dateBetween lo hi row = true ↔ Near d row := by
  unfold PyDate.around at hround
  split_ifs at hround with hedge
  rw [Except.ok.injEq, Prod.mk.injEq] at hround
  obtain ⟨rfl, rfl⟩ := hround
  unfold dateBetween Near
  split
  · next r hr =>
    simp only [hr, decide_eq_true_eq, Option.some.injEq]
    constructor
    · rintro ⟨hlo, hhi⟩
      exact ⟨r, rfl, by omega, hhi⟩
    · rintro ⟨r, rfl, hlo, hhi⟩
      exact ⟨by omega, hhi⟩
  · next hno =>
    constructor
    · exact fun h => absurd h Bool.false_ne_true
    · rintro ⟨r, hr, -⟩
      exact absurd hr (hno r)

theorem mem_selectRows {row : EventIdentityIndex} (h : row ∈ S.selectRows cond limit tieBreak) :
    row ∈ S.index ∧ cond row = true := by
  have hmem := (List.mem_insertionSort _).mp (List.mem_of_mem_take h)
  obtain ⟨hindex, hcond⟩ := List.mem_filter.mp hmem
  rw [Bool.and_eq_true] at hcond
  exact ⟨hindex, hcond.2⟩

theorem nodup_selectRows (hids : (S.index.map EventIdentityIndex.eventId).Nodup) :
    ((S.selectRows cond limit tieBreak).map EventIdentityIndex.eventId).Nodup := by
  refine List.Nodup.sublist ((List.take_sublist _ _).map EventIdentityIndex.eventId) ?_
  refine ((List.perm_insertionSort _ _).map EventIdentityIndex.eventId).nodup_iff.mpr ?_
  exact hids.sublist (List.filter_sublist.map EventIdentityIndex.eventId)

theorem selected_selectRows {lo hi : Nat} (hround : d.around = .ok (lo, hi))
    (hids : (S.index.map EventIdentityIndex.eventId).Nodup)
    (hcond : ∀ row, cond row = true → dateBetween lo hi row = true) :
    Selected S.index d (S.selectRows cond limit tieBreak) := by
  refine ⟨?_, nodup_selectRows hids⟩
  intro row hrow
  obtain ⟨hindex, hc⟩ := mem_selectRows hrow
  exact ⟨hindex, (dateBetween_iff hround).mp (hcond row hc)⟩

theorem mem_addUnseen {a b : List EventIdentityIndex} {row : EventIdentityIndex}
    (h : row ∈ addUnseen a b) : row ∈ a ∨ row ∈ b := by
  unfold addUnseen at h
  induction b generalizing a with
  | nil => exact .inl h
  | cons x b ih =>
      rw [List.foldl_cons] at h
      rcases ih h with hmem | hmem
      · split_ifs at hmem with hseen
        · exact .inl hmem
        · rcases List.mem_append.mp hmem with hmem | hmem
          · exact .inl hmem
          · rw [List.mem_singleton.mp hmem]
            exact .inr (by simp)
      · exact .inr (List.mem_cons_of_mem x hmem)

theorem addUnseen_ids {a b : List EventIdentityIndex}
    (ha : (a.map EventIdentityIndex.eventId).Nodup) :
    ((addUnseen a b).map EventIdentityIndex.eventId).Nodup ∧
      (∀ e ∈ a.map EventIdentityIndex.eventId, e ∈ (addUnseen a b).map EventIdentityIndex.eventId) ∧
      ∀ e ∈ b.map EventIdentityIndex.eventId, e ∈ (addUnseen a b).map EventIdentityIndex.eventId := by
  unfold addUnseen
  induction b generalizing a with
  | nil => exact ⟨ha, fun e he => he, by simp⟩
  | cons x b ih =>
      rw [List.foldl_cons]
      split_ifs with hseen
      · obtain ⟨hnodup, hleft, hright⟩ := ih ha
        refine ⟨hnodup, hleft, ?_⟩
        intro e he
        rcases List.mem_cons.mp he with rfl | he
        · exact hleft _ hseen
        · exact hright e he
      · have hext : ((a ++ [x]).map EventIdentityIndex.eventId).Nodup := by
          rw [List.map_append]
          exact List.Nodup.append ha (by simp) (by simpa using hseen)
        obtain ⟨hnodup, hleft, hright⟩ := ih hext
        refine ⟨hnodup, fun e he => hleft e (by rw [List.map_append]; exact List.mem_append_left _ he),
          ?_⟩
        intro e he
        rcases List.mem_cons.mp he with rfl | he
        · exact hleft _ (by simp)
        · exact hright e he

variable {index : List EventIdentityIndex} {row : EventIdentityIndex}

/-- A row of the index whose event is among the candidates is a candidate. -/
theorem Selected.mem_of_event {rows : List EventIdentityIndex} (h : Selected index d rows)
    (hids : (index.map EventIdentityIndex.eventId).Nodup) (hrow : row ∈ index)
    (hevent : row.eventId ∈ rows.map EventIdentityIndex.eventId) : row ∈ rows := by
  obtain ⟨other, hother, heq⟩ := List.mem_map.mp hevent
  have hsame : other = row :=
    List.inj_on_of_nodup_map hids (h.near other hother).1 hrow heq
  exact hsame ▸ hother

/-- A query that one row of the index meets returns that row. -/
theorem mem_selectRows_of_only (hids : (S.index.map EventIdentityIndex.eventId).Nodup)
    (hrow : row ∈ S.index) (hevent : (S.db.getEvent row.eventId).isSome = true)
    (hcond : cond row = true) (hnone : ∀ other ∈ S.index, other ≠ row → cond other = false)
    (hlimit : 0 < limit) : row ∈ S.selectRows cond limit tieBreak := by
  have hfilter : S.index.filter (fun r => (S.db.getEvent r.eventId).isSome && cond r) = [row] := by
    have hiff : ∀ r ∈ S.index, ((S.db.getEvent r.eventId).isSome && cond r) = decide (r = row) := by
      intro r hr
      by_cases heq : r = row
      · rw [heq, hevent, hcond]
        simp
      · rw [hnone r hr heq]
        simp [heq]
    rw [List.filter_congr hiff, List.filter_eq,
      List.count_eq_one_of_mem (List.Nodup.of_map _ hids) hrow]
    rfl
  unfold selectRows
  dsimp only
  rw [hfilter]
  obtain ⟨n, rfl⟩ := Nat.exists_eq_add_of_lt hlimit
  simp

end Select

/-- The row has the date and the registration, its event exists, and no other row near the
date carries the registration. -/
structure OnlyMatch [PyText] (S : IdentityStore) (d : PyDate) (reg : Text)
    (row : EventIdentityIndex) : Prop where
  mem : row ∈ S.index
  event : (S.db.getEvent row.eventId).isSome = true
  identity : HasIdentity d reg row
  only : ∀ other ∈ S.index, other ≠ row → Near d other → ¬ HasRegistration reg other

section Lookup

variable [PyText] [PyRepr] {S : IdentityStore} {call : Db.IngestCall} {d : PyDate} {reg : Text}
  {lo hi : Nat}

theorem Reports.findCandidates_ok (h : Reports call d reg) (hround : d.around = .ok (lo, hi))
    (hids : (S.index.map EventIdentityIndex.eventId).Nodup) :
    ∃ rows, S.findCandidates (eventDateOf (claimsDataFields call.claims)) = .ok rows ∧
      Selected S.index d rows := by
  refine ⟨S.selectRows (dateBetween lo hi) 50 fun _ _ => true, ?_,
    selected_selectRows hround hids fun _ hrow => hrow⟩
  rw [h.date, findCandidates]
  simp only [hround]
  rfl

/-- The lookup by registration finds the only row with the identity of the report. -/
theorem Reports.addByRegistration_ok [LawfulPyText] (h : Reports call d reg)
    (hround : d.around = .ok (lo, hi)) (hids : (S.index.map EventIdentityIndex.eventId).Nodup)
    {rows : List EventIdentityIndex} (hrows : Selected S.index d rows) :
    ∃ rows', S.addByRegistration (claimsDataFields call.claims) rows = .ok rows' ∧
      Selected S.index d rows' ∧ ∀ row, OnlyMatch S d reg row → row ∈ rows' := by
  obtain ⟨hself, -, hlookup⟩ := h.normal
  let cond : EventIdentityIndex → Bool :=
    fun row => carriesRegistration reg row && dateBetween lo hi row
  let byEventId : EventIdentityIndex → EventIdentityIndex → Bool := fun a b => a.eventId ≤ b.eventId
  have hfound : S.findByRegistration reg (some d) = .ok (S.selectRows cond 20 byEventId) := by
    unfold findByRegistration
    simp only [hlookup, hround]
    rfl
  have hok : S.addByRegistration (claimsDataFields call.claims) rows =
      .ok (addUnseen rows (S.selectRows cond 20 byEventId)) := by
    unfold addByRegistration
    simp only [h.registration, if_neg h.nonempty, h.date, hfound]
    rfl
  have hselected : Selected S.index d (S.selectRows cond 20 byEventId) := by
    refine selected_selectRows hround hids fun row hrow => ?_
    exact (Bool.and_eq_true_iff.mp hrow).2
  obtain ⟨hnodup, -, hright⟩ := addUnseen_ids (b := S.selectRows cond 20 byEventId) hrows.ids
  have hboth : Selected S.index d (addUnseen rows (S.selectRows cond 20 byEventId)) := by
    refine ⟨?_, hnodup⟩
    intro row hrow
    rcases mem_addUnseen hrow with hrow | hrow
    · exact hrows.near row hrow
    · exact hselected.near row hrow
  refine ⟨_, hok, hboth, ?_⟩
  intro row hmatch
  refine hboth.mem_of_event hids hmatch.mem (hright _ (List.mem_map_of_mem ?_))
  have hcond : cond row = true := by
    refine Bool.and_eq_true_iff.mpr ⟨?_, (dateBetween_iff hround).mpr hmatch.identity.near⟩
    simp [carriesRegistration, hmatch.identity.registration]
  have hnone : ∀ other ∈ S.index, other ≠ row → cond other = false := by
    intro other hother hne
    refine Bool.eq_false_of_not_eq_true fun hc => ?_
    obtain ⟨hcarries, hbetween⟩ := Bool.and_eq_true_iff.mp hc
    refine hmatch.only other hother hne ((dateBetween_iff hround).mp hbetween) ?_
    rcases of_decide_eq_true hcarries with hprimary | halias
    · exact .inl ⟨reg, hprimary, hself⟩
    · exact .inr halias
  exact mem_selectRows_of_only hids hmatch.mem hmatch.event hcond hnone (by norm_num)

end Lookup

/-! ## Resolving -/

namespace Db

/-- In a forest the walk never goes round in a circle. -/
theorem Forest.canonicalEventFor_ne_cycle {s : Db} (h : s.Forest) (id x : Uuid) :
    s.canonicalEventFor id ≠ .cycle x := by
  intro hcycle
  by_cases hid : ∃ e ∈ s.events, e.id = id
  · obtain ⟨e, he, rfl⟩ := hid
    obtain ⟨r, -, -, -, hwalk⟩ := h.walk he
    have hfound : s.canonicalEventFor e.id = .found r := hwalk _ (Nat.le_succ _)
    rw [hfound] at hcycle
    exact absurd hcycle (by simp)
  · have hnone : s.getEvent id = none := lookup_none.mpr fun e he heq => hid ⟨e, he, heq⟩
    simp [canonicalEventFor, canonicalLoop, hnone] at hcycle

/-- In a forest an event can be created, whatever the decision. -/
theorem Forest.createEvent {s : Db} (h : s.Forest) (hfresh : ∀ x ∈ s.events, x.id ≠ s.nextId)
    (call : IngestCall) : ∃ r, s.createEvent call = .ok r := by
  unfold Db.createEvent
  simp only [uuid4, addEvent]
  split
  · next candidates hdecision =>
    have hforest : Forest { s with
        nextId := s.nextId + 1, events := s.events ++ [⟨s.nextId, none⟩] } :=
      h.append hfresh rfl
    have hcandidates : ∃ ids, Db.reviewCandidates { s with
        nextId := s.nextId + 1, events := s.events ++ [⟨s.nextId, none⟩] } s.nextId
          call.maxDuplicateReviews candidates = .ok ids := by
      apply foldlM_total
      intro acc raw _
      split
      · next x hx => exact absurd hx (hforest.canonicalEventFor_ne_cycle raw x)
      · exact ⟨_, rfl⟩
      · exact ⟨_, rfl⟩
    obtain ⟨ids, hids⟩ := hcandidates
    exact ⟨_, bind_ok.mpr ⟨ids, hids, rfl⟩⟩
  · exact ⟨_, rfl⟩

end Db

section Decide

variable [PyText] [PyRepr] {incoming : ClaimFields} {rows : List EventIdentityIndex}

/-- Without a row at the threshold nothing is attached. -/
theorem EventMatcher.decide_of_low {m : EventMatcher} (hpos : 0 < m.high)
    (hlow : ∀ row ∈ rows, rowScore incoming row < m.high) (candidate : Uuid) :
    m.decide incoming rows ≠ .attach candidate := by
  have hbest := bestOf_foldl incoming rows
  have hbelow : (rows.foldl (considerCandidate incoming) (⟨0, [], none, false, []⟩, [])).1.score <
      m.high := by
    rcases hbest.nonneg.eq_or_lt with hzero | hscore
    · rw [← hzero]
      exact hpos
    · have htied := hbest.tied
      rw [if_pos hscore] at htied
      obtain ⟨e, he⟩ := List.exists_mem_of_ne_nil _ (hbest.listed hscore)
      rw [htied] at he
      obtain ⟨row, hrow, -⟩ := List.mem_map.mp he
      obtain ⟨hrow, hval⟩ := List.mem_filter.mp hrow
      rw [← of_decide_eq_true hval]
      exact hlow row hrow
  unfold EventMatcher.decide EventMatcher.bestMatch
  generalize rows.foldl (considerCandidate incoming) (⟨0, [], none, false, []⟩, []) = acc at *
  obtain ⟨best, tied⟩ := acc
  dsimp only at hbelow ⊢
  have hscore : (if 1 < tied.length ∧ m.uncertain ≤ best.score then
      { best with ambiguousTie := true, tiedCandidateEventIds := distinct tied }
        else best).score = best.score := by
    split_ifs <;> rfl
  rw [hscore, if_neg (fun h => absurd h.1 (not_le.mpr hbelow))]
  split_ifs <;> simp

/-- When one candidate reaches the threshold and the others do not, it is the
best one. -/
theorem topRows_eq_singleton {row : EventIdentityIndex} {high : ℚ} (hrow : row ∈ rows)
    (hids : (rows.map EventIdentityIndex.eventId).Nodup) (hhigh : high ≤ rowScore incoming row)
    (hlow : ∀ other ∈ rows, other ≠ row → rowScore incoming other < high) :
    row ∈ topRows incoming rows ∧ (topRows incoming rows).length = 1 := by
  have htop : row ∈ topRows incoming rows := by
    refine mem_topRows.mpr ⟨hrow, ?_⟩
    intro other hother
    by_cases heq : other = row
    · rw [heq]
    · exact (hlow other hother heq).le.trans hhigh
  have honly : ∀ other ∈ topRows incoming rows, other = row := by
    intro other hother
    obtain ⟨hmem, hbest⟩ := mem_topRows.mp hother
    by_contra hne
    exact absurd (hbest row hrow) (not_le.mpr ((hlow other hmem hne).trans_le hhigh))
  have hnodup : (topRows incoming rows).Nodup := hids.of_map.filter _
  refine ⟨htop, le_antisymm ?_ (List.length_pos_of_mem htop)⟩
  have hsub : topRows incoming rows ⊆ [row] := fun other hother => by
    rw [honly other hother]
    simp
  exact (hnodup.subperm hsub).length_le

end Decide

/-! ## One after another -/

/-- Reports of one date and registration, on a store whose index has no row that
matches them. -/
structure FirstReports [PyText] [PyRepr] {ι : Type} (call : ι → Db.IngestCall) (d : PyDate)
    (reg : Text) (S : IdentityStore) : Prop where
  reports : ∀ i, Reports (call i) d reg
  reviews : ∀ i, 0 < (call i).maxDuplicateReviews
  reachable : Reachable S.db
  /-- The event is the primary key of the index, and a foreign key. -/
  ids : (S.index.map EventIdentityIndex.eventId).Nodup
  events : ∀ row ∈ S.index, ∃ x ∈ S.db.events, x.id = row.eventId
  unmatched : NoMatchingRow d reg S.index

theorem FirstReports.forest [PyText] [PyRepr] {ι : Type} {call : ι → Db.IngestCall} {d : PyDate}
    {reg : Text} {S : IdentityStore} (h : FirstReports call d reg S) : S.db.Forest :=
  h.reachable.inv.forest

namespace ReportWorld

variable {ι : Type} [DecidableEq ι] [PyText] [PyRepr]

/-- What the store has become: as it was while nobody has committed, and with one
event and one row more after that. -/
def Shape (d : PyDate) (reg : Text) (S : IdentityStore) (known : Option Uuid) (S' : IdentityStore) :
    Prop :=
  match known with
  | none => S'.db.events = S.db.events ∧ S'.index = S.index
  | some e =>
      S'.db.events = S.db.events ++ [⟨e, none⟩] ∧ (∀ x ∈ S.db.events, x.id ≠ e) ∧
        ∃ row, S'.index = S.index ++ [row] ∧ row.eventId = e ∧ HasIdentity d reg row

/-- What an ingestion knows: it has read rows near its date, among them the one with
its identity; it creates the event when there is none, and is attached to it when
there is. -/
def StageOk (d : PyDate) (reg : Text) (S : IdentityStore) (known : Option Uuid)
    (index : List EventIdentityIndex) : ReportStage → Prop
  | .called => True
  | .locked => True
  | .datesRead rows => Selected index d rows
  | .candidatesRead rows =>
      Selected index d rows ∧ ∀ row ∈ index, HasIdentity d reg row → row ∈ rows
  | .resolved decision e created =>
      match known with
      | none => created = true ∧ (∀ x ∈ S.db.events, x.id ≠ e) ∧ ∀ c, decision ≠ .attach c
      | some e₀ => decision = .attach e₀ ∧ e = e₀ ∧ created = false
  | .committed e _ => known = some e
  | .failed _ => False

/-- **The invariant of first reports.** -/
structure Inv (d : PyDate) (reg : Text) (S : IdentityStore) (known : Option Uuid)
    (w : ReportWorld ι) : Prop where
  shape : Shape d reg S known w.store
  event_lt : ∀ x ∈ w.store.db.events, x.id < w.store.db.nextId
  pending_lt : ∀ i decision e created, w.stage i = .resolved decision e created →
    e < w.store.db.nextId
  exclusive : ∀ i j, (w.stage i).HoldsLock → (w.stage j).HoldsLock → i = j
  stages : ∀ i, StageOk d reg S known w.store.index (w.stage i)
  creator : ∀ e, known = some e → ∃ i, w.stage i = .committed e true ∧
    ∀ j e' created, j ≠ i → w.stage j = .committed e' created → created = false

variable {hashtext : Option PyDate × Text → Int} {call : ι → Db.IngestCall} {d : PyDate} {reg : Text}
  {S : IdentityStore} {known : Option Uuid} {w w' : ReportWorld ι}

omit [DecidableEq ι] in
theorem inv_idle (h : FirstReports call d reg S) : Inv d reg S none (idle S : ReportWorld ι) where
  shape := ⟨rfl, rfl⟩
  event_lt := h.reachable.inv.wf.event_lt
  pending_lt := fun _ _ _ _ hstage => nomatch hstage
  exclusive := fun _ _ hi => hi.elim
  stages := fun _ => trivial
  creator := by simp

omit [PyText] [PyRepr] in
/-- The ingestion that moves is not the one that has committed, and nobody else has
the lock it gets. -/
theorem Inv.move (h : Inv d reg S known w) {i : ι} {stage : ReportStage} {store : IdentityStore}
    (hindex : store.index = w.store.index) (hevents : store.db.events = w.store.db.events)
    (hnext : w.store.db.nextId ≤ store.db.nextId) (hrunning : ¬ (w.stage i).Finished)
    (hunfinished : ¬ stage.Finished)
    (hpending : ∀ decision e created, stage = .resolved decision e created → e < store.db.nextId)
    (halone : ∀ j, j ≠ i → ¬ (w.stage j).HoldsLock)
    (hstage : StageOk d reg S known w.store.index stage) :
    Inv d reg S known (⟨store, Function.update w.stage i stage⟩ : ReportWorld ι) where
  shape := by
    have hshape := h.shape
    unfold Shape at hshape ⊢
    cases known with
    | none => rwa [hindex, hevents]
    | some e => rwa [hindex, hevents]
  event_lt := by
    intro x hx
    rw [hevents] at hx
    exact (h.event_lt x hx).trans_le hnext
  pending_lt := by
    intro j decision e created hj
    change Function.update w.stage i stage j = _ at hj
    by_cases hji : j = i
    · subst hji
      rw [Function.update_self] at hj
      exact hpending decision e created hj
    · rw [Function.update_of_ne hji] at hj
      exact (h.pending_lt j decision e created hj).trans_le hnext
  exclusive := by
    intro j k hj hk
    have hself : ∀ j, (Function.update w.stage i stage j).HoldsLock → j = i := by
      intro j hj
      by_contra hne
      rw [Function.update_of_ne hne] at hj
      exact halone j hne hj
    rw [hself j hj, hself k hk]
  stages := by
    intro j
    dsimp only
    rw [hindex]
    by_cases hj : j = i
    · subst hj
      rw [Function.update_self]
      exact hstage
    · rw [Function.update_of_ne hj]
      exact h.stages j
  creator := by
    intro e he
    obtain ⟨c, hc, hothers⟩ := h.creator e he
    have hne : c ≠ i := by
      rintro rfl
      rw [hc] at hrunning
      exact hrunning trivial
    refine ⟨c, (Function.update_of_ne hne _ _).trans hc, ?_⟩
    intro j e' created hj hcommitted
    change Function.update w.stage i stage j = _ at hcommitted
    by_cases hji : j = i
    · subst hji
      rw [Function.update_self] at hcommitted
      rw [hcommitted] at hunfinished
      exact absurd trivial hunfinished
    · rw [Function.update_of_ne hji] at hcommitted
      exact hothers j e' created hj hcommitted

omit [DecidableEq ι] [PyText] [PyRepr] in
theorem Inv.alone (h : Inv d reg S known w) {i : ι} (hlock : (w.stage i).HoldsLock) :
    ∀ j, j ≠ i → ¬ (w.stage j).HoldsLock :=
  fun j hne hj => hne (h.exclusive j i hj hlock)

/-! ### What the index says -/

omit [DecidableEq ι] in
/-- The events of the index are distinct, whoever has committed. -/
theorem Shape.ids (h : FirstReports call d reg S) {S' : IdentityStore}
    (hshape : Shape d reg S known S') : (S'.index.map EventIdentityIndex.eventId).Nodup := by
  unfold Shape at hshape
  cases known with
  | none => rw [hshape.2]; exact h.ids
  | some e =>
      obtain ⟨-, hnew, row, hindex, hrow, -⟩ := hshape
      rw [hindex, List.map_append]
      refine List.Nodup.append h.ids (by simp) ?_
      intro x hx hmem
      obtain ⟨other, hother, rfl⟩ := List.mem_map.mp hx
      obtain ⟨event, hevent, heq⟩ := h.events other hother
      have hsame : other.eventId = e := by simpa [hrow] using hmem
      exact hnew event hevent (heq.trans hsame)

omit [DecidableEq ι] in
theorem Shape.forest (h : FirstReports call d reg S) {S' : IdentityStore}
    (hshape : Shape d reg S known S') : S'.db.Forest := by
  unfold Shape at hshape
  cases known with
  | none => exact h.forest.congr hshape.1
  | some e => exact h.forest.append hshape.2.1 hshape.1

section Index

variable [LawfulPyText] {S' : IdentityStore} {lo hi : Nat}

omit [DecidableEq ι] [LawfulPyText] in
/-- A row near the date has the identity of the reports, or is below the
threshold. -/
theorem Shape.low (h : FirstReports call d reg S) (hshape : Shape d reg S known S') {i : ι}
    {row : EventIdentityIndex} (hrow : row ∈ S'.index) (hnear : Near d row) :
    (∃ e, known = some e ∧ row.eventId = e ∧ HasIdentity d reg row) ∨
      rowScore (fieldsOf call i) row < highConfidence := by
  have hold : row ∈ S.index → rowScore (fieldsOf call i) row < highConfidence :=
    fun hmem => (h.reports i).low (h.unmatched row hmem hnear)
  unfold Shape at hshape
  cases known with
  | none => exact .inr (hold (hshape.2 ▸ hrow))
  | some e =>
      obtain ⟨-, -, last, hindex, hlast, hidentity⟩ := hshape
      rw [hindex] at hrow
      rcases List.mem_append.mp hrow with hrow | hrow
      · exact .inr (hold hrow)
      · rw [List.mem_singleton.mp hrow]
        exact .inl ⟨e, rfl, hlast, hidentity⟩

omit [DecidableEq ι] in
/-- The row with the identity of the reports is the only one with their registration. -/
theorem Shape.onlyMatch (h : FirstReports call d reg S) (hshape : Shape d reg S known S') (i : ι)
    {row : EventIdentityIndex} (hrow : row ∈ S'.index) (hidentity : HasIdentity d reg row) :
    OnlyMatch S' d reg row := by
  obtain ⟨hself, -, -⟩ := (h.reports i).normal
  have hregistration : HasRegistration reg row := .inl ⟨reg, hidentity.registration, hself⟩
  have hold : row ∉ S.index := fun hmem => h.unmatched row hmem hidentity.near hregistration
  unfold Shape at hshape
  cases known with
  | none => exact absurd (hshape.2 ▸ hrow) hold
  | some e =>
      obtain ⟨hevents, -, last, hindex, hlast, -⟩ := hshape
      have hsame : row = last := by
        rw [hindex] at hrow
        rcases List.mem_append.mp hrow with hrow | hrow
        · exact absurd hrow hold
        · exact List.mem_singleton.mp hrow
      refine ⟨hrow, ?_, hidentity, ?_⟩
      · rw [hsame, hlast]
        refine Option.isSome_iff_ne_none.mpr fun hnone => ?_
        have hmem : (⟨e, none⟩ : AccidentEvent) ∈ S'.db.events := by
          rw [hevents]
          simp
        exact lookup_none.mp hnone _ hmem rfl
      · intro other hother hne
        rw [hindex] at hother
        rcases List.mem_append.mp hother with hother | hother
        · exact h.unmatched other hother
        · exact absurd ((List.mem_singleton.mp hother).trans hsame.symm) hne

end Index

/-! ### Steps -/

omit [PyText] [PyRepr] in
/-- A decision that does not attach creates an event. -/
theorem resolveWithReviews_of_not_attach {s : Db} {c : Db.IngestCall} {r : Db.ResolvedEvent}
    (hmax : 0 < c.maxDuplicateReviews) (hdecision : ∀ candidate, c.decision ≠ .attach candidate)
    (hcreate : s.createEvent c = .ok r) : s.resolveWithReviews c = .ok r := by
  unfold Db.resolveWithReviews
  refine bind_ok.mpr ⟨(), require_ok.mpr hmax, ?_⟩
  split
  · next candidate hattach => exact absurd hattach (hdecision candidate)
  · exact hcreate

section Steps

variable [LawfulPyText]

omit [DecidableEq ι] in
/-- **What an ingestion resolves to**: a new event while there is none, and the event
of the first one after that. -/
theorem Inv.resolve (h : FirstReports call d reg S) (hinv : Inv d reg S known w) {i : ι}
    {rows : List EventIdentityIndex} (hstage : w.stage i = .candidatesRead rows) :
    ∃ resolved, w.store.db.resolveWithReviews (withDecision (call i) rows) = .ok resolved ∧
      w.store.db.nextId ≤ resolved.db.nextId ∧ resolved.eventId < resolved.db.nextId ∧
      StageOk d reg S known w.store.index (.resolved (withDecision (call i) rows).decision
        resolved.eventId resolved.eventCreated) := by
  obtain ⟨hselected, hfinds⟩ : Selected w.store.index d rows ∧
      ∀ row ∈ w.store.index, HasIdentity d reg row → row ∈ rows := by
    have hok := hinv.stages i
    rw [hstage] at hok
    exact hok
  have hshape := hinv.shape
  cases known with
  | none =>
      have hnot : ∀ candidate, (withDecision (call i) rows).decision ≠ .attach candidate := by
        intro candidate
        refine EventMatcher.decide_of_low highConfidence_pos (fun row hrow => ?_) candidate
        obtain ⟨hmem, hnear⟩ := hselected.near row hrow
        rcases hshape.low h (i := i) hmem hnear with ⟨e, hnone, -⟩ | hlow
        · exact absurd hnone (by simp)
        · exact hlow
      have hfresh : ∀ x ∈ w.store.db.events, x.id ≠ w.store.db.nextId :=
        fun x hx => (hinv.event_lt x hx).ne
      obtain ⟨r, hr⟩ := (hshape.forest h).createEvent hfresh (withDecision (call i) rows)
      obtain ⟨hid, hlt, -⟩ := Db.createEvent_ok hr
      refine ⟨r, resolveWithReviews_of_not_attach (h.reviews i) hnot hr, hlt.le, ?_, ?_, ?_, hnot⟩
      · rw [hid]
        exact hlt
      · exact createEvent_eventCreated hr
      · intro x hx
        rw [hid]
        exact hfresh x (by rw [hshape.1]; exact hx)
  | some e =>
      obtain ⟨hevents, -, row, hindex, hrowEvent, hidentity⟩ := id hshape
      have hrow : row ∈ w.store.index := by
        rw [hindex]
        simp
      have hmem : row ∈ rows := hfinds row hrow hidentity
      have hlow : ∀ other ∈ rows, other ≠ row →
          rowScore (claimsDataFields (call i).claims) other < highConfidence := by
        intro other hother hne
        obtain ⟨hotherMem, hnear⟩ := hselected.near other hother
        rcases hshape.low h (i := i) hotherMem hnear with ⟨e', he', hevent, -⟩ | hlow
        · rw [Option.some.injEq] at he'
          have hsame : other.eventId = row.eventId := by rw [hevent, hrowEvent, he']
          exact absurd (List.inj_on_of_nodup_map hselected.ids hother hmem hsame) hne
        · exact hlow
      obtain ⟨htop, hone⟩ := topRows_eq_singleton hmem hselected.ids ((h.reports i).high hidentity) hlow
      have hdecide : (withDecision (call i) rows).decision = .attach e := by
        have hd := EventMatcher.decide_of_top (m := {}) highConfidence_pos
          uncertainLow_le_highConfidence htop ((h.reports i).high hidentity)
        rw [if_pos hone, hrowEvent] at hd
        exact hd
      have hmemEvent : (⟨e, none⟩ : AccidentEvent) ∈ w.store.db.events := by
        rw [hevents]
        simp
      have hget : w.store.db.getEvent e = some ⟨e, none⟩ :=
        (hshape.forest h).ids.lookup_eq (r := ⟨e, none⟩) hmemEvent
      refine ⟨⟨w.store.db, e, [], false, .identityMatch⟩, ?_, le_rfl, hinv.event_lt _ hmemEvent,
        hdecide, rfl, rfl⟩
      unfold Db.resolveWithReviews
      refine bind_ok.mpr ⟨(), require_ok.mpr (h.reviews i), ?_⟩
      simp [hdecide, Db.canonicalEventFor, Db.canonicalLoop, hget]
      rfl

omit [DecidableEq ι] [LawfulPyText] in
/-- The rows of the store before belong to its events. -/
theorem index_event_ne (h : FirstReports call d reg S) {e : Uuid} (hnew : ∀ x ∈ S.db.events, x.id ≠ e) :
    ∀ row ∈ S.index, row.eventId ≠ e := by
  intro row hrow heq
  obtain ⟨x, hx, hid⟩ := h.events row hrow
  exact hnew x hx (hid.trans heq)

omit [DecidableEq ι] in
/-- The index after a commit. -/
theorem Shape.commit (h : FirstReports call d reg S) {S' : IdentityStore} {s' : Db}
    (hshape : Shape d reg S known S') {i : ι} {decision : Db.MatchDecision} {e : Uuid} {created : Bool}
    (hok : StageOk d reg S known S'.index (.resolved decision e created))
    (hevents : s'.events = S'.db.events ++ if created then [⟨e, none⟩] else []) :
    Shape d reg S (some e)
      ⟨s', recordIdentity S'.index decision created (entryOf (call i) e)⟩ := by
  cases known with
  | none =>
      obtain ⟨rfl, hnew, hnot⟩ := hok
      obtain ⟨hev, hindex⟩ := hshape
      have hany : (S.index.any fun row => row.eventId = (entryOf (call i) e).eventId) = false := by
        rw [List.any_eq_false]
        intro row hrow hc
        exact index_event_ne h hnew row hrow (of_decide_eq_true hc)
      have hrecord : recordIdentity S'.index decision true (entryOf (call i) e) =
          S.index ++ [entryOf (call i) e] := by
        have hupsert : upsertIdentity S.index (entryOf (call i) e) =
            S.index ++ [entryOf (call i) e] := by
          unfold upsertIdentity putIdentity
          rw [hany]
          rfl
        rw [hindex]
        unfold recordIdentity
        split
        · next candidate => exact absurd rfl (hnot candidate)
        · exact hupsert
      refine ⟨by rw [hevents, hev]; rfl, hnew, entryOf (call i) e, hrecord, rfl,
        (h.reports i).hasIdentity_entry e⟩
  | some e₀ =>
      obtain ⟨rfl, rfl, rfl⟩ := hok
      obtain ⟨hev, hnew, row, hindex, hrow, hidentity⟩ := hshape
      have hany : ((S.index ++ [row]).any fun r => r.eventId = (entryOf (call i) e).eventId) = true := by
        rw [List.any_eq_true]
        exact ⟨row, by simp, decide_eq_true hrow⟩
      have hrecord : recordIdentity S'.index (.attach e) false (entryOf (call i) e) =
          S.index ++ [EventIdentityIndex.updatedBy (entryOf (call i) e) row] := by
        rw [hindex]
        unfold recordIdentity upsertIdentity putIdentity
        dsimp only
        rw [if_pos (.inr rfl), hany, if_pos rfl, updateWhere, List.map_append]
        congr 1
        · conv_rhs => rw [← List.map_id S.index]
          refine List.map_congr_left fun other hother => if_neg fun hc => ?_
          exact index_event_ne h hnew other hother (of_decide_eq_true hc)
        · simp [hrow]
      refine ⟨by rw [hevents, hev]; simp, hnew, _, hrecord, hrow,
        (h.reports i).hasIdentity_updatedBy e row⟩

/-- **A commit.**  The first one makes the event known; the others find it known. -/
theorem Inv.commit (h : FirstReports call d reg S) (hinv : Inv d reg S known w) {i : ι}
    {decision : Db.MatchDecision} {e : Uuid} {created : Bool} {s' : Db}
    (hstage : w.stage i = .resolved decision e created)
    (hevents : s'.events = w.store.db.events ++ if created then [⟨e, none⟩] else [])
    (hnext : w.store.db.nextId ≤ s'.nextId) :
    Inv d reg S (some e)
      (⟨⟨s', recordIdentity w.store.index decision created (entryOf (call i) e)⟩,
        Function.update w.stage i (.committed e created)⟩ : ReportWorld ι) := by
  have hok := hinv.stages i
  rw [hstage] at hok
  have halone := hinv.alone (i := i) (by rw [hstage]; trivial)
  -- Whoever else has committed did so with the same event, and did not create it
  -- unless it is the creator.
  have hknown : ∀ e', known = some e' → e' = e ∧ created = false := by
    rintro e' rfl
    obtain ⟨-, rfl, rfl⟩ := hok
    exact ⟨rfl, rfl⟩
  have hlock : ∀ j, (Function.update w.stage i (.committed e created) j).HoldsLock → False := by
    intro j hj
    by_cases hji : j = i
    · subst hji
      rw [Function.update_self] at hj
      exact hj
    · rw [Function.update_of_ne hji] at hj
      exact halone j hji hj
  refine ⟨hinv.shape.commit h hok hevents, ?_, ?_, fun j _ hj => (hlock j hj).elim, ?_, ?_⟩
  · intro x hx
    change x ∈ s'.events at hx
    rw [hevents] at hx
    refine lt_of_lt_of_le ?_ hnext
    rcases List.mem_append.mp hx with hx | hx
    · exact hinv.event_lt x hx
    · cases created with
      | false => simp at hx
      | true =>
          rw [List.mem_singleton.mp hx]
          exact hinv.pending_lt i decision e true hstage
  · intro j decision' e' created' hj
    exact (hlock j (by change Function.update w.stage i _ j = _ at hj; rw [hj]; trivial)).elim
  · intro j
    change StageOk d reg S (some e) _ (Function.update w.stage i (.committed e created) j)
    by_cases hji : j = i
    · subst hji
      rw [Function.update_self]
      rfl
    · rw [Function.update_of_ne hji]
      have hj := hinv.stages j
      have hfree := halone j hji
      revert hj hfree
      cases w.stage j with
      | committed e' c =>
          intro hj _
          exact congrArg some (hknown e' hj).1.symm
      | called => exact fun _ _ => trivial
      | failed x => exact fun hj _ => hj
      | locked => exact fun _ hfree => absurd trivial hfree
      | datesRead rows => exact fun _ hfree => absurd trivial hfree
      | candidatesRead rows => exact fun _ hfree => absurd trivial hfree
      | resolved decision' e' c => exact fun _ hfree => absurd trivial hfree
  · intro e' he'
    rw [Option.some.injEq] at he'
    subst he'
    cases hk : known with
    | none =>
        subst hk
        obtain ⟨rfl, -, -⟩ := hok
        refine ⟨i, Function.update_self _ _ _, ?_⟩
        intro j e' created' hji hj
        change Function.update w.stage i _ j = _ at hj
        rw [Function.update_of_ne hji] at hj
        have hnone := hinv.stages j
        rw [hj] at hnone
        exact absurd hnone (by simp [StageOk])
    | some e₀ =>
        obtain ⟨rfl, rfl⟩ := hknown e₀ hk
        obtain ⟨c, hc, hothers⟩ := hinv.creator e₀ hk
        have hci : c ≠ i := by
          rintro rfl
          rw [hc] at hstage
          cases hstage
        refine ⟨c, (Function.update_of_ne hci _ _).trans hc, ?_⟩
        intro j e' created' hjc hj
        change Function.update w.stage i _ j = _ at hj
        by_cases hji : j = i
        · subst hji
          rw [Function.update_self] at hj
          cases hj
          rfl
        · rw [Function.update_of_ne hji] at hj
          exact hothers j e' created' hjc hj

omit [DecidableEq ι] [LawfulPyText] in
/-- Nobody else has the lock that is being taken. -/
theorem Inv.lock_alone (h : FirstReports call d reg S) {i : ι}
    (hfree : ∀ j, j ≠ i → (w.stage j).HoldsLock →
      hashtext (lockKey (fieldsOf call j)) ≠ hashtext (lockKey (fieldsOf call i))) :
    ∀ j, j ≠ i → ¬ (w.stage j).HoldsLock := by
  have hkey : ∀ k, lockKey (fieldsOf call k) = (some d, reg) := by
    intro k
    unfold lockKey fieldsOf
    rw [(h.reports k).date, (h.reports k).registration]
    rfl
  intro j hne hj
  exact hfree j hne hj (by rw [hkey, hkey])

/-- **A step keeps the invariant**, when the date has neighbours and the texts of the
reports fit the index. -/
theorem Inv.step (h : FirstReports call d reg S) {lo hi : Nat} (hround : d.around = .ok (lo, hi))
    (hfits : ∀ i e, (entryOf (call i) e).fits = true) (hinv : Inv d reg S known w)
    (hstep : Step hashtext call w w') : ∃ known', Inv d reg S known' w' := by
  cases hstep with
  | @lock i hstage hdate hfree =>
      refine ⟨known, hinv.move rfl rfl le_rfl (by rw [hstage]; exact id) id (by simp)
        (Inv.lock_alone h hfree) trivial⟩
  | @skipLock i hstage hdate => exact absurd hdate (h.reports i).date_ne_null
  | @readDates i hstage =>
      obtain ⟨rows, hread, hselected⟩ := (h.reports i).findCandidates_ok hround (hinv.shape.ids h)
      rw [fieldsOf, hread]
      exact ⟨known, hinv.move rfl rfl le_rfl (by rw [hstage]; exact id) id (by simp [ReportStage.after])
        (hinv.alone (by rw [hstage]; trivial)) hselected⟩
  | @readRegistration i rows hstage =>
      have hrows := hinv.stages i
      rw [hstage] at hrows
      obtain ⟨rows', hread, hselected, hfound⟩ :=
        (h.reports i).addByRegistration_ok hround (hinv.shape.ids h) hrows
      rw [fieldsOf, hread]
      refine ⟨known, hinv.move rfl rfl le_rfl (by rw [hstage]; exact id) id (by simp [ReportStage.after])
        (hinv.alone (by rw [hstage]; trivial)) ⟨hselected, ?_⟩⟩
      intro row hrow hidentity
      exact hfound row (hinv.shape.onlyMatch h i hrow hidentity)
  | @resolve i rows resolved hstage hresolve =>
      obtain ⟨hresolve, -⟩ := resolveAmong_ok.mp hresolve
      obtain ⟨resolved', hresolve', hnext, hlt, hok⟩ := hinv.resolve h hstage
      rw [hresolve, Except.ok.injEq] at hresolve'
      subst hresolve'
      refine ⟨known, hinv.move rfl rfl hnext (by rw [hstage]; exact id) id ?_
        (hinv.alone (by rw [hstage]; trivial)) hok⟩
      intro decision e created heq
      cases heq
      exact hlt
  | @resolveFails i rows e hstage hresolve =>
      obtain ⟨resolved', hresolve', -⟩ := hinv.resolve h hstage
      rw [resolveAmong_ok.mpr ⟨hresolve', hfits i _⟩] at hresolve
      exact absurd hresolve (by simp)
  | @commit i decision e created s' hstage hevents hnext =>
      exact ⟨some e, hinv.commit h hstage hevents hnext⟩

theorem Inv.run (h : FirstReports call d reg S) {lo hi : Nat} (hround : d.around = .ok (lo, hi))
    (hfits : ∀ i e, (entryOf (call i) e).fits = true)
    (hrun : Relation.ReflTransGen (Step hashtext call) (idle S) w) :
    ∃ known, Inv d reg S known w := by
  induction hrun with
  | refl => exact ⟨none, inv_idle h⟩
  | tail _ hstep ih =>
      obtain ⟨known, hinv⟩ := ih
      exact hinv.step h hround hfits hstep

end Steps

/-! ### Nobody waits forever -/

def Finished (w : ReportWorld ι) : Prop := ∀ i, (w.stage i).Finished

omit [PyText] [PyRepr] in
theorem goTo_stage (w : ReportWorld ι) (i : ι) (stage : ReportStage) :
    (w.goTo i stage).stage i = stage ∧ ∀ j, j ≠ i → (w.goTo i stage).stage j = w.stage j :=
  ⟨Function.update_self _ _ _, fun _ hne => Function.update_of_ne hne _ _⟩

/-- A step brings one ingestion nearer to its end, and leaves the others. -/
theorem Step.remaining (hstep : Step hashtext call w w') :
    ∃ i, (w'.stage i).remaining < (w.stage i).remaining ∧ ∀ j, j ≠ i → w'.stage j = w.stage j := by
  have hafter : ∀ {α : Type} (next : α → ReportStage) (x : Except AtlasError α) (n : Nat),
      (∀ a, (next a).remaining ≤ n) → (ReportStage.after next x).remaining ≤ n := by
    intro α next x n hnext
    cases x with
    | ok a => exact hnext a
    | error e => exact Nat.zero_le n
  cases hstep with
  | @lock i hstage hdate hfree =>
      obtain ⟨hself, hothers⟩ := w.goTo_stage i .locked
      exact ⟨i, by rw [hself, hstage]; decide, hothers⟩
  | @skipLock i hstage hdate =>
      obtain ⟨hself, hothers⟩ := w.goTo_stage i (.candidatesRead [])
      exact ⟨i, by rw [hself, hstage]; decide, hothers⟩
  | @readDates i hstage =>
      obtain ⟨hself, hothers⟩ := w.goTo_stage i
        (.after .datesRead (w.store.findCandidates (eventDateOf (fieldsOf call i))))
      refine ⟨i, ?_, hothers⟩
      rw [hself, hstage]
      exact Nat.lt_succ_of_le (hafter _ _ 3 fun _ => le_rfl)
  | @readRegistration i rows hstage =>
      obtain ⟨hself, hothers⟩ := w.goTo_stage i
        (.after .candidatesRead (w.store.addByRegistration (fieldsOf call i) rows))
      refine ⟨i, ?_, hothers⟩
      rw [hself, hstage]
      exact Nat.lt_succ_of_le (hafter _ _ 2 fun _ => le_rfl)
  | @resolve i rows resolved hstage hresolve =>
      refine ⟨i, ?_, fun j hne => Function.update_of_ne hne _ _⟩
      dsimp only
      rw [Function.update_self, hstage]
      exact Nat.one_lt_two
  | @resolveFails i rows e hstage hresolve =>
      obtain ⟨hself, hothers⟩ := w.goTo_stage i (.failed e)
      exact ⟨i, by rw [hself, hstage]; exact Nat.two_pos, hothers⟩
  | @commit i decision e created s' hstage hevents hnext =>
      refine ⟨i, ?_, fun j hne => Function.update_of_ne hne _ _⟩
      dsimp only
      rw [Function.update_self, hstage]
      exact Nat.one_pos

/-- As long as an ingestion is not finished, some ingestion can go on: the one with
the lock, or one that takes it. -/
theorem exists_step (hashtext : Option PyDate × Text → Int) (call : ι → Db.IngestCall)
    (hunfinished : ¬ w.Finished) : ∃ w', Step hashtext call w w' := by
  by_cases hlock : ∃ i, (w.stage i).HoldsLock
  · obtain ⟨i, hi⟩ := hlock
    cases hstage : w.stage i with
    | called => rw [hstage] at hi; exact hi.elim
    | locked => exact ⟨_, .readDates hstage⟩
    | datesRead rows => exact ⟨_, .readRegistration hstage⟩
    | candidatesRead rows =>
        cases hresolve : w.store.resolveAmong (call i) rows with
        | ok resolved => exact ⟨_, .resolve hstage hresolve⟩
        | error e => exact ⟨_, .resolveFails hstage hresolve⟩
    | resolved decision e created =>
        let s' : Db := { w.store.db with
          events := w.store.db.events ++ if created then [⟨e, none⟩] else [] }
        have hevents : s'.events = w.store.db.events ++ if created then [⟨e, none⟩] else [] := rfl
        exact ⟨_, .commit hstage hevents le_rfl⟩
    | committed e created => rw [hstage] at hi; exact hi.elim
    | failed e => rw [hstage] at hi; exact hi.elim
  · obtain ⟨i, hi⟩ := not_forall.mp hunfinished
    have hcalled : w.stage i = .called := by
      cases hstage : w.stage i with
      | called => rfl
      | committed e created => rw [hstage] at hi; exact absurd trivial hi
      | failed e => rw [hstage] at hi; exact absurd trivial hi
      | _ => exact absurd ⟨i, by rw [hstage]; trivial⟩ hlock
    by_cases hdate : fieldsOf call i "event_date" = .null
    · exact ⟨_, .skipLock hcalled hdate⟩
    · exact ⟨_, .lock hcalled hdate fun j _ hj => absurd ⟨j, hj⟩ hlock⟩

/-! ### Two reports -/

section Two

variable {call : Bool → Db.IngestCall} {w : ReportWorld Bool}

/-- Both are finished after at most ten more statements. -/
theorem exists_finish (hashtext : Option PyDate × Text → Int) (call : Bool → Db.IngestCall)
    (w : ReportWorld Bool) :
    ∃ w', Relation.ReflTransGen (Step hashtext call) w w' ∧ w'.Finished := by
  induction hn : (w.stage false).remaining + (w.stage true).remaining using Nat.strong_induction_on
    generalizing w with
  | _ n ih =>
      by_cases hfinished : w.Finished
      · exact ⟨w, .refl, hfinished⟩
      · obtain ⟨w₁, hstep⟩ := exists_step hashtext call hfinished
        obtain ⟨i, hless, hothers⟩ := hstep.remaining
        have hlt : (w₁.stage false).remaining + (w₁.stage true).remaining < n := by
          cases i with
          | false =>
              have heq := congrArg ReportStage.remaining (hothers true (by decide))
              omega
          | true =>
              have heq := congrArg ReportStage.remaining (hothers false (by decide))
              omega
        obtain ⟨w', hrun, hw'⟩ := ih _ hlt w₁ rfl
        exact ⟨w', hrun.head hstep, hw'⟩

/-- One report has created the event, and the other is attached to it. -/
def OneCreates (w : ReportWorld Bool) : Prop :=
  ∃ i e, w.stage i = .committed e true ∧ w.stage (!i) = .committed e false

omit [PyText] [PyRepr] in
/-- **Finished reports have one event.** -/
theorem Inv.oneCreates (hinv : Inv d reg S known w) (hfinished : w.Finished) : w.OneCreates := by
  have hcommitted : ∀ i, ∃ e created, w.stage i = .committed e created ∧ known = some e := by
    intro i
    have hi := hfinished i
    have hok := hinv.stages i
    cases hstage : w.stage i with
    | committed e created =>
        rw [hstage] at hok
        exact ⟨e, created, rfl, hok⟩
    | failed e => rw [hstage] at hok; exact hok.elim
    | _ => rw [hstage] at hi; exact hi.elim
  obtain ⟨e, -, -, hknown⟩ := hcommitted true
  obtain ⟨i, hi, hothers⟩ := hinv.creator e hknown
  refine ⟨i, e, hi, ?_⟩
  obtain ⟨e', created, hstage, hknown'⟩ := hcommitted (!i)
  have hfalse := hothers (!i) e' created (by cases i <;> decide) hstage
  have hsame : e' = e := by
    rw [hknown, Option.some.injEq] at hknown'
    exact hknown'.symm
  rw [hstage, hfalse, hsame]

variable [LawfulPyText] {w' : ReportWorld Bool}

omit [LawfulPyText] in
/-- What a step makes of the stage of an ingestion. -/
theorem Step.stage_cases (hstep : Step hashtext call w w') (i : Bool) :
    w'.stage i = w.stage i ∨
    (w.stage i = .called ∧ fieldsOf call i "event_date" ≠ .null ∧ w'.stage i = .locked) ∨
    (w.stage i = .called ∧ fieldsOf call i "event_date" = .null ∧ w'.stage i = .candidatesRead []) ∨
    (w.stage i = .locked ∧ w'.stage i =
      .after .datesRead (w.store.findCandidates (eventDateOf (fieldsOf call i)))) ∨
    (∃ rows, w.stage i = .datesRead rows ∧ w'.stage i =
      .after .candidatesRead (w.store.addByRegistration (fieldsOf call i) rows)) ∨
    (∃ rows resolved, w.stage i = .candidatesRead rows ∧
      w.store.resolveAmong (call i) rows = .ok resolved) ∨
    (∃ rows e, w.stage i = .candidatesRead rows ∧ w'.stage i = .failed e) ∨
    ∃ decision e created, w.stage i = .resolved decision e created := by
  have hgoTo : ∀ j stage, j = i ∨ (w.goTo j stage).stage i = w.stage i := by
    intro j stage
    by_cases hji : j = i
    · exact .inl hji
    · exact .inr ((w.goTo_stage j stage).2 i (Ne.symm hji))
  cases hstep with
  | @lock j hstage hdate hfree =>
      rcases hgoTo j .locked with rfl | hsame
      · exact .inr (.inl ⟨hstage, hdate, (w.goTo_stage j .locked).1⟩)
      · exact .inl hsame
  | @skipLock j hstage hdate =>
      rcases hgoTo j (.candidatesRead []) with rfl | hsame
      · exact .inr (.inr (.inl ⟨hstage, hdate, (w.goTo_stage j _).1⟩))
      · exact .inl hsame
  | @readDates j hstage =>
      rcases hgoTo j (.after .datesRead (w.store.findCandidates (eventDateOf (fieldsOf call j))))
        with rfl | hsame
      · exact .inr (.inr (.inr (.inl ⟨hstage, (w.goTo_stage j _).1⟩)))
      · exact .inl hsame
  | @readRegistration j rows hstage =>
      rcases hgoTo j (.after .candidatesRead (w.store.addByRegistration (fieldsOf call j) rows))
        with rfl | hsame
      · exact .inr (.inr (.inr (.inr (.inl ⟨rows, hstage, (w.goTo_stage j _).1⟩))))
      · exact .inl hsame
  | @resolve j rows resolved hstage hresolve =>
      by_cases hji : j = i
      · subst hji
        exact .inr (.inr (.inr (.inr (.inr (.inl ⟨rows, resolved, hstage, hresolve⟩)))))
      · exact .inl (Function.update_of_ne (Ne.symm hji) _ _)
  | @resolveFails j rows e hstage hresolve =>
      rcases hgoTo j (.failed e) with rfl | hsame
      · exact .inr (.inr (.inr (.inr (.inr (.inr (.inl ⟨rows, e, hstage, (w.goTo_stage j _).1⟩))))))
      · exact .inl hsame
  | @commit j decision e created s' hstage hevents hnext =>
      by_cases hji : j = i
      · subst hji
        exact .inr (.inr (.inr (.inr (.inr (.inr (.inr ⟨decision, e, created, hstage⟩))))))
      · exact .inl (Function.update_of_ne (Ne.symm hji) _ _)

/-- On the first and on the last day of the calendar the first query raises. -/
theorem stuck_at_edge (h : FirstReports call d reg S)
    (hedge : d.toOrdinal = 1 ∨ d.toOrdinal = PyDate.maxOrdinal)
    (hrun : Relation.ReflTransGen (Step hashtext call) (idle S) w) (i : Bool) :
    w.stage i = .called ∨ w.stage i = .locked ∨ ∃ e, w.stage i = .failed e := by
  have hraises : ∀ S' : IdentityStore, ReportStage.after .datesRead
      (S'.findCandidates (eventDateOf (fieldsOf call i))) =
        .failed (.runtime "date value out of range") := by
    intro S'
    have hdate : eventDateOf (fieldsOf call i) = some d := (h.reports i).date
    rw [hdate, findCandidates]
    simp only [PyDate.around, if_pos hedge]
    rfl
  induction hrun with
  | refl => exact .inl rfl
  | @tail w₁ w₂ _ hstep ih =>
      rcases hstep.stage_cases i with hsame | ⟨-, -, hlocked⟩ | ⟨-, hnull, -⟩ | ⟨-, hread⟩ |
        ⟨rows, hstage, -⟩ | ⟨rows, r, hstage, -⟩ | ⟨rows, e, -, hfailed⟩ | ⟨x, e, c, hstage⟩
      · rw [hsame]
        exact ih
      · exact .inr (.inl hlocked)
      · exact absurd hnull (h.reports i).date_ne_null
      · exact .inr (.inr ⟨_, hread.trans (hraises w₁.store)⟩)
      · simp [hstage] at ih
      · simp [hstage] at ih
      · exact .inr (.inr ⟨e, hfailed⟩)
      · simp [hstage] at ih

omit [LawfulPyText] in
/-- A report whose texts do not fit the index never commits. -/
theorem uncommitted_of_not_fits {i : Bool} (hfits : ∀ e, (entryOf (call i) e).fits ≠ true)
    (hrun : Relation.ReflTransGen (Step hashtext call) (idle S) w) :
    (∀ decision e created, w.stage i ≠ .resolved decision e created) ∧
      ∀ e created, w.stage i ≠ .committed e created := by
  have hafter : ∀ {α : Type} {next : α → ReportStage} (x : Except AtlasError α),
      (∀ a, (∀ decision e created, next a ≠ .resolved decision e created) ∧
        ∀ e created, next a ≠ .committed e created) →
      (∀ decision e created, ReportStage.after next x ≠ .resolved decision e created) ∧
        ∀ e created, ReportStage.after next x ≠ .committed e created := by
    intro α next x hnext
    cases x with
    | ok a => exact hnext a
    | error e => simp [ReportStage.after]
  induction hrun with
  | refl => simp [idle]
  | @tail w₁ w₂ _ hstep ih =>
      rcases hstep.stage_cases i with hsame | ⟨-, -, hlocked⟩ | ⟨-, -, hskip⟩ | ⟨-, hread⟩ |
        ⟨rows, -, hread⟩ | ⟨rows, r, -, hresolve⟩ | ⟨rows, e, -, hfailed⟩ | ⟨x, e, c, hstage⟩
      · rw [hsame]
        exact ih
      · simp [hlocked]
      · simp [hskip]
      · rw [hread]
        exact hafter _ (by simp)
      · rw [hread]
        exact hafter _ (by simp)
      · exact absurd (resolveAmong_ok.mp hresolve).2 (hfits r.eventId)
      · simp [hfailed]
      · exact absurd hstage (ih.1 x e c)

/-- On these days no report gets an event. -/
theorem not_oneCreates_at_edge (h : FirstReports call d reg S)
    (hedge : d.toOrdinal = 1 ∨ d.toOrdinal = PyDate.maxOrdinal)
    (hrun : Relation.ReflTransGen (Step hashtext call) (idle S) w) : ¬ w.OneCreates := by
  rintro ⟨i, e, hi, -⟩
  have hstuck := stuck_at_edge h hedge hrun i
  simp [hi] at hstuck

omit [LawfulPyText] in
theorem not_oneCreates_of_not_fits {i : Bool} (hfits : ∀ e, (entryOf (call i) e).fits ≠ true)
    (hrun : Relation.ReflTransGen (Step hashtext call) (idle S) w) : ¬ w.OneCreates := by
  rintro ⟨j, e, hj, hother⟩
  obtain ⟨-, hnever⟩ := uncommitted_of_not_fits hfits hrun
  by_cases hij : i = j
  · exact hnever e true (hij ▸ hj)
  · have hi : i = !j := by cases i <;> cases j <;> simp_all
    exact hnever e false (hi ▸ hother)

end Two

end ReportWorld

open ReportWorld in
/-- **Concurrent first reports create one event.**  Two ingestions report one
normalised date and registration, and no row of the index matches them.  Whatever
their statements interleave, both come to an end; and exactly when the date is not at
an edge of the calendar and their texts fit the index, in every interleaving one of
them creates the event and the other is attached to it. -/
theorem first_reports_create_one_event_iff [PyText] [LawfulPyText] [PyRepr]
    (hashtext : Option PyDate × Text → Int) {call : Bool → Db.IngestCall} {d : PyDate} {reg : Text}
    {S : IdentityStore} (h : FirstReports call d reg S) :
    (∀ w, Relation.ReflTransGen (Step hashtext call) (idle S) w →
      ∃ w', Relation.ReflTransGen (Step hashtext call) w w' ∧ w'.Finished) ∧
    ((∀ w, Relation.ReflTransGen (Step hashtext call) (idle S) w → w.Finished → w.OneCreates) ↔
      (d.toOrdinal ≠ 1 ∧ d.toOrdinal ≠ PyDate.maxOrdinal) ∧
        ∀ i e, (entryOf (call i) e).fits = true) := by
  refine ⟨fun w _ => exists_finish hashtext call w, ?_, ?_⟩
  · intro hone
    obtain ⟨w, hrun, hfinished⟩ := exists_finish hashtext call (idle S)
    have hcreates := hone w hrun hfinished
    refine ⟨⟨?_, ?_⟩, ?_⟩
    · exact fun hedge => not_oneCreates_at_edge h (.inl hedge) hrun hcreates
    · exact fun hedge => not_oneCreates_at_edge h (.inr hedge) hrun hcreates
    · intro i e
      -- Whether an entry fits does not depend on its event.
      by_contra hfits
      exact not_oneCreates_of_not_fits (fun _ hfits' => hfits hfits') hrun hcreates
  · rintro ⟨hinner, hfits⟩ w hrun hfinished
    have hround : d.around = .ok (d.toOrdinal - 1, d.toOrdinal + 1) := by
      unfold PyDate.around
      rw [if_neg (not_or.mpr hinner)]
    obtain ⟨known, hinv⟩ := Inv.run h hround hfits hrun
    exact hinv.oneCreates hfinished

/-! ## A day inside the calendar and its first day -/

/-- Two reports that spell one registration in two ways. -/
def twoReports (date : String) : Bool → Db.IngestCall
  | true => { accidentReport 1 with
      claims := [⟨"event_date", .str date⟩, ⟨"registration", .str "N-123 AB"⟩] }
  | false => { accidentReport 2 with
      ingestionRunId := 51
      claims := [⟨"event_date", .str date⟩, ⟨"registration", .str "n123ab"⟩] }

/-- An empty store. -/
def noReports : IdentityStore := ⟨Db.empty [], []⟩

theorem firstReports_twoReports (date : String) (d : PyDate)
    (hreports : ∀ i, Reports (twoReports date i) d "n123ab".toList) :
    FirstReports (twoReports date) d "n123ab".toList noReports where
  reports := hreports
  reviews := fun i => by cases i <;> exact Nat.succ_pos 9
  reachable := ⟨[], [], rfl⟩
  ids := List.nodup_nil
  events := by simp [noReports]
  unmatched := by simp [NoMatchingRow, noReports]

instance (call : Db.IngestCall) (d : PyDate) (reg : Text) : Decidable (Reports call d reg) :=
  decidable_of_iff (eventDateOf (claimsDataFields call.claims) = some d ∧
      registrationOf (claimsDataFields call.claims) = some reg ∧ reg ≠ [])
    ⟨fun h => ⟨h.1, h.2.1, h.2.2⟩, fun h => ⟨h.1, h.2, h.3⟩⟩

open ReportWorld in
/-- Both reports of the first of June are finished, and one has created the event. -/
theorem first_reports_create_one_event_june :
    ∃ w, Relation.ReflTransGen (Step (fun _ => 0) (twoReports "2024-06-01")) (idle noReports) w ∧
      w.Finished ∧ w.OneCreates := by
  have h := first_reports_create_one_event_iff (fun _ => 0)
    (firstReports_twoReports "2024-06-01" ⟨2024, 6, 1, by decide⟩ (by decide +kernel))
  obtain ⟨w, hrun, hfinished⟩ := h.1 _ .refl
  have hfits : ∀ i e, (entryOf (twoReports "2024-06-01" i) e).fits = true := by
    intro i e
    have h0 : ∀ i, (entryOf (twoReports "2024-06-01" i) 0).fits = true := by decide +kernel
    exact h0 i
  exact ⟨w, hrun, hfinished, h.2.mpr ⟨by decide, hfits⟩ w hrun hfinished⟩

open ReportWorld in
/-- Two reports of the first day of the year 1 both fail, and no event is created. -/
theorem first_reports_fail_on_first_day :
    FirstReports (twoReports "0001-01-01") ⟨1, 1, 1, by decide⟩ "n123ab".toList noReports ∧
      ∃ w, Relation.ReflTransGen (Step (fun _ => 0) (twoReports "0001-01-01")) (idle noReports) w ∧
        w.Finished ∧ ¬ w.OneCreates := by
  have h := firstReports_twoReports "0001-01-01" ⟨1, 1, 1, by decide⟩ (by decide +kernel)
  obtain ⟨w, hrun, hfinished⟩ := exists_finish (fun _ => 0)
    (twoReports "0001-01-01") (idle noReports)
  exact ⟨h, w, hrun, hfinished, not_oneCreates_at_edge h (.inl (by decide)) hrun⟩

end Atlas
