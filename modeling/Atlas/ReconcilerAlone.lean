import Atlas.StoreLaws
import Mathlib.Logic.Relation

/-!
# The reconciler in a transaction that runs alone

Without foreign commits a version-checked write of a row that was just read goes
through at the first attempt.  Every reconciler action is then one *touch*: one
conflict row is rewritten, evidence links are added to it and an activity row is
logged.  Detection may also insert a row.

There is one result for each phase.  `reconcileWinners_alone`: a RESOLVED
conflict that lost its winner gets an active one, or is OPEN.
`autoResolve_alone`: only OPEN conflicts whose evidence agrees are closed, with
an active winner.  `detect_alone`: every field of the event whose active claims
disagree across two sources has an OPEN conflict that links all of them.  Each
says which rows stay as they were.
-/

namespace Atlas

open Outcome Rows

namespace Db

/-! ## A version-checked write that goes through -/

/-- A conflict row after a version-checked update. -/
def bumped (g : ClaimConflict → ClaimConflict) (c : ClaimConflict) : ClaimConflict :=
  { g c with version := c.version + 1 }

theorem KeepsConflict.bumped {g : ClaimConflict → ClaimConflict} (hg : KeepsConflict g) :
    KeepsConflict (bumped g) := ⟨hg.id, hg.eventId, hg.fieldName⟩

/-- Rewrite one conflict row. -/
def rewriteConflict (s : Db) (id : Uuid) (g : ClaimConflict → ClaimConflict) : Db :=
  { s with conflicts := updateWhere (fun d => d.id = id) (bumped g) s.conflicts }

/-- A checked update with the version just read rewrites the row. -/
theorem updateWithVersionCheck_ok {s s' : Db} (hwf : s.WellFormed) {c : ClaimConflict}
    (hc : c ∈ s.conflicts) {g : ClaimConflict → ClaimConflict} {u : Option ClaimConflict}
    (h : s.updateWithVersionCheck c.id c.version g = .ok (u, s')) :
    u = some (bumped g c) ∧ s' = s.rewriteConflict c.id g := by
  have hfind : (s.conflicts.find? fun d => d.id = c.id ∧ d.version = c.version) = some c := by
    cases hf : s.conflicts.find? fun d => d.id = c.id ∧ d.version = c.version with
    | none =>
        have := List.find?_eq_none.mp hf c hc
        simp at this
    | some d =>
        have hd := List.find?_some hf
        simp only [decide_eq_true_eq] at hd
        rw [hwf.conflictIds.eq_of_key (List.mem_of_find?_eq_some hf) hc hd.1]
  have hrows : updateWhere (fun d => decide (d.id = c.id ∧ d.version = c.version))
      (fun d => { g d with version := d.version + 1 }) s.conflicts =
      updateWhere (fun d => decide (d.id = c.id)) (bumped g) s.conflicts := by
    unfold updateWhere
    apply List.map_congr_left
    intro d hd
    by_cases hid : d.id = c.id
    · rw [hwf.conflictIds.eq_of_key hd hc hid]
      simp [bumped]
    · simp [hid]
  unfold updateWithVersionCheck at h
  rw [hfind] at h
  dsimp only at h
  split at h
  · cases h
  · simp only [Except.ok.injEq, Prod.mk.injEq] at h
    obtain ⟨rfl, rfl⟩ := h
    exact ⟨rfl, by rw [rewriteConflict, hrows]⟩

/-- One touch of a conflict row: rewrite, link, log. -/
def touch (s : Db) (actor : Actor) (c : ClaimConflict) (g : ClaimConflict → ClaimConflict)
    (ids : List Uuid) (fromStatus toStatus : ConflictStatus) (reason : String) : Db :=
  ((s.rewriteConflict c.id g).addClaimsToConflict c.id ids).logActivity actor c.id c.eventId
    (some fromStatus) toStatus reason (c.version + 1) .none

/-- The store after inserting a conflict for a detected disagreement. -/
def openRow (s : Db) (actor : Actor) (p : PotentialConflict) : Db :=
  (({ s with
      nextId := s.nextId + 1
      conflicts := s.conflicts ++ [Session.newConflictRow s.nextId p actor.now] } :
    Db).addClaimsToConflict s.nextId p.claimIds).logActivity actor s.nextId p.eventId none .open
      "Initial conflict detected" 1 .none

/-- One change of a conflict row of the given events, with its log row: a row is
touched, or one is inserted for claims that are there. -/
inductive LoggedStep (on : Uuid → Prop) (s : Db) : Db → Prop where
  | touch {actor : Actor} {c : ClaimConflict} {g : ClaimConflict → ClaimConflict} {ids : List Uuid}
      {reason : String} (hc : c ∈ s.conflicts) (hon : on c.eventId) (hg : KeepsConflict g) :
      LoggedStep on s (s.touch actor c g ids c.status (g c).status reason)
  | insert {actor : Actor} {p : PotentialConflict} (hon : on p.eventId)
      (hclaim : ∃ k ∈ s.claims, k.eventId = p.eventId ∧ k.fieldName = p.fieldName) :
      LoggedStep on s (s.openRow actor p)

/-- Several such changes. -/
def Logged (on : Uuid → Prop) (s s' : Db) : Prop := Relation.ReflTransGen (LoggedStep on) s s'

theorem LoggedStep.mono {on on' : Uuid → Prop} (hon : ∀ x, on x → on' x) {s s' : Db}
    (h : LoggedStep on s s') : LoggedStep on' s s' := by
  cases h with
  | touch hc hx hg => exact .touch hc (hon _ hx) hg
  | insert hx hclaim => exact .insert (hon _ hx) hclaim

theorem Logged.mono {on on' : Uuid → Prop} (hon : ∀ x, on x → on' x) {s s' : Db}
    (h : Logged on s s') : Logged on' s s' := by
  induction h with
  | refl => exact .refl
  | tail _ hstep ih => exact .tail ih (hstep.mono hon)

/-- The conflict identifiers are unique and below the counter. -/
structure RowIds (s : Db) : Prop where
  ids : Unique ClaimConflict.id s.conflicts
  conflict_lt : ∀ c ∈ s.conflicts, c.id < s.nextId

theorem WellFormed.rowIds {s : Db} (hwf : s.WellFormed) : s.RowIds :=
  ⟨hwf.conflictIds, hwf.conflict_lt⟩

/-- Logged changes leave the rows of other events alone. -/
theorem LoggedStep.frame {on : Uuid → Prop} {s s' : Db} (h : s.RowIds) (hstep : LoggedStep on s s') :
    s'.RowIds ∧ ∀ x, ¬ on x →
      (s'.conflicts.filter fun c => c.eventId = x) = s.conflicts.filter fun c => c.eventId = x := by
  cases hstep with
  | @touch actor c g ids reason hc hon hg =>
      refine ⟨⟨h.ids.updateWhere fun d => hg.id d, ?_⟩, ?_⟩
      · intro d' hd'
        obtain ⟨d, hd, rfl⟩ := mem_updateWhere.mp hd'
        split
        · rw [show (bumped g d).id = d.id from hg.id d]
          exact h.conflict_lt d hd
        · exact h.conflict_lt d hd
      · intro x hx
        refine filter_updateWhere ?_
        intro d hd hid
        have hdc : d = c := h.ids.eq_of_key hd hc (by simpa using hid)
        subst hdc
        have hne : d.eventId ≠ x := fun he => hx (he ▸ hon)
        have hne' : (bumped g d).eventId ≠ x := by
          rw [show (bumped g d).eventId = d.eventId from hg.eventId d]
          exact hne
        simp [hne, hne']
  | @insert actor p hon _ =>
      refine ⟨⟨h.ids.append_single fun d hd => Nat.ne_of_lt (h.conflict_lt d hd), ?_⟩, ?_⟩
      · intro d hd
        rcases List.mem_append.mp hd with hd | hd
        · exact Nat.lt_succ_of_lt (h.conflict_lt d hd)
        · rw [List.mem_singleton.mp hd]
          exact Nat.lt_succ_self s.nextId
      · intro x hx
        have hne : p.eventId ≠ x := fun he => hx (he ▸ hon)
        have hrow : decide ((Session.newConflictRow s.nextId p actor.now).eventId = x) = false :=
          decide_eq_false hne
        change ((s.conflicts ++ [Session.newConflictRow s.nextId p actor.now]).filter _) = _
        rw [List.filter_append, List.filter_cons_of_neg (by simp [hrow]), List.filter_nil,
          List.append_nil]

theorem Logged.frame {on : Uuid → Prop} {s s' : Db} (h : s.RowIds) (hlogged : Logged on s s') :
    s'.RowIds ∧ ∀ x, ¬ on x →
      (s'.conflicts.filter fun c => c.eventId = x) = s.conflicts.filter fun c => c.eventId = x := by
  induction hlogged with
  | refl => exact ⟨h, fun _ _ => rfl⟩
  | tail _ hstep ih =>
      obtain ⟨hids, hrows⟩ := hstep.frame ih.1
      exact ⟨hids, fun x hx => (hrows x hx).trans (ih.2 x hx)⟩

/-! ## The conflict tables change, the evidence does not -/

/-- Only the counter, the conflicts, their links and their log differ. -/
structure ConflictsOnly (s s' : Db) : Prop where
  rest : s' = { s with
    nextId := s'.nextId
    conflicts := s'.conflicts
    conflictClaims := s'.conflictClaims
    conflictActivity := s'.conflictActivity }

theorem ConflictsOnly.refl (s : Db) : ConflictsOnly s s := ⟨rfl⟩

theorem ConflictsOnly.trans {s s' s'' : Db} (h : ConflictsOnly s s') (h' : ConflictsOnly s' s'') :
    ConflictsOnly s s'' := by
  constructor
  rw [h'.rest, h.rest]

theorem ConflictsOnly.claims {s s' : Db} (h : ConflictsOnly s s') : s'.claims = s.claims := by
  rw [h.rest]

theorem ConflictsOnly.events {s s' : Db} (h : ConflictsOnly s s') : s'.events = s.events := by
  rw [h.rest]

theorem ConflictsOnly.snapshots {s s' : Db} (h : ConflictsOnly s s') :
    s'.snapshots = s.snapshots := by
  rw [h.rest]

theorem ConflictsOnly.isMerged {s s' : Db} (h : ConflictsOnly s s') (e : Uuid) :
    s'.IsMerged e ↔ s.IsMerged e := by
  rw [h.rest]
  rfl

section Touch

variable {s : Db} {actor : Actor} {c : ClaimConflict} {g : ClaimConflict → ClaimConflict}
  {ids : List Uuid} {fromStatus toStatus : ConflictStatus} {reason : String}

theorem touch_conflictsOnly :
    ConflictsOnly s (s.touch actor c g ids fromStatus toStatus reason) := ⟨rfl⟩

theorem touch_conflicts : (s.touch actor c g ids fromStatus toStatus reason).conflicts =
    updateWhere (fun d => d.id = c.id) (bumped g) s.conflicts := rfl

theorem touch_nextId : (s.touch actor c g ids fromStatus toStatus reason).nextId = s.nextId := rfl

theorem mem_touch_links {l : Uuid × Uuid} :
    l ∈ (s.touch actor c g ids fromStatus toStatus reason).conflictClaims ↔
      l ∈ s.conflictClaims ∨ (l.1 = c.id ∧ l.2 ∈ ids) :=
  mem_addClaimsToConflict

/-- The rows after a touch: the touched row, and the others as they were. -/
theorem mem_touch_conflicts (hwf : s.WellFormed) (hc : c ∈ s.conflicts) {d : ClaimConflict} :
    d ∈ (s.touch actor c g ids fromStatus toStatus reason).conflicts ↔
      d = bumped g c ∨ (d ∈ s.conflicts ∧ d.id ≠ c.id) := by
  rw [touch_conflicts, mem_updateWhere]
  constructor
  · intro h
    obtain ⟨x, hx, rfl⟩ := h
    by_cases hid : x.id = c.id
    · left
      rw [hwf.conflictIds.eq_of_key hx hc hid]
      simp
    · right
      simp only [hid, decide_false, Bool.false_eq_true, if_false]
      exact ⟨hx, hid⟩
  · intro h
    rcases h with rfl | ⟨hd, hid⟩
    · exact ⟨c, hc, by simp⟩
    · exact ⟨d, hd, by simp [hid]⟩

/-- A touch keeps the laws when what it links lies on the conflict's event and
field and a new winner is among the linked claims. -/
theorem WellFormed.touch (hwf : s.WellFormed) (hc : c ∈ s.conflicts) (hg : KeepsConflict g)
    (hids : ∀ id ∈ ids, ∃ k ∈ s.claims, k.id = id ∧ k.eventId = c.eventId ∧
      k.fieldName = c.fieldName)
    (hwinner : ∀ w, (g c).winningClaimId = some w → w ∈ ids ∨ (c.id, w) ∈ s.conflictClaims)
    (hnone : (g c).status = .resolved → (g c).winningClaimId = none → s.IsMerged c.eventId) :
    (s.touch actor c g ids fromStatus toStatus reason).WellFormed := by
  have hlinked : (s.addClaimsToConflict c.id ids).WellFormed := hwf.addClaimsToConflict hc hids
  have honly : ∀ d ∈ s.conflicts, decide (d.id = c.id) = true → d = c := by
    intro d hd hid
    exact hwf.conflictIds.eq_of_key hd hc (by simpa using hid)
  have hrewritten := hlinked.updateConflicts (p := fun d => decide (d.id = c.id)) hg.bumped
    (by
      intro d hd hp w hw
      rw [honly d hd hp] at hw ⊢
      rcases hwinner w hw with hin | hin
      · exact mem_addClaimsToConflict.mpr (Or.inr ⟨rfl, hin⟩)
      · exact mem_addClaimsToConflict.mpr (Or.inl hin))
    (by
      intro d hd hp hres hw
      rw [honly d hd hp] at hres hw ⊢
      exact hnone hres hw)
  exact hrewritten.of_sameTables ⟨rfl, rfl, rfl, rfl, rfl, rfl⟩

end Touch

end Db

namespace Session

open Db

/-! ## Actions on one row -/

/-- No foreign commit is to come. -/
def Quiet (σ : Session) : Prop := σ.schedule = []

theorem quiet_alone (s : Db) : (alone s).Quiet := rfl

theorem Quiet.tick {σ : Session} (hq : σ.Quiet) : σ.tick = σ := by
  unfold Session.tick
  rw [show σ.schedule = [] from hq]

section Alone

variable {σ σ' : Session} {actor : Actor} {c : ClaimConflict} {ids : List Uuid}

theorem update_alone (hq : σ.Quiet) (hwf : σ.db.WellFormed) (hc : c ∈ σ.db.conflicts)
    {g : ClaimConflict → ClaimConflict} {u : Option ClaimConflict}
    (h : σ.updateWithVersionCheck c.id c.version g = .ok (u, σ')) :
    u = some (bumped g c) ∧ σ'.db = σ.db.rewriteConflict c.id g ∧ σ'.Quiet := by
  unfold Session.updateWithVersionCheck at h
  rw [hq.tick, bind_ok] at h
  obtain ⟨⟨u', db'⟩, hdb, hrest⟩ := h
  obtain ⟨rfl, rfl⟩ := updateWithVersionCheck_ok hwf hc hdb
  simp only [pure_ok, Prod.mk.injEq] at hrest
  obtain ⟨rfl, rfl⟩ := hrest
  exact ⟨rfl, rfl, hq⟩

theorem mergeEvidence_alone (hq : σ.Quiet) (hwf : σ.db.WellFormed) (hc : c ∈ σ.db.conflicts)
    {logReason : String} (h : σ.mergeEvidenceIntoOpen actor c ids logReason = .ok σ') :
    σ'.db = σ.db.touch actor c (evidenceMerged actor.now) ids .open .open logReason ∧ σ'.Quiet := by
  unfold mergeEvidenceIntoOpen maxVersionRetry mergeEvidenceLoop at h
  rw [bind_ok] at h
  obtain ⟨⟨u, σ₁⟩, hu, hrest⟩ := h
  obtain ⟨rfl, hdb, hq₁⟩ := update_alone hq hwf hc hu
  simp only [pure_ok] at hrest
  subst hrest
  exact ⟨by simp [linkAndLog, touch, hdb, bumped], hq₁⟩

theorem reopen_alone (hq : σ.Quiet) (hwf : σ.db.WellFormed) (hc : c ∈ σ.db.conflicts)
    (h : σ.reopenResolvedForEvidence actor c ids = .ok σ') :
    σ'.db = σ.db.touch actor c (reopenedForEvidence actor.now) ids .resolved .open
      "Reopened due to contradictory new evidence" ∧ σ'.Quiet := by
  unfold reopenResolvedForEvidence maxVersionRetry reopenLoop at h
  rw [bind_ok] at h
  obtain ⟨⟨u, σ₁⟩, hu, hrest⟩ := h
  obtain ⟨rfl, hdb, hq₁⟩ := update_alone hq hwf hc hu
  simp only [pure_ok] at hrest
  subst hrest
  exact ⟨by simp [linkAndLog, touch, hdb, bumped], hq₁⟩

theorem moveWinner_alone (hq : σ.Quiet) (hwf : σ.db.WellFormed) (hc : c ∈ σ.db.conflicts)
    {w : Uuid} (h : moveWinnerLoop actor w maxVersionRetry c σ = .ok σ') :
    σ'.db = σ.db.touch actor c (winnerMoved w actor.now) [w] .resolved .resolved
      ("Winning claim superseded by source-record correction; " ++
        "winner updated to equivalent replacement") ∧ σ'.Quiet := by
  unfold maxVersionRetry moveWinnerLoop at h
  rw [bind_ok] at h
  obtain ⟨⟨u, σ₁⟩, hu, hrest⟩ := h
  obtain ⟨rfl, hdb, hq₁⟩ := update_alone hq hwf hc hu
  simp only [pure_ok] at hrest
  subst hrest
  exact ⟨by simp [linkAndLog, touch, hdb, bumped], hq₁⟩

theorem keepsConflict_evidenceMerged (now : Time) : KeepsConflict (evidenceMerged now) :=
  ⟨fun _ => rfl, fun _ => rfl, fun _ => rfl⟩

theorem keepsConflict_reopenedForEvidence (now : Time) : KeepsConflict (reopenedForEvidence now) :=
  ⟨fun _ => rfl, fun _ => rfl, fun _ => rfl⟩

theorem keepsConflict_autoResolved (w : Uuid) (now : Time) : KeepsConflict (autoResolved w now) :=
  ⟨fun _ => rfl, fun _ => rfl, fun _ => rfl⟩

theorem keepsConflict_winnerMoved (w : Uuid) (now : Time) : KeepsConflict (winnerMoved w now) :=
  ⟨fun _ => rfl, fun _ => rfl, fun _ => rfl⟩

end Alone

end Session

/-! ## Detection -/

namespace Db

/-- The group detection forms for a field are the active claims of the field. -/
theorem fieldGroup_findActiveByEvent (s : Db) (e : Uuid) (f : String) :
    fieldGroup (s.findActiveByEvent e) (e, f) = s.findActiveByEventField e f := by
  unfold fieldGroup findActiveByEvent findActiveByEventField
  rw [List.filter_filter]
  apply List.filter_congr
  intro k _
  by_cases h : k.eventId = e <;> simp [h, and_comm]

theorem filter_findActiveByEvent (s : Db) (e : Uuid) (f : String) :
    ((s.findActiveByEvent e).filter fun c => c.fieldName = f) = s.findActiveByEventField e f := by
  unfold findActiveByEvent findActiveByEventField
  rw [List.filter_filter]
  apply List.filter_congr
  intro k _
  by_cases h : k.eventId = e <;> simp [h]

theorem mem_findActiveByEventField {s : Db} {e : Uuid} {f : String} {k : Claim} :
    k ∈ s.findActiveByEventField e f ↔
      k ∈ s.claims ∧ k.eventId = e ∧ k.fieldName = f ∧ k.isActive = true := by
  simp [findActiveByEventField]

section Contested

variable [PyText]

/-- The active claims of the field disagree across at least two sources. -/
def Contested (s : Db) (eventId : Uuid) (fieldName : String) : Prop :=
  Disagree (s.findActiveByEventField eventId fieldName) ∧
    MultiSource (s.findActiveByEventField eventId fieldName)

/-- What detection finds on an event: the contested fields, with all their
active claims. -/
theorem mem_detect_event {s : Db} {e : Uuid} {p : PotentialConflict} :
    p ∈ detect true (s.findActiveByEvent e) ↔
      p.eventId = e ∧ s.Contested e p.fieldName ∧
        p.claimIds = (s.findActiveByEventField e p.fieldName).map Claim.id := by
  rw [mem_detect]
  constructor
  · intro h
    obtain ⟨hdis, hsrc, hids⟩ := h
    have he : p.eventId = e := by
      obtain ⟨a, ha, -⟩ := hsrc
      simp only [fieldGroup, findActiveByEvent, List.mem_filter, decide_eq_true_eq,
        Prod.mk.injEq] at ha
      rw [← ha.2.2.1]
      exact ha.1.2.1
    rw [he, fieldGroup_findActiveByEvent] at hdis hsrc hids
    exact ⟨he, ⟨hdis, hsrc⟩, hids⟩
  · intro h
    obtain ⟨rfl, ⟨hdis, hsrc⟩, hids⟩ := h
    rw [fieldGroup_findActiveByEvent]
    exact ⟨hdis, hsrc, hids⟩

end Contested

/-- The event and field have an OPEN conflict that links the claims. -/
def OpenLinked (s : Db) (e : Uuid) (f : String) (ids : List Uuid) : Prop :=
  ∃ c ∈ s.conflicts, c.eventId = e ∧ c.fieldName = f ∧ c.status = .open ∧
    ∀ k ∈ ids, (c.id, k) ∈ s.conflictClaims

/-- What applying detected conflicts of the given fields does. -/
structure Opens (s s' : Db) (e : Uuid) (fields : List String) (ids : String → List Uuid) :
    Prop where
  only : ConflictsOnly s s'
  wf : s'.WellFormed
  others : ∀ d : ClaimConflict, ¬ (d.eventId = e ∧ d.fieldName ∈ fields) →
    (d ∈ s'.conflicts ↔ d ∈ s.conflicts)
  opened : ∀ f ∈ fields, s'.OpenLinked e f (ids f)
  links : ∀ l ∈ s.conflictClaims, l ∈ s'.conflictClaims
  newLinks : ∀ l ∈ s'.conflictClaims, l ∈ s.conflictClaims ∨
    ∃ c ∈ s'.conflicts, c.id = l.1 ∧ c.eventId = e ∧ c.fieldName ∈ fields ∧ c.status = .open
  logged : Logged (· = e) s s'

theorem Opens.nil {s : Db} (hwf : s.WellFormed) (e : Uuid) (ids : String → List Uuid) :
    Opens s s e [] ids :=
  ⟨ConflictsOnly.refl s, hwf, fun _ _ => Iff.rfl, fun _ h => absurd h (by simp), fun _ h => h,
    fun _ h => Or.inl h, .refl⟩

/-- Opening one field, then others. -/
theorem Opens.cons {s s₁ s' : Db} {e : Uuid} {f : String} {fields : List String}
    {ids : String → List Uuid} (h₁ : Opens s s₁ e [f] ids) (h₂ : Opens s₁ s' e fields ids)
    (hf : f ∉ fields) : Opens s s' e (f :: fields) ids := by
  refine ⟨h₁.only.trans h₂.only, h₂.wf, ?_, ?_, fun l hl => h₂.links l (h₁.links l hl), ?_,
    h₁.logged.trans h₂.logged⟩
  · intro d hd
    rw [h₂.others d (by grind), h₁.others d (by grind)]
  · intro g hg
    rcases List.mem_cons.mp hg with rfl | hg
    · obtain ⟨c, hc, hce, hcf, hopen, hlinks⟩ := h₁.opened g (by simp)
      have hc' : c ∈ s'.conflicts := (h₂.others c (by grind)).mpr hc
      exact ⟨c, hc', hce, hcf, hopen, fun k hk => h₂.links _ (hlinks k hk)⟩
    · exact h₂.opened g hg
  · intro l hl
    rcases h₂.newLinks l hl with hl | ⟨c, hc, hcl, hce, hcf, hopen⟩
    · rcases h₁.newLinks l hl with hl | ⟨c, hc, hcl, hce, hcf, hopen⟩
      · exact Or.inl hl
      · right
        have hcf' : c.fieldName = f := by simpa using hcf
        exact ⟨c, (h₂.others c (by grind)).mpr hc, hcl, hce, by simp [hcf'], hopen⟩
    · exact Or.inr ⟨c, hc, hcl, hce, List.mem_cons_of_mem f hcf, hopen⟩

/-- A RESOLVED row after opening fields was there before. -/
theorem Opens.resolved_origin {s s' : Db} {e : Uuid} {fields : List String}
    {ids : String → List Uuid} (h : Opens s s' e fields ids) {d : ClaimConflict}
    (hd : d ∈ s'.conflicts) (hres : d.status = .resolved) : d ∈ s.conflicts := by
  refine (h.others d ?_).mp hd
  intro hx
  obtain ⟨c, hc, hce, hcf, hopen, -⟩ := h.opened d.fieldName hx.2
  rw [h.wf.row_eq hc hd (hce.trans hx.1.symm) hcf, hres] at hopen
  cases hopen

/-- A touch that leaves its row OPEN opens the row's field. -/
theorem opens_touch {s : Db} (ids : String → List Uuid) (hwf : s.WellFormed)
    {c : ClaimConflict} (hc : c ∈ s.conflicts) {actor : Actor}
    {g : ClaimConflict → ClaimConflict} (hg : KeepsConflict g)
    {fromStatus toStatus : ConflictStatus} {reason : String}
    (hids : ∀ id ∈ ids c.fieldName, ∃ k ∈ s.claims, k.id = id ∧ k.eventId = c.eventId ∧
      k.fieldName = c.fieldName)
    (hopen : (g c).status = .open)
    (hwinner : ∀ w, (g c).winningClaimId = some w → c.winningClaimId = some w)
    (hfrom : c.status = fromStatus) (hto : (g c).status = toStatus) :
    Opens s (s.touch actor c g (ids c.fieldName) fromStatus toStatus reason) c.eventId
      [c.fieldName] ids := by
  subst hfrom hto
  have hbump : (bumped g c) ∈ (s.touch actor c g (ids c.fieldName) c.status (g c).status
      reason).conflicts := (mem_touch_conflicts hwf hc).mpr (Or.inl rfl)
  refine ⟨touch_conflictsOnly, ?_, ?_, ?_, ?_, ?_, .single (.touch hc rfl hg)⟩
  · apply hwf.touch hc hg hids
    · intro w hw
      exact Or.inr (hwf.winnerLinked c hc w (hwinner w hw))
    · intro hres
      rw [hopen] at hres
      cases hres
  · intro d hd
    rw [mem_touch_conflicts hwf hc]
    constructor
    · intro h
      rcases h with rfl | ⟨h, -⟩
      · exact absurd ⟨hg.eventId c, by simp [bumped, hg.fieldName]⟩ hd
      · exact h
    · intro h
      refine Or.inr ⟨h, ?_⟩
      intro hid
      rw [hwf.conflictIds.eq_of_key h hc hid] at hd
      simp at hd
  · intro f hf
    rw [List.mem_singleton.mp hf]
    refine ⟨bumped g c, hbump, hg.eventId c, hg.fieldName c, hopen, ?_⟩
    intro k hk
    refine mem_touch_links.mpr (Or.inr ⟨hg.id c, hk⟩)
  · intro l hl
    exact mem_touch_links.mpr (Or.inl hl)
  · intro l hl
    rcases mem_touch_links.mp hl with hl | ⟨hl, -⟩
    · exact Or.inl hl
    · right
      exact ⟨bumped g c, hbump, (hg.id c).trans hl.symm, hg.eventId c,
        by simp [bumped, hg.fieldName], hopen⟩

theorem mem_openRow_conflicts {s : Db} {actor : Actor} {p : PotentialConflict}
    {d : ClaimConflict} : d ∈ (s.openRow actor p).conflicts ↔
      d ∈ s.conflicts ∨ d = Session.newConflictRow s.nextId p actor.now := by
  simp [openRow, logActivity, addActivity, addClaimsToConflict]

theorem mem_openRow_links {s : Db} {actor : Actor} {p : PotentialConflict} {l : Uuid × Uuid} :
    l ∈ (s.openRow actor p).conflictClaims ↔
      l ∈ s.conflictClaims ∨ (l.1 = s.nextId ∧ l.2 ∈ p.claimIds) :=
  mem_addClaimsToConflict

/-- Inserting a row opens its field. -/
theorem opens_openRow {s : Db} (hwf : s.WellFormed) {actor : Actor} {p : PotentialConflict}
    {ids : String → List Uuid} (hp : p.claimIds = ids p.fieldName)
    (hids : ∀ id ∈ p.claimIds, ∃ k ∈ s.claims, k.id = id ∧ k.eventId = p.eventId ∧
      k.fieldName = p.fieldName)
    (hnone : ∀ d ∈ s.conflicts, (d.eventId, d.fieldName) ≠ (p.eventId, p.fieldName))
    (hevent : ∃ e ∈ s.events, e.id = p.eventId)
    (hclaim : ∃ k ∈ s.claims, k.eventId = p.eventId ∧ k.fieldName = p.fieldName) :
    Opens s (s.openRow actor p) p.eventId [p.fieldName] ids := by
  have hrow : Session.newConflictRow s.nextId p actor.now ∈ (s.openRow actor p).conflicts :=
    mem_openRow_conflicts.mpr (Or.inr rfl)
  refine ⟨⟨rfl⟩, ?_, ?_, ?_, ?_, ?_, .single (.insert rfl hclaim)⟩
  · have hadded := hwf.uuid4.addConflict (c := Session.newConflictRow s.nextId p actor.now)
      (Nat.lt_succ_self s.nextId) (fun d hd => Nat.ne_of_lt (hwf.conflict_lt d hd)) hnone rfl rfl
      hevent
    have hlinked : (Db.addClaimsToConflict _ s.nextId p.claimIds).WellFormed :=
      hadded.addClaimsToConflict (c := Session.newConflictRow s.nextId p actor.now) (by simp) hids
    exact hlinked.of_sameTables ⟨rfl, rfl, rfl, rfl, rfl, rfl⟩
  · intro d hd
    rw [mem_openRow_conflicts]
    constructor
    · intro h
      rcases h with h | rfl
      · exact h
      · exact absurd ⟨rfl, by simp [Session.newConflictRow]⟩ hd
    · exact Or.inl
  · intro f hf
    rw [List.mem_singleton.mp hf, ← hp]
    exact ⟨_, hrow, rfl, rfl, rfl, fun k hk => mem_openRow_links.mpr (Or.inr ⟨rfl, hk⟩)⟩
  · intro l hl
    exact mem_openRow_links.mpr (Or.inl hl)
  · intro l hl
    rcases mem_openRow_links.mp hl with hl | ⟨hl, -⟩
    · exact Or.inl hl
    · exact Or.inr ⟨_, hrow, hl.symm, rfl, by simp [Session.newConflictRow], rfl⟩

end Db

namespace Session

open Db

section Apply

variable [PyText] {σ σ' : Session} {actor : Actor} {e : Uuid}

omit [PyText] in
theorem openNew_alone (hq : σ.Quiet) {p : PotentialConflict}
    (hnone : ∀ d ∈ σ.db.conflicts, (d.eventId, d.fieldName) ≠ (p.eventId, p.fieldName))
    (h : σ.openNewConflict actor p = .ok σ') : σ'.db = σ.db.openRow actor p ∧ σ'.Quiet := by
  have hq' : ({ σ with db := σ.db.uuid4.2 } : Session).Quiet := hq
  have hfind : σ.db.uuid4.2.findOpenByEventField p.eventId p.fieldName = none := by
    unfold Db.findOpenByEventField
    rw [List.find?_eq_none]
    intro d hd
    have := hnone d hd
    simp only [ne_eq, Prod.mk.injEq, not_and] at this
    simp only [decide_eq_true_eq, not_and]
    intro he hf
    exact absurd hf (this he)
  have hadd : ({ σ with db := σ.db.uuid4.2 } : Session).tryAddOpen
      (newConflictRow σ.db.uuid4.1 p actor.now) =
      (true, { σ with
        db := { σ.db.uuid4.2 with
          conflicts := σ.db.conflicts ++ [newConflictRow σ.db.nextId p actor.now] }
        locked := σ.db.nextId :: σ.locked }) := by
    have hdb : σ.db.uuid4.2.tryAddOpen (newConflictRow σ.db.uuid4.1 p actor.now) =
        (true, { σ.db.uuid4.2 with
          conflicts := σ.db.conflicts ++ [newConflictRow σ.db.nextId p actor.now] }) := by
      unfold Db.tryAddOpen
      rw [show σ.db.uuid4.2.findOpenByEventField
        (newConflictRow σ.db.uuid4.1 p actor.now).eventId
        (newConflictRow σ.db.uuid4.1 p actor.now).fieldName = none from hfind]
      rfl
    unfold Session.tryAddOpen
    rw [hq'.tick]
    dsimp only
    rw [hdb]
    rfl
  unfold openNewConflict at h
  dsimp only at h
  rw [hadd] at h
  simp only [if_true, pure_ok] at h
  subst h
  exact ⟨rfl, hq⟩

/-- The conflicts read at the start are still the rows of the field. -/
def RowsCurrent (s : Db) (e : Uuid) (existing : List ClaimConflict) (f : String) : Prop :=
  ∀ d : ClaimConflict, d.fieldName = f → (d ∈ existing ↔ d ∈ s.conflicts ∧ d.eventId = e)

theorem contradicted_some {s : Db} {existing : List ClaimConflict} {fieldClaims : List Claim}
    {f : String} {r : ClaimConflict} (h : contradicted s existing fieldClaims f = some r) :
    r ∈ existing ∧ r.fieldName = f ∧ r.status = .resolved := by
  have hlatest : latestResolved existing f = some r := by
    unfold contradicted at h
    grind
  obtain ⟨hr, hres, hrf⟩ := latestResolved_some hlatest
  exact ⟨hr, hrf, hres⟩

/-- **One detected field.**  The loop body of detection opens it. -/
theorem applyPotential_alone (hq : σ.Quiet) (hwf : σ.db.WellFormed) (hlive : ¬ σ.db.IsMerged e)
    {existing : List ClaimConflict} {p : PotentialConflict} (hpe : p.eventId = e)
    (hcontested : σ.db.Contested e p.fieldName)
    (hids : p.claimIds = (σ.db.findActiveByEventField e p.fieldName).map Claim.id)
    (hrows : RowsCurrent σ.db e existing p.fieldName)
    (h : applyPotential actor (σ.db.findActiveByEvent e) existing σ p = .ok σ') :
    Opens σ.db σ'.db e [p.fieldName]
      (fun f => (σ.db.findActiveByEventField e f).map Claim.id) ∧ σ'.Quiet := by
  subst hpe
  have hclaims : ∀ id ∈ (σ.db.findActiveByEventField p.eventId p.fieldName).map Claim.id,
      ∃ k ∈ σ.db.claims, k.id = id ∧ k.eventId = p.eventId ∧ k.fieldName = p.fieldName := by
    intro id hid
    obtain ⟨k, hk, rfl⟩ := List.mem_map.mp hid
    obtain ⟨hk, hke, hkf, -⟩ := mem_findActiveByEventField.mp hk
    exact ⟨k, hk, rfl, hke, hkf⟩
  unfold applyPotential at h
  dsimp only at h
  rw [filter_findActiveByEvent] at h
  split at h
  · -- an OPEN conflict takes the evidence
    rename_i c hlast
    have hmem := List.mem_of_getLast? hlast
    simp only [List.mem_filter, decide_eq_true_eq] at hmem
    obtain ⟨hcx, hopen, hcf⟩ := hmem
    obtain ⟨hc, hce⟩ := (hrows c hcf).mp hcx
    obtain ⟨hdb, hq'⟩ := mergeEvidence_alone hq hwf hc h
    rw [hdb, hids]
    refine ⟨?_, hq'⟩
    rw [← hce, ← hcf] at hclaims ⊢
    exact opens_touch (fun f => (σ.db.findActiveByEventField c.eventId f).map Claim.id)
      hwf hc (keepsConflict_evidenceMerged actor.now) hclaims hopen (fun w hw => hw) hopen hopen
  · rename_i hlast
    have hnoOpen : ∀ d ∈ existing, d.fieldName = p.fieldName → d.status ≠ .open := by
      intro d hd hdf hopen
      rw [List.getLast?_eq_none_iff, List.filter_eq_nil_iff] at hlast
      have := hlast d hd
      simp [hopen, hdf] at this
    split at h
    · -- a RESOLVED conflict is reopened
      rename_i r hcontra
      obtain ⟨hrx, hrf, hres⟩ := contradicted_some hcontra
      obtain ⟨hr, hre⟩ := (hrows r hrf).mp hrx
      obtain ⟨hdb, hq'⟩ := reopen_alone hq hwf hr h
      rw [hdb]
      refine ⟨?_, hq'⟩
      rw [← hre, ← hrf] at hclaims ⊢
      exact opens_touch (fun f => (σ.db.findActiveByEventField r.eventId f).map Claim.id)
        hwf hr (keepsConflict_reopenedForEvidence actor.now) hclaims rfl
        (fun w hw => by simp [reopenedForEvidence] at hw) hres rfl
    · -- no conflict at all: a RESOLVED one would be contradicted
      rename_i hcontra
      have hnoResolved : latestResolved existing p.fieldName = none := by
        cases hlatest : latestResolved existing p.fieldName with
        | none => rfl
        | some r =>
            exfalso
            obtain ⟨hrx, hres, hrf⟩ := latestResolved_some hlatest
            obtain ⟨hr, hre⟩ := (hrows r hrf).mp hrx
            cases hw : r.winningClaimId with
            | none =>
                rw [← hre] at hlive
                exact hlive (hwf.winnerless r hr hres hw)
            | some w =>
                obtain ⟨k, hk, rfl, -, -⟩ := hwf.winner hr hw
                have hwin : winnerOf σ.db r = some k := by
                  simp [winnerOf, hw, getClaim_eq hwf hk]
                have hcon : Contradicts k (σ.db.findActiveByEventField p.eventId p.fieldName) :=
                  hcontested.1.exists_ne _
                simp [contradicted, hlatest, hwin, hcon] at hcontra
      have hnoRow : ∀ d ∈ σ.db.conflicts,
          (d.eventId, d.fieldName) ≠ (p.eventId, p.fieldName) := by
        intro d hd heq
        simp only [Prod.mk.injEq] at heq
        have hdx := (hrows d heq.2).mpr ⟨hd, heq.1⟩
        cases hstatus : d.status with
        | «open» => exact hnoOpen d hdx heq.2 hstatus
        | resolved => exact latestResolved_none hnoResolved d hdx heq.2 hstatus
      obtain ⟨hdb, hq'⟩ := openNew_alone hq hnoRow h
      obtain ⟨k, hk, -⟩ := hcontested.2
      obtain ⟨hk, hke, hkf, -⟩ := mem_findActiveByEventField.mp hk
      rw [hdb]
      exact ⟨opens_openRow hwf hids (hids ▸ hclaims) hnoRow (hke ▸ hwf.claimEvent k hk)
        ⟨k, hk, hke, hkf⟩, hq'⟩

/-- **All detected fields.**  By induction on the loop: the rows of the fields
still to come are the ones read at the start. -/
theorem applyAll_alone {s : Db} {existing : List ClaimConflict} (ps : List PotentialConflict)
    (hps : ∀ p ∈ ps, p.eventId = e ∧ s.Contested e p.fieldName ∧
      p.claimIds = (s.findActiveByEventField e p.fieldName).map Claim.id)
    (hnodup : (ps.map PotentialConflict.fieldName).Nodup)
    (hq : σ.Quiet) (hwf : σ.db.WellFormed) (hlive : ¬ σ.db.IsMerged e)
    (hclaims : σ.db.claims = s.claims)
    (hrows : ∀ p ∈ ps, RowsCurrent σ.db e existing p.fieldName)
    (h : ps.foldlM (applyPotential actor (s.findActiveByEvent e) existing) σ = .ok σ') :
    Opens σ.db σ'.db e (ps.map PotentialConflict.fieldName)
      (fun f => (s.findActiveByEventField e f).map Claim.id) ∧ σ'.Quiet := by
  induction ps generalizing σ with
  | nil =>
      rw [List.foldlM_nil, pure_ok] at h
      subst h
      exact ⟨Opens.nil hwf e _, hq⟩
  | cons p ps ih =>
      rw [List.foldlM_cons, bind_ok] at h
      obtain ⟨σ₁, hp, hrest⟩ := h
      have hfield : ∀ f, σ.db.findActiveByEventField e f = s.findActiveByEventField e f := by
        intro f
        unfold findActiveByEventField
        rw [hclaims]
      have hevent : σ.db.findActiveByEvent e = s.findActiveByEvent e := by
        unfold findActiveByEvent
        rw [hclaims]
      obtain ⟨hpe, hcon, hids⟩ := hps p (by simp)
      rw [← hevent] at hp
      have hcon' : σ.db.Contested e p.fieldName := by
        unfold Contested at hcon ⊢
        rw [hfield]
        exact hcon
      obtain ⟨hopen, hq₁⟩ := applyPotential_alone hq hwf hlive hpe hcon' (by rw [hfield]; exact hids)
        (hrows p (by simp)) hp
      simp only [hfield] at hopen
      simp only [List.map_cons, List.nodup_cons] at hnodup
      have hrows₁ : ∀ q ∈ ps, RowsCurrent σ₁.db e existing q.fieldName := by
        intro q hqm d hdf
        rw [hrows q (List.mem_cons_of_mem p hqm) d hdf]
        by_cases hde : d.eventId = e
        · rw [hopen.others d]
          intro hd
          apply hnodup.1
          rw [List.mem_map]
          exact ⟨q, hqm, by rw [← hdf]; simpa using hd.2⟩
        · simp [hde]
      obtain ⟨hopens, hq'⟩ := ih (fun q hqm => hps q (List.mem_cons_of_mem p hqm)) hnodup.2 hq₁
        hopen.wf (by rw [hopen.only.isMerged]; exact hlive) (hopen.only.claims.trans hclaims)
        hrows₁ hrest
      rw [List.map_cons]
      exact ⟨hopen.cons hopens hnodup.1, hq'⟩

/-- The fields detection visits on an event. -/
def contestedFields (s : Db) (e : Uuid) : List String :=
  (detect true (s.findActiveByEvent e)).map PotentialConflict.fieldName

theorem mem_contestedFields {s : Db} {f : String} :
    f ∈ contestedFields s e ↔ s.Contested e f := by
  unfold contestedFields
  rw [List.mem_map]
  constructor
  · intro h
    obtain ⟨p, hp, rfl⟩ := h
    exact (mem_detect_event.mp hp).2.1
  · intro h
    exact ⟨⟨e, f, (s.findActiveByEventField e f).map Claim.id⟩,
      mem_detect_event.mpr ⟨rfl, h, rfl⟩, rfl⟩

theorem nodup_contestedFields (s : Db) (e : Uuid) : (contestedFields s e).Nodup := by
  have hnodup := detect_nodup true (s.findActiveByEvent e)
  have hkeys : (detect true (s.findActiveByEvent e)).map (fun p => (p.eventId, p.fieldName)) =
      (contestedFields s e).map (fun f => (e, f)) := by
    unfold contestedFields
    rw [List.map_map]
    apply List.map_congr_left
    intro p hp
    simp [(mem_detect_event.mp hp).1]
  rw [hkeys] at hnodup
  exact hnodup.of_map

/-- **Detection, alone.**  On a live event it opens exactly the contested
fields. -/
theorem detect_alone (hq : σ.Quiet) (hwf : σ.db.WellFormed) (hlive : ¬ σ.db.IsMerged e)
    (h : σ.detectAndApplyNewConflicts actor e = .ok σ') :
    Opens σ.db σ'.db e (contestedFields σ.db e)
      (fun f => (σ.db.findActiveByEventField e f).map Claim.id) ∧ σ'.Quiet := by
  unfold detectAndApplyNewConflicts at h
  dsimp only at h
  split at h
  · rename_i hnil
    rw [pure_ok] at h
    subst h
    have : contestedFields σ.db e = [] := by
      unfold contestedFields
      rw [hnil]
      rfl
    rw [this]
    exact ⟨Opens.nil hwf e _, hq⟩
  · unfold Session.findConflictsByEvent at h
    rw [hq.tick] at h
    dsimp only at h
    refine applyAll_alone _ ?_ (nodup_contestedFields σ.db e) hq hwf hlive rfl ?_ h
    · intro p hp
      exact mem_detect_event.mp hp
    · intro p _ d _
      exact mem_findConflictsByEvent

/-! ## Winners that were superseded -/

/-- The active claims of a conflict's event and field. -/
def activeOf (s : Db) (c : ClaimConflict) : List Claim :=
  s.findActiveByEventField c.eventId c.fieldName

/-- What becomes of a RESOLVED conflict whose winner was superseded: with no
active claim it stays; with agreeing claims it gets an active winner, the
replacement when that is one of them; with disagreeing claims it is OPEN. -/
def WinnerSettled (s : Db) (c : ClaimConflict) (replacement : Claim) (d : ClaimConflict) : Prop :=
  d.id = c.id ∧ d.eventId = c.eventId ∧ d.fieldName = c.fieldName ∧
    ((activeOf s c = [] ∧ d = c) ∨
      (d.status = c.status ∧ ∃ w ∈ (activeOf s c).map Claim.id, d.winningClaimId = some w ∧
        (replacement.fieldName = c.fieldName → replacement.id ∈ (activeOf s c).map Claim.id →
          w = replacement.id)) ∨
      (Disagree (activeOf s c) ∧ d.status = .open))

/-- What reconciling the given conflicts does. -/
structure Reconciles (s s' : Db) (pairs : List (ClaimConflict × Claim)) : Prop where
  only : ConflictsOnly s s'
  wf : s'.WellFormed
  others : ∀ d : ClaimConflict, d.id ∉ pairs.map (fun pr => pr.1.id) →
    (d ∈ s'.conflicts ↔ d ∈ s.conflicts)
  settled : ∀ pr ∈ pairs, ∃ d ∈ s'.conflicts, WinnerSettled s pr.1 pr.2 d
  links : ∀ l ∈ s.conflictClaims, l ∈ s'.conflictClaims
  newLinks : ∀ l ∈ s'.conflictClaims, l ∈ s.conflictClaims ∨
    ∃ k ∈ s.claims, k.id = l.2 ∧ k.isActive = true
  logged : Logged (fun x => ∃ pr ∈ pairs, pr.1.eventId = x) s s'

theorem Reconciles.of_touch {s : Db} (hwf : s.WellFormed) {c : ClaimConflict}
    (hc : c ∈ s.conflicts) {replacement : Claim} {g : ClaimConflict → ClaimConflict}
    (hg : KeepsConflict g) {ids : List Uuid} (hids : ∀ id ∈ ids, id ∈ (activeOf s c).map Claim.id)
    (hwinner : ∀ w, (g c).winningClaimId = some w → w ∈ ids)
    (hnone : (g c).status = .resolved → (g c).winningClaimId ≠ none)
    (hsettled : WinnerSettled s c replacement (bumped g c))
    {fromStatus toStatus : ConflictStatus} {reason : String} (hfrom : c.status = fromStatus)
    (hto : (g c).status = toStatus) :
    Reconciles s (s.touch actor c g ids fromStatus toStatus reason) [(c, replacement)] := by
  subst hfrom hto
  have hclaims : ∀ id ∈ ids, ∃ k ∈ s.claims, k.id = id ∧ k.eventId = c.eventId ∧
      k.fieldName = c.fieldName ∧ k.isActive = true := by
    intro id hid
    obtain ⟨k, hk, rfl⟩ := List.mem_map.mp (hids id hid)
    obtain ⟨hk, hke, hkf, hka⟩ := mem_findActiveByEventField.mp hk
    exact ⟨k, hk, rfl, hke, hkf, hka⟩
  refine ⟨touch_conflictsOnly, ?_, ?_, ?_, fun l hl => mem_touch_links.mpr (Or.inl hl), ?_,
    .single (.touch hc ⟨(c, replacement), by simp, rfl⟩ hg)⟩
  · apply hwf.touch hc hg
    · intro id hid
      obtain ⟨k, hk, hkid, hke, hkf, -⟩ := hclaims id hid
      exact ⟨k, hk, hkid, hke, hkf⟩
    · intro w hw
      exact Or.inl (hwinner w hw)
    · intro hres hw
      exact absurd hw (hnone hres)
  · intro d hd
    rw [mem_touch_conflicts hwf hc]
    have hne : d.id ≠ c.id := by simpa using hd
    constructor
    · intro h
      rcases h with rfl | ⟨h, -⟩
      · exact absurd (hg.id c) hne
      · exact h
    · intro h
      exact Or.inr ⟨h, hne⟩
  · intro pr hpr
    rw [List.mem_singleton.mp hpr]
    exact ⟨_, (mem_touch_conflicts hwf hc).mpr (Or.inl rfl), hsettled⟩
  · intro l hl
    rcases mem_touch_links.mp hl with hl | ⟨-, hl⟩
    · exact Or.inl hl
    · obtain ⟨k, hk, hkid, -, -, hka⟩ := hclaims l.2 hl
      exact Or.inr ⟨k, hk, hkid, hka⟩

theorem uniqueNormalisedValues_pos {claims : List Claim} (h : claims ≠ []) :
    0 < (uniqueNormalisedValues claims).length := by
  cases claims with
  | nil => exact absurd rfl h
  | cons c cs =>
      have := length_le_foldl_insertValue (insertValue [] (hashableValue c))
        (cs.map hashableValue)
      simp only [uniqueNormalisedValues, List.map_cons, List.foldl_cons]
      have hone : (insertValue [] (hashableValue c)).length = 1 := by simp [insertValue]
      omega

/-- One RESOLVED conflict whose winner was superseded. -/
theorem reconcileWinner_alone (hq : σ.Quiet) (hwf : σ.db.WellFormed) {c : ClaimConflict}
    (hc : c ∈ σ.db.conflicts) (hres : c.status = .resolved) {replacement : Claim}
    (h : σ.reconcileResolvedWinner actor c replacement = .ok σ') :
    Reconciles σ.db σ'.db [(c, replacement)] ∧ σ'.Quiet := by
  unfold reconcileResolvedWinner at h
  dsimp only at h
  split at h
  · rename_i hactive
    rw [pure_ok] at h
    subst h
    refine ⟨⟨ConflictsOnly.refl _, hwf, fun _ _ => Iff.rfl, ?_, fun _ hl => hl,
      fun _ hl => Or.inl hl, .refl⟩, hq⟩
    intro pr hpr
    rw [List.mem_singleton.mp hpr]
    exact ⟨c, hc, rfl, rfl, rfl, Or.inl ⟨hactive, rfl⟩⟩
  · rename_i first rest hactive
    split at h
    · rename_i hone
      obtain ⟨hdb, hq'⟩ := moveWinner_alone hq hwf hc h
      have hnew : (if replacement.fieldName = c.fieldName ∧ replacement.id ∈
          (σ.db.findActiveByEventField c.eventId c.fieldName).map Claim.id then replacement.id
          else first.id) ∈ (activeOf σ.db c).map Claim.id := by
        split
        · rename_i hin
          exact hin.2
        · unfold activeOf
          rw [hactive]
          simp
      rw [hdb]
      refine ⟨Reconciles.of_touch hwf hc (keepsConflict_winnerMoved _ _) ?_ ?_ ?_ ?_ hres hres, hq'⟩
      · intro id hid
        rw [List.mem_singleton.mp hid]
        exact hnew
      · intro w hw
        simp only [winnerMoved, Option.some.injEq] at hw
        rw [hw]
        simp
      · intro _
        simp [winnerMoved]
      · refine ⟨rfl, rfl, rfl, Or.inr (Or.inl ⟨rfl, _, hnew, rfl, ?_⟩)⟩
        intro hf hin
        exact if_pos ⟨hf, hin⟩
    · rename_i hone
      obtain ⟨hdb, hq'⟩ := reopen_alone hq hwf hc h
      have hdis : Disagree (activeOf σ.db c) := by
        have hpos : 0 < (uniqueNormalisedValues (activeOf σ.db c)).length :=
          uniqueNormalisedValues_pos (by unfold activeOf; rw [hactive]; simp)
        unfold Disagree
        unfold activeOf at hpos ⊢
        omega
      rw [hdb]
      refine ⟨Reconciles.of_touch hwf hc (keepsConflict_reopenedForEvidence _) ?_ ?_ ?_ ?_ hres rfl,
        hq'⟩
      · intro id hid
        exact hid
      · intro w hw
        simp [reopenedForEvidence] at hw
      · intro hstill
        simp [reopenedForEvidence] at hstill
      · exact ⟨rfl, rfl, rfl, Or.inr (Or.inr ⟨hdis, rfl⟩)⟩

omit [PyText] in
theorem activeOf_congr {s s' : Db} (h : s'.claims = s.claims) (c : ClaimConflict) :
    activeOf s' c = activeOf s c := by
  unfold activeOf findActiveByEventField
  rw [h]

/-- **Superseded winners, alone.**  Each conflict of the list is settled; the
others stay. -/
theorem reconcileWinners_alone (pairs : List (ClaimConflict × Claim))
    (hnodup : (pairs.map fun pr => pr.1.id).Nodup) (hq : σ.Quiet) (hwf : σ.db.WellFormed)
    (hc : ∀ pr ∈ pairs, pr.1 ∈ σ.db.conflicts) (hres : ∀ pr ∈ pairs, pr.1.status = .resolved)
    (h : σ.reconcileSupersededWinners actor pairs = .ok σ') :
    Reconciles σ.db σ'.db pairs ∧ σ'.Quiet := by
  unfold reconcileSupersededWinners at h
  induction pairs generalizing σ with
  | nil =>
      rw [List.foldlM_nil, pure_ok] at h
      subst h
      exact ⟨⟨ConflictsOnly.refl _, hwf, fun _ _ => Iff.rfl, fun _ hpr => absurd hpr (by simp),
        fun _ hl => hl, fun _ hl => Or.inl hl, .refl⟩, hq⟩
  | cons pr pairs ih =>
      rw [List.foldlM_cons, bind_ok] at h
      obtain ⟨σ₁, hpr, hrest⟩ := h
      simp only [List.map_cons, List.nodup_cons] at hnodup
      obtain ⟨h₁, hq₁⟩ := reconcileWinner_alone hq hwf (hc pr (by simp)) (hres pr (by simp)) hpr
      have hother : ∀ qr ∈ pairs, qr.1.id ≠ pr.1.id := by
        intro qr hqr heq
        apply hnodup.1
        rw [← heq]
        exact List.mem_map_of_mem hqr
      have hc₁ : ∀ qr ∈ pairs, qr.1 ∈ σ₁.db.conflicts := by
        intro qr hqr
        exact (h₁.others qr.1 (by simpa using hother qr hqr)).mpr
          (hc qr (List.mem_cons_of_mem pr hqr))
      obtain ⟨h₂, hq₂⟩ := ih hnodup.2 hq₁ h₁.wf hc₁
        (fun qr hqr => hres qr (List.mem_cons_of_mem pr hqr)) hrest
      refine ⟨⟨h₁.only.trans h₂.only, h₂.wf, ?_, ?_, fun l hl => h₂.links l (h₁.links l hl), ?_, ?_⟩,
        hq₂⟩
      · intro d hd
        simp only [List.map_cons, List.mem_cons, not_or] at hd
        rw [h₂.others d hd.2, h₁.others d (by simpa using hd.1)]
      · intro qr hqr
        rcases List.mem_cons.mp hqr with rfl | hqr
        · obtain ⟨d, hd, hset⟩ := h₁.settled qr (by simp)
          refine ⟨d, (h₂.others d ?_).mpr hd, hset⟩
          rw [hset.1]
          exact hnodup.1
        · obtain ⟨d, hd, hset⟩ := h₂.settled qr hqr
          refine ⟨d, hd, ?_⟩
          unfold WinnerSettled at hset ⊢
          rw [activeOf_congr h₁.only.claims] at hset
          exact hset
      · intro l hl
        rcases h₂.newLinks l hl with hl | ⟨k, hk, hrest⟩
        · exact h₁.newLinks l hl
        · rw [h₁.only.claims] at hk
          exact Or.inr ⟨k, hk, hrest⟩
      · refine (h₁.logged.mono ?_).trans (h₂.logged.mono ?_)
        · rintro x ⟨qr, hqr, hx⟩
          exact ⟨qr, List.mem_cons.mpr (.inl (List.mem_singleton.mp hqr)), hx⟩
        · rintro x ⟨qr, hqr, hx⟩
          exact ⟨qr, List.mem_cons_of_mem pr hqr, hx⟩

/-! ## OPEN conflicts the evidence no longer supports -/

/-- What closing stale OPEN conflicts of an event does. -/
structure AutoResolves (s s' : Db) (e : Uuid) : Prop where
  only : ConflictsOnly s s'
  wf : s'.WellFormed
  /-- A row is as it was, or an OPEN row whose evidence agrees is closed with an
  active winner. -/
  rows : ∀ d' ∈ s'.conflicts, d' ∈ s.conflicts ∨
    (d'.eventId = e ∧ d'.status = .resolved ∧
      (∃ w ∈ (activeOf s d').map Claim.id, d'.winningClaimId = some w) ∧
      ∃ d ∈ s.conflicts, d.id = d'.id ∧ d.eventId = d'.eventId ∧ d.fieldName = d'.fieldName ∧
        d.status = .open ∧ ¬ Disagree (activeOf s d))
  /-- A row that is not OPEN, that is disputed, or that is of another event stays. -/
  kept : ∀ d ∈ s.conflicts, d.status = .resolved ∨ Disagree (activeOf s d) ∨ d.eventId ≠ e →
    d ∈ s'.conflicts
  links : ∀ l ∈ s.conflictClaims, l ∈ s'.conflictClaims
  newLinks : ∀ l ∈ s'.conflictClaims, l ∈ s.conflictClaims ∨
    ∃ k ∈ s.claims, k.id = l.2 ∧ k.isActive = true
  logged : Logged (· = e) s s'

theorem AutoResolves.refl {s : Db} (hwf : s.WellFormed) : AutoResolves s s e :=
  ⟨ConflictsOnly.refl s, hwf, fun _ h => Or.inl h, fun _ h _ => h, fun _ h => h,
    fun _ h => Or.inl h, .refl⟩

theorem AutoResolves.trans {s s₁ s' : Db} (h₁ : AutoResolves s s₁ e) (h₂ : AutoResolves s₁ s' e) :
    AutoResolves s s' e := by
  have hact : ∀ c, activeOf s₁ c = activeOf s c := activeOf_congr h₁.only.claims
  refine ⟨h₁.only.trans h₂.only, h₂.wf, ?_, ?_, fun l hl => h₂.links l (h₁.links l hl), ?_,
    h₁.logged.trans h₂.logged⟩
  · intro d' hd'
    rcases h₂.rows d' hd' with hd' | ⟨he, hres, hw, d, hd, hid, hde, hdf, hopen, hdis⟩
    · exact h₁.rows d' hd'
    · right
      rw [hact] at hw hdis
      rcases h₁.rows d hd with hd | ⟨-, hres', -⟩
      · exact ⟨he, hres, hw, d, hd, hid, hde, hdf, hopen, hdis⟩
      · rw [hopen] at hres'
        cases hres'
  · intro d hd hcond
    exact h₂.kept d (h₁.kept d hd hcond) (by rwa [hact])
  · intro l hl
    rcases h₂.newLinks l hl with hl | ⟨k, hk, hrest⟩
    · exact h₁.newLinks l hl
    · rw [h₁.only.claims] at hk
      exact Or.inr ⟨k, hk, hrest⟩

/-- One field. -/
theorem autoResolveField_alone (hq : σ.Quiet) (hwf : σ.db.WellFormed) {f : String}
    (h : σ.autoResolveStaleOpenConflict actor e f = .ok σ') :
    AutoResolves σ.db σ'.db e ∧ σ'.Quiet := by
  unfold autoResolveStaleOpenConflict Session.findOpenByEventField at h
  rw [hq.tick] at h
  dsimp only at h
  split at h
  · rw [pure_ok] at h
    subst h
    exact ⟨AutoResolves.refl hwf, hq⟩
  · rename_i c hfind
    have hc : c ∈ σ.db.conflicts := List.mem_of_find?_eq_some hfind
    have hprop := List.find?_some hfind
    simp only [decide_eq_true_eq] at hprop
    obtain ⟨rfl, rfl, hopen⟩ := hprop
    unfold maxVersionRetry autoResolveLoop at h
    dsimp only at h
    split at h
    · rw [pure_ok] at h
      subst h
      exact ⟨AutoResolves.refl hwf, hq⟩
    · rename_i winning rest hactive
      split at h
      · rw [pure_ok] at h
        subst h
        exact ⟨AutoResolves.refl hwf, hq⟩
      · rename_i hagree
        rw [bind_ok] at h
        obtain ⟨⟨u, σ₁⟩, hu, hrest⟩ := h
        obtain ⟨rfl, hdb, hq₁⟩ := update_alone hq hwf hc hu
        simp only [pure_ok] at hrest
        have hdb' : σ'.db = σ.db.touch actor c (autoResolved winning.id actor.now) [winning.id]
            .open .resolved ("Auto-closed because source-record supersession removed " ++
              "the active disagreement") := by
          rw [← hrest]
          simp [linkAndLog, touch, hdb, bumped]
        have hq' : σ'.Quiet := by
          rw [← hrest]
          exact hq₁
        have hwin : winning ∈ activeOf σ.db c := by
          unfold activeOf
          rw [hactive]
          simp
        obtain ⟨hwk, hwe, hwf', hwa⟩ := mem_findActiveByEventField.mp hwin
        have hdis : ¬ Disagree (activeOf σ.db c) := hagree
        have hlogged : Logged (· = c.eventId) σ.db σ'.db := by
          have hstep : LoggedStep (· = c.eventId) σ.db (σ.db.touch actor c
              (autoResolved winning.id actor.now) [winning.id] c.status .resolved
              ("Auto-closed because source-record supersession removed " ++
                "the active disagreement")) :=
            .touch hc rfl (keepsConflict_autoResolved winning.id actor.now)
          rw [hopen, ← hdb'] at hstep
          exact .single hstep
        rw [hdb'] at hlogged ⊢
        refine ⟨⟨touch_conflictsOnly, ?_, ?_, ?_, fun l hl => mem_touch_links.mpr (Or.inl hl), ?_,
          hlogged⟩, hq'⟩
        · apply hwf.touch hc (keepsConflict_autoResolved _ _)
          · intro id hid
            rw [List.mem_singleton.mp hid]
            exact ⟨winning, hwk, rfl, hwe, hwf'⟩
          · intro w hw
            simp only [autoResolved, Option.some.injEq] at hw
            simp [hw]
          · intro _ hw
            simp [autoResolved] at hw
        · intro d' hd'
          rcases (mem_touch_conflicts hwf hc).mp hd' with rfl | ⟨hd', -⟩
          · exact Or.inr ⟨rfl, rfl, ⟨winning.id, List.mem_map_of_mem hwin, rfl⟩,
              c, hc, rfl, rfl, rfl, hopen, hdis⟩
          · exact Or.inl hd'
        · intro d hd hcond
          refine (mem_touch_conflicts hwf hc).mpr (Or.inr ⟨hd, ?_⟩)
          intro hid
          rw [hwf.conflictIds.eq_of_key hd hc hid] at hcond
          rcases hcond with hres | hd | hne
          · rw [hopen] at hres
            cases hres
          · exact hdis hd
          · exact hne rfl
        · intro l hl
          rcases mem_touch_links.mp hl with hl | ⟨-, hl⟩
          · exact Or.inl hl
          · exact Or.inr ⟨winning, hwk, (List.mem_singleton.mp hl).symm, hwa⟩

/-- **Stale conflicts, alone.** -/
theorem autoResolve_alone (fields : List String) (hq : σ.Quiet) (hwf : σ.db.WellFormed)
    (h : σ.autoResolveStaleOpenConflicts actor e fields = .ok σ') :
    AutoResolves σ.db σ'.db e ∧ σ'.Quiet := by
  unfold autoResolveStaleOpenConflicts at h
  induction fields generalizing σ with
  | nil =>
      rw [List.foldlM_nil, pure_ok] at h
      subst h
      exact ⟨AutoResolves.refl hwf, hq⟩
  | cons f fields ih =>
      rw [List.foldlM_cons, bind_ok] at h
      obtain ⟨σ₁, hf, hrest⟩ := h
      obtain ⟨h₁, hq₁⟩ := autoResolveField_alone hq hwf hf
      obtain ⟨h₂, hq₂⟩ := ih hq₁ h₁.wf hrest
      exact ⟨h₁.trans h₂, hq₂⟩

end Apply

end Session

end Atlas
