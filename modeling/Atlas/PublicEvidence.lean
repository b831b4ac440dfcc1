import Atlas.Normalizer
import Atlas.PublicEvents
import Atlas.Verification

/-!
# The evidence behind a public page

`GetPublicEventEvidence` lists the active claims of the canonical event of a page, oldest
first, and marks those that carry the value which the projection has for their field.  The
winner policy is not run again: the mark is read off the projection.

So the marks are only as good as the projection.  Once the outbox rows of the event are
processed they are right: each undisputed value of the page comes from a claim on the list
that is marked, and each claim on the list is about a field of the page.
-/

namespace Atlas

open Outcome Rows

/-- `PublicEvidenceClaim`. -/
structure PublicEvidenceClaim where
  fieldName : String
  fieldValue : Json
  claimType : ClaimType
  sourceName : String
  sourceKind : SourceKind
  sourceReliabilityTier : Nat
  isWinning : Bool
  isSuperseded : Bool
  createdAt : Time
deriving DecidableEq, Repr

/-- `PublicEvidenceSource`. -/
structure PublicEvidenceSource where
  name : String
  kind : SourceKind
  reliabilityTier : Nat
deriving DecidableEq, Repr

structure PublicEvidenceResponse where
  slug : String
  canonicalEventId : Uuid
  claims : List PublicEvidenceClaim
  sources : List PublicEvidenceSource
  claimCount : Nat
  truncated : Bool
deriving DecidableEq, Repr

/-- `PUBLIC_EVIDENCE_CLAIM_LIMIT`. -/
def publicEvidenceClaimLimit : Nat := 200

/-- `PUBLIC_EVIDENCE_SOURCE_LIMIT`. -/
def publicEvidenceSourceLimit : Nat := 50

/-- `_winning_values_by_field`. -/
def winningValuesByField (projection : Option ProjectedAccidentRecord) : List (String × Json) :=
  match projection with
  | none => []
  | some p => (serialiseFields p.fields).filter fun kv => decide (kv.1 ∉ p.unresolvedConflictFields)

/-- The order of the evidence list: `(created_at, id)`. -/
def Claim.evidenceKey (c : Claim) : Time ×ₗ Uuid := toLex (c.createdAt, c.id)

/-- The order of the source list: `(reliability_tier, name)`. -/
def PublicEvidenceSource.listKey (s : PublicEvidenceSource) : Nat ×ₗ String :=
  toLex (s.reliabilityTier, s.name)

section Evidence

variable [PyRepr]

/-- `_values_equal`. -/
def valuesEqual (a b : Json) : Bool := a.pyEq b || pyStr a == pyStr b

/-- `claim.field_name in winning_values and _values_equal(...)`. -/
def Claim.isWinningAmong (c : Claim) (winningValues : List (String × Json)) : Bool :=
  (winningValues.lookup c.fieldName).any fun v => valuesEqual v c.fieldValue

/-- `_claim_to_public`; the column `kind` is given by the id of the source. -/
def claimToPublic (kindOf : Uuid → SourceKind) (winningValues : List (String × Json)) (c : Claim)
    (source : Option Source) : PublicEvidenceClaim where
  fieldName := c.fieldName
  fieldValue := c.fieldValue
  claimType := c.claimType
  sourceName := (source.map Source.name).getD "(unknown source)"
  sourceKind := (source.map fun src => kindOf src.id).getD .external
  sourceReliabilityTier := (source.map Source.reliabilityTier).getD 99
  isWinning := c.isWinningAmong winningValues
  isSuperseded := !c.claimType.isActive
  createdAt := c.createdAt

omit [PyRepr] in
/-- `_source_to_public`. -/
def sourceToPublic (kindOf : Uuid → SourceKind) (source : Source) : PublicEvidenceSource :=
  ⟨source.name, kindOf source.id, source.reliabilityTier⟩

namespace EditorialDb

/-- The active claims of the event as the list has them, and whether some were cut off. -/
def evidenceClaims (s : EditorialDb) (canonicalId : Uuid) : List Claim × Bool :=
  let active := (s.store.findActiveByEvent canonicalId).insertionSort
    fun a b => a.evidenceKey ≤ b.evidenceKey
  if publicEvidenceClaimLimit < active.length then (active.take publicEvidenceClaimLimit, true)
  else (active, false)

/-- `GetPublicEventEvidence.execute`. -/
def getPublicEventEvidence (s : EditorialDb) (kindOf : Uuid → SourceKind) (slug : String) :
    Except PublicReadError PublicEvidenceResponse := do
  let (page, canonicalId) ← s.loadPageAndCheckVisibility slug
  let (activeClaims, truncated) := s.evidenceClaims canonicalId
  let sources := s.store.getSourcesByIds (activeClaims.map Claim.sourceId)
  let winningValues := winningValuesByField (s.store.getProjection canonicalId)
  let claims := activeClaims.map fun c =>
    claimToPublic kindOf winningValues c (lookup Source.id c.sourceId sources)
  pure { slug := page.slug
         canonicalEventId := canonicalId
         claims := claims
         sources := ((sources.map (sourceToPublic kindOf)).insertionSort
           fun a b => a.listKey ≤ b.listKey).take publicEvidenceSourceLimit
         claimCount := claims.length
         truncated := truncated }

end EditorialDb

end Evidence

/-! ## Fields and the claims on them -/

section Fields

variable [PyText] {e : Uuid} {claims : List Claim}

omit [PyText] in
theorem exists_chooseWinner (sources : List Source) {c : Claim} (hc : c ∈ claims)
    (hwin : c.canWin = true) : ∃ w, chooseWinner claims sources = some w := by
  rw [chooseWinner_eq_argmax, ← Option.isSome_iff_exists, Option.isSome_iff_ne_none]
  intro hnone
  have hmem : c ∈ claims.filter Claim.canWin := List.mem_filter.mpr ⟨hc, hwin⟩
  rw [List.argmax_eq_none.mp hnone] at hmem
  exact List.not_mem_nil hmem

omit [PyText] in
/-- The highest tier of a field with an active claim has one. -/
theorem exists_mem_highestTier {c : Claim} (hc : c ∈ claims) (hactive : c.isActive = true) :
    ∃ k ∈ highestTier claims, k.canWin = true := by
  have htier : ∀ t, t.isActive = true → ofType t claims ≠ [] →
      ∃ k ∈ ofType t claims, k.canWin = true := by
    intro t ht hne
    obtain ⟨k, hk⟩ := List.exists_mem_of_ne_nil _ hne
    refine ⟨k, hk, ?_⟩
    rw [Claim.canWin_eq_isActive, Claim.isActive, (mem_ofType.mp hk).2]
    exact ht
  unfold highestTier
  split_ifs with hoverride hconfirmed
  · exact htier _ rfl hoverride
  · exact htier _ rfl hconfirmed
  · -- nothing is above the raw claims, so the claim is one of them
    refine htier _ rfl (List.ne_nil_of_mem (mem_ofType.mpr ⟨hc, ?_⟩))
    rw [not_not] at hoverride hconfirmed
    cases htype : c.claimType with
    | raw => rfl
    | manualOverride => exact absurd (mem_ofType.mpr ⟨hc, htype⟩) (by simp [hoverride])
    | confirmed => exact absurd (mem_ofType.mpr ⟨hc, htype⟩) (by simp [hconfirmed])
    | superseded =>
        rw [Claim.isActive, htype] at hactive
        cases hactive

/-- A field with an active claim has an entry. -/
theorem projectField_ne_none (conflicts : List ClaimConflict) (sources : List Source) {c : Claim}
    (hc : c ∈ claims) (he : c.eventId = e) (hactive : c.isActive = true) :
    projectField e claims conflicts sources c.fieldName ≠ none := by
  unfold projectField
  split
  · simp
  · dsimp only
    split
    · simp
    · have hgroup : c ∈ fieldGroup claims (e, c.fieldName) :=
        List.mem_filter.mpr ⟨hc, by simp [hactive, he]⟩
      obtain ⟨k, hk, hwin⟩ := exists_mem_highestTier hgroup hactive
      obtain ⟨w, hw⟩ := exists_chooseWinner sources hk hwin
      rw [tieredValue_eq]
      unfold tierValue
      split
      · simp
      · simp [hw]

end Fields

/-! ## The list of the evidence -/

namespace EditorialDb

variable {s : EditorialDb} {e : Uuid}

theorem mem_of_mem_evidenceClaims {c : Claim} (h : c ∈ (s.evidenceClaims e).1) :
    c ∈ s.store.findActiveByEvent e := by
  unfold evidenceClaims at h
  dsimp only at h
  split at h
  · exact (List.mem_insertionSort _).mp (List.mem_of_mem_take h)
  · exact (List.mem_insertionSort _).mp h

/-- A list that was not cut off has them all. -/
theorem mem_evidenceClaims {c : Claim} (hall : (s.evidenceClaims e).2 = false)
    (h : c ∈ s.store.findActiveByEvent e) : c ∈ (s.evidenceClaims e).1 := by
  unfold evidenceClaims at hall ⊢
  dsimp only at hall ⊢
  split at hall
  · cases hall
  · rw [if_neg ‹_›]
    exact (List.mem_insertionSort _).mpr h

end EditorialDb

/-! ## Marks on a fresh projection -/

section Marks

variable [PyText] [PyRepr] {s : Db} {e : Uuid} {st : ProjectedAccidentRecord} {version : Nat}
  {now : Time}

omit [PyText] in
/-- A claim is marked when its value has the text of an undisputed field. -/
theorem isWinningAmong_of_canonical {c : Claim} {u : Projected} (hc : c.fieldValue.Proper)
    (hu : u.serialise.Proper) (hkeys : (st.fields.map Prod.fst).Nodup)
    (hfield : (c.fieldName, u) ∈ st.fields) (hsettled : c.fieldName ∉ st.unresolvedConflictFields)
    (htext : u.serialise.canonical = c.fieldValue.canonical) :
    c.isWinningAmong (winningValuesByField (some st)) = true := by
  have hkept : (c.fieldName, u.serialise) ∈ winningValuesByField (some st) := by
    refine List.mem_filter.mpr ⟨?_, decide_eq_true hsettled⟩
    exact List.mem_map.mpr ⟨(c.fieldName, u), hfield, rfl⟩
  have hnames : ((winningValuesByField (some st)).map Prod.fst).Nodup := by
    refine List.Nodup.sublist (List.filter_sublist.map Prod.fst) ?_
    rw [keys_serialiseFields]
    exact hkeys
  unfold Claim.isWinningAmong
  rw [(lookup_eq_some_iff_mem hnames _ _).mpr hkept, Option.any_some, valuesEqual,
    ((Json.canonical_eq_iff hu hc).mp htext).1, Bool.true_or]

omit [PyRepr] [PyText] in
/-- A stored field is one of the rebuilt record, with the same text. -/
theorem Matches.rebuilt {r : ProjectedAccidentRecord} (h : Matches r st) {f : String} {u : Projected}
    (hu : (f, u) ∈ st.fields) :
    ∃ b, r.fields.lookup f = some b ∧ u.serialise.canonical = b.serialise.canonical := by
  have hkeys := h.sameText.keys h.keys
  obtain ⟨built, hbuilt, rfl⟩ := List.mem_map.mp (hkeys.mem_iff.mpr (List.mem_map_of_mem hu))
  obtain ⟨u', hlookup, -, htext⟩ := h.sameText.lookup h.keys (v := built.2) hbuilt
  have hvalue := (lookup_eq_some_iff_mem (hkeys.nodup_iff.mp h.keys) built.1 u).mpr hu
  rw [Option.some.inj (hvalue.symm.trans hlookup)]
  exact ⟨built.2, (lookup_eq_some_iff_mem h.keys built.1 built.2).mpr hbuilt, htext⟩

/-- **Where an undisputed value comes from.**  The claim the policy chose has its text, and is
marked. -/
theorem exists_marked (hcolumns : s.JsonColumns) (hmatches : Matches (s.buildFrom e version now) st)
    {f : String} {v : Json} (hv : (f, v) ∈ serialiseFields st.fields)
    (hsettled : f ∉ st.unresolvedConflictFields) :
    ∃ w, TakenFrom e (s.findActiveByEvent e) (s.findConflictsByEvent e)
        (s.getSourcesByIds ((s.findActiveByEvent e).map Claim.sourceId)) f w ∧
      w ∈ s.findActiveByEvent e ∧ w.fieldName = f ∧ w.fieldValue.canonical = v.canonical ∧
        w.isWinningAmong (winningValuesByField (some st)) = true := by
  have hkeys := (hmatches.sameText.keys hmatches.keys).nodup_iff.mp hmatches.keys
  obtain ⟨kv, hkv, heq⟩ := List.mem_map.mp hv
  obtain ⟨rfl, rfl⟩ := Prod.mk.inj heq
  obtain ⟨b, hlookup, htext⟩ := hmatches.rebuilt (u := kv.2) hkv
  have hunresolved : st.unresolvedConflictFields =
      (s.buildFrom e version now).unresolvedConflictFields :=
    congrArg ProjectionContent.unresolvedConflictFields hmatches.content
  cases b with
  | disputed =>
      rw [← Db.mem_unresolved_buildFrom, ← hunresolved] at hlookup
      exact absurd hlookup hsettled
  | value j =>
      unfold Db.buildFrom at hlookup
      rw [lookup_build] at hlookup
      obtain ⟨w, hw, rfl⟩ := projectField_value.mp hlookup
      have hgroup := List.mem_filter.mp (Db.mem_fieldGroup_of_takenFrom hw)
      have hkey : (w.eventId, w.fieldName) = (e, kv.1) := (of_decide_eq_true hgroup.2).2
      have hname : w.fieldName = kv.1 := (Prod.mk.inj hkey).2
      refine ⟨w, hw, hgroup.1, hname, htext.symm, ?_⟩
      refine isWinningAmong_of_canonical (hcolumns.claims w (List.mem_filter.mp hgroup.1).1)
        (hmatches.stored kv hkv).2 hkeys ?_ ?_ htext
      · rw [hname]
        exact hkv
      · rw [hname]
        exact hsettled

omit [PyRepr] in
/-- The field of an active claim is on the page. -/
theorem field_of_active (hmatches : Matches (s.buildFrom e version now) st) {c : Claim}
    (hc : c ∈ s.findActiveByEvent e) : ∃ v, (c.fieldName, v) ∈ serialiseFields st.fields := by
  obtain ⟨hmem, hwhere⟩ := List.mem_filter.mp hc
  obtain ⟨he, hactive⟩ := of_decide_eq_true hwhere
  obtain ⟨u, hu⟩ := Option.ne_none_iff_exists'.mp
    (projectField_ne_none (s.findConflictsByEvent e)
      (s.getSourcesByIds ((s.findActiveByEvent e).map Claim.sourceId)) hc he hactive)
  have hlookup : (s.buildFrom e version now).fields.lookup c.fieldName = some u := by
    unfold Db.buildFrom
    rw [lookup_build]
    exact hu
  obtain ⟨x, -, hx, -⟩ := hmatches.sameText.lookup hmatches.keys (mem_of_lookup_fields hlookup)
  exact ⟨x.serialise, List.mem_map.mpr ⟨(c.fieldName, x), hx, rfl⟩⟩

omit [PyText] in
/-- A marked claim is on an undisputed field, and equals its value. -/
theorem of_isWinningAmong {c : Claim} (h : c.isWinningAmong (winningValuesByField (some st)) = true) :
    c.fieldName ∉ st.unresolvedConflictFields ∧
      ∃ v, (c.fieldName, v) ∈ serialiseFields st.fields ∧ valuesEqual v c.fieldValue = true := by
  unfold Claim.isWinningAmong at h
  obtain ⟨v, hv, hequal⟩ := (Option.any_eq_true _ _).mp h
  obtain ⟨hmem, hsettled⟩ := List.mem_filter.mp (mem_of_lookup_fields hv)
  exact ⟨of_decide_eq_true hsettled, v, hmem, hequal⟩

end Marks

/-! ## At quiescence -/

section Quiescence

variable [PyText] [PyRepr]

omit [PyText] [PyRepr] in
theorem loadPageAndCheckVisibility_isLive {s : EditorialDb} {slug : String} {page : PublicEventPage}
    {e : Uuid} (h : s.loadPageAndCheckVisibility slug = .ok (page, e)) : s.store.IsLive e := by
  unfold EditorialDb.loadPageAndCheckVisibility at h
  simp only [bind_ok, pure_ok, Prod.mk.injEq] at h
  obtain ⟨p, -, -, -, -, -, id, hid, -, rfl⟩ := h
  rw [fromOption_ok] at hid
  unfold Db.publicCanonicalId at hid
  split at hid
  · rename_i x hx
    cases hid
    exact (Db.canonicalEventFor_found hx).isLive
  · cases hid
  · cases hid

omit [PyText] [PyRepr] in
theorem getPublicEventPage_of_load {s : EditorialDb} {slug : String} {page : PublicEventPage}
    {e : Uuid} {st : ProjectedAccidentRecord}
    (h : s.loadPageAndCheckVisibility slug = .ok (page, e)) (hst : s.store.getProjection e = some st) :
    ∃ detail, s.getPublicEventPage slug = .ok detail ∧ detail.canonicalEventId = e ∧
      detail.fields = serialiseFields st.fields ∧
      detail.unresolvedConflictFields = st.unresolvedConflictFields := by
  unfold EditorialDb.getPublicEventPage
  rw [h, ok_bind]
  dsimp only
  rw [hst]
  exact ⟨_, rfl, rfl, rfl, rfl⟩

omit [PyText] in
theorem getPublicEventEvidence_of_load {s : EditorialDb} {slug : String} {page : PublicEventPage}
    {e : Uuid} (h : s.loadPageAndCheckVisibility slug = .ok (page, e)) (kindOf : Uuid → SourceKind) :
    ∃ evidence, s.getPublicEventEvidence kindOf slug = .ok evidence ∧
      evidence.canonicalEventId = e ∧ evidence.truncated = (s.evidenceClaims e).2 ∧
      evidence.claims = (s.evidenceClaims e).1.map fun c =>
        claimToPublic kindOf (winningValuesByField (s.store.getProjection e)) c
          (lookup Source.id c.sourceId
            (s.store.getSourcesByIds ((s.evidenceClaims e).1.map Claim.sourceId))) := by
  unfold EditorialDb.getPublicEventEvidence
  rw [h, ok_bind]
  exact ⟨_, rfl, rfl, rfl, rfl⟩

/-- **The evidence backs the page.**  In every world the transactions can reach, take a slug
whose page is public and whose canonical event has claims and outbox rows that are all
PROCESSED.  Both reads of the slug succeed.  Unless the list of claims was cut off, each field
of the page that is not unresolved has the value of the claim that the winner policy takes,
and that claim is on the list and marked.  A claim that is marked is on a field that is not
unresolved and equals its value, and every claim listed is on a field of the page. -/
theorem World.evidence_backs_page {sources : List Source} {w : World} {s : EditorialDb}
    (hstore : s.store = w.db)
    (hrun : Relation.ReflTransGen World.Step (World.idle (Db.empty sources)) w) {slug : String}
    {page : PublicEventPage} {e : Uuid} (hpage : s.loadPageAndCheckVisibility slug = .ok (page, e))
    (hclaims : w.db.HasClaims e)
    (hprocessed : ∀ o ∈ w.db.outbox, o.eventId = e → o.status = .processed)
    (hcolumns : w.db.JsonColumns) (kindOf : Uuid → SourceKind) :
    ∃ detail evidence, s.getPublicEventPage slug = .ok detail ∧
      s.getPublicEventEvidence kindOf slug = .ok evidence ∧
      detail.canonicalEventId = e ∧ evidence.canonicalEventId = e ∧
      (evidence.truncated = false → ∀ kv ∈ detail.fields, kv.1 ∉ detail.unresolvedConflictFields →
        ∃ k, TakenFrom e (w.db.findActiveByEvent e) (w.db.findConflictsByEvent e)
            (w.db.getSourcesByIds ((w.db.findActiveByEvent e).map Claim.sourceId)) kv.1 k ∧
          k.fieldValue.canonical = kv.2.canonical ∧
          ∃ c ∈ evidence.claims, c.fieldName = kv.1 ∧ c.fieldValue = k.fieldValue ∧
            c.isWinning = true) ∧
      ∀ c ∈ evidence.claims, c.fieldName ∈ detail.fields.map Prod.fst ∧
        (c.isWinning = true → c.fieldName ∉ detail.unresolvedConflictFields ∧
          ∃ v, (c.fieldName, v) ∈ detail.fields ∧ valuesEqual v c.fieldValue = true) := by
  have hlive : w.db.IsLive e := hstore ▸ loadPageAndCheckVisibility_isLive hpage
  have hsettled := World.settled_of_run hrun
  obtain ⟨st, hst, hshows⟩ := hsettled.fresh hlive hclaims hprocessed
  have hmatches : Matches (w.db.buildFrom e 0 0) st :=
    ⟨hshows 0 0, Db.nodup_buildFrom _ _ _ _, hcolumns.projections st (lookup_some hst).1,
      (Db.Writes.proper hcolumns (.inr ⟨0, 0, rfl⟩))⟩
  rw [← hstore] at hst
  obtain ⟨detail, hdetail, hid, hfields, hunresolved⟩ := getPublicEventPage_of_load hpage hst
  obtain ⟨evidence, hevidence, hid', htruncated, hlist⟩ :=
    getPublicEventEvidence_of_load hpage kindOf
  rw [hst] at hlist
  refine ⟨detail, evidence, hdetail, hevidence, hid, hid', ?_, ?_⟩
  · intro hall kv hkv hfield
    rw [hfields] at hkv
    rw [hunresolved] at hfield
    obtain ⟨k, htaken, hmem, hname, htext, hmarked⟩ := exists_marked hcolumns hmatches hkv hfield
    refine ⟨k, htaken, htext, ?_⟩
    rw [hlist]
    rw [← hstore] at hmem
    exact ⟨_, List.mem_map_of_mem (EditorialDb.mem_evidenceClaims (htruncated ▸ hall) hmem), hname, rfl, hmarked⟩
  · intro c hc
    rw [hlist] at hc
    obtain ⟨k, hk, rfl⟩ := List.mem_map.mp hc
    have hactive := EditorialDb.mem_of_mem_evidenceClaims hk
    rw [hstore] at hactive
    rw [hfields, hunresolved]
    obtain ⟨v, hv⟩ := field_of_active hmatches hactive
    exact ⟨List.mem_map_of_mem (f := Prod.fst) hv, of_isWinningAmong⟩

end Quiescence

/-- The page of the event whose projection was delivered. -/
def deliveredSite : EditorialDb where
  store := deliveredStore
  nextId := 8
  pages := [⟨7, 5, "acme", "Acme", none, none, .published, 1, some 2, some 2, none, none, 1, 2⟩]
  revisions := []
  search := []
  maps := []

theorem evidence_backs_page_delivered :
    ∃ detail evidence, deliveredSite.getPublicEventPage "acme" = .ok detail ∧
      deliveredSite.getPublicEventEvidence (fun _ => .external) "acme" = .ok evidence ∧
      ("operator" ∈ detail.fields.map Prod.fst ∧
        ∃ c ∈ evidence.claims, c.fieldName = "operator" ∧ c.isWinning = true) := by
  have hpage : deliveredSite.loadPageAndCheckVisibility "acme" =
      .ok (⟨7, 5, "acme", "Acme", none, none, .published, 1, some 2, some 2, none, none, 1, 2⟩, 5) := rfl
  obtain ⟨detail, evidence, hdetail, hevidence, -, -, hmarked, -⟩ :=
    World.evidence_backs_page (w := World.idle deliveredStore) rfl (run_ingests.trans run_delivers)
      hpage ⟨_, List.mem_singleton_self _, rfl⟩
      (by
        intro o ho _
        rw [List.mem_singleton.mp ho]
        rfl)
      jsonColumns_deliveredStore fun _ => .external
  have hfields : (deliveredSite.getPublicEventPage "acme").toOption.map (fun d =>
      (d.fields, d.unresolvedConflictFields)) = some ([("operator", .str "Acme")], []) := rfl
  rw [hdetail] at hfields
  obtain ⟨hoperator, hnone⟩ := Prod.mk.inj (Option.some.inj hfields)
  have htruncated : (deliveredSite.getPublicEventEvidence (fun _ => .external) "acme").toOption.map
      PublicEvidenceResponse.truncated = some false := by decide +kernel
  rw [hevidence] at htruncated
  have hkv : (("operator", .str "Acme") : String × Json) ∈ detail.fields := by
    rw [hoperator]
    exact List.mem_singleton_self _
  have hsettled : "operator" ∉ detail.unresolvedConflictFields := by
    rw [hnone]
    exact List.not_mem_nil
  obtain ⟨k, -, -, c, hc, hname, -, hwinning⟩ :=
    hmarked (Option.some.inj htruncated) _ hkv hsettled
  exact ⟨detail, evidence, hdetail, hevidence, List.mem_map_of_mem (f := Prod.fst) hkv, c, hc, hname, hwinning⟩

end Atlas
