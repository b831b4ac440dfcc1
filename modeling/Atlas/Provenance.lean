import Atlas.Freshness
import Atlas.IdentityIndex
import Atlas.JsonText
import Atlas.SystemLaws
import Atlas.WinnerPolicy

/-!
# Provenance of the projected fields

`select_projected_claims_by_field` looks for the claim behind each field of a
projection: the winner of the latest resolved conflict when its value is the
projected one, and otherwise the policy's choice among the active claims with that
value.  Values are compared as texts, and the caller says what the text of a value
is; a value without a text has no provenance.  The audit reads every value as
`str(value)`, the timeline only scalars that are not blank.

The columns are JSONB, which keeps no order of keys: a value is read back with its
keys in order.
-/

namespace Atlas

open Rows

/-- `str.casefold`. -/
class PyCasefold where
  casefold : String → String

/-- ASCII, enough to run the model. -/
instance (priority := low) asciiCasefold : PyCasefold where
  casefold s := s.map Char.toLower

/-- `SafeString`: the text of a value that was read, if it has one. -/
abbrev SafeString := Json → Option String

/-- `_same_projected_value`. -/
def sameProjectedValue [PyCasefold] (safeStr : SafeString) (value projected : Json) : Bool :=
  match safeStr value, safeStr projected with
  | some a, some b => PyCasefold.casefold a = PyCasefold.casefold b
  | _, _ => false

/-- `lambda v: str(v) if v is not None else None`, the text of the audit. -/
def auditStr [PyRepr] : SafeString
  | .null => none
  | v => some (pyStr v)

/-- `safe_str` of the timeline; `_safe_str` of the entity extraction computes the same. -/
def chronosSafeStr [PyRepr] : SafeString
  | .null | .arr _ | .obj _ => none
  | .str s =>
      let stripped := strip s
      if stripped = "" ∨ disputedMarker.toList.isPrefixOf stripped.toList then none
      else some stripped
  | v => some (pyStr v)

/-- A claim's value as it is read. -/
def Claim.readValue (c : Claim) : Json := c.fieldValue.canonical

/-- The fields of a stored projection as they are read. -/
def ProjectedAccidentRecord.readFields (p : ProjectedAccidentRecord) : List (String × Json) :=
  Json.canonicalFields (serialiseFields p.fields)

section Select

variable [PyCasefold]

/-- The policy's choice among the claims with the projected value. -/
def matchingWinner (fieldClaims : List Claim) (sources : List Source) (projected : Json)
    (safeStr : SafeString) : Option Claim :=
  chooseWinner (fieldClaims.filter fun c => sameProjectedValue safeStr c.readValue projected) sources

/-- The loop body of `select_projected_claims_by_field`. -/
def selectClaim (rawClaims : List Claim) (sources : List Source) (conflicts : List ClaimConflict)
    (fields : List (String × Json)) (safeStr : SafeString) (fieldName : String) : Option Claim :=
  let projected := (fields.lookup fieldName).getD .null
  if (safeStr projected).isNone then none
  else
    let fieldClaims := rawClaims.filter fun c => c.fieldName = fieldName
    let resolved := (latestResolved conflicts fieldName).bind ClaimConflict.winningClaimId
    match resolved.bind fun id => lookup Claim.id id rawClaims with
    | some winner =>
        if sameProjectedValue safeStr winner.readValue projected then some winner
        else matchingWinner fieldClaims sources projected safeStr
    | none => matchingWinner fieldClaims sources projected safeStr

namespace Db

/-- `select_projected_claims_by_field`. -/
def selectProjectedClaimsByField (s : Db) (eventId : Uuid) (fields : List (String × Json))
    (safeStr : SafeString) : List (String × Claim) :=
  let rawClaims := s.findActiveByEvent eventId
  let sources := s.getSourcesByIds (rawClaims.map Claim.sourceId)
  let conflicts := s.findConflictsByEvent eventId
  (Rows.distinct (rawClaims.map Claim.fieldName)).filterMap fun f =>
    (selectClaim rawClaims sources conflicts fields safeStr f).map fun c => (f, c)

/-- `_compute_winner` of the audit. -/
def computeWinner [PyRepr] (s : Db) (projection : ProjectedAccidentRecord) (fieldName : String) :
    Option Claim :=
  (s.selectProjectedClaimsByField projection.eventId
    [(fieldName, (projection.readFields.lookup fieldName).getD .null)] auditStr).lookup fieldName

end Db

end Select

/-! ## Reading a field -/

/-- In a map with distinct keys, an entry is found under its key. -/
theorem lookup_eq_some_iff_mem {β : Type} {kvs : List (String × β)}
    (hkeys : (kvs.map Prod.fst).Nodup) (k : String) (v : β) :
    kvs.lookup k = some v ↔ (k, v) ∈ kvs := by
  induction kvs with
  | nil => simp
  | cons kv kvs ih =>
      obtain ⟨hnot, hrest⟩ := List.nodup_cons.mp hkeys
      rw [List.lookup_cons, List.mem_cons]
      by_cases hk : k = kv.1
      · have hmem : (k, v) ∉ kvs := by
          intro hmem
          exact hnot (hk ▸ List.mem_map_of_mem hmem)
        rw [hk, beq_self_eq_true, ← hk]
        constructor
        · intro h
          exact .inl (Prod.ext hk (Option.some.inj h).symm)
        · rintro (h | h)
          · rw [← h]
          · exact absurd h hmem
      · have hne : (k == kv.1) = false := by simpa using hk
        rw [hne]
        simp only
        rw [ih hrest]
        constructor
        · exact .inr
        · rintro (h | h)
          · exact absurd (congrArg Prod.fst h) hk
          · exact h

theorem lookup_of_perm {β : Type} {xs ys : List (String × β)} (h : xs.Perm ys)
    (hkeys : (xs.map Prod.fst).Nodup) (k : String) : xs.lookup k = ys.lookup k := by
  have hkeys' : (ys.map Prod.fst).Nodup := (h.map Prod.fst).nodup_iff.mp hkeys
  apply Option.ext
  intro v
  rw [lookup_eq_some_iff_mem hkeys, lookup_eq_some_iff_mem hkeys', h.mem_iff]

theorem lookup_canonicalFields (kvs : List (String × Json)) (k : String) :
    (Json.canonicalFields kvs).lookup k = (kvs.lookup k).map Json.canonical := by
  rw [Json.canonicalFields_eq]
  induction kvs with
  | nil => rfl
  | cons kv kvs ih =>
      rw [List.map_cons, List.lookup_cons, List.lookup_cons, ih]
      cases k == kv.1 <;> rfl

theorem map_fst_readFields (p : ProjectedAccidentRecord) :
    p.readFields.map Prod.fst = p.fields.map Prod.fst := by
  unfold ProjectedAccidentRecord.readFields serialiseFields
  rw [Json.canonicalFields_eq, List.map_map, List.map_map]
  rfl

/-- Records of one content read the same. -/
theorem lookup_readFields_of_content {p q : ProjectedAccidentRecord} (h : p.content = q.content)
    (hkeys : (q.fields.map Prod.fst).Nodup) (k : String) :
    p.readFields.lookup k = q.readFields.lookup k := by
  have hsorted : sortFields p.readFields = sortFields q.readFields :=
    congrArg ProjectionContent.fields h
  have hperm : q.readFields.Perm p.readFields := by
    have hq : (sortFields q.readFields).Perm q.readFields := List.perm_insertionSort _ _
    have hp : (sortFields p.readFields).Perm p.readFields := List.perm_insertionSort _ _
    rw [hsorted] at hp
    exact hq.symm.trans hp
  rw [← map_fst_readFields] at hkeys
  exact (lookup_of_perm hperm hkeys k).symm

/-- A field of a build, as it is read. -/
theorem lookup_readFields_build [PyText] (e : Uuid) (claims : List Claim)
    (conflicts : List ClaimConflict) (sources : List Source) (v : Nat) (now : Time) (f : String) :
    (build e claims conflicts sources v now).readFields.lookup f =
      (projectField e claims conflicts sources f).map fun x => x.serialise.canonical := by
  unfold ProjectedAccidentRecord.readFields
  rw [lookup_canonicalFields, lookup_serialiseFields, lookup_build, Option.map_map]
  rfl

/-! ## The claim behind a projected value -/

namespace Db

variable {s : Db} {e : Uuid} {f : String}

/-- The active winner of the latest resolved conflict of a field. -/
def conflictWinner (s : Db) (e : Uuid) (f : String) : Option Claim :=
  ((latestResolved (s.findConflictsByEvent e) f).bind ClaimConflict.winningClaimId).bind fun id =>
    lookup Claim.id id (s.findActiveByEvent e)

theorem unique_findActiveByEvent (hwf : s.WellFormed) (e : Uuid) :
    Rows.Unique Claim.id (s.findActiveByEvent e) :=
  List.Nodup.sublist (List.filter_sublist.map Claim.id) hwf.claimIds

/-- The winner of a resolved conflict lies on the field of the conflict. -/
theorem conflictWinner_field (hwf : s.WellFormed) {w : Claim} (h : s.conflictWinner e f = some w) :
    w.fieldName = f := by
  unfold conflictWinner at h
  rw [Option.bind_eq_some_iff] at h
  obtain ⟨id, hid, hw⟩ := h
  rw [Option.bind_eq_some_iff] at hid
  obtain ⟨c, hc, hwin⟩ := hid
  rcases foldl_laterResolved_some hc with hnone | ⟨hmem, -, hfield⟩
  · cases hnone
  · obtain ⟨hrow, -⟩ := mem_findConflictsByEvent.mp hmem
    obtain ⟨hmem, hkid⟩ := lookup_some hw
    obtain ⟨k, hk, hkw, -, hkfield⟩ := hwf.winner hrow hwin
    have heq := hwf.claimIds.eq_of_key (mem_findActiveByEvent.mp hmem).1 hk (hkid.trans hkw.symm)
    rw [heq, hkfield, hfield]

section Builder

variable [PyText]

/-- What the builder reads of the evidence of an event. -/
theorem projectField_evidence (hwf : s.WellFormed) (sources : List Source) (e : Uuid) (f : String) :
    projectField e (s.findActiveByEvent e) (s.findConflictsByEvent e) sources f =
      if (s.findConflictsByEvent e).any fun c =>
          c.eventId = e ∧ c.status = .open ∧ c.fieldName = f then some .disputed
      else match s.conflictWinner e f with
        | some w => some (.value w.fieldValue)
        | none => tieredValue sources ((s.findActiveByEvent e).filter fun c => c.fieldName = f) := by
  have hgroup : fieldGroup (s.findActiveByEvent e) (e, f) =
      (s.findActiveByEvent e).filter fun c => c.fieldName = f := by
    unfold fieldGroup
    apply List.filter_congr
    intro c hc
    obtain ⟨-, hevent, hactive⟩ := mem_findActiveByEvent.mp hc
    simp [hevent, hactive]
  have hconflicts : ((s.findConflictsByEvent e).filter fun c => c.eventId = e) =
      s.findConflictsByEvent e := by
    rw [List.filter_eq_self]
    intro c hc
    exact decide_eq_true (mem_findConflictsByEvent.mp hc).2
  have hwinner : resolvedWinner ((s.findActiveByEvent e).filter fun c => c.fieldName = f)
      (latestResolved (s.findConflictsByEvent e) f) = s.conflictWinner e f := by
    unfold resolvedWinner
    cases hid : (latestResolved (s.findConflictsByEvent e) f).bind ClaimConflict.winningClaimId with
    | none =>
        unfold conflictWinner
        rw [hid]
        rfl
    | some id =>
        have hlookup : s.conflictWinner e f = lookup Claim.id id (s.findActiveByEvent e) := by
          unfold conflictWinner
          rw [hid]
          rfl
        have hunique : Rows.Unique Claim.id
            ((s.findActiveByEvent e).filter fun c => c.fieldName = f) :=
          List.Nodup.sublist (List.filter_sublist.map Claim.id) (unique_findActiveByEvent hwf e)
        change lookup Claim.id id _ = _
        rw [hlookup]
        apply Option.ext
        intro w
        constructor
        · intro hw
          obtain ⟨hmem, hkid⟩ := lookup_some hw
          rw [← hkid]
          exact (unique_findActiveByEvent hwf e).lookup_eq (List.mem_filter.mp hmem).1
        · intro hw
          have hfield := conflictWinner_field hwf (hlookup.trans hw)
          obtain ⟨hmem, hkid⟩ := lookup_some hw
          rw [← hkid]
          exact hunique.lookup_eq (List.mem_filter.mpr ⟨hmem, decide_eq_true hfield⟩)
  unfold projectField
  rw [hgroup, hconflicts]
  dsimp only
  rewrite [hwinner]
  rfl

/-- The claim that the builder takes the value of a field from. -/
structure Behind (s : Db) (sources : List Source) (e : Uuid) (f : String) (w : Claim) : Prop where
  mem : w ∈ s.findActiveByEvent e
  field : w.fieldName = f
  chosen : s.conflictWinner e f = some w ∨ s.conflictWinner e f = none ∧
    TopClaim sources ((s.findActiveByEvent e).filter fun c => c.fieldName = f) w

theorem behind_of_projectField (hwf : s.WellFormed) {sources : List Source} {u : Json}
    (h : projectField e (s.findActiveByEvent e) (s.findConflictsByEvent e) sources f =
      some (.value u)) : ∃ w, s.Behind sources e f w ∧ w.fieldValue = u := by
  rw [projectField_evidence hwf] at h
  split at h
  · exact absurd h (by simp)
  · cases hwinner : s.conflictWinner e f with
    | some w =>
        rw [hwinner] at h
        have hfield := conflictWinner_field hwf hwinner
        have hmem : w ∈ s.findActiveByEvent e := by
          have hlookup := hwinner
          unfold conflictWinner at hlookup
          rw [Option.bind_eq_some_iff] at hlookup
          obtain ⟨id, -, hw⟩ := hlookup
          exact (lookup_some hw).1
        simp only [Option.some.injEq, Projected.value.injEq] at h
        exact ⟨w, ⟨hmem, hfield, .inl hwinner⟩, h⟩
    | none =>
        rw [hwinner] at h
        have hunique : Rows.Unique Claim.id
            ((s.findActiveByEvent e).filter fun c => c.fieldName = f) :=
          List.Nodup.sublist (List.filter_sublist.map Claim.id) (unique_findActiveByEvent hwf e)
        obtain ⟨w, htop, hv⟩ := tieredValue_value hunique h
        obtain ⟨hmem, hfield⟩ := List.mem_filter.mp htop.mem
        exact ⟨w, ⟨hmem, of_decide_eq_true hfield, .inr ⟨hwinner, htop⟩⟩, hv⟩

end Builder

/-! ## The selection finds it -/

section Selection

variable [PyCasefold]

/-- A value with a text is the same as itself. -/
theorem sameProjectedValue_self {safeStr : SafeString} {v : Json} (h : (safeStr v).isSome) :
    sameProjectedValue safeStr v v = true := by
  obtain ⟨text, htext⟩ := Option.isSome_iff_exists.mp h
  simp [sameProjectedValue, htext]

theorem selectClaim_behind (hwf : s.WellFormed) {sources : List Source} {w : Claim}
    (hw : s.Behind sources e f w) {fields : List (String × Json)}
    (hfield : fields.lookup f = some w.readValue) (safeStr : SafeString) :
    selectClaim (s.findActiveByEvent e) sources (s.findConflictsByEvent e) fields safeStr f =
      if (safeStr w.readValue).isSome then some w else none := by
  unfold selectClaim
  dsimp only
  rw [hfield, Option.getD_some]
  cases htext : safeStr w.readValue with
  | none => rfl
  | some text =>
      have hsame : sameProjectedValue safeStr w.readValue w.readValue = true :=
        sameProjectedValue_self (by simp [htext])
      simp only [Option.isNone_some, Bool.false_eq_true, if_false, Option.isSome_some, if_true]
      change (match s.conflictWinner e f with
        | some winner => _
        | none => _) = _
      rcases hw.chosen with hwinner | ⟨hnone, htop⟩
      · rw [hwinner]
        simp [hsame]
      · rw [hnone]
        have hunique : Rows.Unique Claim.id (((s.findActiveByEvent e).filter fun c =>
            c.fieldName = f).filter fun c => sameProjectedValue safeStr c.readValue w.readValue) :=
          List.Nodup.sublist ((List.filter_sublist.trans List.filter_sublist).map Claim.id)
            (unique_findActiveByEvent hwf e)
        refine (chooseWinner_eq_some_iff hunique sources w).mpr (htop.of_subset ?_ ?_)
        · exact fun c hc => List.mem_of_mem_filter hc
        · exact List.mem_filter.mpr ⟨htop.mem, hsame⟩

/-- The provenance of a field whose value was taken from a claim. -/
theorem lookup_selectProjectedClaims (hwf : s.WellFormed) {w : Claim}
    (hw : s.Behind (s.getSourcesByIds ((s.findActiveByEvent e).map Claim.sourceId)) e f w)
    {fields : List (String × Json)} (hfield : fields.lookup f = some w.readValue)
    (safeStr : SafeString) :
    (s.selectProjectedClaimsByField e fields safeStr).lookup f =
      if (safeStr w.readValue).isSome then some w else none := by
  have hmem : f ∈ Rows.distinct ((s.findActiveByEvent e).map Claim.fieldName) := by
    rw [Rows.mem_distinct, ← hw.field]
    exact List.mem_map_of_mem hw.mem
  unfold selectProjectedClaimsByField
  dsimp only
  rw [lookup_filterMap, if_pos hmem]
  exact selectClaim_behind hwf hw hfield safeStr

end Selection

end Db

/-! ## Provenance explains the projection -/

section Explains

variable [PyText] [PyCasefold] [PyRepr]

omit [PyCasefold] [PyRepr] in
/-- The field of a fresh projection that is not disputed was taken from a claim. -/
theorem Db.behind_of_fresh {s : Db} (hwf : s.WellFormed) {e : Uuid} {p : ProjectedAccidentRecord}
    (hfresh : s.Shows e (s.evidence e) p) {f : String} {v : Json}
    (hfield : p.readFields.lookup f = some v) (hmarker : v ≠ .str disputedMarker) :
    ∃ w, s.Behind (s.getSourcesByIds ((s.findActiveByEvent e).map Claim.sourceId)) e f w ∧
      w.readValue = v := by
  have hread := lookup_readFields_of_content (hfresh 0 0) (nodup_build_fields _ _ _ _ _ _) f
  rw [hfield] at hread
  have hbuild := hread.trans (lookup_readFields_build _ _ _ _ _ _ _)
  rw [eq_comm, Option.map_eq_some_iff] at hbuild
  obtain ⟨x, hx, hvalue⟩ := hbuild
  cases x with
  | disputed => exact absurd hvalue.symm hmarker
  | value u =>
      obtain ⟨w, hw, rfl⟩ := Db.behind_of_projectField hwf hx
      exact ⟨w, hw, hvalue⟩

/-- **Provenance explains the projection.**  A field of a fresh projection that is
present, not null and not disputed has the value of an active claim of its event.  The
audit reports that claim; the selection reports it when the caller's text covers the
value, and otherwise no claim. -/
theorem provenance_explains_projection {s : Db} (hreach : Reachable s) {e : Uuid}
    {p : ProjectedAccidentRecord} (hstored : s.getProjection e = some p)
    (hfresh : s.Shows e (s.evidence e) p) {f : String} {v : Json}
    (hfield : p.readFields.lookup f = some v) (hnull : v ≠ .null)
    (hmarker : v ≠ .str disputedMarker) :
    ∃ w ∈ s.claims, w.eventId = e ∧ w.isActive = true ∧ w.fieldName = f ∧ w.readValue = v ∧
      s.computeWinner p f = some w ∧
      ∀ safeStr : SafeString, (s.selectProjectedClaimsByField e p.readFields safeStr).lookup f =
        if (safeStr v).isSome then some w else none := by
  have hwf := hreach.inv.wf
  have hevent : p.eventId = e := (lookup_some hstored).2
  obtain ⟨w, hw, rfl⟩ := Db.behind_of_fresh hwf hfresh hfield hmarker
  obtain ⟨hmem, heq, hactive⟩ := Db.mem_findActiveByEvent.mp hw.mem
  have htext : (auditStr w.readValue).isSome := by
    cases hv : w.readValue with
    | null => exact absurd hv hnull
    | _ => rfl
  refine ⟨w, hmem, heq, hactive, hw.field, rfl, ?_, ?_⟩
  · unfold Db.computeWinner
    rw [hevent, hfield, Option.getD_some, Db.lookup_selectProjectedClaims hwf hw ?_, if_pos htext]
    simp
  · intro safeStr
    exact Db.lookup_selectProjectedClaims hwf hw hfield safeStr

end Explains

/-- A report with a list in it, projected. -/
def findingsReport : List Op :=
  [.ingest ⟨0, 100, "", none, none,
    [⟨"operator", .num (.int 1)⟩, ⟨"causal_findings", .arr [.str "fuel exhaustion"]⟩], .new, 10, 1⟩,
    .reproject 5 2]

theorem findingsReport_projected : ∃ p, (after fourSources findingsReport).getProjection 5 = some p ∧
    (after fourSources findingsReport).Shows 5 ((after fourSources findingsReport).evidence 5) p ∧
    p.readFields.lookup "causal_findings" = some (.arr [.str "fuel exhaustion"]) ∧
    (Db.selectProjectedClaimsByField (after fourSources findingsReport) 5 p.readFields
      chronosSafeStr).lookup "causal_findings" = none := by
  have hall : ((after fourSources findingsReport).getProjection 5).any (fun p =>
      p.content = ((after fourSources findingsReport).buildOn 5
        ((after fourSources findingsReport).evidence 5) 0 0).content ∧
      p.readFields.lookup "causal_findings" = some (.arr [.str "fuel exhaustion"]) ∧
      (Db.selectProjectedClaimsByField (after fourSources findingsReport) 5 p.readFields
        chronosSafeStr).lookup "causal_findings" = none) = true := by
    decide +kernel
  cases hp : (after fourSources findingsReport).getProjection 5 with
  | none =>
      rw [hp] at hall
      cases hall
  | some p =>
      rw [hp, Option.any_some, decide_eq_true_eq] at hall
      exact ⟨p, rfl, fun version now => hall.1, hall.2⟩

theorem findings_explained : ∃ p w, (after fourSources findingsReport).getProjection 5 = some p ∧
    w.readValue = .arr [.str "fuel exhaustion"] ∧
    (after fourSources findingsReport).computeWinner p "causal_findings" = some w := by
  obtain ⟨p, hstored, hfresh, hfield, -⟩ := findingsReport_projected
  obtain ⟨w, -, -, -, -, hvalue, hwinner, -⟩ := provenance_explains_projection
    ⟨fourSources, findingsReport, rfl⟩ hstored hfresh hfield (by simp) (by simp)
  exact ⟨p, w, hstored, hvalue, hwinner⟩

theorem not_every_field_has_provenance : ¬ ∀ (s : Db) (e : Uuid) (p : ProjectedAccidentRecord)
    (f : String) (v : Json), Reachable s → s.getProjection e = some p →
    s.Shows e (s.evidence e) p → p.readFields.lookup f = some v → v ≠ .null →
    v ≠ .str disputedMarker →
    ∃ w ∈ s.claims, w.eventId = e ∧ w.readValue = v ∧ s.computeWinner p f = some w ∧
      (s.selectProjectedClaimsByField e p.readFields chronosSafeStr).lookup f = some w := by
  intro hall
  obtain ⟨p, hstored, hfresh, hfield, hselected⟩ := findingsReport_projected
  obtain ⟨w, -, -, -, -, hsame⟩ := hall _ 5 p "causal_findings" _
    ⟨fourSources, findingsReport, rfl⟩ hstored hfresh hfield (by simp) (by simp)
  rw [hselected] at hsame
  cases hsame

end Atlas
