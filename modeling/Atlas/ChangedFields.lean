import Atlas.CuratorLaws
import Atlas.DisputeMarker
import Atlas.JsonEquality
import Atlas.WinnerPolicy

/-!
# The changed fields of a history row

`_changed_fields` compares the stored data map with the new one before the new one is
serialised.  The stored map holds the text `__DISPUTED__` where the new one holds the
sentinel, and the sentinel equals nothing but itself; and the comparison is Python's `==`,
for which `1`, `1.0` and `True` are one value.

So the list is exact unless a field stays disputed, which it reports, or changes nothing but
the type of a number, which it does not report.
-/

namespace Atlas

open Outcome

/-- The serialised value of a field; a field that is absent reads as `None`. -/
def serialisedValue (fields : List (String × Projected)) (f : String) : Json :=
  ((serialiseFields fields).lookup f).getD .null

/-- The text of the field differs between the maps. -/
def TextDiffers (xs ys : List (String × Projected)) (f : String) : Prop :=
  (serialisedValue xs f).canonical ≠ (serialisedValue ys f).canonical

instance (xs ys : List (String × Projected)) (f : String) : Decidable (TextDiffers xs ys f) := by
  unfold TextDiffers
  infer_instance

/-- What the history row of a change should list: the fields with a new text, and the two other
parts of the content when they differ. -/
def exactChanges (cur p : ProjectedAccidentRecord) : List String :=
  ((unionKeys cur.fields p.fields).filter fun f => TextDiffers cur.fields p.fields f) ++
    (if cur.unresolvedConflictFields ≠ p.unresolvedConflictFields then
      ["unresolved_conflict_fields"] else []) ++
    (if cur.completenessScore ≠ p.completenessScore then ["completeness_score"] else [])

/-- The field is stored as the marker and is disputed again. -/
def StaysDisputed (cur p : ProjectedAccidentRecord) (f : String) : Prop :=
  cur.fields.lookup f = some (.value (.str disputedMarker)) ∧ p.fields.lookup f = some .disputed

/-- The field has a value that is the stored one for Python, with a number of another type. -/
def OnlyRetyped (cur p : ProjectedAccidentRecord) (f : String) : Prop :=
  p.fields.lookup f ≠ some .disputed ∧
    (serialisedValue cur.fields f).pyEq (serialisedValue p.fields f) = true ∧
    (serialisedValue cur.fields f).Retyped (serialisedValue p.fields f)

/-- What the JSON columns can hold: the sentinel is not JSON, a value has no NaN and no key
twice. -/
structure Db.JsonColumns (s : Db) : Prop where
  claims : ∀ c ∈ s.claims, c.fieldValue.Proper
  projections : ∀ p ∈ s.projections, ∀ kv ∈ p.fields, kv.2 ≠ .disputed ∧ kv.2.serialise.Proper

/-! ## One field -/

theorem mem_of_lookup_fields {β : Type} {kvs : List (String × β)} {k : String} {v : β}
    (h : kvs.lookup k = some v) : (k, v) ∈ kvs := by
  obtain ⟨before, rest, rfl, -⟩ := List.lookup_eq_some_iff.mp h
  exact List.mem_append_right _ List.mem_cons_self

theorem serialisedValue_eq (fields : List (String × Projected)) (f : String) :
    serialisedValue fields f = ((fields.lookup f).getD (.value .null)).serialise := by
  unfold serialisedValue
  rw [lookup_serialiseFields]
  cases fields.lookup f <;> rfl

theorem proper_serialisedValue {fields : List (String × Projected)}
    (h : ∀ kv ∈ fields, kv.2.serialise.Proper) (f : String) : (serialisedValue fields f).Proper := by
  rw [serialisedValue_eq]
  cases hf : fields.lookup f with
  | none => exact .null
  | some v => exact h (f, v) (mem_of_lookup_fields hf)

/-- **What the comparison of a field misses or adds.** -/
theorem getPyEq_iff {cur p : ProjectedAccidentRecord}
    (hread : ∀ kv ∈ cur.fields, kv.2 ≠ .disputed ∧ kv.2.serialise.Proper)
    (hnew : ∀ kv ∈ p.fields, kv.2.serialise.Proper) (f : String) :
    (getPyEq (cur.fields.lookup f) (p.fields.lookup f) = true ↔ ¬ TextDiffers cur.fields p.fields f) ↔
      ¬ StaysDisputed cur p f ∧ ¬ OnlyRetyped cur p f := by
  have hcur := proper_serialisedValue (fun kv hkv => (hread kv hkv).2) f
  have hp := proper_serialisedValue hnew f
  obtain ⟨a, ha⟩ : ∃ a, (cur.fields.lookup f).getD (.value .null) = .value a := by
    cases hf : cur.fields.lookup f with
    | none => exact ⟨.null, rfl⟩
    | some v =>
        cases v with
        | disputed => exact absurd rfl (hread _ (mem_of_lookup_fields hf)).1
        | value a => exact ⟨a, rfl⟩
  have hstored : serialisedValue cur.fields f = a := by rw [serialisedValue_eq, ha]; rfl
  unfold TextDiffers StaysDisputed OnlyRetyped getPyEq
  rw [ha, not_not, hstored]
  rw [hstored] at hcur
  by_cases hdisputed : p.fields.lookup f = some .disputed
  · -- The sentinel equals no stored value; its text may be the stored one.
    have hmarker : serialisedValue p.fields f = .str disputedMarker := by
      rw [serialisedValue_eq, hdisputed]
      rfl
    have hlookup : cur.fields.lookup f = some (.value (.str disputedMarker)) ↔
        a = .str disputedMarker := by
      cases hf : cur.fields.lookup f with
      | none =>
          rw [hf] at ha
          cases ha
          simp
      | some v =>
          rw [hf] at ha
          cases ha
          simp
    have htext : a.canonical = (Json.str disputedMarker).canonical ↔ a = .str disputedMarker := by
      cases a <;> simp [Json.canonical]
    rw [hdisputed, hlookup, hmarker, htext]
    simp [Projected.pyEq]
  · obtain ⟨b, hb⟩ : ∃ b, (p.fields.lookup f).getD (.value .null) = .value b := by
      cases hf : p.fields.lookup f with
      | none => exact ⟨.null, rfl⟩
      | some v =>
          cases v with
          | disputed => exact absurd hf hdisputed
          | value b => exact ⟨b, rfl⟩
    have hvalue : serialisedValue p.fields f = b := by rw [serialisedValue_eq, hb]; rfl
    rw [hvalue] at hp ⊢
    have htext : a.canonical = b.canonical ↔ a.pyEq b = true ∧ ¬ a.Retyped b :=
      Json.canonical_eq_iff hcur hp
    rw [hb, htext]
    simp only [Projected.pyEq, hdisputed, and_false, not_false_eq_true, true_and, ne_eq]
    tauto

theorem filter_eq_iff {α : Type} {xs : List α} {p q : α → Bool} :
    xs.filter p = xs.filter q ↔ ∀ x ∈ xs, p x = q x := by
  constructor
  · intro h x hx
    rw [Bool.eq_iff_iff]
    have hmem : x ∈ xs.filter p ↔ x ∈ xs.filter q := by rw [h]
    simpa [List.mem_filter, hx] using hmem
  · exact List.filter_congr

/-- A field of neither map is the same in both. -/
theorem of_not_mem_unionKeys {cur p : ProjectedAccidentRecord} {f : String}
    (h : f ∉ unionKeys cur.fields p.fields) : ¬ StaysDisputed cur p f ∧ ¬ OnlyRetyped cur p f := by
  unfold unionKeys at h
  rw [List.mem_insertionSort, Rows.mem_distinct, List.mem_append, not_or] at h
  have hcur : cur.fields.lookup f = none := by
    by_contra hsome
    obtain ⟨v, hv⟩ := Option.ne_none_iff_exists'.mp hsome
    exact h.1 (List.mem_map_of_mem (mem_of_lookup_fields hv))
  have hp : p.fields.lookup f = none := by
    by_contra hsome
    obtain ⟨v, hv⟩ := Option.ne_none_iff_exists'.mp hsome
    exact h.2 (List.mem_map_of_mem (mem_of_lookup_fields hv))
  unfold StaysDisputed OnlyRetyped
  rw [serialisedValue_eq, serialisedValue_eq, hcur, hp]
  refine ⟨by simp, ?_⟩
  intro hretyped
  cases hretyped.2.2 with
  | here ha => cases ha

theorem changedFields_eq_iff {cur p : ProjectedAccidentRecord}
    (hread : ∀ kv ∈ cur.fields, kv.2 ≠ .disputed ∧ kv.2.serialise.Proper)
    (hnew : ∀ kv ∈ p.fields, kv.2.serialise.Proper) :
    changedFields (some cur) p = exactChanges cur p ↔
      ∀ f, ¬ StaysDisputed cur p f ∧ ¬ OnlyRetyped cur p f := by
  unfold changedFields exactChanges
  dsimp only
  rw [List.append_left_inj, List.append_left_inj, filter_eq_iff]
  have hfield : ∀ f, ((!getPyEq (cur.fields.lookup f) (p.fields.lookup f)) =
      decide (TextDiffers cur.fields p.fields f)) ↔ ¬ StaysDisputed cur p f ∧ ¬ OnlyRetyped cur p f := by
    intro f
    rw [← getPyEq_iff hread hnew f, Bool.eq_iff_iff, decide_eq_true_eq, Bool.not_eq_true',
      ← Bool.not_eq_true]
    tauto
  constructor
  · intro h f
    by_cases hf : f ∈ unionKeys cur.fields p.fields
    · exact (hfield f).mp (h f hf)
    · exact of_not_mem_unionKeys hf
  · intro h f _
    exact (hfield f).mpr (h f)

/-! ## The row that is written -/

namespace Db

variable {s s' : Db} {call : ReProjectCall}

/-- A projection is written with the history row of its change. -/
theorem persistProjection_history {cur : Option ProjectedAccidentRecord}
    {p r : ProjectedAccidentRecord} (h : s.persistProjection call cur p = .ok (r, s')) :
    s'.projectionHistory = s.projectionHistory ∨
      r = p ∧ s'.projectionHistory = s.projectionHistory ++ [historyRow call cur p] := by
  unfold persistProjection at h
  simp only [bind_ok] at h
  obtain ⟨_, _, unchanged, _, h⟩ := h
  split at h
  · rw [pure_ok, Prod.mk.injEq] at h
    rw [← h.2]
    exact .inl rfl
  · simp only [bind_ok, pure_ok, Prod.mk.injEq] at h
    obtain ⟨s₁, hadd, rfl, rfl⟩ := h
    obtain ⟨ps, hps⟩ := upsertProjection_eq s (storedRow p)
    rw [addProjectionHistory_ok hadd, hps]
    exact .inr ⟨rfl, rfl⟩

variable [PyText]

/-- The projections that a reprojection writes. -/
def Writes (s : Db) (e : Uuid) (p : ProjectedAccidentRecord) : Prop :=
  (∃ target v now, p = tombstone e target v now) ∨ ∃ v now, p = s.buildFrom e v now

theorem rebuildProjection_history {p : ProjectedAccidentRecord}
    (h : s.rebuildProjection call = .ok (p, s')) :
    s'.projectionHistory = s.projectionHistory ∨ s.Writes call.eventId p ∧
      s'.projectionHistory =
        s.projectionHistory ++ [historyRow call (s.getProjection call.eventId) p] := by
  unfold rebuildProjection at h
  dsimp only at h
  split at h
  · rcases persistProjection_history h with hsame | ⟨rfl, hrow⟩
    · exact .inl hsame
    · exact .inr ⟨.inl ⟨_, _, _, rfl⟩, hrow⟩
  · rw [bind_ok] at h
    obtain ⟨_, _, h⟩ := h
    rcases persistProjection_history h with hsame | ⟨rfl, hrow⟩
    · exact .inl hsame
    · exact .inr ⟨.inr ⟨_, _, rfl⟩, hrow⟩

/-- **The history row of a reprojection**, when it writes one. -/
theorem reProjectEvent_history {p : ProjectedAccidentRecord}
    (h : s.reProjectEvent call = .ok (p, s')) :
    s'.projectionHistory = s.projectionHistory ∨ s.Writes call.eventId p ∧
      ∃ row, row.changedFields = changedFields (s.getProjection call.eventId) p ∧
        s'.projectionHistory = s.projectionHistory ++ [row] := by
  have hrebuild : ∀ {outbox}, s.rebuildProjection { call with causedByOutboxEventId := outbox } =
      .ok (p, s') → s'.projectionHistory = s.projectionHistory ∨ s.Writes call.eventId p ∧
      ∃ row, row.changedFields = changedFields (s.getProjection call.eventId) p ∧
        s'.projectionHistory = s.projectionHistory ++ [row] := by
    intro outbox hok
    rcases rebuildProjection_history hok with hsame | ⟨hwrites, hrow⟩
    · exact .inl hsame
    · exact .inr ⟨hwrites, _, rfl, hrow⟩
  unfold reProjectEvent at h
  dsimp only at h
  split at h
  · exact hrebuild h
  · split at h
    · exact hrebuild h
    · split at h
      · simp only [Except.ok.injEq, Prod.mk.injEq] at h
        rw [← h.2]
        exact .inl rfl
      · unfold restoreProjectionFromHistory at h
        simp only [bind_ok, pure_ok, Prod.mk.injEq] at h
        obtain ⟨_, _, -, rfl⟩ := h
        obtain ⟨ps, hps⟩ := upsertProjection_eq s _
        rw [hps]
        exact .inl rfl

omit [PyText] in
/-- The claim a field takes its value from is one of the claims. -/
theorem mem_of_chooseWinner {claims : List Claim} {sources : List Source} {w : Claim}
    (h : chooseWinner claims sources = some w) : w ∈ claims := by
  rw [chooseWinner_eq_argmax] at h
  exact (List.mem_filter.mp (List.argmax_mem h)).1

theorem mem_fieldGroup_of_takenFrom {e : Uuid} {claims : List Claim}
    {conflicts : List ClaimConflict} {sources : List Source} {f : String} {w : Claim}
    (h : TakenFrom e claims conflicts sources f w) : w ∈ fieldGroup claims (e, f) := by
  rcases h.chosen with hresolved | ⟨-, -, hchosen⟩
  · unfold resolvedWinner at hresolved
    split at hresolved
    · cases hresolved
    · exact List.mem_of_find?_eq_some hresolved
  · have htier := mem_of_chooseWinner hchosen
    unfold highestTier at htier
    split_ifs at htier
    · exact (mem_ofType.mp htier).1
    · exact (mem_ofType.mp htier).1
    · exact (mem_ofType.mp htier).1

theorem mem_of_takenFrom {e : Uuid} {claims : List Claim} {conflicts : List ClaimConflict}
    {sources : List Source} {f : String} {w : Claim}
    (h : TakenFrom e claims conflicts sources f w) : w ∈ claims :=
  (List.mem_filter.mp (mem_fieldGroup_of_takenFrom h)).1

/-- What a reprojection writes is JSON, when the claims are. -/
theorem Writes.proper (hcolumns : s.JsonColumns) {e : Uuid} {p : ProjectedAccidentRecord}
    (h : s.Writes e p) : ∀ kv ∈ p.fields, kv.2.serialise.Proper := by
  rcases h with ⟨target, v, now, rfl⟩ | ⟨v, now, rfl⟩
  · intro kv hkv
    rcases List.mem_pair.mp hkv with rfl | rfl
    · exact .bool true
    · exact .str _
  · intro kv hkv
    have hlookup := (lookup_eq_some_iff_mem (nodup_build_fields e _ _ _ v now) kv.1 kv.2).mpr hkv
    rw [lookup_build] at hlookup
    cases hvalue : kv.2 with
    | disputed => exact .str disputedMarker
    | value u =>
        rw [hvalue] at hlookup
        obtain ⟨w, hw, rfl⟩ := projectField_value.mp hlookup
        exact hcolumns.claims w (List.mem_filter.mp (mem_of_takenFrom hw)).1

end Db

/-- **When `changed_fields` is exact.**  The history row of a reprojection that replaces a
stored projection lists exactly the fields with a new text, and the other parts of the content
that differ, unless a field stays disputed or only changes the type of a number. -/
theorem changed_fields_exact_iff [PyText] {s s' : Db} {call : ReProjectCall}
    {cur p : ProjectedAccidentRecord} {row : AccidentProjectionHistory} (hcolumns : s.JsonColumns)
    (hcur : s.getProjection call.eventId = some cur)
    (hrun : s.reProjectEvent call = .ok (p, s'))
    (hwritten : s'.projectionHistory = s.projectionHistory ++ [row]) :
    row.changedFields = exactChanges cur p ↔
      ∀ f, ¬ StaysDisputed cur p f ∧ ¬ OnlyRetyped cur p f := by
  rcases Db.reProjectEvent_history hrun with hsame | ⟨hwrites, row', hchanged, hrow⟩
  · rw [hsame] at hwritten
    exact absurd hwritten (by simp)
  · have heq : row = row' := by
      rw [hrow] at hwritten
      simpa using hwritten.symm
    rw [heq, hchanged, hcur]
    exact changedFields_eq_iff (hcolumns.projections cur (Rows.lookup_some hcur).1)
      (hwrites.proper hcolumns)

/-! ## A dispute that stays -/

/-- A store whose columns hold these values. -/
theorem Db.jsonColumns_of {s : Db} {values : List Json} {maps : List (List (String × Json))}
    (hclaims : s.claims.map Claim.fieldValue = values)
    (hprojections : s.projections.map ProjectedAccidentRecord.fields = maps.map storedFields)
    (hvalues : ∀ v ∈ values, v.Proper) (hmaps : ∀ kvs ∈ maps, ∀ kv ∈ kvs, kv.2.Proper) :
    s.JsonColumns where
  claims := by
    intro c hc
    exact hvalues _ (hclaims ▸ List.mem_map_of_mem hc)
  projections := by
    intro p hp kv hkv
    have hfields : p.fields ∈ maps.map storedFields := hprojections ▸ List.mem_map_of_mem hp
    obtain ⟨kvs, hkvs, heq⟩ := List.mem_map.mp hfields
    rw [← heq] at hkv
    obtain ⟨x, hx, rfl⟩ := List.mem_map.mp hkv
    exact ⟨by simp, hmaps kvs hkvs x hx⟩

/-- The first source reports the place. -/
def locationReport : Op :=
  .ingest ⟨0, 103, "", some 5, some "r3", [⟨"location", .str "Oslo"⟩], .new, 10, 4⟩

/-- The operator is reported and projected, and then the place is reported. -/
def operatorThenLocation : Db :=
  after fourSources [operatorReport 0 100 none (some "r1") 1 1, .reproject 5 3, locationReport]

/-- The same after two sources disagreed about the operator. -/
def disputedThenLocation : Db :=
  after fourSources (twoSourcesDisagree ++ [.reproject 5 3, locationReport])

/-- The reprojection after the report of the place. -/
def locationCall : ReProjectCall := ⟨5, none, none, none, false, 9⟩

theorem jsonColumns_operatorThenLocation : operatorThenLocation.JsonColumns := by
  have hclaims : operatorThenLocation.claims.map Claim.fieldValue =
      [.num (.int 1), .str "Oslo"] := by decide +kernel
  have hprojections : operatorThenLocation.projections.map ProjectedAccidentRecord.fields =
      [[("operator", Json.num (.int 1))]].map storedFields := by decide +kernel
  refine Db.jsonColumns_of hclaims hprojections ?_ ?_
  · simp only [List.mem_cons, List.not_mem_nil, or_false, forall_eq_or_imp, forall_eq]
    exact ⟨.num (by decide), .str _⟩
  · simp only [List.mem_cons, List.not_mem_nil, or_false, forall_eq]
    exact .num (by decide)

theorem jsonColumns_disputedThenLocation : disputedThenLocation.JsonColumns := by
  have hclaims : disputedThenLocation.claims.map Claim.fieldValue =
      [.num (.int 1), .num (.int 2), .str "Oslo"] := by decide +kernel
  have hprojections : disputedThenLocation.projections.map ProjectedAccidentRecord.fields =
      [[("operator", Json.str disputedMarker)]].map storedFields := by decide +kernel
  refine Db.jsonColumns_of hclaims hprojections ?_ ?_
  · simp only [List.mem_cons, List.not_mem_nil, or_false, forall_eq_or_imp, forall_eq]
    exact ⟨.num (by decide), .num (by decide), .str _⟩
  · simp only [List.mem_cons, List.not_mem_nil, or_false, forall_eq]
    exact .str _

/-- The reprojection replaces a stored projection, writes one history row, and the row has a
property. -/
def Db.RowOf [PyText] (s : Db) (call : ReProjectCall)
    (P : ProjectedAccidentRecord → ProjectedAccidentRecord → AccidentProjectionHistory → Prop) :
    Prop :=
  ∃ cur p s' row, s.getProjection call.eventId = some cur ∧ s.reProjectEvent call = .ok (p, s') ∧
    s'.projectionHistory = s.projectionHistory ++ [row] ∧ P cur p row

theorem Db.rowOf_of_any [PyText] {s : Db} {call : ReProjectCall}
    {P : ProjectedAccidentRecord → ProjectedAccidentRecord → AccidentProjectionHistory → Prop}
    [∀ cur p row, Decidable (P cur p row)]
    (h : ((s.getProjection call.eventId).any fun cur => (s.reProjectEvent call).toOption.any fun r =>
      r.2.projectionHistory.getLast?.any fun row =>
        decide (r.2.projectionHistory = s.projectionHistory ++ [row] ∧ P cur r.1 row)) = true) :
    s.RowOf call P := by
  obtain ⟨cur, hcur, h⟩ := (Option.any_eq_true _ _).mp h
  obtain ⟨r, hr, h⟩ := (Option.any_eq_true _ _).mp h
  obtain ⟨row, -, h⟩ := (Option.any_eq_true _ _).mp h
  obtain ⟨hwritten, hrow⟩ := of_decide_eq_true h
  refine ⟨cur, r.1, r.2, row, hcur, ?_, hwritten, hrow⟩
  cases hrun : s.reProjectEvent call with
  | error e =>
      rw [hrun] at hr
      cases hr
  | ok r' =>
      rw [hrun] at hr
      cases hr
      rfl

/-- The place changes the place and the completeness. -/
theorem location_changes_exact : operatorThenLocation.RowOf locationCall fun cur p row =>
    row.changedFields = ["location", "completeness_score"] ∧
      (row.changedFields = exactChanges cur p ↔
        ∀ f, ¬ StaysDisputed cur p f ∧ ¬ OnlyRetyped cur p f) := by
  obtain ⟨cur, p, s', row, hcur, hrun, hwritten, hrow⟩ :
      operatorThenLocation.RowOf locationCall fun _ _ row =>
        row.changedFields = ["location", "completeness_score"] :=
    Db.rowOf_of_any (by decide +kernel)
  exact ⟨cur, p, s', row, hcur, hrun, hwritten, hrow,
    changed_fields_exact_iff jsonColumns_operatorThenLocation hcur hrun hwritten⟩

/-- The operator was disputed before and is disputed after; the row lists it as changed. -/
theorem disputed_field_reported_as_changed :
    ¬ ∀ (s s' : Db) (call : ReProjectCall) (cur p : ProjectedAccidentRecord)
        (row : AccidentProjectionHistory), s.JsonColumns →
      s.getProjection call.eventId = some cur → s.reProjectEvent call = .ok (p, s') →
      s'.projectionHistory = s.projectionHistory ++ [row] →
      row.changedFields = exactChanges cur p := by
  intro hexact
  obtain ⟨cur, p, s', row, hcur, hrun, hwritten, hrow⟩ :
      disputedThenLocation.RowOf locationCall fun cur p row =>
        row.changedFields ≠ exactChanges cur p :=
    Db.rowOf_of_any (by decide +kernel)
  exact hrow (hexact _ s' _ cur p row jsonColumns_disputedThenLocation hcur hrun hwritten)

end Atlas
