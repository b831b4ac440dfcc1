import Atlas.EadmsReader

/-!
# Which eADMS lines are mapped

The coercers of the mapping catch what `float` raises and not what `int` raises for an infinite
`float`, and `float` itself takes the texts of the values that are no JSON.  So a record is mapped
as the import expects unless a count is infinite, a measure is not finite, the primary aircraft's
registration consists of separators, or a line is longer than its header.  In the loop the first and
the last of these end the import.
-/

namespace Atlas

open Outcome

namespace Ntsb

section Mapping

variable [PyText] [PyRepr] [PyUpper] [PyIso]

/-! ## Cells -/

/-- `float` reads the cell as an infinity. -/
def Infinite (value : Json) : Prop := ∃ negative, toFloat value = some (.inf negative)

/-- `float` reads the cell as a value that is no JSON number. -/
def NotFinite (value : Json) : Prop := Infinite value ∨ toFloat value = some .nan

omit [PyUpper] [PyIso] in
/-- `_to_int` takes every cell but the infinite ones. -/
theorem toInt_cases (value : Json) :
    (Infinite value ∧ toInt value = .error .overflow) ∨
      (¬ Infinite value ∧ ∃ n, toInt value = .ok n) := by
  unfold Infinite toFloat toInt
  cases (cleanStr value).bind floatOfText with
  | none => exact .inr ⟨fun ⟨_, h⟩ => (nomatch h), none, rfl⟩
  | some f =>
      cases f with
      | finite q => exact .inr ⟨fun ⟨_, h⟩ => (nomatch h), _, rfl⟩
      | inf negative => exact .inl ⟨⟨negative, rfl⟩, rfl⟩
      | nan => exact .inr ⟨fun ⟨_, h⟩ => (nomatch h), none, rfl⟩

omit [PyUpper] [PyIso] in
theorem toInt_ok_iff {value : Json} : (∃ n, toInt value = .ok n) ↔ ¬ Infinite value := by
  rcases toInt_cases value with ⟨hinf, herror⟩ | ⟨hinf, hok⟩
  · refine ⟨fun ⟨n, hn⟩ => ?_, fun h => absurd hinf h⟩
    rw [herror] at hn
    cases hn
  · exact ⟨fun _ => hinf, fun _ => hok⟩

omit [PyUpper] [PyIso] in
theorem parseLocalTime_ok_iff {value : Json} : (∃ t, parseLocalTime value = .ok t) ↔ ¬ Infinite value := by
  rw [← toInt_ok_iff]
  constructor
  · rintro ⟨t, ht⟩
    simp only [parseLocalTime, bind_ok] at ht
    obtain ⟨n, hn, -⟩ := ht
    exact ⟨n, hn⟩
  · rintro ⟨n, hn⟩
    unfold parseLocalTime
    rw [hn, ok_bind]
    cases n with
    | none => exact ⟨none, rfl⟩
    | some n =>
        dsimp only
        split
        · exact ⟨_, rfl⟩
        · exact ⟨_, rfl⟩

/-! ## The columns of counts and of measures -/

/-- The columns of `events` that are read as integers. -/
def eventCounts : List String :=
  ["ev_time", "wind_vel_kts", "gust_kts", "inj_tot_f", "inj_tot_s", "inj_tot_m", "inj_tot_n"]

/-- The columns of `events` that are read as floats. -/
def eventMeasures : List String := ["latitude", "longitude", "apt_dist", "vis_sm", "wx_temp"]

/-- The columns of the primary aircraft that are read as integers. -/
def aircraftCounts : List String := ["num_eng", "total_seats"]

theorem eventPairs_ok_iff {row : EadmsRow} {decoder : EadmsCodeDecoder} :
    (∃ ps, eventPairs row decoder = .ok ps) ↔ ∀ column ∈ eventCounts, ¬ Infinite (cell row column) := by
  simp only [eventCounts, List.forall_mem_cons, ← toInt_ok_iff]
  rw [toInt_ok_iff, ← parseLocalTime_ok_iff]
  constructor
  · rintro ⟨ps, h⟩
    simp only [eventPairs, bind_ok] at h
    obtain ⟨time, htime, wind, hwind, gust, hgust, fatal, hfatal, serious, hserious, minor, hminor,
      uninjured, huninjured, -⟩ := h
    exact ⟨⟨_, htime⟩, ⟨_, hwind⟩, ⟨_, hgust⟩, ⟨_, hfatal⟩, ⟨_, hserious⟩, ⟨_, hminor⟩,
      ⟨_, huninjured⟩, List.forall_mem_nil _⟩
  · rintro ⟨⟨time, htime⟩, ⟨wind, hwind⟩, ⟨gust, hgust⟩, ⟨fatal, hfatal⟩, ⟨serious, hserious⟩,
      ⟨minor, hminor⟩, ⟨uninjured, huninjured⟩, -⟩
    unfold eventPairs
    dsimp only
    rw [htime, hwind, hgust, hfatal, hserious, hminor, huninjured]
    exact ⟨_, rfl⟩

omit [PyIso] in
theorem aircraftPairs_ok_iff {row : EadmsRow} {registrations : List String}
    {decoder : EadmsCodeDecoder} :
    (∃ ps, aircraftPairs row registrations decoder = .ok ps) ↔
      ∀ column ∈ aircraftCounts, ¬ Infinite (cell row column) := by
  simp only [aircraftCounts, List.forall_mem_cons, ← toInt_ok_iff]
  constructor
  · rintro ⟨ps, h⟩
    simp only [aircraftPairs, bind_ok] at h
    obtain ⟨engines, hengines, seats, hseats, -⟩ := h
    exact ⟨⟨_, hengines⟩, ⟨_, hseats⟩, List.forall_mem_nil _⟩
  · rintro ⟨⟨engines, hengines⟩, ⟨seats, hseats⟩, -⟩
    unfold aircraftPairs
    dsimp only
    rw [hengines, hseats]
    exact ⟨_, rfl⟩

omit [PyUpper] [PyIso] in
theorem sortedAircraft_ok_iff {rows : List EadmsRow} :
    (∃ sorted, sortedAircraft rows = .ok sorted) ↔
      ∀ row ∈ rows, ¬ Infinite (cell row "Aircraft_Key") := by
  simp only [← toInt_ok_iff]
  unfold sortedAircraft aircraftSortKey
  constructor
  · rintro ⟨sorted, h⟩ row hrow
    simp only [bind_ok] at h
    obtain ⟨keyed, hkeyed, -⟩ := h
    obtain ⟨p, hp⟩ := exists_ok_of_mem hkeyed hrow
    simp only [bind_ok] at hp
    obtain ⟨key, ⟨n, hn, -⟩, -⟩ := hp
    exact ⟨n, hn⟩
  · intro h
    have hkeyed : ∃ keyed, (rows.mapM fun row => do
        let key ← (do
          let key ← toInt (cell row "Aircraft_Key")
          pure (key.getD 0))
        pure (key, row)) = (.ok keyed : Except NtsbError (List (Int × EadmsRow))) := by
      refine mapM_total fun row hrow => ?_
      obtain ⟨n, hn⟩ := h row hrow
      rw [hn]
      exact ⟨_, rfl⟩
    obtain ⟨keyed, hkeyed⟩ := hkeyed
    rw [hkeyed]
    exact ⟨_, rfl⟩

/-! ## Finite values -/

/-- Every value is JSON without `NaN` and infinities. -/
def AllFinite (ps : List (NtsbField × Json)) : Prop := ∀ p ∈ ps, p.2.serialisable = true

omit [PyText] [PyRepr] [PyUpper] [PyIso] in
theorem allFinite_append {ps qs : List (NtsbField × Json)} :
    AllFinite (ps ++ qs) ↔ AllFinite ps ∧ AllFinite qs := List.forall_mem_append

omit [PyText] [PyRepr] [PyUpper] [PyIso] in
theorem mem_put {field f : NtsbField} {value : Option Json} {v : Json} (h : (f, v) ∈ put field value) :
    f = field ∧ value = some v := by
  unfold put at h
  split at h
  · cases h
  · cases h
  · split at h
    · cases h
    · obtain ⟨rfl, rfl⟩ := Prod.mk.inj (List.mem_singleton.mp h)
      exact ⟨rfl, rfl⟩
  · obtain ⟨rfl, rfl⟩ := Prod.mk.inj (List.mem_singleton.mp h)
    exact ⟨rfl, rfl⟩

omit [PyText] [PyRepr] [PyUpper] [PyIso] in
theorem allFinite_put {field : NtsbField} {value : Option Json}
    (h : ∀ v, value = some v → v.serialisable = true) : AllFinite (put field value) :=
  fun _ hp => h _ (mem_put hp).2

omit [PyText] [PyRepr] [PyUpper] [PyIso] in
theorem allFinite_putText (field : NtsbField) (text : Option String) :
    AllFinite (putText field text) := by
  refine allFinite_put fun v hv => ?_
  obtain ⟨s, -, rfl⟩ := Option.map_eq_some_iff.mp hv
  rfl

omit [PyText] [PyRepr] [PyUpper] [PyIso] in
theorem allFinite_putInt (field : NtsbField) (n : Option Int) : AllFinite (putInt field n) := by
  refine allFinite_put fun v hv => ?_
  obtain ⟨m, -, rfl⟩ := Option.map_eq_some_iff.mp hv
  rfl

omit [PyUpper] [PyIso] in
theorem allFinite_putFloat (field : NtsbField) (value : Json) :
    AllFinite (putFloat field (toFloat value)) ↔ ¬ NotFinite value := by
  unfold NotFinite Infinite
  cases toFloat value with
  | none =>
      exact ⟨fun _ h => h.elim (fun ⟨_, h⟩ => nomatch h) nofun, fun _ _ hp => absurd hp List.not_mem_nil⟩
  | some f =>
      have hvalue : AllFinite (putFloat field (some f)) ↔ (Json.num (.float f)).serialisable = true :=
        ⟨fun h => h (field, .num (.float f)) List.mem_cons_self,
          fun h p hp => by rw [List.mem_singleton.mp hp]; exact h⟩
      rw [hvalue]
      cases f with
      | finite q => exact ⟨fun _ h => h.elim (fun ⟨_, h⟩ => nomatch h) nofun, fun _ => rfl⟩
      | inf negative => exact ⟨nofun, fun h => absurd (.inl ⟨negative, rfl⟩) h⟩
      | nan => exact ⟨nofun, fun h => absurd (.inr rfl) h⟩

/-- Of the claims of the event only the measures may be no JSON. -/
theorem eventPairs_finite {row : EadmsRow} {decoder : EadmsCodeDecoder}
    {ps : List (NtsbField × Json)} (h : eventPairs row decoder = .ok ps) :
    AllFinite ps ↔ ∀ column ∈ eventMeasures, ¬ NotFinite (cell row column) := by
  simp only [eventPairs, bind_ok, pure_ok] at h
  obtain ⟨time, -, wind, -, gust, -, fatal, -, serious, -, minor, -, uninjured, -, rfl⟩ := h
  simp [allFinite_append, allFinite_putText, allFinite_putInt, allFinite_putFloat, eventMeasures]

omit [PyText] [PyRepr] [PyUpper] [PyIso] in
theorem serialisableList_iff {xs : List Json} :
    Json.serialisableList xs = true ↔ ∀ x ∈ xs, x.serialisable = true := by
  induction xs with
  | nil => exact ⟨fun _ _ h => absurd h List.not_mem_nil, fun _ => rfl⟩
  | cons x xs ih => rw [Json.serialisableList, Bool.and_eq_true, ih, List.forall_mem_cons]

omit [PyText] [PyRepr] [PyUpper] [PyIso] in
theorem serialisable_jsonText (text : Option String) : (jsonText text).serialisable = true := by
  cases text <;> rfl

omit [PyIso] in
theorem aircraftPairs_finite {row : EadmsRow} {registrations : List String}
    {decoder : EadmsCodeDecoder} {ps : List (NtsbField × Json)}
    (h : aircraftPairs row registrations decoder = .ok ps) : AllFinite ps := by
  simp only [aircraftPairs, bind_ok, pure_ok] at h
  obtain ⟨engines, -, seats, -, rfl⟩ := h
  have hregistrations : AllFinite (put .aircraftRegistrationNumbers
      (if registrations = [] then none else some (.arr (registrations.map .str)))) := by
    refine allFinite_put fun v hv => ?_
    split at hv
    · cases hv
    · obtain rfl := Option.some.inj hv
      rw [Json.serialisable, serialisableList_iff, List.forall_mem_map]
      exact fun _ _ => rfl
  have hbuilt : AllFinite (put .amateurBuilt ((toBoolYn (cell row "homebuilt")).map .bool)) := by
    refine allFinite_put fun v hv => ?_
    obtain ⟨b, -, rfl⟩ := Option.map_eq_some_iff.mp hv
    rfl
  simp [allFinite_append, allFinite_putText, allFinite_putInt, hregistrations, hbuilt]

omit [PyText] [PyIso] in
theorem narrativePairs_finite (narrative : EadmsRow) (findings : List EadmsRow) :
    AllFinite (narrativePairs narrative findings) := by
  have hitems : ∀ item ∈ buildFindingItems findings, item.serialisable = true := by
    intro item hitem
    unfold buildFindingItems at hitem
    obtain ⟨⟨role, item⟩, hmem, rfl⟩ := List.mem_map.mp hitem
    obtain ⟨row, -, hrow⟩ := List.mem_filterMap.mp ((List.mem_insertionSort _).mp hmem)
    unfold findingItem at hrow
    dsimp only at hrow
    split at hrow
    · cases hrow
    · obtain ⟨rfl, rfl⟩ := Prod.mk.inj (Option.some.inj hrow)
      simp [Json.serialisable, Json.serialisableFields, serialisable_jsonText]
  have hfindings : AllFinite (put .causalFindings (if buildFindingItems findings = [] then none
      else some (.arr (buildFindingItems findings)))) := by
    refine allFinite_put fun v hv => ?_
    split at hv
    · cases hv
    · obtain rfl := Option.some.inj hv
      rw [Json.serialisable, serialisableList_iff]
      exact hitems
  unfold narrativePairs
  simp [allFinite_append, allFinite_putText, hfindings]

/-! ## The registrations -/

/-- `_registration_dedupe_key`. -/
def registrationDedupeKey (registration : String) : Text :=
  dropSeparators (PyText.lower registration).toList

omit [PyUpper] [PyIso] in
/-- The registrations have keys, which are new and pairwise distinct. -/
theorem collectRegistrations_keys (seen : List Text) (rows : List EadmsRow) :
    (∀ r ∈ collectRegistrations seen rows,
        registrationDedupeKey r ≠ [] ∧ registrationDedupeKey r ∉ seen) ∧
      ((collectRegistrations seen rows).map registrationDedupeKey).Nodup := by
  induction rows generalizing seen with
  | nil => exact ⟨fun _ h => absurd h List.not_mem_nil, List.nodup_nil⟩
  | cons row rows ih =>
      unfold collectRegistrations
      split
      · exact ih seen
      · rename_i registration _
        dsimp only
        split
        · exact ih seen
        · rename_i hkey
          rw [not_or] at hkey
          obtain ⟨hmem, hnodup⟩ := ih (registrationDedupeKey registration :: seen)
          refine ⟨List.forall_mem_cons.mpr ⟨hkey, fun r hr => ?_⟩, ?_⟩
          · obtain ⟨hne, hnew⟩ := hmem r hr
            exact ⟨hne, fun h => hnew (List.mem_cons_of_mem _ h)⟩
          · rw [List.map_cons, List.nodup_cons]
            refine ⟨fun h => ?_, hnodup⟩
            obtain ⟨r, hr, heq⟩ := List.mem_map.mp h
            exact (hmem r hr).2 (heq ▸ List.mem_cons_self)

omit [PyUpper] [PyIso] in
/-- A registration that is more than separators comes first when its aircraft does. -/
theorem collectRegistrations_primary {primary : EadmsRow} {registration : String}
    (h : cleanStr (cell primary "regis_no") = some registration)
    (hkey : registrationDedupeKey registration ≠ []) (rows : List EadmsRow) :
    ∃ others, collectRegistrations [] (primary :: rows) = registration :: others := by
  unfold collectRegistrations
  rw [h]
  refine ⟨_, if_neg ?_⟩
  rw [not_or]
  exact ⟨hkey, List.not_mem_nil⟩

/-! ## The pairs of a record -/

/-- No cell that is read as an integer is infinite. -/
structure EadmsRecord.FiniteCounts (rows : EadmsRecord) : Prop where
  event : ∀ column ∈ eventCounts, ¬ Infinite (cell rows.event column)
  keys : ∀ row ∈ rows.aircraft, ¬ Infinite (cell row "Aircraft_Key")
  primary : ∀ primary, rows.primaryAircraft = .ok (some primary) →
    ∀ column ∈ aircraftCounts, ¬ Infinite (cell primary column)

/-- Every cell that is read as a float is a number. -/
def EadmsRecord.FiniteMeasures (rows : EadmsRecord) : Prop :=
  ∀ column ∈ eventMeasures, ¬ NotFinite (cell rows.event column)

/-- The registration of the primary aircraft, if it has one, is more than separators. -/
def EadmsRecord.PrimaryNamed (rows : EadmsRecord) : Prop :=
  ∀ primary registration, rows.primaryAircraft = .ok (some primary) →
    cleanStr (cell primary "regis_no") = some registration → registrationDedupeKey registration ≠ []

omit [PyUpper] [PyIso] in
theorem primaryAircraft_ok {rows : EadmsRecord} {primary : Option EadmsRow} :
    rows.primaryAircraft = .ok primary ↔
      ∃ sorted, sortedAircraft rows.aircraft = .ok sorted ∧ sorted.head? = primary := by
  simp only [EadmsRecord.primaryAircraft, bind_ok, pure_ok]

theorem pairs_ok_iff {rows : EadmsRecord} {decoder : EadmsCodeDecoder} :
    (∃ ps, rows.pairs decoder = .ok ps) ↔ rows.FiniteCounts := by
  constructor
  · rintro ⟨ps, h⟩
    have hsorted : ∃ sorted, sortedAircraft rows.aircraft = .ok sorted := by
      simp only [EadmsRecord.pairs, bind_ok] at h
      obtain ⟨sorted, hsorted, -⟩ := h
      exact ⟨sorted, hsorted⟩
    obtain ⟨event, aircraft, hevent, haircraft, -⟩ := pairs_ok h
    refine ⟨eventPairs_ok_iff.mp ⟨event, hevent⟩, sortedAircraft_ok_iff.mp hsorted, fun p hp => ?_⟩
    rcases haircraft with ⟨sorted, primary, hsorted, hhead, hok⟩ | ⟨hnone, -⟩
    · have hprimary := primaryAircraft_ok.mpr ⟨sorted, hsorted, hhead⟩
      rw [hprimary] at hp
      obtain rfl := Option.some.inj (Except.ok.inj hp)
      exact aircraftPairs_ok_iff.mp ⟨aircraft, hok⟩
    · rw [hnone] at hp
      cases hp
  · intro h
    obtain ⟨sorted, hsorted⟩ := sortedAircraft_ok_iff.mpr h.keys
    have hevent : ∃ event, eventPairs rows.event decoder = .ok event := eventPairs_ok_iff.mpr h.event
    obtain ⟨event, hevent⟩ := hevent
    unfold EadmsRecord.pairs
    rw [hsorted, ok_bind, hevent, ok_bind]
    cases hhead : sorted.head? with
    | none => exact ⟨_, rfl⟩
    | some primary =>
        have haircraft : ∃ aircraft,
            aircraftPairs primary (collectRegistrations [] sorted) decoder = .ok aircraft :=
          aircraftPairs_ok_iff.mpr
            (h.primary primary (primaryAircraft_ok.mpr ⟨sorted, hsorted, hhead⟩))
        obtain ⟨aircraft, haircraft⟩ := haircraft
        dsimp only
        rw [haircraft]
        exact ⟨_, rfl⟩

/-- The claims of a record are JSON when its measures are numbers. -/
theorem pairs_finite {rows : EadmsRecord} {decoder : EadmsCodeDecoder}
    {ps : List (NtsbField × Json)} (h : rows.pairs decoder = .ok ps) :
    AllFinite ps ↔ rows.FiniteMeasures := by
  obtain ⟨event, aircraft, hevent, haircraft, rfl⟩ := pairs_ok h
  have hfinite : AllFinite aircraft := by
    rcases haircraft with ⟨_, _, -, -, hok⟩ | ⟨-, rfl⟩
    · exact aircraftPairs_finite hok
    · exact fun _ hp => absurd hp List.not_mem_nil
  rw [allFinite_append, allFinite_append, eventPairs_finite hevent]
  exact ⟨fun h => h.1.1, fun h => ⟨⟨h, hfinite⟩, narrativePairs_finite _ _⟩⟩

omit [PyIso] in
theorem aircraftPairs_registrations {row : EadmsRow} {registrations : List String}
    {decoder : EadmsCodeDecoder} {ps : List (NtsbField × Json)} {v : Json}
    (h : aircraftPairs row registrations decoder = .ok ps) :
    (NtsbField.aircraftRegistrationNumbers, v) ∈ ps ↔
      registrations ≠ [] ∧ v = .arr (registrations.map .str) := by
  simp only [aircraftPairs, bind_ok, pure_ok] at h
  obtain ⟨engines, -, seats, -, rfl⟩ := h
  have hother : ∀ (f : NtsbField) (o : Option Json), f ≠ .aircraftRegistrationNumbers →
      ((NtsbField.aircraftRegistrationNumbers, v) ∈ put f o ↔ False) :=
    fun f o hf => iff_false_intro fun h => hf (mem_put h).1.symm
  have hlist : (NtsbField.aircraftRegistrationNumbers, v) ∈ put .aircraftRegistrationNumbers
      (if registrations = [] then none else some (.arr (registrations.map .str))) ↔
        registrations ≠ [] ∧ v = .arr (registrations.map .str) := by
    by_cases hnil : registrations = []
    · rw [if_pos hnil]
      exact iff_of_false List.not_mem_nil fun h => h.1 hnil
    · rw [if_neg hnil]
      exact ⟨fun h => ⟨hnil, (Prod.mk.inj (List.mem_singleton.mp h)).2⟩,
        fun h => List.mem_singleton.mpr (by rw [h.2])⟩
  simp only [List.mem_append, putText, putInt, hlist]
  simp [hother]

/-- The list of registrations that a record claims. -/
theorem pairs_registrations {rows : EadmsRecord} {decoder : EadmsCodeDecoder}
    {ps : List (NtsbField × Json)} {v : Json} (h : rows.pairs decoder = .ok ps) :
    (NtsbField.aircraftRegistrationNumbers, v) ∈ ps ↔
      ∃ sorted, sortedAircraft rows.aircraft = .ok sorted ∧ collectRegistrations [] sorted ≠ [] ∧
        v = .arr ((collectRegistrations [] sorted).map .str) := by
  obtain ⟨event, aircraft, hevent, haircraft, rfl⟩ := pairs_ok h
  have hnotEvent : (NtsbField.aircraftRegistrationNumbers, v) ∉ event := fun hmem =>
    have hfield := (eventPairs_sublist hevent).subset (List.mem_map_of_mem hmem)
    absurd hfield (by dsimp only; decide)
  have hnotNarrative : (NtsbField.aircraftRegistrationNumbers, v) ∉
      narrativePairs (rows.narratives.head?.getD []) rows.findings := fun hmem =>
    have hfield := (narrativePairs_sublist _ _).subset (List.mem_map_of_mem hmem)
    absurd hfield (by dsimp only; decide)
  rw [List.mem_append, List.mem_append, or_iff_left hnotNarrative, or_iff_right hnotEvent]
  rcases haircraft with ⟨sorted, primary, hsorted, hhead, hok⟩ | ⟨hnone, rfl⟩
  · rw [aircraftPairs_registrations hok]
    constructor
    · exact fun h => ⟨sorted, hsorted, h⟩
    · rintro ⟨sorted', hsorted', h⟩
      obtain rfl := Except.ok.inj (hsorted.symm.trans hsorted')
      exact h
  · refine iff_of_false List.not_mem_nil ?_
    rintro ⟨sorted, hsorted, hne, -⟩
    obtain ⟨sorted', hsorted', hhead⟩ := primaryAircraft_ok.mp hnone
    obtain rfl := Except.ok.inj (hsorted.symm.trans hsorted')
    rw [List.head?_eq_none_iff.mp hhead] at hne
    exact hne rfl

end Mapping

end Ntsb

end Atlas
