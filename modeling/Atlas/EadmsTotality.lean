import Atlas.EadmsMapping
import Atlas.Lib.Subjects

/-!
# How far the eADMS mapping is total

A record is mapped as its consumers expect exactly when its counts are finite, its lines no longer
than their headers, its measures numbers and its primary registration more than separators.  The
loop of the reader stands outside the error handling of the load: it reads every row of `events`
exactly when no count and no finding number is infinite and no line of a record is too long.
-/

namespace Atlas

open Outcome

namespace Ntsb

section Totality

variable [PyText] [PyRepr] [PyUpper] [PyIso] [FloatRepr] (sha256 : List Char → String)

/-! ## One record -/

/-- What the claims of a record should be. -/
structure WellMapped (rows : EadmsRecord) (out : NtsbEventRecord) : Prop where
  names : (out.claims.map IngestionClaimDTO.fieldName).Nodup
  finite : ∀ c ∈ out.claims, c.fieldValue.serialisable = true
  primaryFirst : ∀ primary registration, rows.primaryAircraft = .ok (some primary) →
    cleanStr (cell primary "regis_no") = some registration →
    ∃ c ∈ out.claims, c.fieldName = "aircraft_registration_numbers" ∧
      ∃ others, c.fieldValue = .arr (.str registration :: others)
  distinct : ∀ c ∈ out.claims, c.fieldName = "aircraft_registration_numbers" →
    ∃ registrations : List String, c.fieldValue = .arr (registrations.map .str) ∧
      (registrations.map registrationDedupeKey).Nodup

/-- `build_event_record` returns, `None` exactly without an `ev_id`, and else what it should. -/
def MapsTotally (record : CsvRecord) (decoder : EadmsCodeDecoder) (capturedAt : Time) : Prop :=
  (record.event.text "ev_id" = "" ∧ buildCsvRecord sha256 record decoder capturedAt = .ok none) ∨
    (record.event.text "ev_id" ≠ "" ∧
      ∃ out, buildCsvRecord sha256 record decoder capturedAt = .ok (some out) ∧
        WellMapped record.rows out)

/-- Nothing in the record makes the mapping raise. -/
structure CsvRecord.Loads (record : CsvRecord) : Prop where
  counts : record.rows.FiniteCounts
  lines : ∀ row ∈ record.lines, row.rest = []

omit [PyText] [PyUpper] [PyIso] [FloatRepr] in
/-- The reader and the mapping agree on which rows have an `ev_id`. -/
theorem evId_blank_iff {row : CsvRow} :
    row.text "ev_id" = "" ↔ cleanStr (cell row.named "ev_id") = none := by
  rw [cell_named]
  unfold CsvRow.text
  cases row.get "ev_id" with
  | none => exact iff_of_true rfl rfl
  | some s =>
      change strip s = "" ↔ (if strip s = "" then none else some (strip s)) = none
      by_cases hs : strip s = ""
      · exact iff_of_true hs (if_pos hs)
      · rw [if_neg hs]
        exact iff_of_false hs nofun

variable {sha256} {record : CsvRecord} {decoder : EadmsCodeDecoder} {capturedAt : Time}

theorem buildCsvRecord_blank (h : record.event.text "ev_id" = "") :
    buildCsvRecord sha256 record decoder capturedAt = .ok none := by
  have hrow : cleanStr (cell record.rows.event "ev_id") = none := evId_blank_iff.mp h
  unfold buildCsvRecord buildEventRecord
  rw [hrow]

/-- The mapping of a record with an `ev_id`. -/
theorem buildEventRecord_pairs (h : record.event.text "ev_id" ≠ "") :
    (∃ ps out, record.rows.pairs decoder = .ok ps ∧ out.claims = ps.map claimOf ∧
        buildEventRecord sha256 record.rows decoder capturedAt = .ok (some out)) ∨
      (¬ record.rows.FiniteCounts ∧
        buildEventRecord sha256 record.rows decoder capturedAt = .error .overflow) := by
  obtain ⟨evId, hrow⟩ : ∃ evId, cleanStr (cell record.rows.event "ev_id") = some evId :=
    Option.ne_none_iff_exists'.mp fun hnone => h (evId_blank_iff.mpr hnone)
  unfold buildEventRecord
  rw [hrow]
  cases hps : record.rows.pairs decoder with
  | error e =>
      cases e
      refine .inr ⟨fun hcounts => ?_, rfl⟩
      obtain ⟨ps, hok⟩ := (@pairs_ok_iff _ _ _ _ record.rows decoder).mpr hcounts
      rw [hps] at hok
      cases hok
  | ok ps => exact .inl ⟨ps, _, rfl, rfl, rfl⟩

/-- A record with an `ev_id` is built exactly when nothing in it raises. -/
theorem buildCsvRecord_cases (h : record.event.text "ev_id" ≠ "") :
    (record.Loads ∧ ∃ ps out, record.rows.pairs decoder = .ok ps ∧ out.claims = ps.map claimOf ∧
        buildCsvRecord sha256 record decoder capturedAt = .ok (some out)) ∨
      (¬ record.Loads ∧ ∃ e, buildCsvRecord sha256 record decoder capturedAt = .error e) := by
  unfold buildCsvRecord
  rcases @buildEventRecord_pairs _ _ _ _ _ sha256 record decoder capturedAt h with
    ⟨ps, out, hps, hclaims, hout⟩ | ⟨hcounts, herror⟩
  · rw [hout]
    dsimp only
    have hlines : (record.lines.any fun row => row.rest ≠ []) = true ↔
        ¬ ∀ row ∈ record.lines, row.rest = [] := by
      simp [List.any_eq_true]
    by_cases hrest : ∀ row ∈ record.lines, row.rest = []
    · rw [if_neg fun hany => hlines.mp hany hrest]
      exact .inl ⟨⟨pairs_ok_iff.mp ⟨ps, hps⟩, hrest⟩, ps, out, hps, hclaims, rfl⟩
    · rw [if_pos (hlines.mpr hrest)]
      exact .inr ⟨fun hloads => hrest hloads.lines, _, rfl⟩
  · rw [herror]
    exact .inr ⟨fun hloads => hcounts hloads.counts, _, rfl⟩

omit [PyText] [PyRepr] [PyUpper] [PyIso] [FloatRepr] in
theorem NtsbField.name_inj {f g : NtsbField} (h : f.name = g.name) : f = g :=
  List.inj_on_of_nodup_map nodup_names (mem_allNtsbFields f) (mem_allNtsbFields g) h

omit [FloatRepr] in
/-- **What is built is as it should be** when the measures are numbers and the primary aircraft's
registration is one. -/
theorem wellMapped_iff {ps : List (NtsbField × Json)} {out : NtsbEventRecord}
    (hps : record.rows.pairs decoder = .ok ps) (hclaims : out.claims = ps.map claimOf) :
    WellMapped record.rows out ↔ record.rows.FiniteMeasures ∧ record.rows.PrimaryNamed := by
  have hfinite : (∀ c ∈ out.claims, c.fieldValue.serialisable = true) ↔
      record.rows.FiniteMeasures := by
    rw [hclaims, List.forall_mem_map, ← pairs_finite hps]
    exact Iff.rfl
  have hlist : ∀ v, (∃ c ∈ out.claims, c.fieldName = "aircraft_registration_numbers" ∧
      c.fieldValue = v) ↔ ∃ sorted, sortedAircraft record.rows.aircraft = .ok sorted ∧
        collectRegistrations [] sorted ≠ [] ∧
        v = .arr ((collectRegistrations [] sorted).map .str) := by
    intro v
    rw [← pairs_registrations hps, hclaims]
    constructor
    · rintro ⟨c, hc, hname, rfl⟩
      obtain ⟨⟨f, w⟩, hp, rfl⟩ := List.mem_map.mp hc
      obtain rfl : f = .aircraftRegistrationNumbers := NtsbField.name_inj hname
      exact hp
    · exact fun hp => ⟨_, List.mem_map_of_mem hp, rfl, rfl⟩
  constructor
  · intro h
    refine ⟨hfinite.mp h.finite, fun primary registration hprimary hregistration hkey => ?_⟩
    obtain ⟨c, hc, hname, others, hvalue⟩ := h.primaryFirst primary registration hprimary hregistration
    obtain ⟨sorted, -, -, hv⟩ := (hlist _).mp ⟨c, hc, hname, hvalue⟩
    have hmem : Json.str registration ∈ (collectRegistrations [] sorted).map Json.str :=
      Json.arr.inj hv ▸ List.mem_cons_self
    obtain ⟨r, hr, heq⟩ := List.mem_map.mp hmem
    obtain rfl := Json.str.inj heq
    exact ((collectRegistrations_keys [] sorted).1 r hr).1 hkey
  · rintro ⟨hmeasures, hnamed⟩
    refine ⟨?_, hfinite.mpr hmeasures, fun primary registration hprimary hregistration => ?_, ?_⟩
    · rw [hclaims, List.map_map]
      have hsub := (pairs_sublist hps).map NtsbField.name
      rw [List.map_map] at hsub
      exact nodup_names.sublist hsub
    · obtain ⟨sorted, hsorted, hhead⟩ := primaryAircraft_ok.mp hprimary
      obtain ⟨rest, rfl⟩ := List.head?_eq_some_iff.mp hhead
      obtain ⟨others, hothers⟩ := collectRegistrations_primary hregistration
        (hnamed primary registration hprimary hregistration) rest
      obtain ⟨c, hc, hname, hvalue⟩ := (hlist _).mpr ⟨_, hsorted, by rw [hothers]; exact nofun, rfl⟩
      exact ⟨c, hc, hname, others.map .str, by rw [hvalue, hothers]; rfl⟩
    · intro c hc hname
      obtain ⟨sorted, -, -, hv⟩ := (hlist _).mp ⟨c, hc, hname, rfl⟩
      exact ⟨_, hv, (collectRegistrations_keys [] sorted).2⟩

/-- One record is mapped as it should be. -/
theorem mapsTotally_iff : MapsTotally sha256 record decoder capturedAt ↔
    record.event.text "ev_id" = "" ∨
      (record.Loads ∧ record.rows.FiniteMeasures ∧ record.rows.PrimaryNamed) := by
  unfold MapsTotally
  by_cases hblank : record.event.text "ev_id" = ""
  · exact iff_of_true (.inl ⟨hblank, buildCsvRecord_blank hblank⟩) (.inl hblank)
  · rw [or_iff_right fun h => hblank h.1, or_iff_right hblank]
    rcases @buildCsvRecord_cases _ _ _ _ _ sha256 record decoder capturedAt hblank with
      ⟨hloads, ps, out, hps, hclaims, hout⟩ | ⟨hloads, e, herror⟩
    · rw [← wellMapped_iff hps hclaims]
      constructor
      · rintro ⟨-, out', hout', hwell⟩
        obtain rfl := Option.some.inj (Except.ok.inj (hout.symm.trans hout'))
        exact ⟨hloads, hwell⟩
      · exact fun h => ⟨hblank, out, hout, h.2⟩
    · refine iff_of_false ?_ fun h => hloads h.1
      rintro ⟨-, out, hout, -⟩
      rw [herror] at hout
      cases hout

/-! ## The loop -/

/-- Every row with an `ev_id` gives its record, in order, and no exception ends the loop. -/
structure ReadsEvery (build : CsvRow → Time → Except EadmsError (Option NtsbEventRecord))
    (rows : List CsvRow) (read : List NtsbEventRecord × Option EadmsError) : Prop where
  records : List.Forall₂ (fun row out => ∃ capturedAt, build row capturedAt = .ok (some out))
    (rows.filter fun row => row.text "ev_id" ≠ "") read.1
  finished : read.2 = none

omit [PyText] [PyRepr] [PyUpper] [PyIso] [FloatRepr] in
/-- The loop reads everything when every row with an `ev_id` is built. -/
theorem readsEvery_iterRows
    {build : CsvRow → Time → Except EadmsError (Option NtsbEventRecord)} {Loads : CsvRow → Prop}
    (hbuild : ∀ row capturedAt, row.text "ev_id" ≠ "" →
      (Loads row ∧ ∃ out, build row capturedAt = .ok (some out)) ∨
        (¬ Loads row ∧ ∃ e, build row capturedAt = .error e))
    (now : Nat → Time) (n : Nat) (rows : List CsvRow) :
    ReadsEvery build rows (iterRows build now n rows) ↔
      ∀ row ∈ rows, row.text "ev_id" ≠ "" → Loads row := by
  induction rows generalizing n with
  | nil => exact ⟨fun _ _ h => absurd h List.not_mem_nil, fun _ => ⟨.nil, rfl⟩⟩
  | cons row rows ih =>
      unfold iterRows
      rw [List.forall_mem_cons]
      by_cases hblank : row.text "ev_id" = ""
      · rw [if_pos hblank, and_iff_right fun h => absurd hblank h, ← ih (n + 1)]
        have hfilter : (row :: rows).filter (fun row => row.text "ev_id" ≠ "") =
            rows.filter fun row => row.text "ev_id" ≠ "" :=
          List.filter_cons_of_neg (by simpa using hblank)
        exact ⟨fun h => ⟨hfilter ▸ h.records, h.finished⟩,
          fun h => ⟨hfilter.symm ▸ h.records, h.finished⟩⟩
      · rw [if_neg hblank]
        have hfilter : (row :: rows).filter (fun row => row.text "ev_id" ≠ "") =
            row :: rows.filter fun row => row.text "ev_id" ≠ "" :=
          List.filter_cons_of_pos (by simpa using hblank)
        rcases hbuild row (now n) hblank with ⟨hloads, out, hout⟩ | ⟨hloads, e, herror⟩
        · rw [hout, and_iff_right fun _ => hloads, ← ih (n + 1)]
          constructor
          · intro h
            have hrecords := h.records
            rw [hfilter, List.forall₂_cons] at hrecords
            exact ⟨hrecords.2, h.finished⟩
          · exact fun h => ⟨hfilter.symm ▸ .cons ⟨now n, hout⟩ h.records, h.finished⟩
        · rw [herror]
          exact iff_of_false (fun h => nomatch h.finished) fun h => hloads (h.1 hblank)

/-- The number of the finding is infinite. -/
def InfiniteFindingNo (row : CsvRow) : Prop :=
  ∃ negative, floatOfText (strip (pyStr (jsonText (row.get "finding_no")))) = some (.inf negative)

omit [PyUpper] [PyIso] [FloatRepr] in
theorem safeInt_ok_iff {row : CsvRow} :
    (∃ n, safeInt (row.get "finding_no") = .ok n) ↔ ¬ InfiniteFindingNo row := by
  unfold safeInt InfiniteFindingNo
  cases floatOfText (strip (pyStr (jsonText (row.get "finding_no")))) with
  | none => exact iff_of_true ⟨_, rfl⟩ fun ⟨_, h⟩ => nomatch h
  | some f =>
      cases f with
      | finite q => exact iff_of_true ⟨_, rfl⟩ fun ⟨_, h⟩ => nomatch h
      | inf negative => exact iff_of_false (fun ⟨_, h⟩ => nomatch h) fun h => h ⟨negative, rfl⟩
      | nan => exact iff_of_true ⟨_, rfl⟩ fun ⟨_, h⟩ => nomatch h

omit [PyUpper] [PyIso] [FloatRepr] in
theorem findingsIndex_ok_iff {rows : List CsvRow} : (∃ findings, findingsIndex rows = .ok findings) ↔
    ∀ row ∈ rows, row.text "ev_id" ≠ "" → ¬ InfiniteFindingNo row := by
  have hrows : (∀ row ∈ rows, row.text "ev_id" ≠ "" → ¬ InfiniteFindingNo row) ↔
      ∀ row ∈ rows.filter fun row => row.text "ev_id" ≠ "", ∃ n, safeInt (row.get "finding_no") = .ok n := by
    simp only [List.mem_filter, decide_eq_true_eq, safeInt_ok_iff, and_imp]
  rw [hrows]
  constructor
  · rintro ⟨findings, h⟩ row hrow
    simp only [findingsIndex, bind_ok] at h
    obtain ⟨keyed, hkeyed, -⟩ := h
    obtain ⟨p, hp⟩ := exists_ok_of_mem hkeyed hrow
    simp only [bind_ok] at hp
    obtain ⟨n, hn, -⟩ := hp
    exact ⟨n, hn⟩
  · intro h
    have hkeyed : ∃ keyed, ((rows.filter fun row => row.text "ev_id" ≠ "").mapM fun row => do
        let key ← safeInt (row.get "finding_no")
        pure (key, row)) = (.ok keyed : Except EadmsError (List (Int × CsvRow))) := by
      refine mapM_total fun row hrow => ?_
      obtain ⟨n, hn⟩ := h row hrow
      rw [hn]
      exact ⟨_, rfl⟩
    obtain ⟨keyed, hkeyed⟩ := hkeyed
    unfold findingsIndex
    rw [hkeyed]
    exact ⟨_, rfl⟩

omit [PyUpper] [PyIso] [FloatRepr] in
/-- The index holds the rows of each accident. -/
theorem mem_findingsIndex {rows : List CsvRow} {findings : String → List CsvRow}
    (h : findingsIndex rows = .ok findings) {evId : String} {row : CsvRow} :
    row ∈ findings evId ↔ row ∈ indexByEvId rows evId := by
  simp only [findingsIndex, bind_ok, pure_ok] at h
  obtain ⟨keyed, hkeyed, rfl⟩ := h
  have hmem : (∃ n, (n, row) ∈ keyed) ↔ row ∈ rows ∧ row.text "ev_id" ≠ "" := by
    constructor
    · rintro ⟨n, hn⟩
      obtain ⟨row', hrow', hp⟩ := exists_of_mem_mapM hkeyed hn
      simp only [bind_ok, pure_ok] at hp
      obtain ⟨n', -, hp⟩ := hp
      obtain ⟨-, rfl⟩ := Prod.mk.inj hp
      simpa using hrow'
    · intro hrow
      have hfilter : row ∈ rows.filter fun row => row.text "ev_id" ≠ "" := by simpa using hrow
      obtain ⟨p, hp, hok⟩ := Subjects.exists_subject (mapM_ok.mp hkeyed) hfilter
      simp only [bind_ok, pure_ok] at hok
      obtain ⟨n, -, rfl⟩ := hok
      exact ⟨n, hp⟩
  unfold indexByEvId
  simp only [List.mem_map, List.mem_insertionSort, List.mem_filter, decide_eq_true_eq]
  constructor
  · rintro ⟨⟨n, row'⟩, ⟨hp, hevId⟩, rfl⟩
    obtain ⟨hrow, hne⟩ := hmem.mp ⟨n, hp⟩
    exact ⟨hrow, hne, hevId⟩
  · rintro ⟨hrow, hne, hevId⟩
    obtain ⟨n, hn⟩ := hmem.mpr ⟨hrow, hne⟩
    exact ⟨(n, row), ⟨hn, hevId⟩, rfl⟩

/-! ## All tables -/

/-- The lines of the accident of a row of `events`, as the files have them. -/
def EadmsTables.linesOf (tables : EadmsTables) (row : CsvRow) : CsvRecord :=
  tables.joined (indexByEvId tables.findings.rows) row

omit [PyUpper] [PyIso] [FloatRepr] in
theorem loads_joined {tables : EadmsTables} {findings : String → List CsvRow} {row : CsvRow}
    (h : findingsIndex tables.findings.rows = .ok findings) :
    (tables.joined findings row).Loads ↔ (tables.linesOf row).Loads := by
  have hlines : ∀ line, line ∈ (tables.joined findings row).lines ↔ line ∈ (tables.linesOf row).lines := by
    intro line
    unfold CsvRecord.lines EadmsTables.linesOf EadmsTables.joined
    simp only [List.mem_cons, List.mem_append, mem_findingsIndex h]
  constructor
  · intro hloads
    exact ⟨⟨hloads.counts.event, hloads.counts.keys, hloads.counts.primary⟩,
      fun line hline => hloads.lines line ((hlines line).mpr hline)⟩
  · intro hloads
    exact ⟨⟨hloads.counts.event, hloads.counts.keys, hloads.counts.primary⟩,
      fun line hline => hloads.lines line ((hlines line).mp hline)⟩

variable (sha256) in
/-- `iter_records` reads the tables to their end and yields the record of every accident. -/
def EadmsTables.ReadThrough (tables : EadmsTables) (now : Nat → Time) : Prop :=
  ∃ findings, findingsIndex tables.findings.rows = .ok findings ∧
    ReadsEvery (fun row => buildCsvRecord sha256 (tables.joined findings row)
      (EadmsCodeDecoder.fromDictionaryRows tables.dictionary.rows)) tables.events.rows
      (iterRecords sha256 tables now)

/-- No number of a finding is infinite, and nothing in any accident makes the mapping raise. -/
structure EadmsTables.Loads (tables : EadmsTables) : Prop where
  findings : ∀ row ∈ tables.findings.rows, row.text "ev_id" ≠ "" → ¬ InfiniteFindingNo row
  events : ∀ row ∈ tables.events.rows, row.text "ev_id" ≠ "" → (tables.linesOf row).Loads

theorem readThrough_iff {tables : EadmsTables} {now : Nat → Time} :
    tables.ReadThrough sha256 now ↔ tables.Loads := by
  have hloop : ∀ findings, findingsIndex tables.findings.rows = .ok findings →
      (ReadsEvery (fun row => buildCsvRecord sha256 (tables.joined findings row)
        (EadmsCodeDecoder.fromDictionaryRows tables.dictionary.rows)) tables.events.rows
        (iterRecords sha256 tables now) ↔
      ∀ row ∈ tables.events.rows, row.text "ev_id" ≠ "" → (tables.linesOf row).Loads) := by
    intro findings hfindings
    unfold iterRecords
    rw [hfindings]
    refine readsEvery_iterRows (fun row capturedAt hne => ?_) now 0 _
    rw [← loads_joined hfindings]
    rcases @buildCsvRecord_cases _ _ _ _ _ sha256 (tables.joined findings row)
        (EadmsCodeDecoder.fromDictionaryRows tables.dictionary.rows) capturedAt hne with
      ⟨hloads, _, out, -, -, hout⟩ | herror
    · exact .inl ⟨hloads, out, hout⟩
    · exact .inr herror
  constructor
  · rintro ⟨findings, hfindings, hread⟩
    exact ⟨findingsIndex_ok_iff.mp ⟨findings, hfindings⟩, (hloop findings hfindings).mp hread⟩
  · intro h
    obtain ⟨findings, hfindings⟩ := findingsIndex_ok_iff.mpr h.findings
    exact ⟨findings, hfindings, (hloop findings hfindings).mpr h.events⟩

/-- **The eADMS mapping is total up to infinities, measures that are no numbers, registrations of
separators and lines beyond their headers.** -/
theorem eadms_mapping_total_iff (sha256 : List Char → String) :
    (∀ (record : CsvRecord) (decoder : EadmsCodeDecoder) (capturedAt : Time),
        MapsTotally sha256 record decoder capturedAt ↔
          record.event.text "ev_id" = "" ∨
            (record.Loads ∧ record.rows.FiniteMeasures ∧ record.rows.PrimaryNamed)) ∧
      ∀ (tables : EadmsTables) (now : Nat → Time), tables.ReadThrough sha256 now ↔ tables.Loads :=
  ⟨fun _ _ _ => mapsTotally_iff, fun _ _ => readThrough_iff⟩

end Totality

/-- Two accidents; the first has a count that `float` reads as infinite. -/
def infiniteEvents : CsvTable where
  header := ["ev_id", "inj_tot_f"]
  lines := [["20080109X00036", "inf"], ["20080110X00040", "2"]]
  header_ne_nil := nofun

/-- A table without lines. -/
def emptyTable : CsvTable := ⟨["ev_id"], [], nofun⟩

def infiniteTables : EadmsTables := ⟨infiniteEvents, emptyTable, emptyTable, emptyTable, emptyTable⟩

/-- The first accident. -/
def infiniteAccident : CsvRecord := ⟨infiniteEvents.row ["20080109X00036", "inf"], [], [], []⟩

theorem infinite_deaths_read :
    infiniteAccident.event.text "ev_id" = "20080109X00036" ∧
      toFloat (cell infiniteAccident.rows.event "inj_tot_f") = some (.inf false) ∧
      (iterRecords (fun _ => "") infiniteTables fun _ => 0).1.length = 0 ∧
      (iterRecords (fun _ => "") infiniteTables fun _ => 0).2 = some .overflow := by
  decide +kernel

/-- The first accident is not mapped, and the second is never read. -/
theorem infinite_deaths_end_import :
    ¬ (∀ record decoder capturedAt, MapsTotally (fun _ => "") record decoder capturedAt) ∧
      iterRecords (fun _ => "") infiniteTables (fun _ => 0) = ([], some .overflow) := by
  obtain ⟨hevId, hinfinite, hnone, hraised⟩ := infinite_deaths_read
  refine ⟨fun h => ?_, Prod.ext (List.eq_nil_of_length_eq_zero hnone) hraised⟩
  rcases mapsTotally_iff.mp (h infiniteAccident noCodes 0) with hblank | ⟨hloads, -⟩
  · rw [hevId] at hblank
    exact absurd hblank (by decide)
  · exact hloads.counts.event "inj_tot_f" (by decide) ⟨false, hinfinite⟩

end Ntsb

end Atlas
