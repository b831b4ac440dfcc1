import Atlas.Idempotency
import Atlas.Normalizer

/-!
# NTSB eADMS records

`build_event_record` turns one accident of the eADMS tables into a submission: the
row of `events` with its rows of `aircraft`, `narratives` and `Findings`.  A field
without a value makes no claim.  The idempotency key is made of the content and not
of the time of the capture.

A cell is any JSON value; the exported tables hold texts, and `None` where a line
is short.  `int` of an infinite `float` raises an `OverflowError`, which nothing
catches.
-/

namespace Atlas

open Outcome

namespace Ntsb

/-- A row of a table, as `csv.DictReader` yields it. -/
abbrev EadmsRow := List (String × Json)

/-- `row.get(column)`. -/
def cell (row : EadmsRow) (column : String) : Json := (row.lookup column).getD .null

inductive NtsbError where
  | overflow
deriving DecidableEq, Repr

/-! ## The vocabulary -/

/-- The claims the importer makes. -/
inductive NtsbField where
  | ntsbNumber | eventType | occurredOn | occurredTimeLocal | occurredTimezone
  | locationCity | locationState | locationCountry | latitude | longitude
  | nearestAirportName | nearestAirportDistanceNm
  | lightCondition | ceilingCondition | visibilityStatuteMiles | temperatureC
  | windSpeedKnots | windGustKnots
  | highestInjuryLevel | fatalitiesTotal | seriousInjuriesTotal | minorInjuriesTotal
  | uninjuredTotal
  | registrationNumber | aircraftRegistrationNumbers | aircraftMake | aircraftModel
  | aircraftSeries | aircraftCategory | farPart | aircraftDamage | amateurBuilt | engineCount
  | totalSeats
  | probableCauseNarrative | factualNarrative | analysisNarrative | causalFindings
deriving DecidableEq, Repr

/-- The name of the claim. -/
def NtsbField.name : NtsbField → String
  | ntsbNumber => "ntsb_number"
  | eventType => "event_type"
  | occurredOn => "occurred_on"
  | occurredTimeLocal => "occurred_time_local"
  | occurredTimezone => "occurred_timezone"
  | locationCity => "location_city"
  | locationState => "location_state"
  | locationCountry => "location_country"
  | latitude => "latitude"
  | longitude => "longitude"
  | nearestAirportName => "nearest_airport_name"
  | nearestAirportDistanceNm => "nearest_airport_distance_nm"
  | lightCondition => "light_condition"
  | ceilingCondition => "ceiling_condition"
  | visibilityStatuteMiles => "visibility_statute_miles"
  | temperatureC => "temperature_c"
  | windSpeedKnots => "wind_speed_knots"
  | windGustKnots => "wind_gust_knots"
  | highestInjuryLevel => "highest_injury_level"
  | fatalitiesTotal => "fatalities_total"
  | seriousInjuriesTotal => "serious_injuries_total"
  | minorInjuriesTotal => "minor_injuries_total"
  | uninjuredTotal => "uninjured_total"
  | registrationNumber => "registration_number"
  | aircraftRegistrationNumbers => "aircraft_registration_numbers"
  | aircraftMake => "aircraft_make"
  | aircraftModel => "aircraft_model"
  | aircraftSeries => "aircraft_series"
  | aircraftCategory => "aircraft_category"
  | farPart => "far_part"
  | aircraftDamage => "aircraft_damage"
  | amateurBuilt => "amateur_built"
  | engineCount => "engine_count"
  | totalSeats => "total_seats"
  | probableCauseNarrative => "probable_cause_narrative"
  | factualNarrative => "factual_narrative"
  | analysisNarrative => "analysis_narrative"
  | causalFindings => "causal_findings"

theorem NtsbField.name_stripped (f : NtsbField) : strip f.name = f.name ∧ f.name ≠ "" := by
  cases f <;> decide +kernel

/-- `NTSB_FIELD_MAPPING`. -/
def ntsbFieldMapping : List (String × String) := [
  ("ntsb_no", "ntsb_number"), ("ev_type", "event_type"), ("ev_date", "occurred_on"),
  ("ev_time", "occurred_time_local"), ("ev_tmzn", "occurred_timezone"),
  ("ev_city", "location_city"), ("ev_state", "location_state"), ("ev_country", "location_country"),
  ("latitude", "latitude"), ("longitude", "longitude"), ("apt_name", "nearest_airport_name"),
  ("apt_dist", "nearest_airport_distance_nm"), ("light_cond", "light_condition"),
  ("sky_cond_ceil", "ceiling_condition"), ("vis_sm", "visibility_statute_miles"),
  ("wx_temp", "temperature_c"), ("wind_vel_kts", "wind_speed_knots"),
  ("gust_kts", "wind_gust_knots"), ("ev_highest_injury", "highest_injury_level"),
  ("inj_tot_f", "fatalities_total"), ("inj_tot_s", "serious_injuries_total"),
  ("inj_tot_m", "minor_injuries_total"), ("inj_tot_n", "uninjured_total"),
  ("regis_no", "registration_number"), ("acft_make", "aircraft_make"),
  ("acft_model", "aircraft_model"), ("acft_series", "aircraft_series"),
  ("acft_category", "aircraft_category"), ("far_part", "far_part"),
  ("damage", "aircraft_damage"), ("homebuilt", "amateur_built"), ("num_eng", "engine_count"),
  ("total_seats", "total_seats"), ("narr_cause", "probable_cause_narrative"),
  ("narr_accf", "factual_narrative"), ("narr_accp", "analysis_narrative"),
  ("Findings", "causal_findings")]

/-- `EadmsCodeDecoder`: the meaning of a code, by table, column and code. -/
structure EadmsCodeDecoder where
  mapping : String → String → String → Option String

/-! ## Cells -/

section Cells

variable [PyText] [PyRepr]

/-- `_clean_str`. -/
def cleanStr : Json → Option String
  | .null => none
  | value => if strip (pyStr value) = "" then none else some (strip (pyStr value))

/-- `float(text)`. -/
def floatOfText (text : String) : Option PyFloat := pyFloat (text.toList.map Char.toLower)

/-- `_to_int`. -/
def toInt (value : Json) : Except NtsbError (Option Int) :=
  match (cleanStr value).bind floatOfText with
  | none => .ok none
  | some (.finite q) => .ok (some (if 0 ≤ q then ⌊q⌋ else ⌈q⌉))
  | some (.inf _) => .error .overflow
  | some .nan => .ok none

/-- `_to_float`. -/
def toFloat (value : Json) : Option PyFloat := (cleanStr value).bind floatOfText

/-- `_to_bool_yn`. -/
def toBoolYn [PyUpper] (value : Json) : Option Bool :=
  (cleanStr value).bind fun text =>
    let upper := PyUpper.upper text
    if upper ∈ ["Y", "YES", "T", "TRUE", "1"] then some true
    else if upper ∈ ["N", "NO", "F", "FALSE", "0"] then some false
    else none

/-- `EadmsCodeDecoder.decode`. -/
def EadmsCodeDecoder.decode [PyUpper] (decoder : EadmsCodeDecoder) (table column : String)
    (code : Option String) : Option String :=
  code.bind fun code =>
    let code := strip code
    if code = "" then none
    else some ((decoder.mapping table column (PyUpper.upper code)).getD code)

end Cells

/-! ## Dates -/

section Dates

variable [PyText]

/-- The ways a directive of `strptime` can match the beginning of a text, the one
the regular expression tries first in front. -/
abbrev Readings (α : Type) := List (α × List Char)

/-- A digit within bounds, as in `[1-9]`. -/
def digitIn (lo hi : Nat) (c : Char) : Option Nat :=
  (asciiDigit c).filter fun d => lo ≤ d ∧ d ≤ hi

def one (p : Char → Option Nat) : List Char → Readings Nat
  | c :: cs => ((p c).map fun d => (d, cs)).toList
  | [] => []

def two (p q : Char → Option Nat) : List Char → Readings Nat
  | c :: d :: cs => ((p c).bind fun x => (q d).map fun y => (x * 10 + y, cs)).toList
  | _ => []

/-- `%m`. -/
def monthDirective (cs : List Char) : Readings Nat :=
  two (digitIn 1 1) (digitIn 0 2) cs ++ two (digitIn 0 0) (digitIn 1 9) cs ++ one (digitIn 1 9) cs

/-- `%d`. -/
def dayDirective (cs : List Char) : Readings Nat :=
  two (digitIn 3 3) (digitIn 0 1) cs ++ two (digitIn 1 2) PyText.decimal cs ++
    two (digitIn 0 0) (digitIn 1 9) cs ++ one (digitIn 1 9) cs ++
    two (fun c => if c = ' ' then some 0 else none) (digitIn 1 9) cs

/-- `%y`, with the century of POSIX. -/
def shortYearDirective (cs : List Char) : Readings Nat :=
  (two PyText.decimal PyText.decimal cs).map fun r =>
    (if r.1 ≤ 68 then r.1 + 2000 else r.1 + 1900, r.2)

/-- `%Y`. -/
def yearDirective (cs : List Char) : Readings Nat :=
  (two PyText.decimal PyText.decimal cs).flatMap fun r =>
    (two PyText.decimal PyText.decimal r.2).map fun r' => (r.1 * 100 + r'.1, r'.2)

/-- `%H`. -/
def hourDirective (cs : List Char) : Readings Nat :=
  two (digitIn 2 2) (digitIn 0 3) cs ++ two (digitIn 0 1) PyText.decimal cs ++ one PyText.decimal cs

/-- `%M`. -/
def minuteDirective (cs : List Char) : Readings Nat :=
  two (digitIn 0 5) PyText.decimal cs ++ one PyText.decimal cs

/-- `%S`. -/
def secondDirective (cs : List Char) : Readings Nat :=
  two (digitIn 6 6) (digitIn 0 1) cs ++ two (digitIn 0 5) PyText.decimal cs ++ one PyText.decimal cs

/-- A character of the format. -/
def literal (c : Char) : List Char → Readings Unit
  | d :: cs => if d = c then [((), cs)] else []
  | [] => []

/-- A blank of the format, which matches a run of blanks. -/
def blanks : List Char → Readings Unit
  | c :: cs => if isSpace c then [((), cs.dropWhile isSpace)] else []
  | [] => []

/-- `%m/%d/` and a year: the date and what is left. -/
def dateReadings (year : List Char → Readings Nat) (cs : List Char) : Readings (Nat × Nat × Nat) :=
  (monthDirective cs).flatMap fun m => (literal '/' m.2).flatMap fun s =>
    (dayDirective s.2).flatMap fun d => (literal '/' d.2).flatMap fun t =>
      (year t.2).map fun y => ((y.1, m.1, d.1), y.2)

/-- `%H:%M:%S`: the seconds and what is left. -/
def timeReadings (cs : List Char) : Readings Nat :=
  (blanks cs).flatMap fun b => (hourDirective b.2).flatMap fun h => (literal ':' h.2).flatMap fun s =>
    (minuteDirective s.2).flatMap fun m => (literal ':' m.2).flatMap fun t => secondDirective t.2

/-- The date of a match that takes the whole text. -/
def wholeMatch (readings : Readings (Nat × Nat × Nat)) : Option PyDate :=
  match readings.head? with
  | some ((y, m, d), []) => PyDate.mk? y m d
  | _ => none

/-- `datetime.strptime(text, fmt).date()` for a format with a time of day; a leap
second is no `datetime`. -/
def strptimeWithTime (year : List Char → Readings Nat) (cs : List Char) : Option PyDate :=
  let readings := (dateReadings year cs).flatMap fun d =>
    (timeReadings d.2).map fun s => ((d.1, s.1), s.2)
  match readings.head? with
  | some ((_, second), _) =>
      if second ≤ 59 then wholeMatch (readings.map fun r => (r.1.1, r.2)) else none
  | none => none

/-- `datetime.strptime(text, fmt).date()` for a format without one. -/
def strptimeDate (year : List Char → Readings Nat) (cs : List Char) : Option PyDate :=
  wholeMatch (dateReadings year cs)

/-- `_parse_event_date`. -/
def parseEventDate [PyRepr] [PyIso] (value : Json) : Option PyDate :=
  (cleanStr value).bind fun text =>
    let cs := text.toList
    (strptimeWithTime yearDirective cs).or <| (strptimeWithTime shortYearDirective cs).or <|
      (strptimeDate yearDirective cs).or <| (strptimeDate shortYearDirective cs).or <|
        PyIso.date (String.ofList (cs.take 10))

/-- `_parse_local_time`. -/
def parseLocalTime [PyRepr] (value : Json) : Except NtsbError (Option String) := do
  match ← toInt value with
  | none => pure none
  | some n =>
      let hh := n.toNat / 100
      let mm := n.toNat % 100
      if 0 < n ∧ hh ≤ 23 ∧ mm ≤ 59 then
        pure (some (String.ofList (padded 2 hh ++ ':' :: padded 2 mm)))
      else pure none

end Dates

example : (parseEventDate (.str "09/25/2020 18:05:31")).map PyDate.isoformat = some "2020-09-25" := by
  decide +kernel

example : (parseEventDate (.str "9/5/99")).map PyDate.isoformat = some "1999-09-05" := by
  decide +kernel

/-! ## Findings and aircraft -/

section Record

variable [PyText] [PyRepr] [PyUpper] [PyIso]

/-- The Board's role of a finding, as `_CAUSE_FACTOR_ROLE` gives it. -/
inductive FindingRole where
  | cause
  | factor
  | unspecified
deriving DecidableEq, Repr

def FindingRole.value : FindingRole → String
  | cause => "CAUSE"
  | factor => "FACTOR"
  | unspecified => "UNSPECIFIED"

def FindingRole.rank : FindingRole → Nat
  | cause => 0
  | factor => 1
  | unspecified => 2

def findingRole (row : EadmsRow) : FindingRole :=
  let code := PyUpper.upper ((cleanStr (cell row "Cause_Factor")).getD "")
  if code = "C" then .cause else if code = "F" then .factor else .unspecified

/-- The item of a finding, unless it has neither code nor description. -/
def findingItem (row : EadmsRow) : Option (FindingRole × Json) :=
  let code := cleanStr (cell row "finding_code")
  let description := cleanStr (cell row "finding_description")
  if code = none ∧ description = none then none
  else
    let role := findingRole row
    some (role, .obj [("finding_code", jsonText code), ("description", jsonText description),
      ("category_no", jsonText (cleanStr (cell row "category_no"))),
      ("subcategory_no", jsonText (cleanStr (cell row "subcategory_no"))),
      ("role", .str role.value)])

/-- `build_finding_items`: causes first, then factors, each in their order. -/
def buildFindingItems (rows : List EadmsRow) : List Json :=
  ((rows.filterMap findingItem).insertionSort fun a b => a.1.rank ≤ b.1.rank).map Prod.snd

/-- `_aircraft_sort_key`. -/
def aircraftSortKey (row : EadmsRow) : Except NtsbError Int := do
  let key ← toInt (cell row "Aircraft_Key")
  pure (key.getD 0)

/-- The aircraft by their keys, those of one key in their order. -/
def sortedAircraft (rows : List EadmsRow) : Except NtsbError (List EadmsRow) := do
  let keyed ← rows.mapM fun row => do
    let key ← aircraftSortKey row
    pure (key, row)
  pure ((keyed.insertionSort fun a b => a.1 ≤ b.1).map Prod.snd)

/-- The loop of `_collect_aircraft_registration_numbers`: `seen` holds the keys of
the registrations so far. -/
def collectRegistrations : List Text → List EadmsRow → List String
  | _, [] => []
  | seen, row :: rows =>
      match cleanStr (cell row "regis_no") with
      | none => collectRegistrations seen rows
      | some registration =>
          let key := dropSeparators (PyText.lower registration).toList
          if key = [] ∨ key ∈ seen then collectRegistrations seen rows
          else registration :: collectRegistrations (key :: seen) rows

/-! ## The record -/

/-- `put`: a claim unless the value is `None` or a blank text. -/
def put (field : NtsbField) : Option Json → List (NtsbField × Json)
  | none => []
  | some .null => []
  | some (.str s) => if strip s = "" then [] else [(field, .str s)]
  | some value => [(field, value)]

def putText (field : NtsbField) (text : Option String) : List (NtsbField × Json) :=
  put field (text.map .str)

def putInt (field : NtsbField) (n : Option Int) : List (NtsbField × Json) :=
  put field (n.map fun n => .num (.int n))

def putFloat (field : NtsbField) (f : Option PyFloat) : List (NtsbField × Json) :=
  put field (f.map fun f => .num (.float f))

/-- The claims of the event itself. -/
def eventPairs (row : EadmsRow) (decoder : EadmsCodeDecoder) :
    Except NtsbError (List (NtsbField × Json)) := do
  let text := fun column => cleanStr (cell row column)
  let decoded := fun column => decoder.decode "events" column (text column)
  let time ← parseLocalTime (cell row "ev_time")
  let wind ← toInt (cell row "wind_vel_kts")
  let gust ← toInt (cell row "gust_kts")
  let fatal ← toInt (cell row "inj_tot_f")
  let serious ← toInt (cell row "inj_tot_s")
  let minor ← toInt (cell row "inj_tot_m")
  let uninjured ← toInt (cell row "inj_tot_n")
  pure (
    putText .ntsbNumber (text "ntsb_no") ++
    putText .eventType (decoded "ev_type") ++
    putText .occurredOn ((parseEventDate (cell row "ev_date")).map PyDate.isoformat) ++
    putText .occurredTimeLocal time ++
    putText .occurredTimezone (text "ev_tmzn") ++
    putText .locationCity (text "ev_city") ++
    putText .locationState (text "ev_state") ++
    putText .locationCountry (text "ev_country") ++
    putFloat .latitude (toFloat (cell row "latitude")) ++
    putFloat .longitude (toFloat (cell row "longitude")) ++
    putText .nearestAirportName (text "apt_name") ++
    putFloat .nearestAirportDistanceNm (toFloat (cell row "apt_dist")) ++
    putText .lightCondition (decoded "light_cond") ++
    putText .ceilingCondition (decoded "sky_cond_ceil") ++
    putFloat .visibilityStatuteMiles (toFloat (cell row "vis_sm")) ++
    putFloat .temperatureC (toFloat (cell row "wx_temp")) ++
    putInt .windSpeedKnots wind ++
    putInt .windGustKnots gust ++
    putText .highestInjuryLevel (decoded "ev_highest_injury") ++
    putInt .fatalitiesTotal fatal ++
    putInt .seriousInjuriesTotal serious ++
    putInt .minorInjuriesTotal minor ++
    putInt .uninjuredTotal uninjured)

/-- The claims of the primary aircraft. -/
def aircraftPairs (row : EadmsRow) (registrations : List String) (decoder : EadmsCodeDecoder) :
    Except NtsbError (List (NtsbField × Json)) := do
  let text := fun column => cleanStr (cell row column)
  let decoded := fun column => decoder.decode "aircraft" column (text column)
  let engines ← toInt (cell row "num_eng")
  let seats ← toInt (cell row "total_seats")
  pure (
    putText .registrationNumber (text "regis_no") ++
    put .aircraftRegistrationNumbers
      (if registrations = [] then none else some (.arr (registrations.map .str))) ++
    putText .aircraftMake (text "acft_make") ++
    putText .aircraftModel (text "acft_model") ++
    putText .aircraftSeries (text "acft_series") ++
    putText .aircraftCategory (decoded "acft_category") ++
    putText .farPart (decoded "far_part") ++
    putText .aircraftDamage (decoded "damage") ++
    put .amateurBuilt ((toBoolYn (cell row "homebuilt")).map .bool) ++
    putInt .engineCount engines ++
    putInt .totalSeats seats)

/-- The claims of the narrative and of the findings. -/
def narrativePairs (narrative : EadmsRow) (findings : List EadmsRow) : List (NtsbField × Json) :=
  putText .probableCauseNarrative (cleanStr (cell narrative "narr_cause")) ++
  putText .factualNarrative (cleanStr (cell narrative "narr_accf")) ++
  putText .analysisNarrative (cleanStr (cell narrative "narr_accp")) ++
  put .causalFindings
    (if buildFindingItems findings = [] then none else some (.arr (buildFindingItems findings)))

/-- The rows of one accident. -/
structure EadmsRecord where
  event : EadmsRow
  aircraft : List EadmsRow
  narratives : List EadmsRow
  findings : List EadmsRow

/-- `_select_primary_aircraft`: the first of the lowest key. -/
def EadmsRecord.primaryAircraft (rows : EadmsRecord) : Except NtsbError (Option EadmsRow) := do
  let sorted ← sortedAircraft rows.aircraft
  pure sorted.head?

/-- The ordered pairs of `build_event_record`. -/
def EadmsRecord.pairs (rows : EadmsRecord) (decoder : EadmsCodeDecoder) :
    Except NtsbError (List (NtsbField × Json)) := do
  let sorted ← sortedAircraft rows.aircraft
  let event ← eventPairs rows.event decoder
  let aircraft ← match sorted.head? with
    | some primary => aircraftPairs primary (collectRegistrations [] sorted) decoder
    | none => pure []
  pure (event ++ aircraft ++ narrativePairs (rows.narratives.head?.getD []) rows.findings)

/-- The claim of a pair. -/
def claimOf (p : NtsbField × Json) : IngestionClaimDTO :=
  ⟨p.1.name, p.2, p.1.name_stripped.1, p.1.name_stripped.2⟩

structure NtsbEventRecord where
  sourceRecordId : String
  capturedAt : Time
  rawPayload : List (String × Json)
  claims : List IngestionClaimDTO
  idempotencyKey : String
  contentHash : String

/-- The rows as JSON. -/
def rowsJson (rows : List EadmsRow) : Json := .arr (rows.map .obj)

/-- The material of `_content_hash`. -/
def contentMaterial (evId : String) (rows : EadmsRecord) (claims : List IngestionClaimDTO) : Json :=
  .obj [("source_record_id", .str evId),
    ("claims", .arr (claims.map IngestionClaimDTO.fingerprintItem)),
    ("ev_id", .str evId), ("event", .obj rows.event), ("aircraft", rowsJson rows.aircraft),
    ("narratives", rowsJson rows.narratives), ("findings", rowsJson rows.findings)]

/-- The payload. -/
def rawPayload (evId : String) (rows : EadmsRecord) : List (String × Json) :=
  [("schema", .str "ntsb-eadms"), ("schema_version", .num (.int 2)), ("ev_id", .str evId),
    ("event", .obj rows.event), ("aircraft", rowsJson rows.aircraft),
    ("narratives", rowsJson rows.narratives), ("findings", rowsJson rows.findings)]

/-- `text[:n]`. -/
def takeText (n : Nat) (text : String) : String := String.ofList (text.toList.take n)

variable [FloatRepr] (sha256 : List Char → String)

/-- `build_event_record`; `none` when there is no usable `ev_id`. -/
def buildEventRecord (rows : EadmsRecord) (decoder : EadmsCodeDecoder) (capturedAt : Time) :
    Except NtsbError (Option NtsbEventRecord) :=
  match cleanStr (cell rows.event "ev_id") with
  | none => .ok none
  | some evId => do
      let pairs ← rows.pairs decoder
      let claims := pairs.map claimOf
      let contentHash := sha256 (contentMaterial evId rows claims).canonicalText
      pure (some
        { sourceRecordId := evId
          capturedAt := capturedAt
          rawPayload := rawPayload evId rows
          claims := claims
          idempotencyKey := "ntsb-eadms:" ++ evId ++ ":" ++ takeText 16 contentHash
          contentHash := contentHash })

end Record

end Ntsb

end Atlas
