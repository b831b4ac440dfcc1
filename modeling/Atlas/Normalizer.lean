import Atlas.EventMatching
import Atlas.ProjectionBuilder

/-!
# Normalising the claims of a source

A source names its fields as it likes.  `SourceNormalizerRegistry.normalize` brings
the names to a key, maps the keys that the source's configuration or the generic
aliases know onto Atlas' own fields, and coerces the values of those.  The targets
of a configured mapping must be fields that Atlas requires of a complete record;
any other target is refused when the mapper is built.

Claims arrive as JSON, so a value is never a `date` object.
-/

namespace Atlas

open Outcome

/-- `str.upper`. -/
class PyUpper where
  upper : String → String

/-- ASCII, enough to run the model. -/
instance (priority := low) asciiUpper : PyUpper where
  upper s := s.map Char.toUpper

/-- `date.fromisoformat(text)` and `datetime.fromisoformat(text).date()`; `none` is
the `ValueError`.  Every result holds for any such readers. -/
class PyIso where
  date : String → Option PyDate
  datetime : String → Option PyDate

/-- `YYYY-MM-DD`, enough to run the model. -/
instance (priority := low) plainIso : PyIso where
  date s := parseIsoDate s.toList
  datetime s := parseIsoDate s.toList

/-- A number with at least so many digits. -/
def padded (width n : Nat) : List Char :=
  let digits := Nat.toDigits 10 n
  List.replicate (width - digits.length) '0' ++ digits

/-- `date.isoformat()`. -/
def PyDate.isoformat (d : PyDate) : String :=
  String.ofList (padded 4 d.year ++ '-' :: (padded 2 d.month ++ '-' :: padded 2 d.day))

/-- What normalising raises.  The claims of a source are refused for the first; the
others are not expected. -/
inductive NormalizerError where
  | normalization (value : Json)
  | blankEventDate
  | unknownTarget (value : String)
  | valueError
  | overflow
deriving DecidableEq, Repr

/-! ## Field names -/

def isAsciiLower (c : Char) : Bool := 'a' ≤ c && c ≤ 'z'
def isAsciiUpper (c : Char) : Bool := 'A' ≤ c && c ≤ 'Z'
def isAsciiDigit (c : Char) : Bool := '0' ≤ c && c ≤ '9'

/-- Put an underscore between a lower-case letter or a digit and a capital. -/
def splitCamel : List Char → List Char
  | a :: b :: cs =>
      if (isAsciiLower a || isAsciiDigit a) && isAsciiUpper b then a :: '_' :: splitCamel (b :: cs)
      else a :: splitCamel (b :: cs)
  | cs => cs

/-- Make one underscore of every run of other characters than ASCII letters and
digits; the flag says that an underscore was just written. -/
def underscoreRuns : Bool → List Char → List Char
  | _, [] => []
  | written, c :: cs =>
      if isAsciiLower c || isAsciiUpper c || isAsciiDigit c then c :: underscoreRuns false cs
      else if written then underscoreRuns true cs
      else '_' :: underscoreRuns true cs

/-- `str.strip("_")`. -/
def stripUnderscores (cs : List Char) : List Char :=
  ((cs.dropWhile (· = '_')).reverse.dropWhile (· = '_')).reverse

/-- `normalise_field_key`.  The text is ASCII when it is put in lower case. -/
def normaliseFieldKey (value : String) : String :=
  String.ofList (stripUnderscores
    ((underscoreRuns false (splitCamel (stripChars value.toList))).map Char.toLower))

example : normaliseFieldKey " tailNumber" = "tail_number" := by decide
example : normaliseFieldKey "Aircraft  Make/Model" = "aircraft_make_model" := by decide

/-- `_canonical_field_value`. -/
def canonicalFieldValue (value : String) : Except NormalizerError String :=
  let key := normaliseFieldKey value
  if key ∈ requiredFields then .ok key else .error (.unknownTarget value)

/-- `SourceFieldMapper`: the aliases as they were configured, keys normalised. -/
structure SourceFieldMapper where
  aliases : List (String × String)
deriving DecidableEq, Repr

namespace SourceFieldMapper

/-- `SourceFieldMapper(aliases)`. -/
def make (aliases : List (String × String)) : Except NormalizerError SourceFieldMapper := do
  let entries ← aliases.mapM fun kv => do
    let canonical ← canonicalFieldValue kv.2
    pure (normaliseFieldKey kv.1, canonical)
  pure ⟨entries⟩

/-- `map_field_name`.  Of two aliases with one key the later counts. -/
def mapFieldName (m : SourceFieldMapper) (rawFieldName : String) : String :=
  let key := normaliseFieldKey rawFieldName
  (m.aliases.reverse.lookup key).getD key

end SourceFieldMapper

/-- `GenericExternalFieldMapper`. -/
def genericExternalFieldMapper : SourceFieldMapper where
  aliases := [
    ("accident_date", "event_date"), ("incident_date", "event_date"), ("eventdate", "event_date"),
    ("tail_number", "registration"), ("tail_num", "registration"), ("tailnumber", "registration"),
    ("aircraft_registration", "registration"), ("aircraftregistration", "registration"),
    ("registration_number", "registration"), ("registrationnumber", "registration"),
    ("reg", "registration"), ("airline_name", "operator"), ("operator_name", "operator"),
    ("operatorname", "operator"), ("aircraft_model", "aircraft_type"),
    ("aircraftmodel", "aircraft_type"), ("aircraft_make_model", "aircraft_type"),
    ("fatalities", "fatalities_total"), ("injuries", "injuries_total")]

/-- The generic aliases pass the check of configured ones. -/
theorem genericExternalFieldMapper_made :
    SourceFieldMapper.make genericExternalFieldMapper.aliases = .ok genericExternalFieldMapper := by
  decide +kernel

/-! ## Coercions -/

/-- An optional text as JSON. -/
def jsonText : Option String → Json
  | none => .null
  | some s => .str s

section Coercions

variable [PyText] [PyRepr]

/-- The digits of a text, if it has nothing else. -/
def decimalDigits (cs : List Char) : Option (List Nat) := cs.mapM PyText.decimal

/-- The number that decimal digits write. -/
def digitsValue (ds : List Nat) : Nat := ds.foldl (fun n d => n * 10 + d) 0

/-- `^(\d{4})[/\.](\d{1,2})[/\.](\d{1,2})$`. -/
def ymdDate (cs : List Char) : Option (Nat × Nat × Nat) :=
  match cs.splitOnP fun c => c = '/' || c = '.' with
  | [y, m, d] => do
      let y ← decimalDigits y
      let m ← decimalDigits m
      let d ← decimalDigits d
      if y.length = 4 ∧ (m.length = 1 ∨ m.length = 2) ∧ (d.length = 1 ∨ d.length = 2) then
        some (digitsValue y, digitsValue m, digitsValue d)
      else none
  | _ => none

/-- `^\d{4}-\d{2}-\d{2}$`. -/
def isIsoDate (cs : List Char) : Bool :=
  match cs.splitOnP fun c => c = '-' with
  | [y, m, d] => ((decimalDigits y).any fun ds => ds.length = 4) &&
      ((decimalDigits m).any fun ds => ds.length = 2) && (decimalDigits d).any fun ds => ds.length = 2
  | _ => false

/-- `coerce_date`. -/
def coerceDate [PyIso] : Json → Except NormalizerError Json
  | .null => .ok .null
  | value =>
      let text := strip (pyStr value)
      if text = "" then .ok .null
      else if isIsoDate text.toList then
        match PyIso.date text with
        | some d => .ok (.str d.isoformat)
        | none => .error (.normalization value)
      else
        match PyIso.datetime (text.replace "Z" "+00:00") with
        | some d => .ok (.str d.isoformat)
        | none =>
            -- An ambiguous date and any other text are refused alike.
            match (ymdDate text.toList).bind fun p => PyDate.mk? p.1 p.2.1 p.2.2 with
            | some d => .ok (.str d.isoformat)
            | none => .error (.normalization value)

/-- `int(float)`. -/
def intOfFloat : PyFloat → Except NormalizerError Int
  | .finite q => .ok (if 0 ≤ q then ⌊q⌋ else ⌈q⌉)
  | .inf _ => .error .overflow
  | .nan => .error .valueError

/-- `coerce_non_negative_int`.  The `OverflowError` of an infinity is not caught. -/
def coerceNonNegativeInt : Json → Except NormalizerError Json
  | .null => .ok .null
  | value =>
      let text := stripChars (pyStr value).toList
      match pyFloat (text.map Char.toLower) with
      | none => .error (.normalization value)
      | some f => do
          if '.' ∈ text then
            let n ← intOfFloat f
            require (f = .finite n) (.normalization value)
          match f with
          | .nan => .error (.normalization value)
          | f => do
              let n ← intOfFloat f
              require (0 ≤ n) (.normalization value)
              pure (.num (.int n))

/-- `coerce_string` as an optional text. -/
def collapsed : Json → Option String
  | .null => none
  | value =>
      let words := splitWords [] (stripChars (pyStr value).toList)
      if words = [] then none else some (" ".intercalate (words.map String.ofList))

/-- `coerce_string`. -/
def coerceString (value : Json) : Except NormalizerError Json := .ok (jsonText (collapsed value))

/-- `coerce_registration`. -/
def coerceRegistration [PyUpper] (value : Json) : Except NormalizerError Json :=
  .ok (jsonText ((collapsed value).map PyUpper.upper))

/-- `coerce_flight_phase`. -/
def coerceFlightPhase (value : Json) : Except NormalizerError Json :=
  .ok (jsonText ((collapsed value).map PyText.lower))

/-! ## The external normaliser -/

variable [PyUpper] [PyIso]

/-- `_field_coercers`. -/
def fieldCoercer (fieldName : String) : Option (Json → Except NormalizerError Json) :=
  if fieldName = "event_date" then some coerceDate
  else if fieldName = "fatalities_total" ∨ fieldName = "injuries_total" then some coerceNonNegativeInt
  else if fieldName = "registration" then some coerceRegistration
  else if fieldName = "flight_phase" then some coerceFlightPhase
  else if fieldName ∈ ["location", "aircraft_type", "operator", "narrative"] then some coerceString
  else none

/-- `_identity_critical_fields`. -/
def identityCritical (fieldName : String) : Bool :=
  fieldName = "event_date" || fieldName = "registration"

/-- The name of a claim: the source's alias, or else the generic one. -/
def externalFieldName (mapper : Option SourceFieldMapper) (rawFieldName : String) : String :=
  match mapper with
  | none => genericExternalFieldMapper.mapFieldName rawFieldName
  | some m =>
      if m.mapFieldName rawFieldName = normaliseFieldKey rawFieldName then
        genericExternalFieldMapper.mapFieldName rawFieldName
      else m.mapFieldName rawFieldName

/-- `_is_present_blank`. -/
def isPresentBlank : Json → Bool
  | .null => false
  | value => strip (pyStr value) = ""

/-- The loop body of `ExternalSourceNormalizer.normalize`.  A value that cannot be
coerced is kept as it is, unless the field decides the identity of the event. -/
def normalizeClaim (mapper : Option SourceFieldMapper) (c : NormalisedClaim) :
    Except NormalizerError NormalisedClaim :=
  let fieldName := externalFieldName mapper c.fieldName
  match fieldCoercer fieldName with
  | none => .ok ⟨fieldName, c.fieldValue⟩
  | some coerce =>
      if fieldName = "event_date" ∧ isPresentBlank c.fieldValue then .error .blankEventDate
      else
        match coerce c.fieldValue with
        | .ok value => .ok ⟨fieldName, value⟩
        | .error (.normalization v) =>
            if identityCritical fieldName then .error (.normalization v)
            else .ok ⟨fieldName, c.fieldValue⟩
        | .error e => .error e

/-- `ExternalSourceNormalizer.normalize`. -/
def externalNormalize (claims : List NormalisedClaim) (mapper : Option SourceFieldMapper) :
    Except NormalizerError (List NormalisedClaim) :=
  claims.mapM (normalizeClaim mapper)

/-! ## The registry -/

inductive SourceKind where
  | external
  | internal
deriving DecidableEq, Repr

/-- `SourceNormalizerRegistry.normalize`.  `registered` is the mapper that was
registered for the source in this process. -/
def registryNormalize (kind : SourceKind) (claims : List NormalisedClaim)
    (sourceFieldMapping : List (String × String)) (registered : Option SourceFieldMapper) :
    Except NormalizerError (List NormalisedClaim) := do
  let mapper ← if sourceFieldMapping.isEmpty then pure registered
    else do
      let m ← SourceFieldMapper.make sourceFieldMapping
      pure (some m)
  match kind with
  | .external => externalNormalize claims mapper
  | .internal => pure claims

end Coercions

end Atlas
