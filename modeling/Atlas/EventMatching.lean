import Atlas.ClaimWriter
import Atlas.Doubles

/-!
# Matching a submission to an event

`EventMatcher` scores the identity fields of a submission against rows of the
identity index.  A score is a weighted sum in doubles, rounded to four places;
the best row is taken, unless several rows share the best score.

Dates are kept as dates rather than as their ISO text: `str(date)` pads its
numbers, so the text of dates sorts as the dates do.
-/

namespace Atlas

open Rows

/-! ## Dates -/

def isLeap (year : Nat) : Bool := year % 4 = 0 ∧ (year % 100 ≠ 0 ∨ year % 400 = 0)

def daysInMonth (year month : Nat) : Nat :=
  match month with
  | 2 => if isLeap year then 29 else 28
  | 4 | 6 | 9 | 11 => 30
  | _ => 31

/-- `datetime.date`: a day of the proleptic Gregorian calendar, years 1 to 9999. -/
structure PyDate where
  year : Nat
  month : Nat
  day : Nat
  valid : 1 ≤ year ∧ year ≤ 9999 ∧ 1 ≤ month ∧ month ≤ 12 ∧ 1 ≤ day ∧ day ≤ daysInMonth year month
deriving DecidableEq, Repr

namespace PyDate

/-- `date(year, month, day)`; `none` is the `ValueError`. -/
def mk? (year month day : Nat) : Option PyDate :=
  if h : 1 ≤ year ∧ year ≤ 9999 ∧ 1 ≤ month ∧ month ≤ 12 ∧ 1 ≤ day ∧
      day ≤ daysInMonth year month then
    some ⟨year, month, day, h⟩
  else none

/-- `date.toordinal()`: the days up to and including this one, the first of
January of the year 1 being day one. -/
def toOrdinal (d : PyDate) : Nat :=
  let y := d.year - 1
  let months := ((List.range (d.month - 1)).map fun i => daysInMonth d.year (i + 1)).sum
  y * 365 + y / 4 - y / 100 + y / 400 + months + d.day

/-- `date.max.toordinal()`. -/
def maxOrdinal : Nat := 3652059

/-- The ordinals of the day before and the day after.  `date` arithmetic raises an
`OverflowError` outside the calendar. -/
def around (d : PyDate) : Except AtlasError (Nat × Nat) :=
  if d.toOrdinal = 1 ∨ d.toOrdinal = maxOrdinal then .error (.runtime "date value out of range")
  else .ok (d.toOrdinal - 1, d.toOrdinal + 1)

end PyDate

example : (PyDate.mk? 9999 12 31).map PyDate.toOrdinal = some PyDate.maxOrdinal := by decide

/-- The value of an ASCII decimal digit. -/
def asciiDigit (c : Char) : Option Nat :=
  if '0' ≤ c ∧ c ≤ '9' then some (c.toNat - '0'.toNat) else none

def asciiNumber (cs : List Char) : Option Nat :=
  cs.foldlM (fun n c => (asciiDigit c).map (n * 10 + ·)) 0

/-- The length of a text in UTF-8. -/
def utf8Length (cs : List Char) : Nat := (cs.map Char.utf8Size).sum

/-- The parsing of `_norm_date`, on text that is already in lower case:
`YYYY-MM-DD` with either separator in either place, else what `fromisoformat`
takes.  It counts bytes, eight or ten of them, and of `YYYYMMDD` in ten it does not
read the last two; its week dates need a capital `W`. -/
def parseIsoDate : List Char → Option PyDate
  | y₁ :: y₂ :: y₃ :: y₄ :: s :: m₁ :: m₂ :: t :: rest =>
      if (s = '-' ∨ s = '/') ∧ (t = '-' ∨ t = '/') ∧ rest.length = 2 then
        build [y₁, y₂, y₃, y₄] [m₁, m₂] rest
      else if utf8Length rest = 0 ∨ utf8Length rest = 2 then
        build [y₁, y₂, y₃, y₄] [s, m₁] [m₂, t]
      else none
  | _ => none
where
  build (year month day : List Char) : Option PyDate := do
    PyDate.mk? (← asciiNumber year) (← asciiNumber month) (← asciiNumber day)

/-! ## Normalised text -/

/-- Normalised text, kept as its characters. -/
abbrev Text := List Char

/-- Python's `str` of a number that is not an `int`, or of a container that is not
empty.  Every result holds for any such texts. -/
class PyRepr where
  repr : Json → String

/-- The texts of no value, enough to run the model on strings. -/
instance (priority := low) noRepr : PyRepr where
  repr _ := ""

/-- `bool(value)`. -/
def Json.truthy : Json → Bool
  | .null => false
  | .bool b => b
  | .num n => n.exact ≠ .finite 0
  | .str s => s ≠ ""
  | .arr xs => !xs.isEmpty
  | .obj kvs => !kvs.isEmpty

/-- `str(value)`.  The sign of a zero is not kept. -/
def pyStr [PyRepr] : Json → String
  | .null => "None"
  | .bool b => if b then "True" else "False"
  | .num (.int n) => toString n
  | .num (.float f) => if f = .finite 0 then "0.0" else PyRepr.repr (.num (.float f))
  | .str s => s
  | .arr [] => "[]"
  | .obj [] => "\x7b\x7d"
  | j => PyRepr.repr j

/-- Make one blank of every run of blanks; the flag says that a blank was just
written. -/
def collapseBlanks : Bool → Text → Text
  | _, [] => []
  | blank, c :: cs =>
      if isSpace c then
        if blank then collapseBlanks true cs else ' ' :: collapseBlanks true cs
      else c :: collapseBlanks false cs

@[simp] theorem collapseBlanks_nil (blank : Bool) : collapseBlanks blank [] = [] := rfl

theorem collapseBlanks_cons (blank : Bool) (c : Char) (cs : Text) :
    collapseBlanks blank (c :: cs) =
      if isSpace c then
        if blank then collapseBlanks true cs else ' ' :: collapseBlanks true cs
      else c :: collapseBlanks false cs := rfl

/-- Remove hyphens, slashes and blanks. -/
def dropSeparators (cs : Text) : Text := cs.filter fun c => !(c = '-' || c = '/' || isSpace c)

section Text

variable [PyText] [PyRepr]

/-- `_norm` of a text. -/
def normText (s : String) : Text := collapseBlanks false (stripChars (PyText.lower s).toList)

/-- `_norm`. -/
def norm : Json → Text
  | .null => []
  | v => normText (pyStr v)

/-- `_norm_date`; `none` is the empty text. -/
def normDate (s : String) : Option PyDate := parseIsoDate (normText s)

/-- `_norm_reg`. -/
def normReg (v : Json) : Option Text :=
  if v.truthy then
    let text := dropSeparators (norm v)
    if text = [] then none else some text
  else none

end Text

/-! ## The rows of the identity index -/

/-- `EventIdentityIndex`.  A normalised date is a date or the empty text. -/
structure EventIdentityIndex where
  eventId : Uuid
  eventDateNorm : Option (Option PyDate)
  registrationNorm : Option Text
  operatorNorm : Option Text
  locationNorm : Option Text
  aircraftTypeNorm : Option Text
  registrationNorms : List Text
  updatedAt : Time
deriving DecidableEq, Repr

/-- What the matcher reads of a candidate. -/
structure CandidateFields where
  registration : Option Text
  eventDate : Option PyDate
  operator : Option Text
  location : Option Text
  aircraftType : Option Text
  registrationNorms : List Text

/-- `EventIdentityIndex.fields`: empty texts are left out, and so is the primary
registration among the aliases. -/
def EventIdentityIndex.fields (row : EventIdentityIndex) : CandidateFields where
  registration := row.registrationNorm.filter (· ≠ [])
  eventDate := row.eventDateNorm.join
  operator := row.operatorNorm.filter (· ≠ [])
  location := row.locationNorm.filter (· ≠ [])
  aircraftType := row.aircraftTypeNorm.filter (· ≠ [])
  registrationNorms := row.registrationNorms.filter fun r => some r ≠ row.registrationNorm

/-! ## Scores -/

/-- `HIGH_CONFIDENCE`. -/
def highConfidence : ℚ := double (75 / 100)

/-- `UNCERTAIN_LOW`. -/
def uncertainLow : ℚ := double (40 / 100)

/-- `_WEIGHTS`. -/
def registrationWeight : ℚ := double (45 / 100)
def eventDateWeight : ℚ := double (30 / 100)
def operatorWeight : ℚ := double (10 / 100)
def locationWeight : ℚ := double (8 / 100)
def aircraftTypeWeight : ℚ := double (7 / 100)

/-- `_date_score`. -/
def dateScore (a b : Option PyDate) : ℚ :=
  match a, b with
  | some a, some b =>
      if a = b then 1
      else if a.toOrdinal = b.toOrdinal + 1 ∨ b.toOrdinal = a.toOrdinal + 1 then 1 / 2 else 0
  | _, _ => 0

/-- `_token_overlap`: the words in both texts over the words in either. -/
def tokenOverlap (a b : Text) : ℚ :=
  let ta := distinct (splitWords [] a)
  let tb := distinct (splitWords [] b)
  if ta = [] ∨ tb = [] then 0
  else double ((ta.filter (· ∈ tb)).length / (ta ++ tb.filter (· ∉ ta)).length)

/-- The incoming identity fields; a missing field reads as `None`. -/
abbrev ClaimFields := String → Json

/-- `claims_data_fields`: of two claims for one field the later one counts. -/
def claimsDataFields (claims : List NormalisedClaim) : ClaimFields := fun name =>
  match claims.reverse.find? fun c => c.fieldName = name with
  | some c => c.fieldValue
  | none => .null

section Match

variable [PyText] [PyRepr]

/-- `_field_score` of a textual field. -/
def textScore (incoming : Json) (candidate : Option Text) : ℚ :=
  match candidate with
  | none => 0
  | some c => tokenOverlap (norm incoming) (normText (String.ofList c))

/-- `_field_score` of the date. -/
def eventDateScore (incoming : Json) (candidate : Option PyDate) : ℚ :=
  dateScore (normDate (String.ofList (norm incoming))) candidate

/-- `_field_score` of the registration. -/
def registrationScore (incoming : Json) (candidate : Option Text) : ℚ :=
  match candidate with
  | none => 0
  | some c =>
      let cv := normText (String.ofList c)
      if norm incoming = [] ∨ cv = [] then 0
      else if dropSeparators (norm incoming) = dropSeparators cv then 1 else 0

/-- The scores of the weighted fields, in the order of `_WEIGHTS`. -/
def fieldScores (incoming : ClaimFields) (c : CandidateFields) : List (String × ℚ × ℚ) :=
  [("registration", registrationWeight, registrationScore (incoming "registration") c.registration),
    ("event_date", eventDateWeight, eventDateScore (incoming "event_date") c.eventDate),
    ("operator", operatorWeight, textScore (incoming "operator") c.operator),
    ("location", locationWeight, textScore (incoming "location") c.location),
    ("aircraft_type", aircraftTypeWeight, textScore (incoming "aircraft_type") c.aircraftType)]

/-- The incoming registration is a historical alias of the candidate. -/
def matchesAlias (incoming : Json) (aliases : List Text) : Bool :=
  incoming.truthy && dropSeparators (norm incoming) ≠ [] &&
    dropSeparators (norm incoming) ∈ aliases

structure MatchResult where
  score : ℚ
  matchedFields : List String
  candidateEventId : Option Uuid
  ambiguousTie : Bool
  tiedCandidateEventIds : List Uuid
deriving DecidableEq, Repr

/-- `total += weight * score`, over the fields. -/
def weightedSum (scores : List (String × ℚ × ℚ)) : ℚ :=
  scores.foldl (fun total f => double (total + double (f.2.1 * f.2.2))) 0

/-- `score_match`. -/
def scoreMatch (incoming : ClaimFields) (c : CandidateFields) : MatchResult :=
  let scores := fieldScores incoming c
  let total := weightedSum scores
  let matched := (scores.filter fun f => 0 < f.2.2).map Prod.fst
  if "registration" ∉ matched ∧ matchesAlias (incoming "registration") c.registrationNorms then
    ⟨round4 (round4 (double (total + double (1 / 2 * registrationWeight)))),
      matched ++ ["registration_alias"], none, false, []⟩
  else ⟨round4 total, matched, none, false, []⟩

/-! ## The matcher -/

/-- `EventMatcher`, with its thresholds. -/
structure EventMatcher where
  high : ℚ := highConfidence
  uncertain : ℚ := uncertainLow

/-- One turn of the loop of `best_match`: the best row so far, and the events that
share its score. -/
def considerCandidate (incoming : ClaimFields) (acc : MatchResult × List Uuid)
    (candidate : EventIdentityIndex) : MatchResult × List Uuid :=
  let result := scoreMatch incoming candidate.fields
  if acc.1.score < result.score then
    ({ result with candidateEventId := some candidate.eventId }, [candidate.eventId])
  else if result.score = acc.1.score ∧ 0 < result.score then
    (acc.1, (if acc.2 = [] then acc.1.candidateEventId.toList else acc.2) ++ [candidate.eventId])
  else acc

/-- `EventMatcher.best_match`. -/
def EventMatcher.bestMatch (m : EventMatcher) (incoming : ClaimFields)
    (candidates : List EventIdentityIndex) : MatchResult :=
  let (best, tied) := candidates.foldl (considerCandidate incoming) (⟨0, [], none, false, []⟩, [])
  if 1 < tied.length ∧ m.uncertain ≤ best.score then
    { best with ambiguousTie := true, tiedCandidateEventIds := distinct tied }
  else best

end Match

end Atlas
