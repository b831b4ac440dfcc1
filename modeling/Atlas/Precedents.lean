import Atlas.EventMatching
import Mathlib.Data.Finset.Basic

/-!
# Public precedents

Echo matches against records of public accidents.  `precedent_record_from_ntsb_claims`
makes a record of the fields of one accident: the keys of its findings, the words of
its narratives and what is shown of it.  The fields are those the NTSB importer
emits; the corpus loader passes it the fields of a projection.

A value of the wrong type raises an `AttributeError`.  A set is a `Finset`.
-/

namespace Atlas

open Outcome

inductive PrecedentError where
  | attributeError
deriving DecidableEq, Repr

structure PrecedentRecord where
  eventId : String
  findingCategories : Finset String
  farPart : Json
  aircraftCategory : Json
  severity : Option String
  terms : Finset String
  displayOccurredOn : Json
  displayLocation : Option String
  displayAircraft : Option String
  displayProbableCause : Option String
deriving DecidableEq

/-! ## Terms -/

/-- `_STOPWORDS`. -/
def stopwords : List String := [
  "a", "an", "the", "and", "or", "but", "if", "then", "else", "of", "to", "in", "on", "at", "by",
  "for", "with", "without", "from", "into", "over", "under", "again", "further", "once", "is",
  "are", "was", "were", "be", "been", "being", "have", "has", "had", "do", "does", "did", "this",
  "that", "these", "those", "it", "its", "as", "not", "no", "nor", "so", "than", "too", "very",
  "can", "will", "just", "during", "about", "above", "below", "up", "down", "out", "off", "who",
  "whom", "which", "what", "when", "where", "why", "how", "pilot", "aircraft", "airplane",
  "flight", "flew", "flying", "plane", "reported", "report", "during", "near"]

/-- `[a-z0-9\-]`. -/
def isTokenChar (c : Char) : Bool := ('a' ≤ c && c ≤ 'z') || ('0' ≤ c && c ≤ '9') || c = '-'

/-- A token, if it is long enough. -/
def flushToken (word : List Char) : List (List Char) := if 3 ≤ word.length then [word] else []

/-- `re.findall(r"[a-z][a-z0-9\-]{2,}", text)`.  The first argument is the token being
read; what is left of a short one holds no other. -/
def findTokens : List Char → List Char → List (List Char)
  | word, [] => flushToken word
  | word, c :: cs =>
      if word ≠ [] ∧ isTokenChar c then findTokens (word ++ [c]) cs
      else flushToken word ++ findTokens (if 'a' ≤ c ∧ c ≤ 'z' then [c] else []) cs

/-- `normalize_terms`. -/
def normalizeTerms [PyText] (text : String) : Finset String :=
  (((findTokens [] (PyText.lower text).toList).map String.ofList).filter (· ∉ stopwords)).toFinset

/-! ## Findings and severity -/

section Record

variable [PyRepr]

/-- `str(value or "")`. -/
def textOrEmpty (value : Json) : String := if value.truthy then pyStr value else ""

/-- `category_key`. -/
def categoryKey (categoryNo subcategoryNo : String) : Option String :=
  let cat := strip categoryNo
  let sub := strip subcategoryNo
  if cat = "" then none else if sub = "" then some cat else some (cat ++ "." ++ sub)

/-- The key of one finding. -/
def findingKey : Json → Except PrecedentError (Option String)
  | .obj item => .ok (categoryKey (textOrEmpty ((item.lookup "category_no").getD .null))
      (textOrEmpty ((item.lookup "subcategory_no").getD .null)))
  | _ => .error .attributeError

/-- `categories_from_finding_items`. -/
def categoriesFromFindingItems (items : List Json) : Except PrecedentError (Finset String) := do
  let keys ← items.mapM findingKey
  pure (keys.filterMap id).toFinset

/-- `needle in text`. -/
def containsText (needle text : List Char) : Bool := text.tails.any fun t => needle.isPrefixOf t

variable [PyText]

/-- `normalize_severity`. -/
def normalizeSeverity (value : Json) : Except PrecedentError (Option String) :=
  if value.truthy = false then .ok none
  else
    match value with
    | .str s =>
        let v := (PyText.lower (strip s)).toList
        .ok (["fatal", "serious", "minor", "none"].find? fun band => containsText band.toList v)
    | _ => .error .attributeError

/-! ## The record -/

/-- `sep.join(p for p in parts if p) or None`. -/
def joinParts (sep : String) (parts : List String) : Option String :=
  let parts := parts.filter (· ≠ "")
  if parts = [] then none else some (sep.intercalate parts)

/-- `value or None`. -/
def orNone (value : Json) : Json := if value.truthy then value else .null

/-- The finding categories of the fields. -/
def findingCategories (findings : Json) : Except PrecedentError (Finset String) :=
  match findings with
  | .arr items => categoriesFromFindingItems items
  | _ => .ok ∅

/-- `precedent_record_from_ntsb_claims`. -/
def precedentRecordFromNtsbClaims (eventId : String) (claims : ClaimFields) :
    Except PrecedentError PrecedentRecord := do
  let categories ← findingCategories (claims "causal_findings")
  let severity ← normalizeSeverity (claims "highest_injury_level")
  let narratives := [textOrEmpty (claims "probable_cause_narrative"),
    textOrEmpty (claims "factual_narrative")]
  pure
    { eventId := eventId
      findingCategories := categories
      farPart := orNone (claims "far_part")
      aircraftCategory := orNone (claims "aircraft_category")
      severity := severity
      terms := normalizeTerms (" ".intercalate (narratives.filter (· ≠ "")))
      displayOccurredOn := orNone (claims "occurred_on")
      displayLocation := joinParts ", "
        [textOrEmpty (claims "location_city"), textOrEmpty (claims "location_state")]
      displayAircraft := joinParts " "
        [textOrEmpty (claims "aircraft_make"), textOrEmpty (claims "aircraft_model")]
      displayProbableCause :=
        if (claims "probable_cause_narrative").truthy then
          some (String.ofList ((pyStr (claims "probable_cause_narrative")).toList.take 300))
        else none }

/-- `InMemoryCorpusLoader.load` for one projection: a record that cannot be built is
left out. -/
def corpusRecord (eventId : String) (fields : List (String × Json)) : Option PrecedentRecord :=
  (precedentRecordFromNtsbClaims eventId fun name => (fields.lookup name).getD .null).toOption

end Record

end Atlas
