import Atlas.Doubles
import Atlas.Lib.Regex
import Atlas.Lib.Outcome
import Atlas.Normalizer

/-!
# Queries in natural language

`parse_nl_query` reads filters out of a free text in passes: dates, fatalities, aircraft and
operators, HFACS categories and SHELO classes.  A pass scans the whole text with its pattern and
takes a match unless the match begins inside one that was taken before; what no pass took is the
text that is searched for.  `ExecuteNlSearch` turns the filters into a `SearchQuery`, runs it and
logs the query.
-/

namespace Atlas

open Outcome Regex

/-- The tables of the regular expressions, beside those of the strings: `\d` are the characters
`int` reads, and `\s` those `str.strip` strips. -/
class PyRegex [PyText] extends Tables where
  digit_decimal : ∀ c, digit c = (PyText.decimal c).isSome
  decimal_le : ∀ c n, PyText.decimal c = some n → n ≤ 9
  decimal_digit : ∀ c, c.isDigit = true → PyText.decimal c = some (c.toNat - '0'.toNat)
  space_isSpace : ∀ c, space c = isSpace c

/-! ## The ASCII tables -/

theorem isAlpha_iff (c : Char) : c.isAlpha = true ↔
    65 ≤ c.toNat ∧ c.toNat ≤ 90 ∨ 97 ≤ c.toNat ∧ c.toNat ≤ 122 := by
  unfold Char.isAlpha Char.isUpper Char.isLower
  simp [UInt32.le_iff_toNat_le]

theorem isDigit_iff (c : Char) : c.isDigit = true ↔ 48 ≤ c.toNat ∧ c.toNat ≤ 57 := by
  simp [Char.isDigit, UInt32.le_iff_toNat_le]

theorem toLower_toNat (c : Char) :
    c.toLower.toNat = if 65 ≤ c.toNat ∧ c.toNat ≤ 90 then c.toNat + 32 else c.toNat := by
  unfold Char.toLower
  split
  · rename_i hupper
    simp only [ge_iff_le, UInt32.le_iff_toNat_le, Char.toNat_val, Char.reduceToNat] at hupper
    rw [if_pos hupper]
    show (c.val + 32).toNat = c.toNat + 32
    have hval : c.val.toNat = c.toNat := rfl
    have hadd : (32 : UInt32).toNat = 32 := rfl
    rw [UInt32.toNat_add, hval, hadd, Nat.mod_eq_of_lt (by omega)]
  · rename_i hupper
    simp only [ge_iff_le, UInt32.le_iff_toNat_le, Char.toNat_val, Char.reduceToNat] at hupper
    rw [if_neg hupper]

/-- The letters outside ASCII that match one in it when case is ignored. -/
def caseVariants : List Char := ['İ', 'ı', 'ſ', '\u212a']

theorem fold_cases (c : Char) : c ∈ caseVariants ∨ fold c = c.toLower := by
  unfold fold caseVariants
  split_ifs
  · left
    simp only [List.mem_cons]
    tauto
  · left
    simp only [List.mem_cons]
    tauto
  · left
    simp only [List.mem_cons]
    tauto
  · exact .inr rfl

theorem not_isAlphanum_of_isSpace {c : Char} (h : isSpace c = true) : c.isAlphanum = false := by
  unfold isSpace at h
  simp only [Bool.or_eq_true, Bool.and_eq_true, decide_eq_true_eq, beq_iff_eq] at h
  unfold Char.isAlphanum
  rw [Bool.or_eq_false_iff, ← Bool.not_eq_true, ← Bool.not_eq_true, isAlpha_iff, isDigit_iff]
  omega

/-- The ASCII rows, enough to run the model on ASCII inputs. -/
instance (priority := low) asciiRegex : PyRegex where
  digit c := (PyText.decimal c).isSome
  space c := isSpace c
  word c := c.isAlphanum || c == '_' || c ∈ caseVariants
  same p c := if plain p then fold c == fold p else p == c
  digit_word := by
    intro c hc
    have hdigit : c.isDigit = true := by
      by_contra h
      simp [PyText.decimal, h] at hc
    simp [Char.isAlphanum, hdigit]
  space_word := by
    intro c hc
    have hvariant : c ∉ caseVariants := by
      intro hmem
      simp only [caseVariants, List.mem_cons, List.not_mem_nil, or_false] at hmem
      rcases hmem with rfl | rfl | rfl | rfl <;> simp [isSpace] at hc
    have hunderscore : c ≠ '_' := by
      intro heq
      simp [heq, isSpace] at hc
    simp [not_isAlphanum_of_isSpace hc, hunderscore, hvariant]
  word_plain := by
    intro c hc
    have hvariant : c ∉ caseVariants := by
      intro hmem
      simp only [caseVariants, List.mem_cons, List.not_mem_nil, or_false] at hmem
      rcases hmem with rfl | rfl | rfl | rfl <;> cases hc
    simp [hvariant]
  word_fold := by
    intro c hc
    rcases fold_cases c with hvariant | hlower
    · simp [hvariant]
    · rw [hlower, Char.isAlphanum, Bool.or_eq_true, isAlpha_iff, isDigit_iff, toLower_toNat] at hc
      have halnum : c.isAlpha = true ∨ c.isDigit = true := by
        rw [isAlpha_iff, isDigit_iff]
        split at hc <;> omega
      rcases halnum with h | h <;> simp [Char.isAlphanum, h]
  digit_fold := by
    intro c hc
    rcases fold_cases c with hvariant | hlower
    · simp only [caseVariants, List.mem_cons, List.not_mem_nil, or_false] at hvariant
      rcases hvariant with rfl | rfl | rfl | rfl <;> rfl
    · rw [hlower, isAlpha_iff, toLower_toNat] at hc
      have hdigit : ¬ c.isDigit = true := by
        rw [isDigit_iff]
        split at hc <;> omega
      simp [PyText.decimal, hdigit]
  same_plain := by
    intro p c hp
    simp [hp]
  digit_decimal c := rfl
  decimal_le := by
    intro c n hn
    by_cases h : c.isDigit = true
    · have hrange := (isDigit_iff c).mp h
      simp [PyText.decimal, h] at hn
      omega
    · simp [PyText.decimal, h] at hn
  decimal_digit := by
    intro c hc
    simp [PyText.decimal, hc]
  space_isSpace c := rfl

/-- What raises while a query is parsed and executed. -/
inductive NlError where
  | valueError (message : String)
  | searchQueryMalformed (message : String)
deriving DecidableEq, Repr

/-! ## The parsed query -/

structure ParsedQuery where
  operator : Option String
  aircraftType : Option String
  country : Option String
  eventDateFrom : Option PyDate
  eventDateTo : Option PyDate
  fatalitiesMin : Option Int
  fatalitiesMax : Option Int
  fatalOnly : Bool
  nonFatalOnly : Bool
  hfacsCategoryCodes : List String
  sheloFactorClasses : List String
  freeTextRemainder : String
  confidence : ℚ
deriving DecidableEq, Repr

def ParsedQuery.empty : ParsedQuery :=
  ⟨none, none, none, none, none, none, none, false, false, [], [], "", 0⟩

/-- `HfacsCategory`, with the name that the parser looks for; it is not empty. -/
structure NamedHfacsCategory where
  id : Uuid
  code : String
  name : String
  named : name ≠ ""
deriving DecidableEq, Repr

/-- `_Match`: a part of the query that a pass took. -/
structure Span where
  start : Nat
  stop : Nat
deriving DecidableEq, Repr

/-- `_ParseState`. -/
structure ParseState where
  parsed : ParsedQuery
  spans : List Span
deriving DecidableEq, Repr

def ParseState.start : ParseState := ⟨.empty, []⟩

def Span.of (m : Match) : Span := ⟨m.start, m.stop⟩

/-- The match begins inside a part that was taken. -/
def Span.holds (c : Span) (m : Match) : Bool := c.start ≤ m.start && m.start < c.stop

def ParseState.taken (st : ParseState) (m : Match) : Bool := st.spans.any fun c => c.holds m

/-- `_consume`, with the filters the match gives. -/
def ParseState.consume (st : ParseState) (parsed : ParsedQuery) (m : Match) : ParseState :=
  ⟨parsed, st.spans ++ [.of m]⟩

/-! ## Patterns -/

/-- One pattern after another, ending at a word boundary. -/
def upToEdge : List Pattern → Pattern
  | [] => .edge
  | r :: rs => .seq r (upToEdge rs)

/-- A pattern between word boundaries. -/
def wordBounded (rs : List Pattern) : Pattern := .seq .edge (upToEdge rs)

def textOf (s : String) : Pattern := .literal true s.toList

/-- One of several texts, the first first. -/
def oneOf : List String → Pattern
  | [] => .nothing
  | [s] => textOf s
  | s :: ss => .alt (textOf s) (oneOf ss)

def blanks : Pattern := .many .space 1 none

def blanksOrNone : Pattern := .many .space 0 none

/-- `(\d{4})`. -/
def fourDigits : Pattern := .group (.many .digit 4 (some 4))

/-- `_YEAR_RE`. -/
def yearRe : Pattern :=
  wordBounded [.group (.alt (.literal false ['1', '9']) (.literal false ['2', '0'])),
    .many .digit 2 (some 2)]

/-- `_BEFORE_RE`. -/
def beforeRe : Pattern := wordBounded [textOf "before", blanks, fourDigits]

/-- `_AFTER_RE`. -/
def afterRe : Pattern := wordBounded [textOf "after", blanks, fourDigits]

/-- `_BETWEEN_RE`. -/
def betweenRe : Pattern :=
  wordBounded [textOf "between", blanks, fourDigits, blanks, textOf "and", blanks, fourDigits]

/-- `_MONTH_NAMES`. -/
def monthNames : List (String × Nat) :=
  [("jan", 1), ("january", 1), ("feb", 2), ("february", 2), ("mar", 3), ("march", 3), ("apr", 4),
    ("april", 4), ("may", 5), ("jun", 6), ("june", 6), ("jul", 7), ("july", 7), ("aug", 8),
    ("august", 8), ("sep", 9), ("sept", 9), ("september", 9), ("oct", 10), ("october", 10),
    ("nov", 11), ("november", 11), ("dec", 12), ("december", 12)]

def monthName : Pattern := .group (oneOf (monthNames.map Prod.fst))

/-- `_MONTH_RANGE_RE`. -/
def monthRangeRe : Pattern :=
  wordBounded [monthName, blanksOrNone, .literal true ['-'], blanksOrNone, monthName, blanks,
    fourDigits]

/-- `(?:fatalit(?:y|ies)|deaths?|killed)`. -/
def deathsNoun : Pattern := oneOf ["fatality", "fatalities", "deaths", "death", "killed"]

/-- A number of deaths after one of some phrases. -/
def countRe (phrases : List String) : Pattern :=
  wordBounded [oneOf phrases, blanks, .group (.many .digit 1 (some 5)), blanks, deathsNoun]

/-- `_MORE_THAN_RE`. -/
def moreThanRe : Pattern := countRe ["more than", "over", "exceeding", "above"]

/-- `_FEWER_THAN_RE`. -/
def fewerThanRe : Pattern := countRe ["fewer than", "less than", "under", "below"]

/-- `_NON_FATAL_RE`. -/
def nonFatalRe : Pattern :=
  wordBounded [textOf "non", .many (.union .space (.among ['-'])) 0 (some 1), textOf "fatal"]

/-- `_FATAL_ONLY_RE`. -/
def fatalOnlyRe : Pattern :=
  wordBounded [textOf "fatal", .notAhead (.seq blanksOrNone (.seq (.many (.among ['-']) 0 (some 1))
    (.seq blanksOrNone (textOf "non"))))]

/-- A phrase between word boundaries: an alias, the name of a category, a keyword. -/
def phraseRe (phrase : String) : Pattern := wordBounded [textOf phrase]

/-- The words of a text. -/
def tokenRe : Pattern := wordBounded [.many .word 1 none]

/-! ## Tables -/

/-- `_STOP_WORDS`. -/
def stopWords : List String :=
  ["a", "an", "the", "and", "or", "of", "in", "on", "at", "to", "for", "with", "by", "from", "is",
    "was", "were", "be", "been", "being", "i", "we", "you", "they", "show", "find", "list", "tell",
    "me", "what", "which", "where", "when", "give", "search", "fetch", "get"]

/-- `_AIRCRAFT_ALIASES`. -/
def aircraftAliases : List (String × String) :=
  [("737", "Boeing 737"), ("boeing 737", "Boeing 737"), ("747", "Boeing 747"),
    ("boeing 747", "Boeing 747"), ("777", "Boeing 777"), ("787", "Boeing 787"),
    ("a320", "Airbus A320"), ("a330", "Airbus A330"), ("a350", "Airbus A350"),
    ("a380", "Airbus A380"), ("atr 72", "ATR 72"), ("dash 8", "Bombardier Dash 8"),
    ("dash-8", "Bombardier Dash 8"), ("embraer 175", "Embraer E175"), ("e175", "Embraer E175")]

/-- `_OPERATOR_ALIASES`. -/
def operatorAliases : List (String × String) :=
  [("delta", "Delta Air Lines"), ("united", "United Airlines"), ("american", "American Airlines"),
    ("southwest", "Southwest Airlines"), ("british airways", "British Airways"),
    ("lufthansa", "Lufthansa"), ("air france", "Air France"), ("klm", "KLM"),
    ("emirates", "Emirates"), ("qantas", "Qantas")]

/-- `_SHELO_KEYWORDS`. -/
def sheloKeywords : List (String × List String) :=
  [("SOFTWARE", ["software", "firmware", "FMS", "FADEC"]),
    ("HARDWARE", ["hardware", "engine", "airframe", "structural"]),
    ("ENVIRONMENT", ["weather", "icing", "turbulence", "windshear"]),
    ("LIVEWARE", ["pilot", "crew", "fatigue", "human"])]

/-! ## Passes -/

section Passes

variable [PyText] [PyRegex]

/-- `int(text)`. -/
def readInt (text : List Char) : Except NlError Nat :=
  fromOption ((decimalDigits text).map digitsValue) (.valueError "invalid literal for int()")

/-- `date(year, month, day)`. -/
def pyDate (year month day : Nat) : Except NlError PyDate :=
  fromOption (PyDate.mk? year month day) (.valueError "date argument is out of range")

/-- What a rule makes of a match: new filters, or it passes the match over. -/
abbrev Rule := ParsedQuery → Match → Except NlError (Option ParsedQuery)

/-- One match of a pass. -/
def ParseState.passOne (rule : Rule) (st : ParseState) (m : Match) : Except NlError ParseState :=
  if st.taken m then pure st
  else do
    match ← rule st.parsed m with
    | none => pure st
    | some parsed => pure (st.consume parsed m)

/-- One pass over the matches of a pattern. -/
def ParseState.pass (rule : Rule) (ms : List Match) (st : ParseState) : Except NlError ParseState :=
  ms.foldlM (ParseState.passOne rule) st

def monthOf (text : List Char) : Option Nat := monthNames.lookup (PyText.lower (String.ofList text))

def monthRangeRule : Rule := fun parsed m => do
  let m1 := monthOf (m.group 1)
  let m2 := monthOf (m.group 2)
  let year ← readInt (m.group 3)
  match m1, m2 with
  | some m1, some m2 => do
      let lo ← pyDate year m1 1
      let hi ← pyDate year m2 28
      pure (some { parsed with eventDateFrom := some lo, eventDateTo := some hi })
  | _, _ => pure none

def betweenRule : Rule := fun parsed m => do
  let y1 ← readInt (m.group 1)
  let y2 ← readInt (m.group 2)
  let lo ← pyDate (min y1 y2) 1 1
  let hi ← pyDate (max y1 y2) 12 31
  pure (some { parsed with eventDateFrom := some lo, eventDateTo := some hi })

def beforeRule : Rule := fun parsed m => do
  let year ← readInt (m.group 1)
  let hi ← pyDate (year - 1) 12 31
  pure (some { parsed with eventDateTo := some hi })

def afterRule : Rule := fun parsed m => do
  let year ← readInt (m.group 1)
  let lo ← pyDate (year + 1) 1 1
  pure (some { parsed with eventDateFrom := some lo })

/-- A bare year; it is passed over when both ends of the range are set. -/
def yearRule : Rule := fun parsed m =>
  if parsed.eventDateFrom.isSome ∧ parsed.eventDateTo.isSome then pure none
  else do
    let year ← readInt m.text
    let lo ← pyDate year 1 1
    let hi ← pyDate year 12 31
    pure (some { parsed with eventDateFrom := some lo, eventDateTo := some hi })

/-- `_parse_dates`. -/
def parseDates (query : List Char) (st : ParseState) : Except NlError ParseState := do
  let st ← st.pass monthRangeRule (finditer monthRangeRe query)
  let st ← st.pass betweenRule (finditer betweenRe query)
  let st ← st.pass beforeRule (finditer beforeRe query)
  let st ← st.pass afterRule (finditer afterRe query)
  st.pass yearRule (finditer yearRe query)

def moreThanRule : Rule := fun parsed m => do
  let n ← readInt (m.group 1)
  pure (some { parsed with fatalitiesMin := some ((n : Int) + 1) })

def fewerThanRule : Rule := fun parsed m => do
  let n ← readInt (m.group 1)
  pure (some { parsed with fatalitiesMax := some ((n : Int) - 1) })

def nonFatalRule : Rule := fun parsed _ => pure (some { parsed with nonFatalOnly := true })

def fatalOnlyRule : Rule := fun parsed _ =>
  if parsed.nonFatalOnly then pure none else pure (some { parsed with fatalOnly := true })

/-- `_parse_fatalities`. -/
def parseFatalities (query : List Char) (st : ParseState) : Except NlError ParseState := do
  let st ← st.pass moreThanRule (finditer moreThanRe query)
  let st ← st.pass fewerThanRule (finditer fewerThanRe query)
  let st ← st.pass nonFatalRule (finditer nonFatalRe query)
  st.pass fatalOnlyRule (finditer fatalOnlyRe query)

/-- The first match that begins outside the taken parts; the loops below end with it. -/
def ParseState.firstFree (st : ParseState) (ms : List Match) : Option Match :=
  ms.find? fun m => !st.taken m

/-- Longest first; aliases of one length stay in their order. -/
def byLength (aliases : List (String × String)) : List (String × String) :=
  aliases.insertionSort fun a b => b.1.length ≤ a.1.length

/-- A filter that a table of aliases fills. -/
inductive AliasField where
  | aircraftType
  | operator
deriving DecidableEq, Repr

def AliasField.get : AliasField → ParsedQuery → Option String
  | aircraftType, p => p.aircraftType
  | operator, p => p.operator

def AliasField.set : AliasField → ParsedQuery → String → ParsedQuery
  | aircraftType, p, canonical => { p with aircraftType := some canonical }
  | operator, p, canonical => { p with operator := some canonical }

/-- One alias of `_parse_aliases`. -/
def parseAlias (query : List Char) (field : AliasField) (st : ParseState) (entry : String × String) :
    ParseState :=
  if (field.get st.parsed).isSome then st
  else
    match st.firstFree (finditer (phraseRe entry.1) query) with
    | none => st
    | some m => st.consume (field.set st.parsed entry.2) m

/-- `_parse_aliases`. -/
def parseAliases (query : List Char) (aliases : List (String × String)) (field : AliasField)
    (st : ParseState) : ParseState :=
  (byLength aliases).foldl (parseAlias query field) st

/-- A phrase and the label that its first free match adds to a list of labels. -/
def parseLabel (query : List Char) (acc : List String × ParseState) (entry : String × String) :
    List String × ParseState :=
  match acc.2.firstFree (finditer (phraseRe entry.1) query) with
  | none => acc
  | some m => (if entry.2 ∈ acc.1 then acc.1 else acc.1 ++ [entry.2], acc.2.consume acc.2.parsed m)

def parseLabels (query : List Char) (entries : List (String × String)) (st : ParseState) :
    List String × ParseState :=
  entries.foldl (parseLabel query) ([], st)

/-- `_parse_hfacs_categories`. -/
def parseHfacsCategories (query : List Char) (categories : List NamedHfacsCategory) (st : ParseState) :
    ParseState :=
  let (codes, st) := parseLabels query (categories.map fun c => (c.name, c.code)) st
  if codes = [] then st else { st with parsed := { st.parsed with hfacsCategoryCodes := codes } }

/-- `_parse_shelo`. -/
def parseShelo (query : List Char) (st : ParseState) : ParseState :=
  let (classes, st) := parseLabels query
    (sheloKeywords.flatMap fun (cls, keywords) => keywords.map fun kw => (kw, cls)) st
  if classes = [] then st else { st with parsed := { st.parsed with sheloFactorClasses := classes } }

/-- `_compute_confidence`. -/
def computeConfidence (query : List Char) (st : ParseState) : ℚ :=
  let significant := (finditer tokenRe query).filter fun t =>
    !stopWords.contains (PyText.lower (String.ofList t.text))
  if significant = [] then 0
  else double ((significant.filter fun t => st.taken t).length / significant.length)

/-- The query with the taken parts blanked out. -/
def blankOut (query : List Char) (spans : List Span) : List Char :=
  query.mapIdx fun i c => if spans.any fun s => s.start ≤ i && i < s.stop then ' ' else c

/-- `_remaining_text`. -/
def remainingText (query : List Char) (st : ParseState) : String :=
  String.ofList (stripChars (collapseBlanks false (blankOut query st.spans)))

/-- The passes of `parse_nl_query`. -/
def parsePasses (query : List Char) (categories : List NamedHfacsCategory) :
    Except NlError ParseState := do
  let st ← parseDates query .start
  let st ← parseFatalities query st
  let st := parseAliases query aircraftAliases .aircraftType st
  let st := parseAliases query operatorAliases .operator st
  let st := parseHfacsCategories query categories st
  pure (parseShelo query st)

/-- `parse_nl_query`. -/
def parseNlQuery (query : String) (categories : List NamedHfacsCategory) :
    Except NlError ParsedQuery := do
  let st ← parsePasses query.toList categories
  pure { st.parsed with
    freeTextRemainder := remainingText query.toList st
    confidence := computeConfidence query.toList st }

end Passes

end Atlas
