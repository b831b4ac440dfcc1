import Atlas.NtsbIngestion

/-!
# Reading the eADMS tables

`NtsbEadmsReader` joins the exported tables on `ev_id` and builds one record for each row of
`events`.  It is a generator: an exception ends it, and the rows after the one that raised are
never read.  `csv.DictReader` gives the cells under the names of the header; it pads a short line
with `None` and keeps the cells beyond the header under the key `None`, which `json.dumps` cannot
sort among the names.
-/

namespace Atlas

open Outcome

namespace Ntsb

/-! ## Lines -/

/-- A line as `csv.DictReader` yields it; `rest` are the cells beyond the header. -/
structure CsvRow where
  columns : List (String × Option String)
  rest : List String
  names_nodup : (columns.map Prod.fst).Nodup
  names_ne_nil : columns ≠ []
deriving DecidableEq

/-- A table with its header. -/
structure CsvTable where
  header : List String
  lines : List (List String)
  header_ne_nil : header ≠ []

/-- The cells of a line under the header; one that is missing is `None`. -/
def CsvTable.cellsUnder (table : CsvTable) (cells : List String) : List (Option String) :=
  cells.map some ++ List.replicate (table.header.length - cells.length) none

/-- The dictionary of a line.  Of a name that the header repeats the last cell counts, also
when the line is too short to have it. -/
def CsvTable.row (table : CsvTable) (cells : List String) : CsvRow where
  columns := table.header.dedup.map fun name =>
    (name, ((table.header.zip (table.cellsUnder cells)).reverse.lookup name).join)
  rest := cells.drop table.header.length
  names_nodup := by
    rw [List.map_map]
    exact (List.map_id' table.header.dedup).symm ▸ List.nodup_dedup _
  names_ne_nil := by
    rw [Ne, List.map_eq_nil_iff, List.dedup_eq_nil]
    exact table.header_ne_nil

/-- `_read_csv`: blank lines are skipped. -/
def CsvTable.rows (table : CsvTable) : List CsvRow :=
  (table.lines.filter fun cells => cells ≠ []).map table.row

example : ((⟨["a", "b", "b"], [["1", "2"]], nofun⟩ : CsvTable).rows.map CsvRow.columns) =
    [[("a", some "1"), ("b", none)]] := by decide

/-- `row.get(column)`. -/
def CsvRow.get (row : CsvRow) (column : String) : Option String := (row.columns.lookup column).join

/-- The named cells. -/
def CsvRow.named (row : CsvRow) : EadmsRow := row.columns.map fun p => (p.1, jsonText p.2)

/-- `(row.get(column) or "").strip()`. -/
def CsvRow.text (row : CsvRow) (column : String) : String := strip ((row.get column).getD "")

theorem cell_named (row : CsvRow) (column : String) :
    cell row.named column = jsonText (row.get column) := by
  unfold cell CsvRow.named CsvRow.get
  induction row.columns with
  | nil => rfl
  | cons p columns ih =>
      rw [List.map_cons, List.lookup_cons, List.lookup_cons]
      cases column == p.1 with
      | true => rfl
      | false => exact ih

/-! ## One accident -/

/-- The joined lines of an accident. -/
structure CsvRecord where
  event : CsvRow
  aircraft : List CsvRow
  narratives : List CsvRow
  findings : List CsvRow

def CsvRecord.rows (record : CsvRecord) : EadmsRecord where
  event := record.event.named
  aircraft := record.aircraft.map CsvRow.named
  narratives := record.narratives.map CsvRow.named
  findings := record.findings.map CsvRow.named

/-- The lines that go into the payload. -/
def CsvRecord.lines (record : CsvRecord) : List CsvRow :=
  record.event :: (record.aircraft ++ record.narratives ++ record.findings)

/-- The exceptions: an `OverflowError` of `int`, and the `TypeError` of sorting the key `None`
among names. -/
inductive EadmsError where
  | overflow
  | unorderedKeys
deriving DecidableEq, Repr

section Reader

variable [PyText] [PyRepr] [PyUpper] [PyIso] [FloatRepr] (sha256 : List Char → String)

/-- `build_event_record` on lines: `_content_hash` comes last and dumps all of them. -/
def buildCsvRecord (record : CsvRecord) (decoder : EadmsCodeDecoder) (capturedAt : Time) :
    Except EadmsError (Option NtsbEventRecord) :=
  match buildEventRecord sha256 record.rows decoder capturedAt with
  | .error .overflow => .error .overflow
  | .ok none => .ok none
  | .ok (some out) =>
      if record.lines.any fun row => row.rest ≠ [] then .error .unorderedKeys else .ok (some out)

/-! ## The tables -/

structure EadmsTables where
  events : CsvTable
  aircraft : CsvTable
  narratives : CsvTable
  findings : CsvTable
  dictionary : CsvTable

/-- The meaning that a line of the data dictionary gives to a code. -/
def dictionaryMeaning (table column code : String) (row : CsvRow) : Option String :=
  if row.text "meaning" ≠ "" ∧ row.text "code_iaids" ≠ "" ∧
      PyText.lower (row.text "Table") = table ∧ table ≠ "" ∧
      PyText.lower (row.text "Column") = column ∧ column ≠ "" ∧
      PyUpper.upper (row.text "code_iaids") = code then
    some (row.text "meaning")
  else none

/-- `EadmsCodeDecoder.from_dictionary_rows`: the last line of a code counts. -/
def EadmsCodeDecoder.fromDictionaryRows (rows : List CsvRow) : EadmsCodeDecoder where
  mapping := fun table column code => rows.reverse.findSome? (dictionaryMeaning table column code)

/-- `_index_by_ev_id`, read at a key. -/
def indexByEvId (rows : List CsvRow) (evId : String) : List CsvRow :=
  rows.filter fun row => row.text "ev_id" ≠ "" ∧ row.text "ev_id" = evId

/-- `_safe_int`. -/
def safeInt (value : Option String) : Except EadmsError Int :=
  match floatOfText (strip (pyStr (jsonText value))) with
  | none => .ok 0
  | some (.finite q) => .ok (if 0 ≤ q then ⌊q⌋ else ⌈q⌉)
  | some (.inf _) => .error .overflow
  | some .nan => .ok 0

/-- `_findings_index`: the findings of an accident by their numbers, those of one number in their
order. -/
def findingsIndex (rows : List CsvRow) : Except EadmsError (String → List CsvRow) := do
  let keyed ← (rows.filter fun row => row.text "ev_id" ≠ "").mapM fun row => do
    let key ← safeInt (row.get "finding_no")
    pure (key, row)
  pure fun evId =>
    ((keyed.filter fun p => p.2.text "ev_id" = evId).insertionSort fun a b => a.1 ≤ b.1).map Prod.snd

/-- The lines of the accident of a row of `events`. -/
def EadmsTables.joined (tables : EadmsTables) (findings : String → List CsvRow) (row : CsvRow) :
    CsvRecord where
  event := row
  aircraft := indexByEvId tables.aircraft.rows (row.text "ev_id")
  narratives := indexByEvId tables.narratives.rows (row.text "ev_id")
  findings := findings (row.text "ev_id")

/-- The loop of `iter_records`: the records yielded, and the exception that ended it.  `now n` is
the time of the capture of the `n`-th row. -/
def iterRows (build : CsvRow → Time → Except EadmsError (Option NtsbEventRecord)) (now : Nat → Time) :
    Nat → List CsvRow → List NtsbEventRecord × Option EadmsError
  | _, [] => ([], none)
  | n, row :: rows =>
      if row.text "ev_id" = "" then iterRows build now (n + 1) rows
      else
        match build row (now n) with
        | .error e => ([], some e)
        | .ok none => iterRows build now (n + 1) rows
        | .ok (some record) =>
            (record :: (iterRows build now (n + 1) rows).1, (iterRows build now (n + 1) rows).2)

/-- `NtsbEadmsReader.iter_records`. -/
def iterRecords (tables : EadmsTables) (now : Nat → Time) : List NtsbEventRecord × Option EadmsError :=
  match findingsIndex tables.findings.rows with
  | .error e => ([], some e)
  | .ok findings =>
      let decoder := EadmsCodeDecoder.fromDictionaryRows tables.dictionary.rows
      iterRows (fun row => buildCsvRecord sha256 (tables.joined findings row) decoder) now 0
        tables.events.rows

end Reader

end Ntsb

end Atlas
