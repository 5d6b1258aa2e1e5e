import Savitools.Json.Doubles
import Savitools.Json.Writing
import Savitools.Strings.Csv

namespace Savitools.Common.CsvExports

open Strings.CodeUnits Strings.Csv Json.Numbers Json.Values Json.Conversions Json.Writing

/-- The signs of a file whose records end with a line feed. -/
def marks : Marks UInt16 where
  quote := unit '"'
  comma := unit ','
  lineEnd := unit '\n'
  carriageReturn := unit '\r'
  quote_ne_comma := by decide
  quote_ne_lineEnd := by decide
  comma_ne_lineEnd := by decide

/-- What may be given for a field: a JSON value, or what no JSON value is. -/
inductive Cell
  | undefined
  | notANumber
  | value (v : Value Number)

/-- Objects and arrays as JSON, all else as a string. -/
def Cell.text : Cell → Text
  | .undefined => []
  | .notANumber => Strings.CodeUnits.text "NaN"
  | .value .null => []
  | .value (.arr items) => stringify (.arr items)
  | .value (.obj fields) => stringify (.obj fields)
  | .value v => stringOf v

/-- `/^\s|\s$/` is tested last. -/
def needsQuotes (t : Text) : Bool :=
  t.contains (unit ',') || t.contains (unit '"') || t.contains (unit '\n') || t.contains (unit '\r') ||
    t.head?.any isSpace || t.getLast?.any isSpace

def escapeCsvField : Cell → Text
  | .undefined => []
  | .value .null => []
  | cell => if needsQuotes cell.text then unit '"' :: (doubled marks cell.text ++ [unit '"']) else cell.text

def toCsvRow (fields : List Cell) : Text := join (unit ',') (fields.map escapeCsvField)

def toCsv (rows : List (List Cell)) : Text := join (unit '\n') (rows.map toCsvRow) ++ [unit '\n']

/-- A text that needs no quotes has none of the signs. -/
theorem plain_of_needsQuotes {t : Text} (ht : needsQuotes t = false) : ∀ u ∈ t, marks.Plain u := by
  simp only [needsQuotes, Bool.or_eq_false_iff] at ht
  obtain ⟨⟨⟨⟨⟨hcomma, hquote⟩, hlineEnd⟩, hreturn⟩, -⟩, -⟩ := ht
  have hne {sign u : UInt16} (hsign : t.contains sign = false) (hu : u ∈ t) : u ≠ sign := by
    rintro rfl
    exact ne_true_of_eq_false hsign (List.contains_iff_mem.mpr hu)
  exact fun u hu => ⟨hne hquote hu, hne hcomma hu, hne hlineEnd hu, hne hreturn hu⟩

theorem field_of_text (t : Text) :
    Field marks (if needsQuotes t then unit '"' :: (doubled marks t ++ [unit '"']) else t) t := by
  split
  next => exact .escaped (escaped_doubled t)
  next h => exact .plain (plain_of_needsQuotes (Bool.eq_false_of_not_eq_true h))

/-- Every cell is a field of the grammar, and means its own text. -/
theorem field_escapeCsvField (cell : Cell) : Field marks (escapeCsvField cell) cell.text := by
  rw [escapeCsvField.eq_def]
  split
  next => exact .plain (List.forall_mem_nil _)
  next => exact .plain (List.forall_mem_nil _)
  next => exact field_of_text cell.text

theorem record_toCsvRow {fields : List Cell} (hne : fields ≠ []) : Record marks (toCsvRow fields) (fields.map Cell.text) := by
  obtain ⟨field, fields, rfl⟩ := List.exists_cons_of_ne_nil hne
  refine record_intercalate (field_escapeCsvField field) ?_
  rw [List.forall₂_map_left_iff, List.forall₂_map_right_iff, List.forall₂_same]
  exact fun cell _ => field_escapeCsvField cell

theorem file_toCsv {rows : List (List Cell)} (hne : rows ≠ []) (hrows : ∀ row ∈ rows, row ≠ []) :
    File marks (toCsv rows) (rows.map (·.map Cell.text)) := by
  obtain ⟨row, rows, rfl⟩ := List.exists_cons_of_ne_nil hne
  obtain ⟨hrow, hrows⟩ := List.forall_mem_cons.mp hrows
  refine file_intercalate (record_toCsvRow hrow) ?_
  rw [List.forall₂_map_left_iff, List.forall₂_map_right_iff, List.forall₂_same]
  exact fun row hmem => record_toCsvRow (hrows row hmem)

/-- An export with a row at least is read as the texts of its cells, and as nothing else. -/
theorem file_toCsv_iff {rows : List (List Cell)} (hne : rows ≠ []) (hrows : ∀ row ∈ rows, row ≠ [])
    (records : List (List Text)) : File marks (toCsv rows) records ↔ records = rows.map (·.map Cell.text) := by
  have hfile := file_toCsv hne hrows
  constructor
  · exact fun hrecords => hrecords.unique hfile
  · rintro rfl
    exact hfile

theorem file_toCsv_iff_quotes :
    File marks (toCsv [[.value (.str (text "a,\"b\"\n")), .value .null]]) [[text "a,\"b\"\n", []]] :=
  (file_toCsv_iff (List.cons_ne_nil _ _) (by simp) _).mpr rfl

/-- No rows are written as the one row of one empty field is. -/
theorem not_file_toCsv_nil : ¬∀ rows : List (List Cell), (∀ row ∈ rows, row ≠ []) →
    ∀ records : List (List Text), File marks (toCsv rows) records ↔ records = rows.map (·.map Cell.text) := by
  intro hall
  have hone : File marks (toCsv []) [[[]]] := .last (.last (.plain (List.forall_mem_nil _)))
  exact List.cons_ne_nil _ _ ((hall [] (List.forall_mem_nil _) _).mp hone)

end Savitools.Common.CsvExports
