import LiveMenu.Lib.Csv
import LiveMenu.Sequential.Effects

/-!
# The export can be read back

The text of an export is what the writer of the excel dialect makes of its rows, so a reader of the
dialect finds the header and one record for each scan event.
-/

namespace LiveMenu

/-! ### Texts and characters -/

namespace CsvExport

lemma toList_csvField (s : String) : (csvField s).toList = Csv.writeField s.toList := by
  have hspecial : (s.toList.any fun c => c == ',' || c == '"' || c == '\r' || c == '\n')
      = s.toList.any Csv.isSpecial := rfl
  rw [csvField, Csv.writeField, hspecial]
  split_ifs with h
  · simp only [String.toList_append, String.toList_ofList, Csv.escape]
    rfl
  · rfl

lemma toList_csvRow (fields : List String) :
    (csvRow fields).toList = Csv.writeRecord (fields.map String.toList) := by
  have hfields : (fields.map csvField).map String.toList
      = (fields.map String.toList).map Csv.writeField := by
    rw [List.map_map, List.map_map]
    exact List.map_congr_left fun s _ => toList_csvField s
  have hempty : fields.map String.toList = [[]] ↔ fields = [""] := by
    simp [List.map_eq_singleton_iff]
  rw [csvRow, Csv.writeRecord, Csv.writeFields, String.toList_append]
  congr 1
  by_cases h : fields = [""]
  · rw [if_pos h, if_pos (hempty.mpr h)]
    rfl
  · rw [if_neg h, if_neg (mt hempty.mp h), String.toList_intercalate, hfields]
    rfl

lemma toList_exportToCsv (data : List CsvDict) (columns : List String) :
    (exportToCsv data columns).toList
      = Csv.write ((columns :: data.map (dictRow columns)).map fun fields =>
          fields.map String.toList) := by
  rw [exportToCsv, String.toList_join, Csv.write, List.flatMap_cons, List.map_cons,
    List.flatMap_cons, toList_csvRow]
  congr 1
  rw [List.flatMap_map, List.flatMap_map, List.flatMap_map]
  exact List.flatMap_congr fun record _ => toList_csvRow _

/-! ### Reading -/

/-- The records a reader of the dialect finds in a text. -/
def readCsv (text : String) : List (List String) :=
  (Csv.read text.toList).map fun fields => fields.map String.ofList

/-- The header and the rows are read back. -/
lemma readCsv_exportToCsv (data : List CsvDict) {columns : List String} (h : columns ≠ []) :
    readCsv (exportToCsv data columns) = columns :: data.map (dictRow columns) := by
  have hrecord : ∀ fields ∈ (columns :: data.map (dictRow columns)).map fun fields =>
      fields.map String.toList, fields ≠ [] := by
    intro fields hfields
    obtain ⟨row, hrow, rfl⟩ := List.mem_map.mp hfields
    rcases List.mem_cons.mp hrow with rfl | hrow
    · simpa using h
    · obtain ⟨record, -, rfl⟩ := List.mem_map.mp hrow
      simpa [dictRow] using h
  rw [readCsv, toList_exportToCsv, Csv.read_write hrecord, List.map_map]
  have hback : ∀ row : List String,
      ((fun fields => fields.map String.ofList) ∘ fun fields => fields.map String.toList) row
        = row := by
    intro row
    simp [Function.comp_def]
  rw [List.map_congr_left fun row _ => hback row, List.map_id']

@[simp] lemma dictRow_scanEvent (e : ScanFields) :
    dictRow columns [("timestamp", .datetime e.timestamp), ("user_agent", .text e.userAgent),
        ("ip_hash", .text e.ipHash), ("referrer", .text (e.referrer.getD ""))]
      = [e.timestamp.isoformat, e.userAgent, e.ipHash, e.referrer.getD ""] := by
  simp [dictRow, columns, CsvValue.written, List.lookup_cons]

/-- An export has a record for each scan event, in order, with the fields as they were. -/
lemma readCsv_scanEvents (events : List ScanFields) :
    readCsv (exportToCsv (scanEventsToCsvData events) columns)
      = columns :: events.map fun e =>
          [e.timestamp.isoformat, e.userAgent, e.ipHash, e.referrer.getD ""] := by
  rw [readCsv_exportToCsv _ (by decide), scanEventsToCsvData, List.map_map]
  exact congrArg _ (List.map_congr_left fun e _ => dictRow_scanEvent e)

end CsvExport

namespace AnalyticsService

/-- The records under the header of an export. -/
def dataRows (text : String) : List (List String) := (CsvExport.readCsv text).tail

lemma length_dataRows_csvText (scan : Scan ScanEvent) (rows : List ScanEvent) :
    (dataRows (csvText scan rows)).length = rows.length := by
  rw [dataRows, csvText, CsvExport.readCsv_scanEvents, List.tail_cons, List.length_map,
    List.length_map, (orderBy_perm _ _).length_eq, (scan.perm rows).length_eq]

end AnalyticsService

end LiveMenu
