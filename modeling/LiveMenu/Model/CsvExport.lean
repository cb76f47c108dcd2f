import LiveMenu.Model.Dates
import LiveMenu.Model.Tables

/-!
# The CSV export

`csv_export.py`: records are dictionaries whose values are texts or datetimes, and a datetime is
written in ISO form.
-/

namespace LiveMenu

/-! ### Writing -/

/-- A field in minimal quoting. -/
def csvField (s : String) : String :=
  if s.toList.any fun c => c == ',' || c == '"' || c == '\r' || c == '\n' then
    "\"" ++ String.ofList (s.toList.flatMap fun c => if c = '"' then ['"', '"'] else [c]) ++ "\""
  else s

/-- A row of one empty field is told from a blank line by its quotes. -/
def csvRow (fields : List String) : String :=
  (if fields = [""] then "\"\"" else String.intercalate "," (fields.map csvField)) ++ "\r\n"

/-! ### Dictionaries -/

/-- A value of a record. -/
inductive CsvValue where
  | text (s : String)
  | datetime (dt : PyDateTime)

/-- A record: a dictionary by column. -/
abbrev CsvDict := List (String × CsvValue)

/-- What is written for a value. -/
def CsvValue.written : CsvValue → String
  | .text s       => s
  | .datetime dt  => dt.isoformat

namespace CsvExport

/-- The fields of a row: those of the columns, in their order, and nothing for a column that the
record lacks. -/
def dictRow (columns : List String) (record : CsvDict) : List String :=
  columns.map fun column => ((record.lookup column).map CsvValue.written).getD ""

/-- `export_to_csv`: the header, then a row for each record. -/
def exportToCsv (data : List CsvDict) (columns : List String) : String :=
  String.join (csvRow columns :: data.map fun record => csvRow (dictRow columns record))

/-- What an export reads of a scan event. -/
structure ScanFields where
  timestamp : PyDateTime
  userAgent : String
  ipHash : String
  referrer : Option String

/-- A stored event, as the driver returns it. -/
def ScanFields.ofRow (e : ScanEvent) : ScanFields where
  timestamp := .utc e.timestamp
  userAgent := e.userAgent.val
  ipHash := e.ipHash.val
  referrer := e.referrer.map (·.val)

/-- An event whose timestamp is one that a `datetime` can be. -/
structure ScanRecord extends ScanFields where
  valid : timestamp.Valid

/-- `scan_events_to_csv_data`. -/
def scanEventsToCsvData (scanEvents : List ScanFields) : List CsvDict :=
  scanEvents.map fun event => [
    ("timestamp", .datetime event.timestamp),
    ("user_agent", .text event.userAgent),
    ("ip_hash", .text event.ipHash),
    ("referrer", .text (event.referrer.getD ""))]

/-- The columns of an export. -/
def columns : List String := ["timestamp", "user_agent", "ip_hash", "referrer"]

end CsvExport

end LiveMenu
