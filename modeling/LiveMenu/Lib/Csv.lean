import Mathlib.Data.List.Basic
import Mathlib.Tactic.Common

/-!
# Comma-separated values

The excel dialect: fields between commas, quoted when they must be, records ended by CRLF. A reader
takes a text character by character; it reads back every text the writer writes, apart from records
without a field.
-/

namespace Csv

/-! ### Writing -/

/-- A field with this character must be quoted. -/
def isSpecial (c : Char) : Bool := c == ',' || c == '"' || c == '\r' || c == '\n'

/-- Double the quotes. -/
def escape (field : List Char) : List Char :=
  field.flatMap fun c => if c = '"' then ['"', '"'] else [c]

/-- A field in minimal quoting. -/
def writeField (field : List Char) : List Char :=
  if field.any isSpecial then '"' :: (escape field ++ ['"']) else field

/-- The fields of a record. One empty field is told from a blank line by its quotes. -/
def writeFields (fields : List (List Char)) : List Char :=
  if fields = [[]] then ['"', '"'] else [','].intercalate (fields.map writeField)

def writeRecord (fields : List (List Char)) : List Char := writeFields fields ++ ['\r', '\n']

def write (records : List (List (List Char))) : List Char := records.flatMap writeRecord

/-! ### Reading -/

/-- What a reader is inside of. -/
inductive Place where
  | startRecord
  | startField
  | inField
  | inQuotedField
  | quoteInQuotedField
  | afterReturn

/-- The field and the record under way and the records read, each in reverse. -/
structure Reader where
  place : Place
  field : List Char
  record : List (List Char)
  records : List (List (List Char))

namespace Reader

def start : Reader := ⟨.startRecord, [], [], []⟩

variable (r : Reader) (c : Char)

def addChar (place : Place) : Reader := { r with place := place, field := c :: r.field }

def saveField : Reader :=
  { r with place := .startField, field := [], record := r.field.reverse :: r.record }

/-- End the record at a newline character. -/
def saveRecord : Reader where
  place := if c = '\r' then .afterReturn else .startRecord
  field := []
  record := []
  records := r.record.reverse :: r.records

/-- A character after which the field is complete, or one more character of it. -/
def endField (place : Place) : Reader :=
  if c = ',' then r.saveField
  else if c = '\r' ∨ c = '\n' then r.saveField.saveRecord c
  else r.addChar c place

def beginField : Reader :=
  if c = '"' then { r with place := .inQuotedField } else r.endField c .inField

def beginRecord : Reader :=
  if c = '\r' ∨ c = '\n' then r.saveRecord c else r.beginField c

def step : Reader :=
  match r.place with
  | .startRecord        => r.beginRecord c
  | .startField         => r.beginField c
  | .inField            => r.endField c .inField
  | .inQuotedField      =>
    if c = '"' then { r with place := .quoteInQuotedField } else r.addChar c .inQuotedField
  | .quoteInQuotedField =>
    if c = '"' then r.addChar c .inQuotedField else r.endField c .inField
  | .afterReturn        =>
    if c = '\n' then { r with place := .startRecord } else r.beginRecord c

/-- The text may end without a newline. -/
def finish : List (List (List Char)) :=
  match r.place with
  | .startRecord | .afterReturn => r.records.reverse
  | _                           => (r.saveField.saveRecord '\n').records.reverse

/-- The reader after a text. -/
def run (text : List Char) : Reader := text.foldl step r

end Reader

/-- The records of a text. -/
def read (text : List Char) : List (List (List Char)) := (Reader.start.run text).finish

/-! ### Reading what was written -/

namespace Reader

variable (r : Reader)

@[simp] lemma run_nil : r.run [] = r := rfl

@[simp] lemma run_cons (c : Char) (text : List Char) :
    r.run (c :: text) = (r.step c).run text := rfl

@[simp] lemma run_append (text text' : List Char) :
    r.run (text ++ text') = (r.run text).run text' := List.foldl_append

/-- Inside quotes every character is read back. -/
lemma run_escape (field acc : List Char) (record : List (List Char))
    (records : List (List (List Char))) :
    run ⟨.inQuotedField, acc, record, records⟩ (escape field)
      = ⟨.inQuotedField, field.reverse ++ acc, record, records⟩ := by
  induction field generalizing acc with
  | nil => rfl
  | cons c field ih =>
    rw [escape, List.flatMap_cons, run_append, ← escape]
    have hc : run ⟨.inQuotedField, acc, record, records⟩ (if c = '"' then ['"', '"'] else [c])
        = ⟨.inQuotedField, c :: acc, record, records⟩ := by
      split_ifs with hquote
      · cases hquote
        rfl
      · simp only [run_cons, run_nil, step, if_neg hquote, addChar]
    rw [hc, ih, List.reverse_cons, List.append_assoc, List.singleton_append]

/-- Outside quotes only special characters mean something. -/
lemma run_plain {field : List Char} (h : ∀ c ∈ field, isSpecial c = false) (acc : List Char)
    (record : List (List Char)) (records : List (List (List Char))) :
    run ⟨.inField, acc, record, records⟩ field
      = ⟨.inField, field.reverse ++ acc, record, records⟩ := by
  induction field generalizing acc with
  | nil => rfl
  | cons c field ih =>
    have hc := h c List.mem_cons_self
    simp only [isSpecial, Bool.or_eq_false_iff, beq_eq_false_iff_ne] at hc
    obtain ⟨⟨⟨hcomma, -⟩, hreturn⟩, hline⟩ := hc
    rw [run_cons, step, endField, if_neg hcomma, if_neg (not_or.mpr ⟨hreturn, hline⟩), addChar,
      ih fun c hc => h c (List.mem_cons_of_mem _ hc), List.reverse_cons, List.append_assoc,
      List.singleton_append]

/-- The reader has seen the field `field`, and nothing else of it is to come. -/
def Completes (field : List Char) (record : List (List Char)) (records : List (List (List Char)))
    (r : Reader) : Prop :=
  r.step ',' = ⟨.startField, [], field :: record, records⟩ ∧
    r.step '\r' = ⟨.afterReturn, [], [], (field :: record).reverse :: records⟩

/-- A written field is read, where a field can begin: an empty one not at the start of a record. -/
lemma completes_writeField {place : Place} (field : List Char) (record : List (List Char))
    (records : List (List (List Char)))
    (hplace : place = .startField ∨ place = .startRecord ∧ field ≠ []) :
    Completes field record records (run ⟨place, [], record, records⟩ (writeField field)) := by
  rw [writeField]
  split_ifs with hspecial
  · have hquote : step ⟨place, [], record, records⟩ '"'
        = ⟨.inQuotedField, [], record, records⟩ := by
      rcases hplace with rfl | ⟨rfl, -⟩ <;> rfl
    rw [run_cons, hquote, run_append, run_escape, List.append_nil]
    constructor
    · simp [step, endField, saveField]
    · simp [step, endField, saveField, saveRecord]
  · have hplain : ∀ c ∈ field, isSpecial c = false := by simpa using hspecial
    cases field with
    | nil =>
      rcases hplace with rfl | ⟨-, hne⟩
      · exact ⟨rfl, rfl⟩
      · exact absurd rfl hne
    | cons c field =>
      have hc := hplain c List.mem_cons_self
      simp only [isSpecial, Bool.or_eq_false_iff, beq_eq_false_iff_ne] at hc
      obtain ⟨⟨⟨hcomma, hquote⟩, hreturn⟩, hline⟩ := hc
      have hnewline : ¬ (c = '\r' ∨ c = '\n') := not_or.mpr ⟨hreturn, hline⟩
      have hfirst : step ⟨place, [], record, records⟩ c = ⟨.inField, [c], record, records⟩ := by
        rcases hplace with rfl | ⟨rfl, -⟩
        · simp only [step, beginField, endField, addChar, if_neg hcomma, if_neg hquote,
            if_neg hnewline]
        · simp only [step, beginRecord, beginField, endField, addChar, if_neg hcomma,
            if_neg hquote, if_neg hnewline]
      rw [run_cons, hfirst, run_plain fun c hc => hplain c (List.mem_cons_of_mem _ hc)]
      constructor
      · simp [step, endField, saveField]
      · simp [step, endField, saveField, saveRecord]

/-- The rest of a record, after a field that is complete. -/
lemma run_rest (fields : List (List Char)) (field : List Char) (record : List (List Char))
    (records : List (List (List Char))) {r : Reader} (hr : Completes field record records r) :
    r.run ((fields.map fun f => ',' :: writeField f).flatten ++ ['\r', '\n'])
      = ⟨.startRecord, [], [], (record.reverse ++ field :: fields) :: records⟩ := by
  induction fields generalizing field record r with
  | nil =>
    rw [List.map_nil, List.flatten_nil, List.nil_append, run_cons, hr.2, List.reverse_cons]
    rfl
  | cons f fields ih =>
    rw [List.map_cons, List.flatten_cons, List.append_assoc, List.cons_append, run_cons, hr.1,
      run_append, ih f (field :: record) (completes_writeField f _ _ (.inl rfl)),
      List.reverse_cons, List.append_assoc, List.singleton_append]

end Reader

lemma writeRecord_cons {field : List Char} {fields : List (List Char)}
    (h : field :: fields ≠ [[]]) :
    writeRecord (field :: fields)
      = writeField field ++
          ((fields.map fun f => ',' :: writeField f).flatten ++ ['\r', '\n']) := by
  rw [writeRecord, writeFields, if_neg h, ← List.append_assoc]
  congr 1
  clear h
  induction fields generalizing field with
  | nil => simp
  | cons f fields ih =>
    rw [List.map_cons, List.map_cons, List.intercalate_cons_cons, ← List.map_cons, ih]
    simp

open Reader in
lemma run_writeRecord {fields : List (List Char)} (h : fields ≠ [])
    (records : List (List (List Char))) :
    run ⟨.startRecord, [], [], records⟩ (writeRecord fields)
      = ⟨.startRecord, [], [], fields :: records⟩ := by
  cases fields with
  | nil => exact absurd rfl h
  | cons field fields =>
    by_cases hempty : field = []
    · subst hempty
      cases fields with
      | nil => rfl
      | cons f fields =>
        -- the first character is the comma after the empty field
        have hcomma : step ⟨.startRecord, [], [], records⟩ ',' = ⟨.startField, [], [[]], records⟩ :=
          rfl
        rw [writeRecord_cons (by simp), List.map_cons, List.flatten_cons, List.append_assoc,
          List.cons_append]
        show run (step ⟨.startRecord, [], [], records⟩ ',') _ = _
        rw [hcomma, run_append, run_rest fields f [[]] records
          (completes_writeField f _ _ (.inl rfl))]
        rfl
    · have hne : field :: fields ≠ [[]] := fun heq => hempty (List.cons.inj heq).1
      rw [writeRecord_cons hne, run_append, run_rest fields field [] records
        (completes_writeField field _ _ (.inr ⟨rfl, hempty⟩))]
      rfl

lemma run_write {records : List (List (List Char))} (h : ∀ fields ∈ records, fields ≠ [])
    (acc : List (List (List Char))) :
    Reader.run ⟨.startRecord, [], [], acc⟩ (write records)
      = ⟨.startRecord, [], [], records.reverse ++ acc⟩ := by
  induction records generalizing acc with
  | nil => rfl
  | cons fields records ih =>
    obtain ⟨hfields, hrecords⟩ := List.forall_mem_cons.mp h
    rw [write, List.flatMap_cons, ← write, Reader.run_append, run_writeRecord hfields,
      ih hrecords, List.reverse_cons, List.append_assoc, List.singleton_append]

/-- What was written is read back. -/
theorem read_write {records : List (List (List Char))} (h : ∀ fields ∈ records, fields ≠ []) :
    read (write records) = records := by
  rw [read, Reader.start, run_write h, List.append_nil]
  exact List.reverse_reverse records

end Csv
