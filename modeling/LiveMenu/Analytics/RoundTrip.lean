import LiveMenu.Analytics.Export
import LiveMenu.Lib.IsoFormat
import LiveMenu.Model.CsvExport

/-!
# The export loses nothing

Every field of an export is read back, whatever text a visitor sent, and the text of a timestamp is
read back to the datetime it was written from.
-/

namespace LiveMenu

open Calendar

/-! ### Reading the ISO form -/

/-- Microseconds: none or six digits after a dot. -/
def parseFraction : List Char → Option ℕ
  | []        => some 0
  | '.' :: s  => number 6 s
  | _         => none

/-- `HH:MM:SS` and microseconds. -/
def parseClock (s : List Char) : Option ℕ := do
  let seconds ← parseTime (s.take 8)
  let us ← parseFraction (s.drop 8)
  return seconds * 1000000 + us

/-- The clock of an offset can lack its seconds. -/
def parseOffsetClock (s : List Char) : Option ℕ :=
  parseClock (if s.length = 5 then s ++ [':', '0', '0'] else s)

def parseOffset : List Char → Option (Option ℤ)
  | []         => some none
  | sign :: s  => do
    let us ← parseOffsetClock s
    return some (if sign = '-' then -us else us)

def isSign (c : Char) : Bool := c == '+' || c == '-'

/-- `datetime.fromisoformat`, on the texts that `isoformat` writes. -/
def fromIsoformat (s : String) : Option PyDateTime := do
  let text := s.toList
  let days ← parseDate (text.take 10)
  guard (text[10]? = some 'T')
  let us ← parseClock ((text.drop 11).takeWhile fun c => !isSign c)
  let offset ← parseOffset ((text.drop 11).dropWhile fun c => !isSign c)
  return ⟨days * 86400000000 + us, offset⟩

/-! ### What was written is read back -/

lemma parseFraction_fractionText {us : ℕ} (h : us < 1000000) :
    parseFraction (fractionText us) = some us := by
  rw [fractionText]
  split_ifs with hzero
  · rw [hzero]
    rfl
  · exact number_digits h

lemma parseClock_clockText {us : ℕ} (h : us < 86400000000) :
    parseClock (clockText us) = some us := by
  have hseconds : us / 1000000 < 86400 := by omega
  have hus : us % 1000000 < 1000000 := Nat.mod_lt _ (by decide)
  have htake : (clockText us).take 8 = timeText (us / 1000000) := by simp [clockText]
  have hdrop : (clockText us).drop 8 = fractionText (us % 1000000) := by simp [clockText]
  rw [parseClock, htake, hdrop, parseTime_timeText hseconds, parseFraction_fractionText hus]
  simp [Nat.div_add_mod']

/-- A full minute has no seconds to write. -/
lemma timeText_minute {us : ℕ} (h : us % 60000000 = 0) :
    (timeText (us / 1000000)).take 5 ++ [':', '0', '0'] = clockText us := by
  have hsecond : us / 1000000 % 60 = 0 := by omega
  have hus : us % 1000000 = 0 := by omega
  have hzero : digits 2 0 = ['0', '0'] := by decide
  rw [clockText, hus, timeText, hsecond, hzero]
  simp [fractionText, List.take_append]

lemma not_isSign_digits (k n : ℕ) : ∀ c ∈ digits k n, (!isSign c) = true := by
  intro c hc
  have hdigit := List.all_eq_true.mp (all_isDigit_digits k n) c hc
  rw [Bool.not_eq_true', ← Bool.not_eq_true]
  intro hsign
  simp only [isSign, Bool.or_eq_true, beq_iff_eq] at hsign
  rcases hsign with rfl | rfl
  · exact absurd hdigit (by decide)
  · exact absurd hdigit (by decide)

/-- A sign can only come after the clock. -/
lemma not_isSign_clockText (us : ℕ) : ∀ c ∈ clockText us, (!isSign c) = true := by
  have hcolon : (!isSign ':') = true := by decide
  have hdot : (!isSign '.') = true := by decide
  intro c hc
  simp only [clockText, timeText, fractionText, List.mem_append, List.mem_cons] at hc
  rcases hc with (hc | rfl | hc | rfl | hc) | hc
  · exact not_isSign_digits _ _ c hc
  · exact hcolon
  · exact not_isSign_digits _ _ c hc
  · exact hcolon
  · exact not_isSign_digits _ _ c hc
  · split_ifs at hc
    · cases hc
    · rcases List.mem_cons.mp hc with rfl | hc
      · exact hdot
      · exact not_isSign_digits _ _ c hc

lemma parseOffsetClock_offsetClock {us : ℕ} (h : us < 86400000000) :
    parseOffsetClock (offsetClock us) = some us := by
  rw [offsetClock]
  split_ifs with hminute
  · have hlength : ((timeText (us / 1000000)).take 5).length = 5 := by simp
    rw [parseOffsetClock, if_pos hlength, timeText_minute hminute, parseClock_clockText h]
  · have hlength : (clockText us).length ≠ 5 := by
      rw [clockText, List.length_append, length_timeText]
      omega
    rw [parseOffsetClock, if_neg hlength, parseClock_clockText h]

lemma parseOffset_offsetText {offset : Option ℤ} (h : ∀ n ∈ offset, n.natAbs < 86400000000) :
    parseOffset (offsetText offset) = some offset := by
  cases offset with
  | none => rfl
  | some n =>
    rw [offsetText, parseOffset, parseOffsetClock_offsetClock (h n rfl)]
    split_ifs with hneg hminus hminus
    · have hback : -(n.natAbs : ℤ) = n := by omega
      exact congrArg (fun z => some (some z)) hback
    · exact absurd rfl hminus
    · exact absurd hminus (by decide)
    · have hback : (n.natAbs : ℤ) = n := by omega
      exact congrArg (fun z => some (some z)) hback

/-- An offset begins with its sign. -/
lemma span_offsetText (offset : Option ℤ) :
    (offsetText offset).takeWhile (fun c => !isSign c) = [] ∧
      (offsetText offset).dropWhile (fun c => !isSign c) = offsetText offset := by
  cases offset with
  | none => exact ⟨rfl, rfl⟩
  | some n =>
    have hsign : (!isSign (if n < 0 then '-' else '+')) = false := by
      split_ifs
      · rfl
      · rfl
    rw [offsetText, List.takeWhile_cons, List.dropWhile_cons, hsign]
    exact ⟨rfl, rfl⟩

/-- A datetime is read back from its ISO form. -/
lemma fromIsoformat_isoformat {dt : PyDateTime} (h : dt.Valid) :
    fromIsoformat dt.isoformat = some dt := by
  have hdays : dt.wall.toNat / 86400000000 < 3652059 := by
    have hlimit : PyDateTime.limit = 3652059 * 86400000000 := by decide
    have hlt := h.lt_limit
    rw [hlimit] at hlt
    omega
  have hclock : dt.wall.toNat % 86400000000 < 86400000000 := Nat.mod_lt _ (by decide)
  have hback : ((dt.wall.toNat / 86400000000 : ℕ) : ℤ) * 86400000000
      + (dt.wall.toNat % 86400000000 : ℕ) = dt.wall := by
    have hnonneg := h.nonneg
    omega
  have htext : dt.isoformat.toList = dateText (dt.wall.toNat / 86400000000)
      ++ 'T' :: (clockText (dt.wall.toNat % 86400000000) ++ offsetText dt.offset) := by
    rw [PyDateTime.isoformat, PyDateTime.isoText, String.toList_ofList]
  generalize dt.wall.toNat / 86400000000 = days at *
  generalize dt.wall.toNat % 86400000000 = clock at *
  obtain ⟨htake, hdrop⟩ := span_offsetText dt.offset
  have hdate : parseDate (dt.isoformat.toList.take 10) = some days := by
    rw [htext]
    simp [parseDate_dateText hdays]
  have hsep : dt.isoformat.toList[10]? = some 'T' := by
    rw [htext]
    simp
  have hrest : dt.isoformat.toList.drop 11 = clockText clock ++ offsetText dt.offset := by
    rw [htext]
    simp [List.drop_append]
  have htime : parseClock ((dt.isoformat.toList.drop 11).takeWhile fun c => !isSign c)
      = some clock := by
    rw [hrest, List.takeWhile_append_of_pos (not_isSign_clockText clock), htake, List.append_nil,
      parseClock_clockText hclock]
  have hoffset : parseOffset ((dt.isoformat.toList.drop 11).dropWhile fun c => !isSign c)
      = some dt.offset := by
    rw [hrest, List.dropWhile_append_of_pos (not_isSign_clockText clock), hdrop,
      parseOffset_offsetText h.offset]
  rw [fromIsoformat]
  refine Option.bind_eq_some_iff.mpr ⟨days, hdate, ?_⟩
  rw [guard_bind_of hsep]
  refine Option.bind_eq_some_iff.mpr ⟨clock, htime, ?_⟩
  refine Option.bind_eq_some_iff.mpr ⟨dt.offset, hoffset, ?_⟩
  exact congrArg (fun z => some (PyDateTime.mk z dt.offset)) hback

/-! ### The export -/

namespace CsvExport

/-- A reader of the dialect finds the header and a row for each scan event, in order, with the
fields as they were, and the timestamp of each is read back from its field. -/
theorem export_lossless (events : List ScanRecord) :
    readCsv (exportToCsv (scanEventsToCsvData (events.map ScanRecord.toScanFields))
        ["timestamp", "user_agent", "ip_hash", "referrer"])
      = ["timestamp", "user_agent", "ip_hash", "referrer"] ::
        events.map (fun e => [e.timestamp.isoformat, e.userAgent, e.ipHash, e.referrer.getD ""]) ∧
    ∀ e ∈ events, fromIsoformat e.timestamp.isoformat = some e.timestamp := by
  constructor
  · have h := readCsv_scanEvents (events.map ScanRecord.toScanFields)
    rwa [List.map_map] at h
  · intro e _
    exact fromIsoformat_isoformat e.valid

end CsvExport

end LiveMenu
