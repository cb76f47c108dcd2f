import LiveMenu.Lib.Calendar

/-!
# Dates read from their texts

Readers of numbers of a fixed width, of days of the calendar and of times of a day. They read back
what the writers of `Calendar` write.
-/

namespace Calendar

/-! ### Numbers -/

/-- The number that `k` decimal digits write. -/
def number (k : ℕ) (s : List Char) : Option ℕ :=
  if s.length = k ∧ s.all Char.isDigit then some (Nat.ofDigitChars 10 s 0) else none

@[simp] lemma drop_digits {j k : ℕ} (h : k ≤ j) (n : ℕ) : (digits k n).drop j = [] :=
  List.drop_eq_nil_of_le (by simpa using h)

lemma all_isDigit_digits (k n : ℕ) : (digits k n).all Char.isDigit = true := by
  induction k generalizing n with
  | zero => rfl
  | succ k ih =>
    have hdigit : ∀ n < 10, (Nat.digitChar n).isDigit = true := by decide
    rw [digits, List.all_append, ih, List.all_cons, hdigit _ (Nat.mod_lt _ (by omega))]
    rfl

lemma ofDigitChars_digits {k n : ℕ} (h : n < 10 ^ k) : Nat.ofDigitChars 10 (digits k n) 0 = n := by
  induction k generalizing n with
  | zero =>
    rw [Nat.pow_zero, Nat.lt_one_iff] at h
    rw [h]
    rfl
  | succ k ih =>
    have hdiv : n / 10 < 10 ^ k := by
      rw [Nat.pow_succ] at h
      omega
    rw [digits, Nat.ofDigitChars_append, ih hdiv,
      Nat.ofDigitChars_cons_digitChar_of_lt_ten (Nat.mod_lt _ (by omega)), Nat.ofDigitChars_nil]
    omega

lemma number_digits {k n : ℕ} (h : n < 10 ^ k) : number k (digits k n) = some n := by
  rw [number, if_pos ⟨length_digits k n, all_isDigit_digits k n⟩, ofDigitChars_digits h]

/-! ### Days -/

/-- The days of the month. -/
def daysInMonth (leap : Bool) (month : ℕ) : ℕ :=
  [0, 31, 28, 31, 30, 31, 30, 31, 31, 30, 31, 30, 31].getD month 0 +
    if month = 2 ∧ leap then 1 else 0

/-- A check that holds is passed. -/
lemma guard_bind_of {α : Type} {p : Prop} [Decidable p] (hp : p) (x : Option α) :
    (guard p >>= fun _ => x) = x := by
  change ((if p then pure () else failure : Option Unit) >>= fun _ => x) = x
  rw [if_pos hp]
  rfl

/-- The days from the first of January of the year 1 to a date. -/
def dayNumber (year month day : ℕ) : Option ℕ :=
  let leap := isLeap (year - 1)
  if (1 ≤ year ∧ year ≤ 9999) ∧ (1 ≤ month ∧ month ≤ 12) ∧ 1 ≤ day ∧
    day ≤ daysInMonth leap month then
    some (daysBefore (year - 1) + daysBeforeMonth leap month + (day - 1))
  else none

/-- `YYYY-MM-DD`. -/
def parseDate (s : List Char) : Option ℕ := do
  guard (s.length = 10 ∧ s[4]? = some '-' ∧ s[7]? = some '-')
  let year ← number 4 (s.take 4)
  let month ← number 2 ((s.drop 5).take 2)
  let day ← number 2 (s.drop 8)
  dayNumber year month day

/-- A leap year has one day more. -/
lemma daysBefore_succ_eq (y : ℕ) :
    daysBefore (y + 1) = daysBefore y + 365 + if isLeap y then 1 else 0 := by
  have hcentury : y / 100 ≤ y / 4 := Nat.div_le_div_left (by decide) (by decide)
  have hleap : isLeap y = true ↔ 4 ∣ y + 1 ∧ (¬ 100 ∣ y + 1 ∨ 400 ∣ y + 1) := by
    simp [isLeap, Nat.dvd_iff_mod_eq_zero]
  have h100 : 400 ∣ y + 1 → 100 ∣ y + 1 := Nat.dvd_trans (by decide)
  have h4 : 100 ∣ y + 1 → 4 ∣ y + 1 := Nat.dvd_trans (by decide)
  simp only [daysBefore, Nat.succ_div, hleap]
  generalize y / 4 = a at *
  generalize y / 100 = b at *
  generalize y / 400 = c at *
  by_cases hd : 4 ∣ y + 1
  · by_cases hd' : 100 ∣ y + 1
    · by_cases hd'' : 400 ∣ y + 1
      · simp only [hd, hd', hd'']
        simp
        omega
      · simp only [hd, hd', hd'']
        simp
        omega
    · have hd'' : ¬ 400 ∣ y + 1 := mt h100 hd'
      simp only [hd, hd', hd'']
      simp
      omega
  · have hd' : ¬ 100 ∣ y + 1 := mt h4 hd
    have hd'' : ¬ 400 ∣ y + 1 := mt h100 hd'
    simp only [hd, hd', hd'']
    simp
    omega

/-- A day of a year is a day of a month. -/
lemma monthAndDay_valid {leap : Bool} {n : ℕ} (h : n < 365 + if leap then 1 else 0) :
    (1 ≤ (monthAndDay leap n).1 ∧ (monthAndDay leap n).1 ≤ 12) ∧
      1 ≤ (monthAndDay leap n).2 ∧
      (monthAndDay leap n).2 ≤ daysInMonth leap (monthAndDay leap n).1 ∧
      daysBeforeMonth leap (monthAndDay leap n).1 + ((monthAndDay leap n).2 - 1) = n := by
  have hall : ∀ leap : Bool, ∀ n < 365 + if leap then 1 else 0,
    (1 ≤ (monthAndDay leap n).1 ∧ (monthAndDay leap n).1 ≤ 12) ∧
      1 ≤ (monthAndDay leap n).2 ∧
      (monthAndDay leap n).2 ≤ daysInMonth leap (monthAndDay leap n).1 ∧
      daysBeforeMonth leap (monthAndDay leap n).1 + ((monthAndDay leap n).2 - 1) = n := by
    decide +kernel
  exact hall leap n h

lemma yearAndDay_lt_year {n : ℕ} (h : n < 3652059) : (yearAndDay n).1 < 9999 := by
  obtain ⟨hday, -⟩ := daysBefore_year n
  apply daysBefore_strictMono.lt_iff_lt.mp
  exact (Nat.le_add_right _ _).trans_lt (hday.trans_lt h)

lemma yearAndDay_lt_days (n : ℕ) :
    (yearAndDay n).2 < 365 + if isLeap (yearAndDay n).1 then 1 else 0 := by
  obtain ⟨hday, hnext⟩ := daysBefore_year n
  rw [daysBefore_succ_eq] at hnext
  omega

lemma dayNumber_yearAndDay {n : ℕ} (h : n < 3652059) :
    dayNumber ((yearAndDay n).1 + 1) (monthAndDay (isLeap (yearAndDay n).1) (yearAndDay n).2).1
      (monthAndDay (isLeap (yearAndDay n).1) (yearAndDay n).2).2 = some n := by
  obtain ⟨hday, -⟩ := daysBefore_year n
  obtain ⟨hmonth, hfirst, hlast, hback⟩ := monthAndDay_valid (yearAndDay_lt_days n)
  have hyear : 1 ≤ (yearAndDay n).1 + 1 ∧ (yearAndDay n).1 + 1 ≤ 9999 :=
    ⟨Nat.le_add_left _ _, yearAndDay_lt_year h⟩
  simp only [dayNumber, Nat.add_sub_cancel]
  rw [if_pos ⟨hyear, hmonth, hfirst, hlast⟩, Nat.add_assoc, hback, hday]

/-- Up to the year 9999 a date is read back. -/
lemma parseDate_dateText {n : ℕ} (h : n < 3652059) : parseDate (dateText n) = some n := by
  have hyear : (yearAndDay n).1 + 1 < 10 ^ 4 := Nat.succ_lt_succ (yearAndDay_lt_year h)
  obtain ⟨hmonth, hday⟩ := monthAndDay_le (isLeap (yearAndDay n).1) (yearAndDay_le n)
  have hnumber := dayNumber_yearAndDay h
  generalize hdate : monthAndDay (isLeap (yearAndDay n).1) (yearAndDay n).2 = date at *
  have htext : dateText n
      = digits 4 ((yearAndDay n).1 + 1) ++ '-' :: (digits 2 date.1 ++ '-' :: digits 2 date.2) := by
    rw [← hdate]
    rfl
  have hmonth' : date.1 < 10 ^ 2 := by omega
  have hday' : date.2 < 10 ^ 2 := by omega
  rw [htext, parseDate, guard_bind_of (by simp)]
  simp [List.drop_append, number_digits hyear,
    number_digits hmonth', number_digits hday', hnumber]

/-! ### Times of a day -/

/-- `HH:MM:SS`. -/
def parseTime (s : List Char) : Option ℕ := do
  guard (s.length = 8 ∧ s[2]? = some ':' ∧ s[5]? = some ':')
  let hour ← number 2 (s.take 2)
  let minute ← number 2 ((s.drop 3).take 2)
  let second ← number 2 (s.drop 6)
  if hour < 24 ∧ minute < 60 ∧ second < 60 then some (hour * 3600 + minute * 60 + second) else none

lemma parseTime_timeText {s : ℕ} (h : s < 86400) : parseTime (timeText s) = some s := by
  have hhour : s / 3600 < 10 ^ 2 := by omega
  have hminute : s / 60 % 60 < 10 ^ 2 := by omega
  have hsecond : s % 60 < 10 ^ 2 := by omega
  have hvalid : s / 3600 < 24 ∧ s / 60 % 60 < 60 ∧ s % 60 < 60 := by omega
  have hback : s / 3600 * 3600 + s / 60 % 60 * 60 + s % 60 = s := by omega
  rw [timeText, parseTime, guard_bind_of (by simp)]
  simp [List.drop_append, number_digits hhour,
    number_digits hminute, number_digits hsecond, hvalid, hback]

end Calendar
