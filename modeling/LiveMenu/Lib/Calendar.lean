import Mathlib.Data.String.Basic
import Mathlib.Order.Monotone.Basic
import Mathlib.Tactic.Common

/-!
# Dates as texts

Numbers of a fixed width and days of the proleptic Gregorian calendar, both in an order that
lexicographic comparison of their texts keeps.
-/

/-! ### Lists of characters -/

namespace List

variable {α : Type} [LT α] {l l' m m' : List α}

/-- Between lists of one length, what comes after a difference does not matter. -/
lemma append_lt_append_of_lt (h : l < l') (hlen : l.length = l'.length) : l ++ m < l' ++ m' := by
  induction l generalizing l' with
  | nil =>
    cases l' with
    | nil => cases h
    | cons a l' => cases hlen
  | cons a l ih =>
    cases l' with
    | nil => cases hlen
    | cons a' l' =>
      rcases List.cons_lt_cons_iff.mp h with hlt | ⟨rfl, hlt⟩
      · exact List.cons_lt_cons_iff.mpr (.inl hlt)
      · exact List.cons_lt_cons_iff.mpr (.inr ⟨rfl, ih hlt (Nat.succ.inj hlen)⟩)

end List

namespace Calendar

/-! ### Numbers of a fixed width -/

/-- The last `k` decimal digits of a number. -/
def digits : ℕ → ℕ → List Char
  | 0, _     => []
  | k + 1, n => digits k (n / 10) ++ [Nat.digitChar (n % 10)]

@[simp] lemma length_digits (k n : ℕ) : (digits k n).length = k := by
  induction k generalizing n with
  | zero => rfl
  | succ k ih => rw [digits, List.length_append, ih, List.length_singleton]

lemma digitChar_lt {m n : ℕ} (h : m < n) (hn : n < 10) : Nat.digitChar m < Nat.digitChar n := by
  have hall : ∀ n < 10, ∀ m < n, Nat.digitChar m < Nat.digitChar n := by decide
  exact hall n hn m h

/-- Numbers of one width are compared as their texts are. -/
lemma digits_lt {k m n : ℕ} (h : m < n) (hn : n < 10 ^ k) : digits k m < digits k n := by
  induction k generalizing m n with
  | zero =>
    rw [Nat.pow_zero] at hn
    omega
  | succ k ih =>
    simp only [digits]
    rw [Nat.pow_succ] at hn
    rcases Nat.lt_or_ge (m / 10) (n / 10) with hlt | hge
    · exact List.append_lt_append_of_lt (ih hlt (by omega)) (by simp)
    · have heq : m / 10 = n / 10 := by omega
      rw [heq]
      refine List.append_left_lt (List.cons_lt_cons_iff.mpr (.inl ?_))
      exact digitChar_lt (by omega) (by omega)

/-! ### Years -/

/-- The days before the first of January of the year `y + 1`. -/
def daysBefore (y : ℕ) : ℕ := 365 * y + y / 4 - y / 100 + y / 400

/-- The year that `n` days after the first of January of the year 1 are in, counted from 0, and the
days of it that have passed. -/
def yearAndDay (n : ℕ) : ℕ × ℕ :=
  let n400 := n / 146097
  let n100 := n % 146097 / 36524
  let n4   := n % 146097 % 36524 / 1461
  let n1   := n % 146097 % 36524 % 1461 / 365
  let year := 400 * n400 + 100 * n100 + 4 * n4 + n1
  if n1 = 4 ∨ n100 = 4 then (year - 1, 365) else (year, n % 146097 % 36524 % 1461 % 365)

/-- A year has 365 days at least. -/
lemma daysBefore_succ (y : ℕ) : daysBefore y + 365 ≤ daysBefore (y + 1) := by
  have hcentury : y / 100 = y / 4 / 25 := by omega
  have hcentury' : (y + 1) / 100 = (y + 1) / 4 / 25 := by omega
  have hleap : y / 4 - y / 4 / 25 ≤ (y + 1) / 4 - (y + 1) / 4 / 25 := by
    have hnext : (y + 1) / 4 = y / 4 ∨ (y + 1) / 4 = y / 4 + 1 := by omega
    omega
  have hcycle : y / 400 ≤ (y + 1) / 400 := Nat.div_le_div_right (Nat.le_succ y)
  have hle : y / 4 / 25 ≤ y / 4 := Nat.div_le_self _ _
  have hle' : (y + 1) / 4 / 25 ≤ (y + 1) / 4 := Nat.div_le_self _ _
  rw [daysBefore, daysBefore, hcentury, hcentury', Nat.add_sub_assoc hle, Nat.add_sub_assoc hle']
  omega

lemma daysBefore_strictMono : StrictMono daysBefore :=
  strictMono_nat_of_lt_succ fun y =>
    (Nat.lt_add_of_pos_right (by omega)).trans_le (daysBefore_succ y)

/-- A cycle of 400 years has 146097 days, a century 36524 or one more, four years 1461 or one
less. -/
lemma daysBefore_cycles {a b c d : ℕ} (hb : b ≤ 3) (hc : c ≤ 24) (hd : d ≤ 3) :
    daysBefore (400 * a + 100 * b + 4 * c + d) = 146097 * a + 36524 * b + 1461 * c + 365 * d := by
  have h4 : (400 * a + 100 * b + 4 * c + d) / 4 = 100 * a + 25 * b + c := by omega
  have h100 : (400 * a + 100 * b + 4 * c + d) / 100 = 4 * a + b := by omega
  have h400 : (400 * a + 100 * b + 4 * c + d) / 400 = a := by omega
  rw [daysBefore, h4, h100, h400]
  omega

/-- The days that have passed are those of the full years and those of the year under way. -/
lemma daysBefore_year (n : ℕ) : daysBefore (yearAndDay n).1 + (yearAndDay n).2 = n ∧
    n < daysBefore ((yearAndDay n).1 + 1) := by
  obtain ⟨a, r₁, hn, hr₁⟩ : ∃ a r, n = 146097 * a + r ∧ r < 146097 :=
    ⟨n / 146097, n % 146097, by omega, by omega⟩
  obtain ⟨b, r₂, hr₂, hb⟩ : ∃ b r, r₁ = 36524 * b + r ∧ r < 36524 :=
    ⟨r₁ / 36524, r₁ % 36524, by omega, by omega⟩
  obtain ⟨c, r₃, hr₃, hc⟩ : ∃ c r, r₂ = 1461 * c + r ∧ r < 1461 :=
    ⟨r₂ / 1461, r₂ % 1461, by omega, by omega⟩
  obtain ⟨d, k, hk, hd⟩ : ∃ d k, r₃ = 365 * d + k ∧ k < 365 :=
    ⟨r₃ / 365, r₃ % 365, by omega, by omega⟩
  have h400 : n / 146097 = a ∧ n % 146097 = r₁ := by omega
  have h100 : r₁ / 36524 = b ∧ r₁ % 36524 = r₂ := by omega
  have h4 : r₂ / 1461 = c ∧ r₂ % 1461 = r₃ := by omega
  have h1 : r₃ / 365 = d ∧ r₃ % 365 = k := by omega
  simp only [yearAndDay, h400, h100, h4, h1]
  by_cases hb4 : b = 4
  · -- the last day of 400 years
    rw [if_pos (.inr hb4)]
    have hlast : 400 * a + 100 * b + 4 * c + d - 1 = 400 * a + 100 * 3 + 4 * 24 + 3 := by omega
    have hnext : 400 * a + 100 * 3 + 4 * 24 + 3 + 1
        = 400 * (a + 1) + 100 * 0 + 4 * 0 + 0 := by omega
    rw [hlast, hnext, daysBefore_cycles le_rfl le_rfl le_rfl,
      daysBefore_cycles (by omega) (by omega) (by omega)]
    omega
  · by_cases hd4 : d = 4
    · -- the last day of a leap year
      rw [if_pos (.inl hd4)]
      have hlast : 400 * a + 100 * b + 4 * c + d - 1 = 400 * a + 100 * b + 4 * c + 3 := by omega
      have hnext : 400 * a + 100 * b + 4 * c + 3 + 1
          = 400 * a + 100 * b + 4 * (c + 1) + 0 := by omega
      rw [hlast, hnext, daysBefore_cycles (by omega) (by omega) le_rfl,
        daysBefore_cycles (by omega) (by omega) (by omega)]
      omega
    · rw [if_neg (by omega)]
      have hthis := @daysBefore_cycles a b c d (by omega) (by omega) (by omega)
      have hyear := daysBefore_succ (400 * a + 100 * b + 4 * c + d)
      dsimp only
      omega

lemma yearAndDay_le (n : ℕ) : (yearAndDay n).2 ≤ 365 := by
  have hlt : n % 146097 % 36524 % 1461 % 365 < 365 := Nat.mod_lt _ (by omega)
  dsimp only [yearAndDay]
  split
  · exact le_rfl
  · exact hlt.le

/-- A later day is in a later year, or later in the same year. -/
lemma yearAndDay_lt {m n : ℕ} (h : m < n) : (yearAndDay m).1 < (yearAndDay n).1 ∨
    (yearAndDay m).1 = (yearAndDay n).1 ∧ (yearAndDay m).2 < (yearAndDay n).2 := by
  obtain ⟨hm, -⟩ := daysBefore_year m
  obtain ⟨hn, hnext⟩ := daysBefore_year n
  rcases lt_trichotomy (yearAndDay m).1 (yearAndDay n).1 with hlt | heq | hgt
  · exact .inl hlt
  · rw [heq] at hm
    exact .inr ⟨heq, by omega⟩
  · have hle := daysBefore_strictMono.monotone (Nat.succ_le_of_lt hgt)
    simp only [Nat.succ_eq_add_one] at hle
    omega

/-! ### Months -/

/-- The year `y + 1` has a 29th of February. -/
def isLeap (y : ℕ) : Bool := (y + 1) % 4 = 0 ∧ ((y + 1) % 100 ≠ 0 ∨ (y + 1) % 400 = 0)

/-- The days of the year before the first of the month. -/
def daysBeforeMonth (leap : Bool) (month : ℕ) : ℕ :=
  [0, 0, 31, 59, 90, 120, 151, 181, 212, 243, 273, 304, 334].getD month 0 +
    if 2 < month ∧ leap then 1 else 0

/-- The month and the day of the month, `n` days after the first of January. -/
def monthAndDay (leap : Bool) (n : ℕ) : ℕ × ℕ :=
  -- the estimate is exact or one too large
  let month := (n + 50) / 32
  if n < daysBeforeMonth leap month then (month - 1, n - daysBeforeMonth leap (month - 1) + 1)
  else (month, n - daysBeforeMonth leap month + 1)

lemma monthAndDay_le (leap : Bool) {n : ℕ} (hn : n ≤ 365) :
    (monthAndDay leap n).1 ≤ 12 ∧ (monthAndDay leap n).2 ≤ 32 := by
  have hall : ∀ leap, ∀ n < 366,
      (monthAndDay leap n).1 ≤ 12 ∧ (monthAndDay leap n).2 ≤ 32 := by decide +kernel
  exact hall leap n (by omega)

/-- A later day is in a later month, or later in the same month. -/
lemma monthAndDay_lt (leap : Bool) {m n : ℕ} (h : m < n) (hn : n ≤ 365) :
    (monthAndDay leap m).1 < (monthAndDay leap n).1 ∨
      (monthAndDay leap m).1 = (monthAndDay leap n).1 ∧
        (monthAndDay leap m).2 < (monthAndDay leap n).2 := by
  have hnext : ∀ leap, ∀ n < 365,
      33 * (monthAndDay leap n).1 + (monthAndDay leap n).2
        < 33 * (monthAndDay leap (n + 1)).1 + (monthAndDay leap (n + 1)).2 := by decide +kernel
  have hmono : 33 * (monthAndDay leap m).1 + (monthAndDay leap m).2
      < 33 * (monthAndDay leap n).1 + (monthAndDay leap n).2 := by
    induction n, Nat.succ_le_of_lt h using Nat.le_induction with
    | base => exact hnext leap m (by omega)
    | succ n hmn ih => exact (ih (by omega) (by omega)).trans (hnext leap n (by omega))
  have hm := monthAndDay_le leap (h.le.trans hn)
  have hn := monthAndDay_le leap hn
  omega

/-! ### Texts -/

lemma digits_append_lt {k m n : ℕ} {l l' : List Char} (hn : n < 10 ^ k)
    (h : m < n ∨ m = n ∧ l < l') : digits k m ++ l < digits k n ++ l' := by
  rcases h with hlt | ⟨rfl, hlt⟩
  · exact List.append_lt_append_of_lt (digits_lt hlt hn) (by simp)
  · exact List.append_left_lt hlt

lemma cons_lt_cons {c : Char} {l l' : List Char} (h : l < l') : c :: l < c :: l' :=
  List.cons_lt_cons_iff.mpr (.inr ⟨rfl, h⟩)

/-- `YYYY-MM-DD`, `n` days after the first of January of the year 1. -/
def dateText (n : ℕ) : List Char :=
  let year := (yearAndDay n).1
  let date := monthAndDay (isLeap year) (yearAndDay n).2
  digits 4 (year + 1) ++ '-' :: (digits 2 date.1 ++ '-' :: digits 2 date.2)

/-- `HH:MM:SS`, `s` seconds after midnight. -/
def timeText (s : ℕ) : List Char :=
  digits 2 (s / 3600) ++ ':' :: (digits 2 (s / 60 % 60) ++ ':' :: digits 2 (s % 60))

@[simp] lemma length_dateText (n : ℕ) : (dateText n).length = 10 := by simp [dateText]

@[simp] lemma length_timeText (s : ℕ) : (timeText s).length = 8 := by simp [timeText]

/-- Days up to the year 9999 are compared as their texts are. -/
lemma dateText_lt {m n : ℕ} (h : m < n) (hn : n < 3652059) : dateText m < dateText n := by
  obtain ⟨hday, hnext⟩ := daysBefore_year n
  have hyear : (yearAndDay n).1 < 9999 := by
    refine daysBefore_strictMono.lt_iff_lt.mp (lt_of_le_of_lt ?_ hn)
    omega
  have hwidth : (yearAndDay n).1 + 1 < 10 ^ 4 := by omega
  rcases yearAndDay_lt h with hlt | ⟨heq, hlt⟩
  · exact digits_append_lt hwidth (.inl (Nat.succ_lt_succ hlt))
  · refine digits_append_lt hwidth (.inr ⟨congrArg (· + 1) heq, cons_lt_cons ?_⟩)
    obtain ⟨hmonth, hday⟩ := monthAndDay_le (isLeap (yearAndDay n).1) (yearAndDay_le n)
    have hmonth' : (monthAndDay (isLeap (yearAndDay n).1) (yearAndDay n).2).1 < 10 ^ 2 := by omega
    have hday' : (monthAndDay (isLeap (yearAndDay n).1) (yearAndDay n).2).2 < 10 ^ 2 := by omega
    rw [heq]
    rcases monthAndDay_lt (isLeap (yearAndDay n).1) hlt (yearAndDay_le n) with hlt | ⟨heq, hlt⟩
    · exact digits_append_lt hmonth' (.inl hlt)
    · exact digits_append_lt hmonth' (.inr ⟨heq, cons_lt_cons (digits_lt hlt hday')⟩)

/-- Times of a day are compared as their texts are. -/
lemma timeText_lt {s s' : ℕ} (h : s < s') (hs' : s' < 86400) : timeText s < timeText s' := by
  have hhour : s' / 3600 < 10 ^ 2 := by omega
  have hminute : s' / 60 % 60 < 10 ^ 2 := by omega
  rcases Nat.lt_or_ge (s / 3600) (s' / 3600) with hlt | hge
  · exact digits_append_lt hhour (.inl hlt)
  · have heq : s / 3600 = s' / 3600 := by omega
    refine digits_append_lt hhour (.inr ⟨heq, cons_lt_cons ?_⟩)
    rcases Nat.lt_or_ge (s / 60 % 60) (s' / 60 % 60) with hlt | hge'
    · exact digits_append_lt hminute (.inl hlt)
    · have hsecond : s % 60 < s' % 60 := by omega
      have heq' : s / 60 % 60 = s' / 60 % 60 := by omega
      exact digits_append_lt hminute (.inr ⟨heq', cons_lt_cons (digits_lt hsecond (by omega))⟩)

end Calendar
