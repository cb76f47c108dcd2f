import LiveMenu.Lib.Calendar
import LiveMenu.Model.Platform

/-!
# Datetimes as texts

`datetime.isoformat`. The texts of stored instants are in the order of the instants.
-/

namespace LiveMenu

open Calendar

/-- The microseconds of a second, left out when there are none. -/
def fractionText (us : ℕ) : List Char := if us = 0 then [] else '.' :: digits 6 us

/-- Hours, minutes and seconds, and microseconds if there are any. -/
def clockText (us : ℕ) : List Char := timeText (us / 1000000) ++ fractionText (us % 1000000)

/-- The seconds of an offset are left out if there are none. -/
def offsetClock (us : ℕ) : List Char :=
  if us % 60000000 = 0 then (timeText (us / 1000000)).take 5 else clockText us

/-- A UTC offset. -/
def offsetText : Option ℤ → List Char
  | none        => []
  | some offset => (if offset < 0 then '-' else '+') :: offsetClock offset.natAbs

namespace PyDateTime

/-- A wall clock of the years 1 to 9999 and an offset of less than a day. -/
structure Valid (dt : PyDateTime) : Prop where
  nonneg : 0 ≤ dt.wall
  lt_limit : dt.wall < limit
  offset : ∀ offset ∈ dt.offset, offset.natAbs < 86400000000

/-- The text of a wall clock in microseconds and an offset. -/
def isoText (wall : ℕ) (offset : Option ℤ) : List Char :=
  dateText (wall / 86400000000) ++ 'T' :: (clockText (wall % 86400000000) ++ offsetText offset)

/-- `dt.isoformat()`. -/
def isoformat (dt : PyDateTime) : String := String.ofList (isoText dt.wall.toNat dt.offset)

/-- The `datetime` that the driver returns for a stored instant. -/
def utc (t : Time) : PyDateTime := ⟨t + epoch, some 0⟩

example : (utc 0).isoformat = "1970-01-01T00:00:00+00:00" := by decide +kernel
example : (utc 1709251199999999).isoformat = "2024-02-29T23:59:59.999999+00:00" := by
  decide +kernel

end PyDateTime

/-- The instants that a `datetime` in UTC can show. -/
def Representable (t : Time) : Prop :=
  0 ≤ t + PyDateTime.epoch ∧ t + PyDateTime.epoch < PyDateTime.limit

instance (t : Time) : Decidable (Representable t) := inferInstanceAs (Decidable (_ ∧ _))

/-! ### The order of the texts -/

/-- A second without microseconds comes first: a plus sign is before a dot. -/
lemma fractionText_lt {us us' : ℕ} (h : us < us') (hus' : us' < 1000000) :
    fractionText us ++ offsetText (some 0) < fractionText us' ++ offsetText (some 0) := by
  have hplus : offsetText (some 0) = '+' :: offsetClock 0 := rfl
  rw [fractionText, fractionText, if_neg (by omega : us' ≠ 0)]
  by_cases hzero : us = 0
  · rw [if_pos hzero, hplus]
    exact List.cons_lt_cons_iff.mpr (.inl (by decide))
  · rw [if_neg hzero]
    exact cons_lt_cons (digits_append_lt hus' (.inl h))

namespace PyDateTime

/-- In UTC wall clocks up to the year 9999 are compared as their texts are. -/
lemma isoText_lt {m n : ℕ} (h : m < n) (hn : n < 3652059 * 86400000000) :
    isoText m (some 0) < isoText n (some 0) := by
  have hday : n / 86400000000 < 3652059 := by omega
  rcases Nat.lt_or_ge (m / 86400000000) (n / 86400000000) with hlt | hge
  · exact List.append_lt_append_of_lt (dateText_lt hlt hday) (by simp)
  · have hsame : m / 86400000000 = n / 86400000000 := by omega
    have hclock : m % 86400000000 < n % 86400000000 := by omega
    have hn : n % 86400000000 < 86400000000 := Nat.mod_lt _ (by omega)
    rw [isoText, isoText, hsame, clockText, clockText, List.append_assoc, List.append_assoc]
    generalize m % 86400000000 = m at hclock
    generalize n % 86400000000 = n at hclock hn
    refine List.append_left_lt (cons_lt_cons ?_)
    rcases Nat.lt_or_ge (m / 1000000) (n / 1000000) with hlt | hge
    · exact List.append_lt_append_of_lt (timeText_lt hlt (by omega)) (by simp)
    · have hsame' : m / 1000000 = n / 1000000 := by omega
      have hus : m % 1000000 < n % 1000000 := by omega
      rw [hsame']
      exact List.append_left_lt (fractionText_lt hus (Nat.mod_lt _ (by omega)))

/-- A later instant has a larger text. -/
lemma isoformat_lt {t t' : Time} (h : t < t') (ht : Representable t) (ht' : Representable t') :
    (utc t).isoformat < (utc t').isoformat := by
  obtain ⟨hnonneg, -⟩ := ht
  obtain ⟨-, hlimit⟩ := ht'
  have hlt : t + epoch < t' + epoch := Int.add_lt_add_right h _
  rw [String.lt_iff_toList_lt, isoformat, isoformat, String.toList_ofList, String.toList_ofList]
  apply isoText_lt
  · exact (Int.toNat_lt_toNat (hnonneg.trans_lt hlt)).mpr hlt
  · have hmax : limit = (3652059 * 86400000000 : ℕ) := by decide
    rw [hmax] at hlimit
    exact (Int.toNat_lt (hnonneg.trans hlt.le)).mpr hlimit

end PyDateTime

/-- What the server does with instants. -/
structure Platform.Dates (P : Platform) : Prop where
  dateTrunc : ∀ granularity ∈ ["day", "week", "month"], ∀ t, Representable t →
    Representable (P.dateTrunc granularity t)

end LiveMenu
