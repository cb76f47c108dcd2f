import LiveMenu.Model.Requests
import LiveMenu.Sequential.Effects

/-!
# Ranges of dates

A query from one midnight to another includes 24 hours of the last day, so the ranges of adjacent
dates share no event and leave none out, as long as each bound is a `datetime`, because the end of
the last day is computed from the midnight after it, and as long as the zone keeps its offset over
that day, because the end is computed with the offset of its start.
-/

namespace LiveMenu

/-! ### Adjacent ranges -/

/-- The rows with a key up to `m - 1` and those from `m` on are the rows of the whole range. -/
lemma filter_range_append_perm {ρ : Type} (key : ρ → ℤ) (p : ρ → Bool) (rows : List ρ)
    {lo m hi : ℤ} (hlo : lo ≤ m) (hhi : m ≤ hi + 1) :
    ((rows.filter fun r => p r && decide (lo ≤ key r) && decide (key r ≤ m - 1)) ++
        rows.filter fun r => p r && decide (m ≤ key r) && decide (key r ≤ hi)).Perm
      (rows.filter fun r => p r && decide (lo ≤ key r) && decide (key r ≤ hi)) := by
  have hsplit := List.filter_append_perm (fun r => decide (key r < m))
    (rows.filter fun r => p r && decide (lo ≤ key r) && decide (key r ≤ hi))
  rw [List.filter_filter, List.filter_filter] at hsplit
  refine .trans (.of_eq ?_) hsplit
  congr 1
  · apply List.filter_congr
    intro r _
    rw [Bool.eq_iff_iff]
    simp only [Bool.and_eq_true, decide_eq_true_eq]
    grind
  · apply List.filter_congr
    intro r _
    rw [Bool.eq_iff_iff]
    simp only [Bool.and_eq_true, Bool.not_eq_true', decide_eq_true_eq, decide_eq_false_iff_not]
    grind

/-- As many rows are before the one bound as before the other if and only if no row is between
them. -/
lemma length_filter_lt_eq_iff {ρ : Type} (key : ρ → ℤ) (p : ρ → Bool) (rows : List ρ) {m n : ℤ} :
    (rows.filter fun r => p r && decide (key r ≤ m - 1)).length
        = (rows.filter fun r => p r && decide (key r ≤ n - 1)).length ↔
      ∀ r ∈ rows, p r = true → (key r < m ↔ key r < n) := by
  -- the rows before the smaller bound are among those before the other
  have hle : ∀ {m n : ℤ}, m ≤ n →
      (rows.filter fun r => p r && decide (key r ≤ m - 1)).Sublist
        (rows.filter fun r => p r && decide (key r ≤ n - 1)) := by
    intro m n hm
    apply List.monotone_filter_right
    intro r hr
    simp only [Bool.and_eq_true, decide_eq_true_eq] at hr ⊢
    exact ⟨hr.1, by omega⟩
  constructor
  · intro hlen r hr hp
    have heq : (rows.filter fun r => p r && decide (key r ≤ m - 1))
        = rows.filter fun r => p r && decide (key r ≤ n - 1) := by
      rcases le_total m n with hm | hm
      · exact (hle hm).eq_of_length hlen
      · exact ((hle hm).eq_of_length hlen.symm).symm
    have hmem := congrArg (r ∈ ·) heq
    simp only [List.mem_filter, hr, hp, Bool.true_and, true_and, decide_eq_true_eq, eq_iff_iff]
      at hmem
    omega
  · intro h
    congr 1
    apply List.filter_congr
    intro r hr
    cases hp : p r with
    | false => rfl
    | true =>
      rw [Bool.true_and, Bool.true_and, decide_eq_decide]
      have := h r hr hp
      omega

/-! ### The bounds of a range of dates -/

namespace PyDateTime

/-- The wall clock at the start of a day, counted from 0001-01-01. -/
def wallOf (day : ℤ) : ℤ := Time.days day

lemma wallOf_eq (day : ℤ) : wallOf day = day * 86400000000 := by
  show day * 86400 * 1000000 = day * 86400000000
  omega

lemma limit_eq : limit = 315537897600000000 := wallOf_eq 3652059

/-- A time zone: the offset it has at each midnight, and no midnight is before that of an earlier
day. -/
structure TimeZone where
  offset : ℤ → ℤ
  ordered : ∀ a b, a ≤ b → wallOf a - offset a ≤ wallOf b - offset b

/-- A zone that keeps its offset. -/
def TimeZone.fixed (offset : ℤ) : TimeZone where
  offset _ := offset
  ordered a b hab := by
    have ha := wallOf_eq a
    have hb := wallOf_eq b
    omega

/-- The offset at a midnight of the zone; without a zone it is that of UTC. -/
def offsetAt (zone : Option TimeZone) (day : ℤ) : ℤ := (zone.map (·.offset day)).getD 0

lemma offsetAt_ordered (zone : Option TimeZone) {a b : ℤ} (hab : a ≤ b) :
    wallOf a - offsetAt zone a ≤ wallOf b - offsetAt zone b := by
  cases zone with
  | none => exact (TimeZone.fixed 0).ordered a b hab
  | some z => exact z.ordered a b hab

/-- The midnight at the start of a day. -/
def midnight (zone : Option TimeZone) (day : ℤ) : PyDateTime :=
  ⟨wallOf day, zone.map (·.offset day)⟩

/-- The instant of that midnight. -/
def dayStart (zone : Option TimeZone) (day : ℤ) : ℤ := wallOf day - offsetAt zone day - epoch

/-- The instant 24 hours later, before which a range up to that day ends. -/
def dayEnd (zone : Option TimeZone) (day : ℤ) : ℤ := wallOf (day + 1) - offsetAt zone day - epoch

lemma dayStart_le_dayEnd (zone : Option TimeZone) {a b : ℤ} (hab : a ≤ b) :
    dayStart zone a ≤ dayEnd zone b := by
  have hb := wallOf_eq b
  have hnext := wallOf_eq (b + 1)
  have hle := offsetAt_ordered zone hab
  rw [dayStart, dayEnd]
  omega

/-- The midnights `a` and `b` can be sent as bounds: the midnight after `b` is a `datetime`, and
so are both bounds in UTC. -/
structure Sendable (zone : Option TimeZone) (a b : ℤ) : Prop where
  next : wallOf (b + 1) < limit
  start : 0 ≤ wallOf a - offsetAt zone a
  stop : wallOf (b + 1) - 1 - offsetAt zone b < limit
  naive : ¬ (zone = none ∧ b = 0)

lemma endOfDay_midnight (zone : Option TimeZone) {day : ℤ} (hday : 0 ≤ day) :
    endOfDay (midnight zone day) = if wallOf (day + 1) < limit then
      .ok ⟨wallOf (day + 1) - 1, zone.map (·.offset day)⟩ else .error .overflow := by
  have hstart := wallOf_eq day
  have hnext := wallOf_eq (day + 1)
  have hmid : (midnight zone day).wall % wallOf 1 = 0 := by
    rw [midnight, wallOf_eq 1]
    dsimp only
    omega
  have hsum : (midnight zone day).wall + wallOf 1 = wallOf (day + 1) := by
    rw [midnight, wallOf_eq 1]
    dsimp only
    omega
  show (if (midnight zone day).wall % wallOf 1 = 0 then do
      let next ← (midnight zone day).shift ((midnight zone day).wall + wallOf 1)
      next.shift (next.wall - 1) else _) = _
  rw [if_pos hmid, hsum, shift]
  by_cases h : wallOf (day + 1) < limit
  · rw [if_pos h, if_pos ⟨by omega, h⟩]
    show (if 0 ≤ wallOf (day + 1) - 1 ∧ wallOf (day + 1) - 1 < limit then _ else _) = _
    rw [if_pos ⟨by omega, by omega⟩]
    rfl
  · rw [if_neg h, if_neg fun h' => h h'.2]
    rfl

lemma instant_eq (wall : ℤ) (offset : Option ℤ) :
    instant ⟨wall, offset⟩ = if (offset = none → wall ≤ 0 ∨ wallOf 1 ≤ wall) ∧
        0 ≤ wall - offset.getD 0 ∧ wall - offset.getD 0 < limit then
      .ok (wall - offset.getD 0 - epoch) else .error .overflow := by
  show (if offset = none ∧ 0 < wall ∧ wall < wallOf 1 then _ else _) = _
  by_cases hnaive : offset = none ∧ 0 < wall ∧ wall < wallOf 1
  · rw [if_pos hnaive, if_neg fun h => by have := h.1 hnaive.1; omega]
  · have hfirst : offset = none → wall ≤ 0 ∨ wallOf 1 ≤ wall := by
      intro h
      by_contra hne
      exact hnaive ⟨h, by omega, by omega⟩
    rw [if_neg hnaive, shift]
    dsimp only
    by_cases h : 0 ≤ wall - offset.getD 0 ∧ wall - offset.getD 0 < limit
    · rw [if_pos h, if_pos ⟨hfirst, h⟩]
      rfl
    · rw [if_neg h, if_neg fun h' => h h'.2]
      rfl

lemma dateBounds_some (fromDate toDate : PyDateTime) :
    dateBounds (some fromDate) (some toDate) = (do
      let lo ← fromDate.instant
      let last ← endOfDay toDate
      let hi ← last.instant
      return (some lo, some hi)) := by
  rw [dateBounds]
  dsimp only
  cases fromDate.instant with
  | error e => rfl
  | ok lo =>
    cases endOfDay toDate with
    | error e => rfl
    | ok last =>
      show (do
        let hi ← last.instant.map some
        return (some lo, hi)) = do
          let hi ← last.instant
          return (some lo, some hi)
      cases last.instant <;> rfl

/-- The bounds of a range of dates: from the start of the first day to the last microsecond of
the last one. -/
lemma dateBounds_midnights (zone : Option TimeZone) {a b : ℤ} (ha : 0 ≤ a) (hab : a ≤ b) :
    (Sendable zone a b ∧ dateBounds (some (midnight zone a)) (some (midnight zone b))
        = .ok (some (dayStart zone a), some (dayEnd zone b - 1))) ∨
      ¬ Sendable zone a b ∧
        dateBounds (some (midnight zone a)) (some (midnight zone b)) = .error .overflow := by
  have hwa := wallOf_eq a
  have hwb := wallOf_eq b
  have hwnext := wallOf_eq (b + 1)
  have hone := wallOf_eq 1
  have hlimit := limit_eq
  have horder := offsetAt_ordered zone hab
  have hlo := instant_eq (wallOf a) (zone.map (·.offset a))
  have hhi := instant_eq (wallOf (b + 1) - 1) (zone.map (·.offset b))
  rw [show (zone.map (·.offset a)).getD 0 = offsetAt zone a from rfl] at hlo
  rw [show (zone.map (·.offset b)).getD 0 = offsetAt zone b from rfl] at hhi
  simp only [Option.map_eq_none_iff] at hlo hhi
  have hend := endOfDay_midnight zone (ha.trans hab)
  have hfirst : zone = none → wallOf a ≤ 0 ∨ wallOf 1 ≤ wallOf a := fun _ => by omega
  rw [dateBounds_some, show (midnight zone a).instant = _ from hlo, hend]
  by_cases hs : Sendable zone a b
  · left
    obtain ⟨hnext, hstart, hstop, hnaive⟩ := hs
    have hlast : zone = none → wallOf (b + 1) - 1 ≤ 0 ∨ wallOf 1 ≤ wallOf (b + 1) - 1 := by
      intro hzone
      have : b ≠ 0 := fun hb => hnaive ⟨hzone, hb⟩
      omega
    refine ⟨⟨hnext, hstart, hstop, hnaive⟩, ?_⟩
    rw [if_pos hnext, if_pos ⟨hfirst, hstart, by omega⟩]
    show (do
      let hi ← instant ⟨wallOf (b + 1) - 1, zone.map fun z : TimeZone => z.offset b⟩
      return (some (dayStart zone a), some hi)) = _
    have hinstant : wallOf (b + 1) - 1 - offsetAt zone b - epoch = dayEnd zone b - 1 := by
      rw [dayEnd]
      omega
    rw [hhi, if_pos ⟨hlast, by omega, hstop⟩, hinstant]
    rfl
  · right
    refine ⟨hs, ?_⟩
    split_ifs with hlow hnext
    · show (do
        let hi ← instant ⟨wallOf (b + 1) - 1, zone.map fun z : TimeZone => z.offset b⟩
        return (some (wallOf a - offsetAt zone a - epoch), some hi)) = _
      rw [hhi, if_neg]
      · rfl
      · intro hhigh
        refine hs ⟨hnext, hlow.2.1, hhigh.2.2, fun hb => ?_⟩
        have := hhigh.1 hb.1
        omega
    · rfl
    · rfl
    · rfl

/-- Two adjacent ranges and the whole one can all be sent. -/
lemma sendable_iff (zone : Option TimeZone) {a b c : ℤ} (hab : a ≤ b) (hbc : b < c) :
    (Sendable zone a b ∧ Sendable zone (b + 1) c ∧ Sendable zone a c) ↔ Sendable zone a c ∧
      ¬ (zone = none ∧ b = 0) := by
  have hwb := wallOf_eq b
  have hwb' := wallOf_eq (b + 1)
  have hwc := wallOf_eq c
  have hwc' := wallOf_eq (c + 1)
  have hfirst := offsetAt_ordered zone (show a ≤ b + 1 by omega)
  have hlast := offsetAt_ordered zone hbc.le
  constructor
  · rintro ⟨hab, -, hac⟩
    exact ⟨hac, hab.naive⟩
  · rintro ⟨⟨hnext, hstart, hstop, hlater⟩, hnaive⟩
    exact ⟨⟨by omega, hstart, by omega, hnaive⟩, ⟨hnext, by omega, hstop, hlater⟩,
      ⟨hnext, hstart, hstop, hlater⟩⟩

end PyDateTime

/-! ### The queries -/

namespace AnalyticsRepository

open PyDateTime AnalyticsService

/-- The scan events of the days from `a` to `b`. -/
def scansOfDays (w : World) (restaurantId : Uuid) (zone : Option TimeZone) (a b : ℤ) :
    List ScanEvent :=
  w.db.scanEvents.filter
    (selectsScan restaurantId (some (dayStart zone a), some (dayEnd zone b - 1)))

lemma exec_query_midnights {α : Type} (w : World) (restaurantId : Uuid) (zone : Option TimeZone)
    {a b : ℤ} (ha : 0 ≤ a) (hab : a ≤ b) (q : List ScanEvent → α) :
    (Sendable zone a b ∧
      (query restaurantId (midnight zone a) (midnight zone b) q).exec w
        = (.ok (q (scansOfDays w restaurantId zone a b)), w)) ∨
      ¬ Sendable zone a b ∧
        (query restaurantId (midnight zone a) (midnight zone b) q).exec w
          = (.error .overflow, w) := by
  rw [exec_query]
  rcases dateBounds_midnights zone ha hab with ⟨hs, h⟩ | ⟨hs, h⟩
  · rw [h]
    exact .inl ⟨hs, rfl⟩
  · rw [h]
    exact .inr ⟨hs, rfl⟩

lemma sendable_of_exec_query {α : Type} {w : World} {restaurantId : Uuid} {zone : Option TimeZone}
    {a b : ℤ} (ha : 0 ≤ a) (hab : a ≤ b) {q : List ScanEvent → α} {x : α}
    (h : (query restaurantId (midnight zone a) (midnight zone b) q).exec w = (.ok x, w)) :
    Sendable zone a b := by
  rcases exec_query_midnights w restaurantId zone ha hab q with ⟨hs, -⟩ | ⟨-, herror⟩
  · exact hs
  · rw [herror] at h
    cases h

lemma exec_query_of_sendable {α : Type} (w : World) (restaurantId : Uuid) {zone : Option TimeZone}
    {a b : ℤ} (ha : 0 ≤ a) (hab : a ≤ b) (hs : Sendable zone a b) (q : List ScanEvent → α) :
    (query restaurantId (midnight zone a) (midnight zone b) q).exec w
      = (.ok (q (scansOfDays w restaurantId zone a b)), w) := by
  rcases exec_query_midnights w restaurantId zone ha hab q with ⟨-, h⟩ | ⟨hne, -⟩
  · exact h
  · exact absurd hs hne

/-- The events of the days up to `b` are told apart from those of the days after `b` where no
event of the restaurant is between the end of `b` and the start of the next day. -/
def SplitsAfter (w : World) (restaurantId : Uuid) (zone : Option TimeZone) (b : ℤ) : Prop :=
  ∀ e ∈ w.db.scanEvents, e.restaurantId = restaurantId →
    (e.timestamp < dayEnd zone b ↔ e.timestamp < dayStart zone (b + 1))

instance (w : World) (restaurantId : Uuid) (zone : Option TimeZone) (b : ℤ) :
    Decidable (SplitsAfter w restaurantId zone b) := List.decidableBAll _ _

/-- A zone with the same offset at both midnights splits all events. -/
lemma splitsAfter_of_offset_eq (w : World) (restaurantId : Uuid) {zone : Option TimeZone} {b : ℤ}
    (h : offsetAt zone b = offsetAt zone (b + 1)) : SplitsAfter w restaurantId zone b :=
  fun _ _ _ => by rw [dayEnd, dayStart, h]

/-- The scan events up to the start of the day after `b`. -/
def scansBefore (w : World) (restaurantId : Uuid) (zone : Option TimeZone) (a b : ℤ) :
    List ScanEvent :=
  w.db.scanEvents.filter
    (selectsScan restaurantId (some (dayStart zone a), some (dayStart zone (b + 1) - 1)))

lemma scansBefore_append_perm (w : World) (restaurantId : Uuid) (zone : Option TimeZone)
    {a b c : ℤ} (hab : a ≤ b) (hbc : b < c) :
    (scansBefore w restaurantId zone a b ++ scansOfDays w restaurantId zone (b + 1) c).Perm
      (scansOfDays w restaurantId zone a c) := by
  have hlo : dayStart zone a ≤ dayStart zone (b + 1) :=
    Int.sub_le_sub_right (offsetAt_ordered zone (by omega)) _
  have hhi : dayStart zone (b + 1) ≤ dayEnd zone c - 1 + 1 := by
    have := dayStart_le_dayEnd zone (show b + 1 ≤ c from hbc)
    omega
  exact filter_range_append_perm ScanEvent.timestamp
    (fun e : ScanEvent => decide (e.restaurantId = restaurantId)) _ hlo hhi

lemma length_scansOfDays_eq_iff (w : World) (restaurantId : Uuid) (zone : Option TimeZone)
    {a b : ℤ} (hab : a ≤ b) :
    (scansOfDays w restaurantId zone a b).length = (scansBefore w restaurantId zone a b).length ↔
      SplitsAfter w restaurantId zone b := by
  have hend := dayStart_le_dayEnd zone hab
  have hstart : dayStart zone a ≤ dayStart zone (b + 1) :=
    Int.sub_le_sub_right (offsetAt_ordered zone (by omega)) _
  have hiff := length_filter_lt_eq_iff ScanEvent.timestamp
    (fun e => decide (e.restaurantId = restaurantId) && decide (dayStart zone a ≤ e.timestamp))
    w.db.scanEvents (m := dayEnd zone b) (n := dayStart zone (b + 1))
  refine hiff.trans (forall₂_congr fun e he => ?_)
  simp only [Bool.and_eq_true, decide_eq_true_eq]
  constructor
  · intro h hr
    rcases lt_or_ge e.timestamp (dayStart zone a) with hlt | hle
    · exact iff_of_true (hlt.trans_le hend) (hlt.trans_le hstart)
    · exact h ⟨hr, hle⟩
  · exact fun h hr => h hr.1

/-- Two adjacent ranges of dates add up: neither call raises, nor does the call for the whole
range; the totals add up, and the rows of the export are together those of the whole range. -/
structure RangesTile (w : World) (restaurantId : Uuid) (zone : Option TimeZone) (a b c : ℤ) :
    Prop where
  totals : ∃ n n' total,
    (getTotalScans restaurantId (midnight zone a) (midnight zone b)).exec w = (.ok n, w) ∧
    (getTotalScans restaurantId (midnight zone (b + 1)) (midnight zone c)).exec w = (.ok n', w) ∧
    (getTotalScans restaurantId (midnight zone a) (midnight zone c)).exec w = (.ok total, w) ∧
    n + n' = total
  rows : ∀ scan scan' scan'' : Scan ScanEvent, ∃ rows rows' all,
    (getScanEventsForExport restaurantId (midnight zone a) (midnight zone b) scan).exec w
      = (.ok rows, w) ∧
    (getScanEventsForExport restaurantId (midnight zone (b + 1)) (midnight zone c) scan').exec w
      = (.ok rows', w) ∧
    (getScanEventsForExport restaurantId (midnight zone a) (midnight zone c) scan'').exec w
      = (.ok all, w) ∧
    (rows ++ rows').Perm all

/-- The ranges of the dates from `a` to `b`, from `b + 1` to `c` and from `a` to `c` tile, if and
only if the midnight after `c` is a `datetime`, the first and the last instant are in UTC too, `b`
is not the first day of a clock without offset, and no event of the restaurant is between the two
instants of the midnight after `b`, with the offset of the midnight of `b` and with its own. -/
theorem dateRanges_tile_iff (w : World) (restaurantId : Uuid) (zone : Option TimeZone)
    (a b c : ℤ) (ha : 0 ≤ a) (hab : a ≤ b) (hbc : b < c) :
    RangesTile w restaurantId zone a b c ↔
      (wallOf (c + 1) < limit ∧ 0 ≤ wallOf a - offsetAt zone a ∧
        wallOf (c + 1) - 1 - offsetAt zone c < limit ∧ ¬ (zone = none ∧ b = 0)) ∧
      SplitsAfter w restaurantId zone b := by
  have hlater : ¬ (zone = none ∧ c = 0) := fun h => by omega
  have hsend : (wallOf (c + 1) < limit ∧ 0 ≤ wallOf a - offsetAt zone a ∧
      wallOf (c + 1) - 1 - offsetAt zone c < limit ∧ ¬ (zone = none ∧ b = 0)) ↔
      Sendable zone a b ∧ Sendable zone (b + 1) c ∧ Sendable zone a c := by
    rw [sendable_iff zone hab hbc]
    exact ⟨fun h => ⟨⟨h.1, h.2.1, h.2.2.1, hlater⟩, h.2.2.2⟩,
      fun h => ⟨h.1.next, h.1.start, h.1.stop, h.2⟩⟩
  rw [hsend]
  have hbefore := (scansBefore_append_perm w restaurantId zone hab hbc).length_eq
  rw [List.length_append] at hbefore
  constructor
  · intro h
    obtain ⟨n, n', total, hfirst, hsecond, hwhole, hsum⟩ := h.totals
    have hab' := sendable_of_exec_query ha hab hfirst
    have hbc' := sendable_of_exec_query (by omega) (by omega) hsecond
    have hac' := sendable_of_exec_query ha (by omega) hwhole
    refine ⟨⟨hab', hbc', hac'⟩, (length_scansOfDays_eq_iff w restaurantId zone hab).mp ?_⟩
    have hn := (exec_query_of_sendable w restaurantId ha hab hab' List.length).symm.trans hfirst
    have hn' := (exec_query_of_sendable w restaurantId (by omega) (by omega) hbc'
      List.length).symm.trans hsecond
    have htotal := (exec_query_of_sendable w restaurantId ha (by omega) hac'
      List.length).symm.trans hwhole
    simp only [Prod.mk.injEq, Except.ok.injEq, and_true] at hn hn' htotal
    omega
  · rintro ⟨⟨hfirst, hsecond, hwhole⟩, hsplit⟩
    have hsame : scansOfDays w restaurantId zone a b = scansBefore w restaurantId zone a b := by
      refine List.filter_congr fun e he => ?_
      by_cases hr : e.restaurantId = restaurantId
      · have hiff := hsplit e he hr
        have hupTo : decide (e.timestamp ≤ dayEnd zone b - 1)
            = decide (e.timestamp ≤ dayStart zone (b + 1) - 1) :=
          decide_eq_decide.mpr (Int.le_sub_one_iff.trans (hiff.trans Int.le_sub_one_iff.symm))
        simp only [selectsScan, hupTo]
      · simp only [selectsScan, hr, decide_false, Bool.false_and]
    have hperm := scansBefore_append_perm w restaurantId zone hab hbc
    rw [← hsame] at hperm
    constructor
    · refine ⟨_, _, _, exec_query_of_sendable w _ ha hab hfirst _,
        exec_query_of_sendable w _ (by omega) (by omega) hsecond _,
        exec_query_of_sendable w _ ha (by omega) hwhole _, ?_⟩
      rw [← List.length_append]
      exact hperm.length_eq
    · intro scan scan' scan''
      refine ⟨_, _, _, exec_query_of_sendable w _ ha hab hfirst _,
        exec_query_of_sendable w _ (by omega) (by omega) hsecond _,
        exec_query_of_sendable w _ ha (by omega) hwhole _, ?_⟩
      have hrows : ∀ (s : Scan ScanEvent) (rows : List ScanEvent),
          (orderBy (fun e : ScanEvent => OrderDual.toDual e.timestamp) (s.order rows)).Perm rows :=
        fun s rows => (orderBy_perm _ _).trans (s.perm rows)
      exact ((hrows _ _).append (hrows _ _)).trans (hperm.trans (hrows _ _).symm)

/-- From 2026-02-27 to 2026-02-28. -/
theorem dateRanges_tile_february :
    RangesTile sopaServed 10 none 739673 739673 739674 :=
  (dateRanges_tile_iff sopaServed 10 none 739673 739673 739674 (by decide) le_rfl
    (by decide)).mpr ⟨by decide, splitsAfter_of_offset_eq sopaServed 10 rfl⟩

/-- 9999-12-31 is a date, the midnight after it is none: the query for the last day raises. -/
theorem dateRanges_last_day :
    wallOf 3652058 < limit ∧
      (getTotalScans 10 (midnight (some (.fixed 0)) (3652057 + 1))
        (midnight (some (.fixed 0)) 3652058)).exec sopaServed = (.error .overflow, sopaServed) ∧
      ¬ RangesTile sopaServed 10 (some (.fixed 0)) 3652057 3652057 3652058 := by
  have hraises : (getTotalScans 10 (midnight (some (.fixed 0)) (3652057 + 1))
      (midnight (some (.fixed 0)) 3652058)).exec sopaServed = (.error .overflow, sopaServed) := by
    rw [getTotalScans, exec_query]
    rfl
  refine ⟨by decide, hraises, fun h => ?_⟩
  obtain ⟨_, _, _, -, hsecond, -, -⟩ := h.totals
  rw [hraises] at hsecond
  cases hsecond

/-- Santiago in 2025: three hours behind UTC, and four from 2025-04-06 on. -/
def santiago : TimeZone where
  offset day := if day < 739346 then -10800000000 else -14400000000
  ordered a b hab := by
    have ha := wallOf_eq a
    have hb := wallOf_eq b
    split_ifs <;> omega

/-- A guest looks at the menu on 2025-04-05 at 23:30, half an hour after the clock was set back. -/
def santiagoScanned : World :=
  runEvents Platform.plain { sopaServed with now := 1743910200000000 }
    [.request (.viewMenu MenuScan.stored "casa" ⟨none, none, none⟩ 40)]

/-- The view is in the range of both days, and in that of neither. -/
example : ¬ SplitsAfter santiagoScanned 10 (some santiago) 739345 ∧
    ([(739345, 739345), (739346, 739346), (739345, 739346)].map fun days =>
      ((getTotalScans 10 (midnight (some santiago) days.1)
        (midnight (some santiago) days.2)).exec santiagoScanned).1) = [.ok 0, .ok 0, .ok 1] := by
  decide +kernel

end AnalyticsRepository

end LiveMenu
