import Mathlib.Algebra.BigOperators.Group.List.Lemmas
import Mathlib.Algebra.GroupWithZero.Nat
import LiveMenu.Model.Dates
import LiveMenu.Sequential.Effects

/-!
# What the analytics say

The queries group the same scan events by period, by hour and by user agent. Each grouping splits
the events, so its counts add up to their number.
-/

namespace LiveMenu

/-! ### Grouping -/

section GroupCount

variable {κ : Type} [DecidableEq κ] (key : ScanEvent → κ) (rows : List ScanEvent)

lemma length_filter_key (k : κ) :
    (rows.filter fun e => key e = k).length = (rows.map key).count k := by
  rw [← List.countP_eq_length_filter, List.count, List.countP_map]
  rfl

@[simp] lemma map_fst_groupCount : (groupCount key rows).map Prod.fst = (rows.map key).dedup := by
  rw [groupCount, List.map_map]
  exact List.map_id' _

/-- No event is in two groups, and none in no group. -/
lemma sum_groupCount : ((groupCount key rows).map Prod.snd).sum = rows.length := by
  have hlen : rows.length = (rows.map key).length := List.length_map key |>.symm
  rw [groupCount, List.map_map, hlen, ← List.sum_map_count_dedup_eq_length]
  congr 1
  exact List.map_congr_left fun k _ => length_filter_key key rows k

variable {key rows}

lemma mem_groupCount {g : κ × ℕ} : g ∈ groupCount key rows ↔
    g.1 ∈ rows.map key ∧ g.2 = (rows.filter fun e => key e = g.1).length := by
  rw [groupCount, List.mem_map]
  constructor
  · rintro ⟨k, hk, rfl⟩
    exact ⟨List.mem_dedup.mp hk, rfl⟩
  · rintro ⟨hk, hcount⟩
    exact ⟨g.1, List.mem_dedup.mpr hk, Prod.ext rfl hcount.symm⟩

end GroupCount

/-- Sorted by its key, a grouping has every key once. -/
lemma groupCount_sorted {κ : Type} [LinearOrder κ] (key : ScanEvent → κ) (rows : List ScanEvent) :
    (orderBy Prod.fst (groupCount key rows)).Pairwise fun g g' => g.1 < g'.1 := by
  have hsorted := orderBy_sorted Prod.fst (groupCount key rows)
  have hnodup : ((orderBy Prod.fst (groupCount key rows)).map Prod.fst).Nodup := by
    rw [((orderBy_perm Prod.fst (groupCount key rows)).map Prod.fst).nodup_iff,
      map_fst_groupCount]
    exact List.nodup_dedup _
  exact (hsorted.and (List.pairwise_map.mp hnodup)).imp fun h => lt_of_le_of_ne h.1 h.2

lemma sum_orderBy_groupCount {κ : Type} [LinearOrder κ] (key : ScanEvent → κ)
    (rows : List ScanEvent) :
    ((orderBy Prod.fst (groupCount key rows)).map Prod.snd).sum = rows.length := by
  rw [((orderBy_perm Prod.fst (groupCount key rows)).map Prod.snd).sum_eq, sum_groupCount]

/-! ### Analytics of a list of scan events -/

/-- The scan events of a user agent. -/
def scansOf (userAgent : String) (rows : List ScanEvent) : ℕ :=
  (rows.filter fun e => e.userAgent.val = userAgent).length

/-- The analytics account for each of the scan events once. -/
structure AnalyticsResponse.Accounts (a : AnalyticsResponse) (rows : List ScanEvent) : Prop where
  total : a.totalScans = rows.length
  periods : (a.scansByPeriod.map Prod.snd).sum = a.totalScans
  hours : (a.scansByHour.map Prod.snd).sum = a.totalScans
  periodKeys : a.scansByPeriod.Pairwise fun g g' => g.1 < g'.1
  hourKeys : a.scansByHour.Pairwise fun g g' => g.1 < g'.1
  atMostFive : a.topUserAgents.length ≤ 5
  topSorted : a.topUserAgents.Pairwise fun g g' => g'.2 ≤ g.2
  topDistinct : (a.topUserAgents.map Prod.fst).Nodup
  topExact : ∀ g ∈ a.topUserAgents, 0 < g.2 ∧ g.2 = scansOf g.1 rows
  omitted : ∀ e ∈ rows, e.userAgent.val ∉ a.topUserAgents.map Prod.fst →
    a.topUserAgents.length = 5 ∧ ∀ g ∈ a.topUserAgents, scansOf e.userAgent.val rows ≤ g.2

namespace AnalyticsService

variable {P : Platform} (granularity : String) (scan : Scan (String × ℕ)) (rows : List ScanEvent)

/-- Periods are told apart by their texts, and in order. -/
lemma summary_periodKeys (hP : P.Dates) (hrows : ∀ e ∈ rows, Representable e.timestamp) :
    (summary P granularity scan rows).scansByPeriod.Pairwise fun g g' => g.1 < g'.1 := by
  let unit := if granularity ∈ ["day", "week", "month"] then granularity else "day"
  have hunit : unit ∈ ["day", "week", "month"] := by
    by_cases h : granularity ∈ ["day", "week", "month"]
    · simp only [unit, if_pos h, h]
    · simp only [unit, if_neg h, List.mem_cons_self]
  let groups := groupCount (fun e => P.dateTrunc unit e.timestamp) rows
  -- each period is the truncation of an instant that was stored
  have hperiod : ∀ g ∈ orderBy Prod.fst groups, Representable g.1 := by
    intro g hg
    obtain ⟨hkey, -⟩ := mem_groupCount.mp (mem_orderBy.mp hg)
    obtain ⟨e, he, heq⟩ := List.mem_map.mp hkey
    rw [← heq]
    exact hP.dateTrunc unit hunit e.timestamp (hrows e he)
  have hsorted : (orderBy Prod.fst groups).Pairwise fun g g' => g.1 < g'.1 :=
    groupCount_sorted _ rows
  refine List.pairwise_map.mpr (hsorted.imp_of_mem fun {g g'} hg hg' hlt => ?_)
  exact PyDateTime.isoformat_lt hlt (hperiod g hg) (hperiod g' hg')

/-- The user agents of the analytics with their counts, the first five of them listed. -/
lemma summary_top :
    ∃ groups : List (String × ℕ), (summary P granularity scan rows).topUserAgents = groups.take 5 ∧
      groups.Perm (groupCount (fun e => e.userAgent.val) rows) ∧
      groups.Pairwise fun g g' => g'.2 ≤ g.2 :=
  ⟨_, rfl, (orderBy_perm _ _).trans (scan.perm _),
    (orderBy_sorted (fun g : String × ℕ => OrderDual.toDual g.2) _).imp fun h => h⟩

lemma summary_accounts (hP : P.Dates) (hrows : ∀ e ∈ rows, Representable e.timestamp) :
    (summary P granularity scan rows).Accounts rows := by
  obtain ⟨groups, htop, hperm, hsorted⟩ := summary_top (P := P) granularity scan rows
  have hgroup : ∀ g ∈ groups, g.1 ∈ rows.map (·.userAgent.val) ∧ g.2 = scansOf g.1 rows :=
    fun g hg => mem_groupCount.mp (hperm.mem_iff.mp hg)
  have hdistinct : (groups.map Prod.fst).Nodup := by
    rw [(hperm.map Prod.fst).nodup_iff, map_fst_groupCount]
    exact List.nodup_dedup _
  have hlisted : ∀ g ∈ groups.take 5, g ∈ groups := fun g => List.mem_of_mem_take
  constructor
  case total => rfl
  case periods =>
    simp only [summary, List.map_map]
    exact sum_orderBy_groupCount _ rows
  case hours => exact sum_orderBy_groupCount _ rows
  case periodKeys => exact summary_periodKeys granularity scan rows hP hrows
  case hourKeys => exact groupCount_sorted _ rows
  case atMostFive =>
    rw [htop]
    exact List.length_take_le 5 groups
  case topSorted =>
    rw [htop]
    exact hsorted.sublist (List.take_sublist 5 groups)
  case topDistinct =>
    rw [htop]
    exact hdistinct.sublist ((List.take_sublist 5 groups).map Prod.fst)
  case topExact =>
    rw [htop]
    intro g hg
    obtain ⟨hkey, hcount⟩ := hgroup g (hlisted g hg)
    refine ⟨?_, hcount⟩
    obtain ⟨e, he, heq⟩ := List.mem_map.mp hkey
    rw [hcount]
    exact List.length_pos_of_mem (List.mem_filter.mpr ⟨he, decide_eq_true heq⟩)
  case omitted =>
    rw [htop]
    intro e he homitted
    -- the group of an agent that is not listed is after the fifth
    have hmem : (e.userAgent.val, scansOf e.userAgent.val rows) ∈ groups :=
      hperm.mem_iff.mpr (mem_groupCount.mpr ⟨List.mem_map_of_mem he, rfl⟩)
    rw [← List.take_append_drop 5 groups] at hmem hsorted
    rcases List.mem_append.mp hmem with hlisted | hafter
    · exact absurd (List.mem_map_of_mem hlisted) homitted
    · have hlen := List.length_pos_of_mem hafter
      rw [List.length_drop] at hlen
      refine ⟨by rw [List.length_take]; omega, fun g hg => ?_⟩
      exact (List.pairwise_append.mp hsorted).2.2 g hg _ hafter

end AnalyticsService

end LiveMenu
