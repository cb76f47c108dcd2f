import Mathlib.Data.List.Dedup
import LiveMenu.Lib.OrderBy

/-!
# Last occurrences

The index of the last occurrence of an element in a list. `List.dedup` keeps the last occurrence of
each element, so it is the list of the elements ordered by that index.
-/

section

variable {α : Type} [DecidableEq α]

/-- The index of the last occurrence of an element, zero for one that does not occur. -/
def lastIndex (x : α) : List α → ℕ
  | []      => 0
  | _ :: l  => if x ∈ l then lastIndex x l + 1 else 0

variable {x y : α} {l : List α}

lemma lastIndex_cons_of_mem {a : α} (h : x ∈ l) : lastIndex x (a :: l) = lastIndex x l + 1 :=
  if_pos h

lemma lastIndex_cons_of_not_mem {a : α} (h : x ∉ l) : lastIndex x (a :: l) = 0 := if_neg h

lemma getElem?_lastIndex (h : x ∈ l) : l[lastIndex x l]? = some x := by
  induction l with
  | nil => cases h
  | cons a l ih =>
    by_cases hl : x ∈ l
    · rw [lastIndex_cons_of_mem hl, List.getElem?_cons_succ, ih hl]
    · rw [lastIndex_cons_of_not_mem hl, List.getElem?_cons_zero]
      rcases List.mem_cons.mp h with rfl | h
      · rfl
      · exact absurd h hl

lemma getElem?_ne_of_lastIndex_lt {i : ℕ} (h : lastIndex x l < i) : l[i]? ≠ some x := by
  induction l generalizing i with
  | nil => simp
  | cons a l ih =>
    cases i with
    | zero => exact absurd h (Nat.not_lt_zero _)
    | succ i =>
      rw [List.getElem?_cons_succ]
      by_cases hl : x ∈ l
      · rw [lastIndex_cons_of_mem hl] at h
        exact ih (Nat.lt_of_succ_lt_succ h)
      · exact fun hi => hl (List.mem_of_getElem? hi)

lemma lastIndex_inj (hx : x ∈ l) (hy : y ∈ l) (h : lastIndex x l = lastIndex y l) : x = y := by
  have := getElem?_lastIndex hx
  rw [h, getElem?_lastIndex hy] at this
  exact (Option.some.inj this).symm

/-- Without repetitions the elements are ordered by their last index. -/
lemma dedup_pairwise_lastIndex (l : List α) :
    l.dedup.Pairwise fun x y => lastIndex x l ≤ lastIndex y l := by
  induction l with
  | nil => exact List.Pairwise.nil
  | cons a l ih =>
    have hstep : l.dedup.Pairwise fun x y => lastIndex x (a :: l) ≤ lastIndex y (a :: l) := by
      refine ih.imp_of_mem fun hx hy hle => ?_
      rw [List.mem_dedup] at hx hy
      rw [lastIndex_cons_of_mem hx, lastIndex_cons_of_mem hy]
      exact Nat.succ_le_succ hle
    by_cases ha : a ∈ l
    · rw [List.dedup_cons_of_mem ha]
      exact hstep
    · rw [List.dedup_cons_of_notMem ha]
      refine List.Pairwise.cons (fun y _ => ?_) hstep
      rw [lastIndex_cons_of_not_mem ha]
      exact Nat.zero_le _

/-- A list of elements of `l` without repetitions that is ordered by their last index in `l`. -/
lemma eq_filter_dedup_of_sorted {m : List α} (hnd : m.Nodup) (hsub : ∀ x ∈ m, x ∈ l)
    (hsorted : m.Pairwise fun x y => lastIndex x l ≤ lastIndex y l) :
    m = l.dedup.filter (· ∈ m) := by
  have hmem : ∀ x, x ∈ m ↔ x ∈ l.dedup.filter (· ∈ m) := by
    intro x
    simp only [List.mem_filter, List.mem_dedup, decide_eq_true_eq]
    exact ⟨fun h => ⟨hsub x h, h⟩, fun h => h.2⟩
  have hperm : m.Perm (l.dedup.filter (· ∈ m)) :=
    (List.perm_ext_iff_of_nodup hnd ((List.nodup_dedup l).filter _)).mpr hmem
  exact eq_of_perm_of_sorted (k := (lastIndex · l))
    (fun x hx y hy h => lastIndex_inj (hsub x hx) (hsub y hy) h) hperm hsorted
    ((dedup_pairwise_lastIndex l).filter _)

end
