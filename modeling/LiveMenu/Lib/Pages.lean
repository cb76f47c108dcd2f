import Mathlib.Data.List.Nodup
import Mathlib.Data.List.Perm.Basic
import Mathlib.Order.MinMax
import LiveMenu.Lib.OrderBy

/-!
# Pages of a sorted query

A client that reads a sorted query page by page gets each page from an arrangement of its own,
since rows that tie come in any order. The pages cover the rows where no page ends between two
rows that tie, and only there.
-/

/-- The `i`-th page of `size` rows. -/
def pageSlice {ρ : Type} (l : List ρ) (size i : ℕ) : List ρ := (l.drop (i * size)).take size

section

variable {ρ : Type}

lemma take_append_pageSlice (l : List ρ) (size i : ℕ) :
    l.take (i * size) ++ pageSlice l size i = l.take ((i + 1) * size) := by
  rw [pageSlice, ← List.take_add, Nat.succ_mul]

/-- The pages of one list are the list. -/
lemma flatMap_pageSlice (l : List ρ) (size n : ℕ) :
    (List.range n).flatMap (pageSlice l size) = l.take (n * size) := by
  induction n with
  | zero => simp
  | succ n ih =>
    rw [List.range_succ, List.flatMap_append, ih, List.flatMap_singleton, take_append_pageSlice]

lemma pageSlice_getElem? {l : List ρ} {size i j : ℕ} (hj : j < size) :
    (pageSlice l size i)[j]? = l[i * size + j]? := by
  rw [pageSlice, List.getElem?_take_of_lt hj, List.getElem?_drop]

/-- The number of pages of `size` rows of `total` rows; a query without rows has one. -/
def pageCount (total size : ℕ) : ℕ := max 1 ((total + size - 1) / size)

lemma pageCount_of_le {total size : ℕ} (hsize : 0 < size) (h : total ≤ size) :
    pageCount total size = 1 := by
  have : (total + size - 1) / size ≤ 1 :=
    Nat.lt_succ_iff.mp ((Nat.div_lt_iff_lt_mul hsize).mpr (by omega))
  exact max_eq_left this

lemma pageCount_of_lt {total size : ℕ} (hsize : 0 < size) (h : size < total) :
    pageCount total size = pageCount (total - size) size + 1 := by
  have hdiv : (total + size - 1) / size = (total - size + size - 1) / size + 1 := by
    rw [← Nat.add_div_right _ hsize]
    congr 1
    omega
  have hone : 1 ≤ (total - size + size - 1) / size := (Nat.one_le_div_iff hsize).mpr (by omega)
  rw [pageCount, pageCount, hdiv, max_eq_right hone, max_eq_right (Nat.le_add_left 1 _)]

lemma le_pageCount_mul {size : ℕ} (hsize : 0 < size) (total : ℕ) :
    total ≤ pageCount total size * size := by
  have h := Nat.div_add_mod (total + size - 1) size
  have hmod := Nat.mod_lt (total + size - 1) hsize
  have hle := Nat.mul_le_mul_right size (le_max_right 1 ((total + size - 1) / size))
  rw [Nat.mul_comm] at h
  rw [pageCount]
  omega

/-- Each page but the first has a row. -/
lemma mul_lt_of_lt_pageCount {total size i : ℕ} (hsize : 0 < size) (hpos : 0 < i)
    (h : i < pageCount total size) : i * size < total := by
  have hi : i + 1 ≤ (total + size - 1) / size :=
    (lt_max_iff.mp h).resolve_left (Nat.not_lt.mpr hpos)
  have hle := (Nat.le_div_iff_mul_le hsize).mp hi
  rw [Nat.succ_mul] at hle
  omega

/-- A page that starts before the last row is one of them. -/
lemma lt_pageCount {total size i : ℕ} (hsize : 0 < size) (h : i * size < total) :
    i < pageCount total size := by
  refine lt_of_lt_of_le ?_ (le_max_right _ _)
  rw [Nat.lt_div_iff_mul_lt hsize]
  omega

end

section Ties

variable {ρ ι : Type} [LinearOrder ι] {k : ρ → ι} {l l' : List ρ}

/-- The first `m` rows of a sorted query end with all the rows that tie: no row has both a row
that ties with it among the first `m` and one after them. -/
def ClearBreak (k : ρ → ι) (l : List ρ) (m : ℕ) : Prop :=
  ∀ r ∈ l, ¬ (l.countP (fun s => k s < k r) < m ∧ m < l.countP fun s => k s ≤ k r)

instance (k : ρ → ι) (l : List ρ) (m : ℕ) : Decidable (ClearBreak k l m) :=
  inferInstanceAs (Decidable (∀ r ∈ l, ¬ (_ ∧ _)))

lemma clearBreak_of_length_le {m : ℕ} (h : l.length ≤ m) : ClearBreak k l m := by
  intro r _ hc
  have hle := List.countP_le_length (p := fun s => decide (k s ≤ k r)) (l := l)
  omega

/-- In a sorted list the rows with a property that passes to smaller keys come first. -/
lemma getElem_iff_lt_countP {p : ρ → Bool} (hp : ∀ a b, k a ≤ k b → p b = true → p a = true)
    (h : l.Pairwise fun a b => k a ≤ k b) {i : ℕ} (hi : i < l.length) :
    p l[i] = true ↔ i < l.countP p := by
  induction l generalizing i with
  | nil => simp at hi
  | cons a l ih =>
    rw [List.pairwise_cons] at h
    by_cases ha : p a = true
    · cases i with
      | zero => simp [ha]
      | succ i =>
        rw [List.getElem_cons_succ, ih h.2 (Nat.lt_of_succ_lt_succ hi), List.countP_cons_of_pos ha]
        omega
    · have hnone : ∀ s ∈ a :: l, ¬ p s = true := by
        intro s hs hps
        rcases List.mem_cons.mp hs with rfl | hs
        · exact ha hps
        · exact ha (hp a s (h.1 s hs) hps)
      rw [List.countP_eq_zero.mpr hnone]
      simp [hnone _ (List.getElem_mem hi)]

lemma take_countP {p : ρ → Bool} (hp : ∀ a b, k a ≤ k b → p b = true → p a = true)
    (h : l.Pairwise fun a b => k a ≤ k b) : l.take (l.countP p) = l.filter p := by
  induction l with
  | nil => rfl
  | cons a l ih =>
    rw [List.pairwise_cons] at h
    by_cases ha : p a = true
    · simp [ha, ih h.2]
    · have hnone : ∀ s ∈ a :: l, ¬ p s = true := by
        intro s hs hps
        rcases List.mem_cons.mp hs with rfl | hs
        · exact ha hps
        · exact ha (hp a s (h.1 s hs) hps)
      rw [List.countP_eq_zero.mpr hnone, List.filter_eq_nil_iff.mpr hnone, List.take_zero]

lemma lt_key_of_le (κ : ι) (a b : ρ) (h : k a ≤ k b) (hb : decide (k b < κ) = true) :
    decide (k a < κ) = true :=
  decide_eq_true (h.trans_lt (of_decide_eq_true hb))

lemma le_key_of_le (κ : ι) (a b : ρ) (h : k a ≤ k b) (hb : decide (k b ≤ κ) = true) :
    decide (k a ≤ κ) = true :=
  decide_eq_true (h.trans (of_decide_eq_true hb))

/-- At a clear break a sorted list has given out the rows below a key, or all of them. -/
lemma ClearBreak.take_eq_filter {m : ℕ} (hc : ClearBreak k l m)
    (h : l.Pairwise fun a b => k a ≤ k b) (hm : m < l.length) :
    (l.countP fun s => k s < k l[m]) = m ∧ l.take m = l.filter fun s => k s < k l[m] := by
  have heq : (l.countP fun s => k s < k l[m]) = m := by
    apply le_antisymm
    · rw [← not_lt, ← getElem_iff_lt_countP (lt_key_of_le _) h hm]
      simp
    · rw [← not_lt]
      intro hlt
      refine hc l[m] (List.getElem_mem hm) ⟨hlt, ?_⟩
      rw [← getElem_iff_lt_countP (le_key_of_le _) h hm]
      simp
  have htake := take_countP (lt_key_of_le (k l[m])) h
  rw [heq] at htake
  exact ⟨heq, htake⟩

lemma ClearBreak.of_perm {m : ℕ} (hp : l.Perm l') (hc : ClearBreak k l m) :
    ClearBreak k l' m := by
  intro r hr
  rw [← hp.countP_eq, ← hp.countP_eq]
  exact hc r (hp.mem_iff.mpr hr)

/-- Up to a clear break every sorted arrangement has given out the same rows. -/
lemma ClearBreak.take_perm {m : ℕ} (hc : ClearBreak k l m) (hp : l.Perm l')
    (h : l.Pairwise fun a b => k a ≤ k b) (h' : l'.Pairwise fun a b => k a ≤ k b) :
    (l.take m).Perm (l'.take m) := by
  by_cases hm : m < l.length
  · obtain ⟨heq, htake⟩ := hc.take_eq_filter h hm
    have htake' := take_countP (lt_key_of_le (k l[m])) h'
    rw [← hp.countP_eq, heq] at htake'
    rw [htake, htake']
    exact hp.filter _
  · have hlen := hp.length_eq
    rw [List.take_of_length_le (not_lt.mp hm), List.take_of_length_le (by omega)]
    exact hp

/-- Between clear breaks every sorted arrangement has the same page, up to its order. -/
lemma pageSlice_perm {size i : ℕ} (hc : ClearBreak k l (i * size))
    (hc' : ClearBreak k l ((i + 1) * size)) (hp : l.Perm l')
    (h : l.Pairwise fun a b => k a ≤ k b) (h' : l'.Pairwise fun a b => k a ≤ k b) :
    (pageSlice l size i).Perm (pageSlice l' size i) := by
  have hstart := hc.take_perm hp h h'
  have hstop := hc'.take_perm hp h h'
  rw [← take_append_pageSlice, ← take_append_pageSlice] at hstop
  exact (List.perm_append_left_iff _).mp (hstop.trans (hstart.symm.append_right _))

/-- Pages that end at clear breaks cover the rows, each from an arrangement of its own. -/
theorem flatMap_pageSlice_perm {size n : ℕ} {arrangement : ℕ → List ρ}
    (hc : ∀ i, ClearBreak k l (i * size)) (hn : l.length ≤ n * size)
    (hp : ∀ i, l.Perm (arrangement i))
    (h : ∀ i, (arrangement i).Pairwise fun a b => k a ≤ k b) :
    ((List.range n).flatMap fun i => pageSlice (arrangement i) size i).Perm l := by
  have hsorted := orderBy_sorted k l
  have hpage : ∀ i, (pageSlice (arrangement i) size i).Perm (pageSlice (orderBy k l) size i) :=
    fun i => pageSlice_perm ((hc _).of_perm (hp i)) ((hc _).of_perm (hp i))
      ((hp i).symm.trans (orderBy_perm k l).symm) (h i) hsorted
  calc ((List.range n).flatMap fun i => pageSlice (arrangement i) size i).Perm
        ((List.range n).flatMap (pageSlice (orderBy k l) size)) :=
          List.Perm.flatMap_left _ fun i _ => hpage i
    _ = orderBy k l := by
          rw [flatMap_pageSlice, List.take_of_length_le]
          rwa [(orderBy_perm k l).length_eq]
    List.Perm _ l := orderBy_perm k l

/-- Where a break is not clear, another arrangement exchanges the rows on its two sides. -/
theorem exists_exchanged {m : ℕ} (hc : ¬ ClearBreak k l m)
    (h : l.Pairwise fun a b => k a ≤ k b) :
    ∃ l' : List ρ, l'.Perm l ∧ (l'.Pairwise fun a b => k a ≤ k b) ∧
      ∃ a, 0 < m ∧ l[m - 1]? = some a ∧ l'[m]? = some a := by
  rw [ClearBreak] at hc
  push Not at hc
  obtain ⟨r, hr, hlt, hle⟩ := hc
  have hm : m < l.length := hle.trans_le List.countP_le_length
  have hm' : m - 1 < l.length := by omega
  -- both rows tie with `r`
  have htie : ∀ {i : ℕ} (hi : i < l.length), (l.countP fun s => k s < k r) ≤ i →
      (i < l.countP fun s => k s ≤ k r) → k l[i] = k r := by
    intro i hi hbelow hupto
    rw [← not_lt, ← getElem_iff_lt_countP (lt_key_of_le _) h hi, decide_eq_true_eq, not_lt]
      at hbelow
    rw [← getElem_iff_lt_countP (le_key_of_le _) h hi, decide_eq_true_eq] at hupto
    exact le_antisymm hupto hbelow
  have hkm := htie hm hlt.le hle
  have hkm' := htie hm' (by omega) (by omega)
  have hkeys : ((l.set (m - 1) l[m]).set m l[m - 1]).map k = l.map k := by
    rw [List.map_set, List.map_set, hkm, hkm', ← hkm', ← List.getElem_map k (h := by simpa),
      List.set_getElem_self, List.getElem_map, hkm', ← hkm, ← List.getElem_map k (h := by simpa),
      List.set_getElem_self]
  refine ⟨(l.set (m - 1) l[m]).set m l[m - 1], List.set_set_perm hm' hm, ?_, l[m - 1],
    by omega, List.getElem?_eq_getElem hm', ?_⟩
  · rw [← List.pairwise_map (R := (· ≤ ·)), hkeys, List.pairwise_map]
    exact h
  · rw [List.getElem?_set_self (by simpa using hm)]

end Ties

/-- A scan that returns its rows in the arrangement `l`. -/
def Scan.of {ρ : Type} [DecidableEq ρ] (l : List ρ) : Scan ρ where
  order rows := if rows.Perm l then l else rows
  perm rows := by
    by_cases h : rows.Perm l
    · rw [if_pos h]
      exact h.symm
    · rw [if_neg h]

lemma Scan.of_order {ρ : Type} [DecidableEq ρ] {l rows : List ρ} (h : rows.Perm l) :
    (Scan.of l).order rows = l := if_pos h
