import Mathlib.Data.List.Sort
import Mathlib.Data.Prod.Lex
import Mathlib.Tactic.Common

/-!
# Sorting by a key

`orderBy` is a stable sort by a key. A query without a total order returns its rows in an order
the server chooses; a `Scan` is that choice, and `orderBy k (scan.order rows)` ranges over every
arrangement of the rows that is sorted by `k`.
-/

/-- An arrangement of the rows of a query, chosen by the server. -/
structure Scan (ρ : Type) where
  order : List ρ → List ρ
  perm : ∀ l, (order l).Perm l

/-- The order in which the rows are stored. -/
def Scan.stored (ρ : Type) : Scan ρ := ⟨id, fun _ => .refl _⟩

section OrderBy

variable {ρ ι : Type} [LinearOrder ι] {k : ρ → ι}

/-- Sort by a key, keeping the order of rows with equal keys. -/
def orderBy (k : ρ → ι) (l : List ρ) : List ρ := l.insertionSort fun a b => k a ≤ k b

lemma orderBy_perm (k : ρ → ι) (l : List ρ) : (orderBy k l).Perm l :=
  List.perm_insertionSort _ l

@[simp] lemma mem_orderBy {l : List ρ} {r : ρ} : r ∈ orderBy k l ↔ r ∈ l :=
  (orderBy_perm k l).mem_iff

lemma orderBy_sorted (k : ρ → ι) (l : List ρ) :
    (orderBy k l).Pairwise fun a b => k a ≤ k b :=
  haveI : Std.Total fun a b : ρ => k a ≤ k b := ⟨fun a b => le_total (k a) (k b)⟩
  haveI : IsTrans ρ fun a b => k a ≤ k b := ⟨fun _ _ _ => le_trans⟩
  List.pairwise_insertionSort _ l

lemma orderBy_of_sorted {l : List ρ} (h : l.Pairwise fun a b => k a ≤ k b) : orderBy k l = l :=
  List.Pairwise.insertionSort_eq h

/-- Distinct keys leave one sorted arrangement. -/
lemma eq_of_perm_of_sorted {l l' : List ρ} (hinj : ∀ a ∈ l, ∀ b ∈ l, k a = k b → a = b)
    (hp : l.Perm l') (h : l.Pairwise fun a b => k a ≤ k b)
    (h' : l'.Pairwise fun a b => k a ≤ k b) : l = l' :=
  List.Perm.eq_of_pairwise
    (fun a b ha hb hab hba => hinj a ha b (hp.mem_iff.mpr hb) (le_antisymm hab hba)) h h' hp

lemma orderBy_eq_of_perm {l l' : List ρ} (hinj : ∀ a ∈ l, ∀ b ∈ l, k a = k b → a = b)
    (hp : l.Perm l') : orderBy k l = orderBy k l' := by
  refine eq_of_perm_of_sorted (k := k) ?_ ?_ (orderBy_sorted k l) (orderBy_sorted k l')
  · intro a ha b hb
    exact hinj a (mem_orderBy.mp ha) b (mem_orderBy.mp hb)
  · exact (orderBy_perm k l).trans (hp.trans (orderBy_perm k l').symm)

end OrderBy
