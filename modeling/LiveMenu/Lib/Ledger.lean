import Mathlib.Data.List.Induction
import Mathlib.Tactic.Common

/-!
# Ledgers of single-use tickets

A ledger records which tickets were issued, which keys were redeemed and whose tickets were
withdrawn, oldest first. A ticket stands if it was issued, its key was never redeemed and nothing
of its holder was withdrawn since.
-/

namespace Ledger

/-- An entry, over tickets `τ` with keys `κ` and holders `υ`. -/
inductive Entry (τ κ υ : Type) where
  | issued (t : τ)
  | redeemed (k : κ)
  | withdrawn (u : υ)
  deriving DecidableEq

section

variable {τ κ υ : Type} (key : τ → κ) (holder : τ → υ)

/-- The ticket may be redeemed. -/
def Standing (h : List (Entry τ κ υ)) (t : τ) : Prop :=
  ∃ before after, h = before ++ .issued t :: after ∧ .redeemed (key t) ∉ h ∧
    .withdrawn (holder t) ∉ after

variable {key holder} {h : List (Entry τ κ υ)} {t : τ}

lemma Standing.issued (ht : Standing key holder h t) : .issued t ∈ h := by
  obtain ⟨before, after, rfl, -⟩ := ht
  simp

/-- An entry that is not this ticket being issued leaves it standing unless it redeems or
withdraws it. -/
lemma standing_append {e : Entry τ κ υ} (he : e ≠ .issued t) :
    Standing key holder (h ++ [e]) t ↔
      e ≠ .redeemed (key t) ∧ e ≠ .withdrawn (holder t) ∧ Standing key holder h t := by
  constructor
  · rintro ⟨before, after, heq, hred, hwith⟩
    cases after using List.reverseRecOn with
    | nil =>
      -- the last entry would be the one that issues the ticket
      have := (List.append_inj' heq rfl).2
      exact absurd (List.singleton_inj.mp this) he
    | append_singleton after e' =>
      rw [← List.cons_append, ← List.append_assoc] at heq
      obtain ⟨rfl, hee⟩ := List.append_inj' heq rfl
      obtain rfl := List.singleton_inj.mp hee
      simp only [List.mem_append, List.mem_singleton, not_or] at hred hwith
      exact ⟨fun h' => hred.2 h'.symm, fun h' => hwith.2 h'.symm, before, after, rfl,
        by simpa using hred.1, hwith.1⟩
  · rintro ⟨hne, hne', before, after, rfl, hred, hwith⟩
    refine ⟨before, after ++ [e], by simp, ?_, ?_⟩
    · intro h'
      rcases List.mem_append.mp h' with h' | h'
      · exact hred h'
      · exact hne (List.mem_singleton.mp h').symm
    · simp only [List.mem_append, List.mem_singleton, not_or]
      exact ⟨hwith, fun h' => hne' h'.symm⟩

/-- A ticket whose key was not redeemed stands once it is issued. -/
lemma standing_issued (hfresh : .redeemed (key t) ∉ h) :
    Standing key holder (h ++ [.issued t]) t :=
  ⟨h, [], rfl, by simpa using hfresh, by simp⟩

lemma standing_append_redeemed {k : κ} :
    Standing key holder (h ++ [.redeemed k]) t ↔ k ≠ key t ∧ Standing key holder h t := by
  rw [standing_append (by simp)]
  simp

lemma standing_append_withdrawn {u : υ} :
    Standing key holder (h ++ [.withdrawn u]) t ↔ u ≠ holder t ∧ Standing key holder h t := by
  rw [standing_append (by simp)]
  simp

lemma standing_append_issued {t' : τ} (hne : t' ≠ t) :
    Standing key holder (h ++ [.issued t']) t ↔ Standing key holder h t := by
  rw [standing_append (by simpa using hne)]
  simp

end

end Ledger
