import Mathlib.Logic.Function.Basic
import Mathlib.Data.Int.Notation
import Mathlib.Data.List.Basic
import Mathlib.Tactic.Common

/-!
# Fixed-window rate limiting

Each key has at most one open window. A hit opens a new one if there is none or the open one has
lasted its length, and is counted in it; it is admitted while the count is within the limit.
-/

namespace FixedWindow

/-- An open window: when it began, and the hits counted so far. -/
structure Window where
  start : ℤ
  hits : ℕ

/-- The open windows by key. -/
abbrev Windows (κ : Type) := κ → Option Window

variable {κ : Type}

/-- The window that counts a hit. -/
def hit (length : ℤ) (open? : Option Window) (now : ℤ) : Window :=
  match open? with
  | some w => if now < w.start + length then { w with hits := w.hits + 1 } else ⟨now, 1⟩
  | none   => ⟨now, 1⟩

/-- A window still has room after its last hit. -/
def Window.admits (w : Window) (limit : ℕ) : Bool := decide (w.hits ≤ limit)

variable [DecidableEq κ]

/-- The window that counts each of a series of hits. -/
def run (length : ℤ) : Windows κ → List (κ × ℤ) → List (κ × Window)
  | _, [] => []
  | ws, (k, now) :: hits =>
    let w := hit length (ws k) now
    (k, w) :: run length (Function.update ws k (some w)) hits

/-- The hits of one key that one window admits. -/
def admitted (limit : ℕ) (k : κ) (start : ℤ) (counted : List (κ × Window)) : List (κ × Window) :=
  counted.filter fun c => c.1 = k ∧ c.2.start = start ∧ c.2.admits limit

variable {length : ℤ} {limit : ℕ} {k : κ} {start : ℤ}

/-- How much room a key's window that began at `start` still has, given its open window. -/
def room (limit : ℕ) (start : ℤ) : Option Window → ℕ
  | none   => limit
  | some w => if w.start = start then limit - w.hits else if w.start < start then limit else 0

/-- A hit takes the room of its own window and gives none back. -/
lemma room_hit (hlength : 0 < length) (w? : Option Window) (now : ℤ) :
    room limit start (some (hit length w? now)) +
      (if (hit length w? now).start = start ∧ (hit length w? now).hits ≤ limit then 1 else 0)
        ≤ room limit start w? := by
  cases w? with
  | none =>
    simp only [hit, room]
    grind
  | some w =>
    by_cases hopen : now < w.start + length
    · simp only [hit, if_pos hopen, room]
      grind
    · simp only [hit, if_neg hopen, room]
      grind

lemma length_admitted_le_room (hlength : 0 < length) (hits : List (κ × ℤ)) (ws : Windows κ) :
    (admitted limit k start (run length ws hits)).length ≤ room limit start (ws k) := by
  induction hits generalizing ws with
  | nil => exact Nat.zero_le _
  | cons h hits ih =>
    obtain ⟨k', now⟩ := h
    have hrest := ih (Function.update ws k' (some (hit length (ws k') now)))
    simp only [run, admitted, List.filter_cons] at hrest ⊢
    by_cases hk : k' = k
    · subst hk
      rw [Function.update_self] at hrest
      have hroom := @room_hit _ limit start hlength (ws k') now
      simp only [true_and, Window.admits, Bool.decide_and, decide_eq_true_eq,
        Bool.and_eq_true] at hrest ⊢
      split_ifs with hin
      · rw [if_pos hin] at hroom
        rw [List.length_cons]
        omega
      · omega
    · rw [Function.update_of_ne (Ne.symm hk)] at hrest
      simpa [hk] using hrest

/-- No window admits more hits of a key than the limit. -/
theorem length_admitted_le (hlength : 0 < length) (hits : List (κ × ℤ)) :
    (admitted limit k start (run length (fun _ => none) hits)).length ≤ limit :=
  length_admitted_le_room hlength hits _

end FixedWindow
