import LiveMenu.Lib.Program

/-!
# Programs whose steps can fail

`failAt e n p` is the program `p` where the step number `n` of those that can fail raises `e`
instead of running. What a sequence does under a failure follows from what its parts do: the
second part runs only if the first one has made all its steps.
-/

namespace Prog

variable {S L E α β : Type} (fails : L → Bool) (e : E)

/-- The step number `n` of those that can fail, counted from 0, raises `e` and does nothing. -/
def failAt : Prog S L E α → ℕ → Prog S L E α
  | .done r, _            => .done r
  | .step l eff next, n   =>
    if fails l then
      match n with
      | 0     => raise e
      | n + 1 => .step l eff fun s => failAt (next s) n
    else
      .step l eff fun s => failAt (next s) n

/-- The number of steps that can fail in a program that runs alone from the state `s`. -/
def calls : Prog S L E α → S → ℕ
  | .done _, _            => 0
  | .step l eff next, s   => calls (next s) (eff s) + if fails l then 1 else 0

variable {fails e}

section

variable {l : L} {eff : S → S} {next : S → Prog S L E α}

lemma failAt_step_zero (hl : fails l = true) :
    (step l eff next).failAt fails e 0 = raise e := if_pos hl

lemma failAt_step_succ (hl : fails l = true) (n : ℕ) :
    (step l eff next).failAt fails e (n + 1)
      = step l eff fun s => (next s).failAt fails e n := if_pos hl

lemma failAt_step_of_not (hl : ¬ fails l = true) (n : ℕ) :
    (step l eff next).failAt fails e n = step l eff fun s => (next s).failAt fails e n := by
  cases n <;> exact if_neg hl

end

/-- A failure after the last step is none. -/
lemma failAt_of_le {p : Prog S L E α} {n : ℕ} {s : S} (h : p.calls fails s ≤ n) :
    (p.failAt fails e n).exec s = p.exec s := by
  induction p generalizing n s with
  | done r => rfl
  | step l eff next ih =>
    rw [calls] at h
    by_cases hl : fails l = true
    · rw [if_pos hl] at h
      cases n with
      | zero => omega
      | succ n =>
        rw [failAt_step_succ hl]
        exact ih s (Nat.le_of_succ_le_succ h)
    · rw [if_neg hl] at h
      rw [failAt_step_of_not hl]
      exact ih s h

/-- A sequence under a failure. -/
lemma exec_failAt_bind (p : Prog S L E α) (k : α → Prog S L E β) (n : ℕ) (s : S) :
    ((p >>= k).failAt fails e n).exec s
      = match (p.failAt fails e n).exec s with
        | (.ok a, s')    => ((k a).failAt fails e (n - p.calls fails s)).exec s'
        | (.error x, s') => (.error x, s') := by
  show ((p.bind k).failAt fails e n).exec s = _
  induction p generalizing n s with
  | done r => cases r <;> rfl
  | step l eff next ih =>
    rw [bind, calls]
    by_cases hl : fails l = true
    · rw [if_pos hl]
      cases n with
      | zero =>
        rw [failAt_step_zero hl, failAt_step_zero hl]
        rfl
      | succ n =>
        rw [failAt_step_succ hl, failAt_step_succ hl, Nat.add_sub_add_right]
        exact ih s n (eff s)
    · rw [if_neg hl, failAt_step_of_not hl, failAt_step_of_not hl]
      exact ih s n (eff s)

lemma calls_bind (p : Prog S L E α) (k : α → Prog S L E β) (s : S) :
    (p >>= k).calls fails s
      = p.calls fails s + match p.exec s with
        | (.ok a, s')   => (k a).calls fails s'
        | (.error _, _) => 0 := by
  show (p.bind k).calls fails s = _
  induction p generalizing s with
  | done r =>
    cases r with
    | ok a => exact (Nat.zero_add _).symm
    | error x => rfl
  | step l eff next ih =>
    rw [bind, calls, calls, exec_step, ih]
    omega

/-- The first part makes all its steps. -/
lemma exec_failAt_bind_ok {p : Prog S L E α} {k : α → Prog S L E β} {n : ℕ} {s s' : S} {a : α}
    (hn : p.calls fails s ≤ n) (h : p.exec s = (.ok a, s')) :
    ((p >>= k).failAt fails e n).exec s
      = ((k a).failAt fails e (n - p.calls fails s)).exec s' := by
  rw [exec_failAt_bind, failAt_of_le hn, h]

/-- The failure is in the first part. -/
lemma exec_failAt_bind_error {p : Prog S L E α} {k : α → Prog S L E β} {n : ℕ} {s s' : S} {x : E}
    (h : (p.failAt fails e n).exec s = (.error x, s')) :
    ((p >>= k).failAt fails e n).exec s = (.error x, s') := by
  rw [exec_failAt_bind, h]

end Prog
