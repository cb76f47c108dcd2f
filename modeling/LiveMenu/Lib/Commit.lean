import LiveMenu.Lib.Failures
import LiveMenu.Lib.Guarantee

/-!
# Programs with one commit

`ChangesOnce v p` says that at most one step of `p` changes the part `v` of the state, whatever
others do between its steps. Such a program is all or nothing for that part: where one of its steps
raises, the part is as it was, or as the whole program leaves it.
-/

namespace Prog

variable {S L E α β γ : Type} {v : S → γ}

/-- No step changes the part. -/
def Quiet (v : S → γ) (p : Prog S L E α) : Prop :=
  p.Keeps (fun _ => True) (fun s s' => v s' = v s) fun _ => True

/-- At most one step changes the part. -/
def ChangesOnce (v : S → γ) : Prog S L E α → Prop
  | .done _           => True
  | .step _ eff next  => ∀ s, v (eff s) = v s ∧ ChangesOnce v (next s) ∨ Quiet v (next s)

lemma quiet_done (r : Except E α) : (done r : Prog S L E α).Quiet v := trivial

lemma Quiet.bind {p : Prog S L E α} {k : α → Prog S L E β} (hp : p.Quiet v)
    (hk : ∀ a, (k a).Quiet v) : (p >>= k).Quiet v :=
  hp.seq (fun a _ => hk a) fun _ _ => trivial

lemma Quiet.next {l : L} {eff : S → S} {next : S → Prog S L E α} (h : (step l eff next).Quiet v)
    (s : S) : v (eff s) = v s ∧ (next s).Quiet v :=
  ⟨(h s trivial).1, (h s trivial).2 trivial⟩

lemma Quiet.exec {p : Prog S L E α} (h : p.Quiet v) (s : S) : v (p.exec s).2 = v s := by
  induction p generalizing s with
  | done r => rfl
  | step l eff next ih =>
    obtain ⟨heff, hnext⟩ := h.next s
    exact (ih s hnext (eff s)).trans heff

lemma Quiet.failAt {fails : L → Bool} {e : E} {p : Prog S L E α} (h : p.Quiet v) (n : ℕ) :
    (p.failAt fails e n).Quiet v := by
  induction p generalizing n with
  | done r => exact quiet_done r
  | step l eff next ih =>
    by_cases hl : fails l = true
    · cases n with
      | zero =>
        rw [failAt_step_zero hl]
        exact quiet_done _
      | succ n =>
        rw [failAt_step_succ hl]
        exact fun s _ => ⟨(h.next s).1, fun _ => ih s (h.next s).2 n⟩
    · rw [failAt_step_of_not hl]
      exact fun s _ => ⟨(h.next s).1, fun _ => ih s (h.next s).2 n⟩

lemma Quiet.changesOnce {p : Prog S L E α} (h : p.Quiet v) : p.ChangesOnce v := by
  induction p with
  | done r => trivial
  | step l eff next ih => exact fun s => .inr (h.next s).2

lemma changesOnce_done (r : Except E α) : (done r : Prog S L E α).ChangesOnce v := trivial

/-- A single step. -/
lemma changesOnce_attempt (l : L) (f : S → Except E (α × S)) :
    (attempt l f).ChangesOnce v := fun _ => .inr (quiet_done _)

/-- What runs before the commit. -/
lemma Quiet.bind_changesOnce {p : Prog S L E α} {k : α → Prog S L E β} (hp : p.Quiet v)
    (hk : ∀ a, (k a).ChangesOnce v) : (p >>= k).ChangesOnce v := by
  show (p.bind k).ChangesOnce v
  induction p with
  | done r =>
    cases r with
    | ok a => exact hk a
    | error e => trivial
  | step l eff next ih => exact fun s => .inl ⟨(hp.next s).1, ih s (hp.next s).2⟩

/-- What runs after the commit. -/
lemma ChangesOnce.bind_quiet {p : Prog S L E α} {k : α → Prog S L E β} (hp : p.ChangesOnce v)
    (hk : ∀ a, (k a).Quiet v) : (p >>= k).ChangesOnce v := by
  show (p.bind k).ChangesOnce v
  induction p with
  | done r =>
    cases r with
    | ok a => exact (hk a).changesOnce
    | error e => trivial
  | step l eff next ih =>
    intro s
    obtain ⟨heff, hnext⟩ | hquiet := hp s
    · exact .inl ⟨heff, ih s hnext⟩
    · exact .inr (hquiet.bind hk)

/-- All or nothing: whichever step raises, the part is as it was or as the program leaves it. -/
theorem ChangesOnce.exec_failAt {fails : L → Bool} {e : E} {p : Prog S L E α} (h : p.ChangesOnce v)
    (n : ℕ) (s : S) : v ((p.failAt fails e n).exec s).2 = v s ∨
      v ((p.failAt fails e n).exec s).2 = v (p.exec s).2 := by
  induction p generalizing n s with
  | done r => exact .inl rfl
  | step l eff next ih =>
    -- the rest of the program, with the failure at step `m`
    have hrest : ∀ m, v (((next s).failAt fails e m).exec (eff s)).2 = v s ∨
        v (((next s).failAt fails e m).exec (eff s)).2 = v ((next s).exec (eff s)).2 := by
      intro m
      obtain ⟨heff, hnext⟩ | hquiet := h s
      · exact heff ▸ ih s hnext m (eff s)
      · exact .inr (((hquiet.failAt m).exec (eff s)).trans (hquiet.exec (eff s)).symm)
    by_cases hl : fails l = true
    · cases n with
      | zero =>
        rw [failAt_step_zero hl]
        exact .inl rfl
      | succ n =>
        rw [failAt_step_succ hl]
        exact hrest n
    · rw [failAt_step_of_not hl]
      exact hrest n

/-- What is left after a step. -/
lemma ChangesOnce.next {l : L} {eff : S → S} {next : S → Prog S L E α}
    (h : (step l eff next).ChangesOnce v) (s : S) : (next s).ChangesOnce v := by
  obtain ⟨-, hnext⟩ | hquiet := h s
  · exact hnext
  · exact hquiet.changesOnce

lemma ChangesOnce.quiet_of_ne {l : L} {eff : S → S} {next : S → Prog S L E α}
    (h : (step l eff next).ChangesOnce v) {s : S} (hs : v (eff s) ≠ v s) : (next s).Quiet v :=
  (h s).resolve_left fun hsame => hs hsame.1

end Prog

namespace System

variable {C Φ S L E α G : Type} {sys : System C Φ S L E α G} {may : Guard C Φ S L E α G}
  {cfg cfg' : Config C Φ S L E α G} {R : Prog S L E α → Prop}

/-- What every step of a program hands on to its rest holds of the code of a call to the end. -/
lemma Reach.code (h : sys.Reach may cfg cfg')
    (hnext : ∀ l eff next s, R (.step l eff next) → R (next s)) {i : ℕ}
    (hR : ∀ th, cfg.threads i = some th → R th.code) {th : Thread C Φ S L E α}
    (hi : cfg'.threads i = some th) (hprog : cfg.threads i = none → R (sys.program th.call)) :
    R th.code := by
  induction h generalizing th with
  | refl => exact hR th hi
  | @tail mid last hmid hs ih =>
    cases hs with
    | start j c hj =>
      rw [started_thread] at hi
      split_ifs at hi with hij
      · cases hi
        exact hprog (Reach.idle hmid (hij ▸ hj))
      · exact ih hi hprog
    | run j tj l eff next hj hcode hmay =>
      rw [stepped_thread] at hi
      split_ifs at hi with hij
      · cases hi
        subst hij
        have htj := ih hj hprog
        rw [hcode] at htj
        exact hnext _ _ _ _ htj
      · exact ih hi hprog
    | env s hs => exact ih hi hprog

end System
