import Mathlib.Logic.Function.Basic
import Mathlib.Tactic.Common

/-!
# Resumption programs

A call of an asynchronous function is a `Prog`: either it has ended, with a value or with an
exception, or it waits at a labelled atomic step on a shared state. The step changes the state,
and what it read decides how the call goes on. Nothing is said about who runs between two steps:
`Prog.exec` runs a call alone, `Interleaving.lean` runs many of them together.

A `Monitor` follows the labels of one call with a finite phase. `Monitor.Accepts` says that
a program, started in some phase, only makes the steps the monitor allows and ends as required.
-/

lemma Except.bind_eq_ok_iff {ε α β : Type} {x : Except ε α} {f : α → Except ε β} {b : β} :
    x >>= f = .ok b ↔ ∃ a, x = .ok a ∧ f a = .ok b := by
  cases x with
  | error e => simp [bind, Except.bind]
  | ok a => simp [bind, Except.bind]

/-- A sequence that ends with a value fails where its first part does. -/
lemma Except.eq_error_of_bind_pure {ε α β : Type} {x : Except ε α} {f : α → β} {e : ε}
    (h : (x >>= fun a => pure (f a)) = .error e) : x = .error e := by
  cases x with
  | error e' => exact congrArg Except.error (Except.error.inj h)
  | ok a => cases h

lemma Except.pure_eq_ok {ε α : Type} (a : α) : (pure a : Except ε α) = .ok a := rfl

/-- A sequence succeeds if its parts do, when the second does not depend on the value of the
first. -/
lemma Except.exists_bind_eq_ok_iff {ε α β : Type} {x : Except ε α} {f : α → Except ε β} {Q : Prop}
    (h : ∀ a, x = .ok a → ((∃ b, f a = .ok b) ↔ Q)) :
    (∃ b, x >>= f = .ok b) ↔ (∃ a, x = .ok a) ∧ Q := by
  simp only [Except.bind_eq_ok_iff]
  constructor
  · rintro ⟨b, a, ha, hb⟩
    exact ⟨⟨a, ha⟩, (h a ha).mp ⟨b, hb⟩⟩
  · rintro ⟨⟨a, ha⟩, hQ⟩
    obtain ⟨b, hb⟩ := (h a ha).mpr hQ
    exact ⟨b, a, ha, hb⟩

lemma Except.exists_pure_eq_ok {ε α : Type} (a : α) : (∃ b, (pure a : Except ε α) = .ok b) ↔ True :=
  iff_of_true ⟨a, rfl⟩ trivial

/-- Programs over states `S` with labels `L`, exceptions `E` and results `α`. -/
inductive Prog (S L E α : Type) where
  | done (r : Except E α)
  | step (label : L) (eff : S → S) (next : S → Prog S L E α)

namespace Prog

variable {S L E α β γ : Type}

/-- Run a program alone, from the state `s` to its end. -/
def exec : Prog S L E α → S → Except E α × S
  | .done r, s            => (r, s)
  | .step _ eff next, s   => (next s).exec (eff s)

/-- The number of steps of a program that runs alone from the state `s`. -/
def steps : Prog S L E α → S → ℕ
  | .done _, _            => 0
  | .step _ eff next, s   => (next s).steps (eff s) + 1

/-- Sequential composition: an exception ends the whole program. -/
def bind : Prog S L E α → (α → Prog S L E β) → Prog S L E β
  | .done (.ok a), k      => k a
  | .done (.error e), _   => .done (.error e)
  | .step l eff next, k   => .step l eff fun s => (next s).bind k

instance : Monad (Prog S L E) where
  pure a := .done (.ok a)
  bind   := Prog.bind

/-- Raise an exception. -/
def raise (e : E) : Prog S L E α := .done (.error e)

/-- `try p except e: h e`. -/
def handle (h : E → Prog S L E α) : Prog S L E α → Prog S L E α
  | .done (.ok a)      => .done (.ok a)
  | .done (.error e)   => h e
  | .step l eff next   => .step l eff fun s => (next s).handle h

/-- An atomic step that returns what `f` reads and leaves the state alone. -/
def read (l : L) (f : S → α) : Prog S L E α := .step l id fun s => .done (.ok (f s))

/-- An atomic step that changes the state. -/
def modify (l : L) (f : S → S) : Prog S L E Unit := .step l f fun _ => .done (.ok ())

/-- An atomic step that either raises and leaves the state alone, or changes it. -/
def attempt (l : L) (f : S → Except E (α × S)) : Prog S L E α :=
  .step l (fun s => match f s with | .ok (_, s') => s' | .error _ => s)
    fun s => .done ((f s).map Prod.fst)

/-! ### Running alone -/

@[simp] lemma exec_done (r : Except E α) (s : S) : (done r : Prog S L E α).exec s = (r, s) := rfl

@[simp] lemma exec_step (l : L) (eff : S → S) (next : S → Prog S L E α) (s : S) :
    (step l eff next).exec s = (next s).exec (eff s) := rfl

@[simp] lemma exec_pure (a : α) (s : S) : (pure a : Prog S L E α).exec s = (.ok a, s) := rfl

@[simp] lemma exec_raise (e : E) (s : S) : (raise e : Prog S L E α).exec s = (.error e, s) := rfl

@[simp] lemma exec_read (l : L) (f : S → α) (s : S) :
    (read l f : Prog S L E α).exec s = (.ok (f s), s) := rfl

@[simp] lemma exec_modify (l : L) (f : S → S) (s : S) :
    (modify l f : Prog S L E Unit).exec s = (.ok (), f s) := rfl

lemma exec_attempt (l : L) (f : S → Except E (α × S)) (s : S) :
    (attempt l f).exec s
      = match f s with | .ok (a, s') => (.ok a, s') | .error e => (.error e, s) := by
  simp only [attempt, exec_step, exec_done]
  cases f s <;> rfl

lemma exec_bind (p : Prog S L E α) (k : α → Prog S L E β) (s : S) :
    (p >>= k).exec s
      = match p.exec s with | (.ok a, s') => (k a).exec s' | (.error e, s') => (.error e, s') := by
  show (p.bind k).exec s = _
  induction p generalizing s with
  | done r => cases r <;> rfl
  | step l eff next ih => exact ih s (eff s)

@[simp] lemma exec_read_bind (l : L) (f : S → α) (k : α → Prog S L E β) (s : S) :
    (read l f >>= k).exec s = (k (f s)).exec s := rfl

@[simp] lemma exec_modify_bind (l : L) (f : S → S) (k : Unit → Prog S L E β) (s : S) :
    (modify l f >>= k).exec s = (k ()).exec (f s) := rfl

@[simp] lemma exec_pure_bind (a : α) (k : α → Prog S L E β) (s : S) :
    ((pure a : Prog S L E α) >>= k).exec s = (k a).exec s := rfl

@[simp] lemma exec_raise_bind (e : E) (k : α → Prog S L E β) (s : S) :
    ((raise e : Prog S L E α) >>= k).exec s = (.error e, s) := rfl

lemma exec_bind_ok {p : Prog S L E α} {k : α → Prog S L E β} {s s' : S} {a : α}
    (h : p.exec s = (.ok a, s')) : (p >>= k).exec s = (k a).exec s' := by
  rw [exec_bind, h]

lemma exec_bind_error {p : Prog S L E α} {k : α → Prog S L E β} {s s' : S} {e : E}
    (h : p.exec s = (.error e, s')) : (p >>= k).exec s = (.error e, s') := by
  rw [exec_bind, h]

@[simp] lemma exec_map (f : α → β) (p : Prog S L E α) (s : S) :
    (f <$> p).exec s = ((p.exec s).1.map f, (p.exec s).2) := by
  show (p >>= fun a => pure (f a)).exec s = _
  rw [exec_bind]
  rcases p.exec s with ⟨r, s'⟩
  cases r <;> rfl

@[simp] lemma steps_pure (a : α) (s : S) : (pure a : Prog S L E α).steps s = 0 := rfl

@[simp] lemma steps_raise (e : E) (s : S) : (raise e : Prog S L E α).steps s = 0 := rfl

lemma exec_handle (h : E → Prog S L E α) (p : Prog S L E α) (s : S) :
    (p.handle h).exec s
      = match p.exec s with | (.ok a, s') => (.ok a, s') | (.error e, s') => (h e).exec s' := by
  induction p generalizing s with
  | done r => cases r <;> rfl
  | step l eff next ih => exact ih s (eff s)

lemma pure_bind (a : α) (k : α → Prog S L E β) : (pure a : Prog S L E α) >>= k = k a := rfl

lemma bind_assoc (p : Prog S L E α) (k : α → Prog S L E β) (k' : β → Prog S L E γ) :
    (p >>= k) >>= k' = p >>= fun a => k a >>= k' := by
  show (p.bind k).bind k' = p.bind fun a => (k a).bind k'
  induction p with
  | done r => cases r <;> rfl
  | step l eff next ih =>
    simp only [bind]
    congr 1
    funext s
    exact ih s

end Prog

/-! ## Monitors -/

/-- A monitor of one call: how a step from one state to another moves the phase, and which
steps it allows there. -/
structure Monitor (S L Φ : Type) where
  next : Φ → L → S → S → Φ
  allows : Φ → L → S → S → Prop

namespace Monitor

variable {S L E Φ α β : Type} (M : Monitor S L Φ)

/-- From phase `φ` the program only makes allowed steps, whatever the others do to the state
between them, and `Q` holds of the phase and the result at its end. -/
def Accepts (Q : Φ → Except E α → Prop) : Prog S L E α → Φ → Prop
  | .done r, φ            => Q φ r
  | .step l eff next, φ   =>
    ∀ s, M.allows φ l s (eff s) ∧ Accepts Q (next s) (M.next φ l s (eff s))

variable {M} {Q : Φ → Except E α → Prop}

lemma accepts_pure {a : α} {φ : Φ} (h : Q φ (.ok a)) : M.Accepts Q (pure a) φ := h

lemma accepts_raise {e : E} {φ : Φ} (h : Q φ (.error e)) : M.Accepts Q (Prog.raise e) φ := h

lemma Accepts.mono {Q' : Φ → Except E α → Prop} {p : Prog S L E α} {φ : Φ}
    (h : M.Accepts Q p φ) (hQ : ∀ φ r, Q φ r → Q' φ r) : M.Accepts Q' p φ := by
  induction p generalizing φ with
  | done r => exact hQ _ _ h
  | step l eff next ih => exact fun s => ⟨(h s).1, ih s (h s).2⟩

/-- A monitor that moves as another one does and allows more follows the same programs. -/
lemma Accepts.simulate {M' : Monitor S L Φ} {p : Prog S L E α} {φ : Φ} (h : M.Accepts Q p φ)
    (hM : ∀ φ l s s', M.allows φ l s s' →
      M'.allows φ l s s' ∧ M'.next φ l s s' = M.next φ l s s') : M'.Accepts Q p φ := by
  induction p generalizing φ with
  | done r => exact h
  | step l eff next ih =>
    intro s
    obtain ⟨hallow, hnext⟩ := hM φ l s (eff s) (h s).1
    refine ⟨hallow, ?_⟩
    rw [hnext]
    exact ih s (h s).2

/-- The rule of sequential composition: the first program ends in a phase from which the
continuation is accepted. -/
lemma accepts_bind {R : Φ → Except E β → Prop} {p : Prog S L E α} {k : α → Prog S L E β} {φ : Φ}
    (hp : M.Accepts (fun φ' r => match r with
      | .ok a    => M.Accepts R (k a) φ'
      | .error e => R φ' (.error e)) p φ) :
    M.Accepts R (p >>= k) φ := by
  show M.Accepts R (p.bind k) φ
  induction p generalizing φ with
  | done r => cases r <;> exact hp
  | step l eff next ih => exact fun s => ⟨(hp s).1, ih s (hp s).2⟩

lemma accepts_map {R : Φ → Except E β → Prop} {f : α → β} {p : Prog S L E α} {φ : Φ}
    (hp : M.Accepts (fun φ' r => R φ' (r.map f)) p φ) : M.Accepts R (f <$> p) φ := by
  refine accepts_bind (hp.mono fun φ' r h => ?_)
  cases r with
  | ok a => exact accepts_pure h
  | error e => exact h

lemma accepts_handle {h : E → Prog S L E α} {p : Prog S L E α} {φ : Φ}
    (hp : M.Accepts (fun φ' r => match r with
      | .ok a    => Q φ' (.ok a)
      | .error e => M.Accepts Q (h e) φ') p φ) :
    M.Accepts Q (p.handle h) φ := by
  induction p generalizing φ with
  | done r => cases r <;> exact hp
  | step l eff next ih => exact fun s => ⟨(hp s).1, ih s (hp s).2⟩

lemma accepts_modify {Q : Φ → Except E Unit → Prop} {l : L} {f : S → S} {φ : Φ}
    (h : ∀ s, M.allows φ l s (f s) ∧ Q (M.next φ l s (f s)) (.ok ())) :
    M.Accepts Q (Prog.modify l f) φ := h

lemma accepts_attempt {l : L} {f : S → Except E (α × S)} {φ : Φ}
    (hok : ∀ s a s', f s = .ok (a, s') → M.allows φ l s s' ∧ Q (M.next φ l s s') (.ok a))
    (herr : ∀ s e, f s = .error e → M.allows φ l s s ∧ Q (M.next φ l s s) (.error e)) :
    M.Accepts Q (Prog.attempt l f) φ := by
  intro s
  cases hf : f s with
  | ok r =>
    simp only [hf]
    exact hok s r.1 r.2 hf
  | error e =>
    simp only [hf]
    exact herr s e hf

end Monitor
