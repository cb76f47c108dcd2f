import LiveMenu.Lib.Program

/-!
# Programs on a part of a state

A program on a part of a state is a program on the whole: each step changes the part and leaves the
rest. A monitor of the whole follows it if it allows what a monitor of the part allows.
-/

/-- A part `S` of the states `T`: how to read it, and how to put it back changed. -/
structure View (T S : Type) where
  get : T → S
  set : T → S → T

namespace Prog

variable {T S L L' E E' α : Type}

/-- Run a program on a part of the state, with its labels and exceptions renamed. -/
def zoom (V : View T S) (lab : L → L') (err : E → E') : Prog S L E α → Prog T L' E' α
  | .done r          => .done (r.mapError err)
  | .step l eff next =>
    .step (lab l) (fun t => V.set t (eff (V.get t))) fun t => (next (V.get t)).zoom V lab err

end Prog

namespace Monitor

variable {T S L L' E E' Φ α : Type} {V : View T S} {lab : L → L'} {err : E → E'}
  {M : Monitor S L Φ} {M' : Monitor T L' Φ} {Q : Φ → Except E α → Prop}
  {R : Φ → Except E' α → Prop}

/-- What a monitor of the part follows, a monitor of the whole that agrees with it follows too. -/
lemma accepts_zoom {p : Prog S L E α} {φ : Φ} (hp : M.Accepts Q p φ)
    (hM : ∀ φ l t s', M.allows φ l (V.get t) s' → M'.allows φ (lab l) t (V.set t s') ∧
      M'.next φ (lab l) t (V.set t s') = M.next φ l (V.get t) s')
    (hQ : ∀ φ r, Q φ r → R φ (r.mapError err)) : M'.Accepts R (p.zoom V lab err) φ := by
  induction p generalizing φ with
  | done r => exact hQ φ r hp
  | step l eff next ih =>
    intro t
    obtain ⟨hallow, hnext⟩ := hp (V.get t)
    obtain ⟨hallow', heq⟩ := hM φ l t _ hallow
    refine ⟨hallow', ?_⟩
    rw [heq]
    exact ih (V.get t) hnext

end Monitor
