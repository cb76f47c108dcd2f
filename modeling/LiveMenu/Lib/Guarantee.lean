import LiveMenu.Lib.Interleaving

/-!
# Guarantees under interleaving

`Prog.Keeps I G Q` says of a program that is interrupted at will: if every state on its way meets
`I`, each of its steps is one that `G` allows, and its result meets `Q`. What it has read is a
value, which nobody else can change, so `Q` and the steps to come may rely on what `I` says of that
value. Calls that keep `I` among themselves keep it together: this is `System.Reach.keeps`.
-/

namespace Prog

variable {S L E α β : Type}

/-- Where the states before and after each step have `I`, the steps of the program meet `G` and its
result meets `Q`. -/
def Keeps (I : S → Prop) (G : S → S → Prop) (Q : Except E α → Prop) : Prog S L E α → Prop
  | .done r           => Q r
  | .step _ eff next  => ∀ s, I s → G s (eff s) ∧ (I (eff s) → Keeps I G Q (next s))

variable {I : S → Prop} {G : S → S → Prop} {Q : Except E α → Prop}

lemma keeps_pure {a : α} (h : Q (.ok a)) : (pure a : Prog S L E α).Keeps I G Q := h

lemma keeps_raise {e : E} (h : Q (.error e)) : (raise e : Prog S L E α).Keeps I G Q := h

lemma keeps_read {l : L} {f : S → α} (hG : ∀ s, I s → G s s) (hQ : ∀ s, I s → Q (.ok (f s))) :
    (read l f : Prog S L E α).Keeps I G Q := fun s hs => ⟨hG s hs, fun _ => hQ s hs⟩

lemma keeps_modify {Q : Except E Unit → Prop} {l : L} {f : S → S} (hG : ∀ s, I s → G s (f s))
    (hQ : Q (.ok ())) : (modify l f : Prog S L E Unit).Keeps I G Q :=
  fun s hs => ⟨hG s hs, fun _ => hQ⟩

lemma keeps_attempt {l : L} {f : S → Except E (α × S)}
    (hok : ∀ s a s', I s → f s = .ok (a, s') → G s s' ∧ (I s' → Q (.ok a)))
    (herr : ∀ s e, I s → f s = .error e → G s s ∧ Q (.error e)) :
    (attempt l f).Keeps I G Q := by
  intro s hs
  cases hf : f s with
  | ok r =>
    simp only [hf]
    exact hok s r.1 r.2 hs hf
  | error e =>
    simp only [hf]
    obtain ⟨hG, hQ⟩ := herr s e hs hf
    exact ⟨hG, fun _ => hQ⟩

lemma Keeps.mono {I' : S → Prop} {G' : S → S → Prop} {Q' : Except E α → Prop} {p : Prog S L E α}
    (h : p.Keeps I G Q) (hI : ∀ s, I' s → I s) (hG : ∀ s s', I' s → G s s' → G' s s')
    (hQ : ∀ r, Q r → Q' r) : p.Keeps I' G' Q' := by
  induction p with
  | done r => exact hQ r h
  | step l eff next ih =>
    intro s hs
    obtain ⟨hstep, hnext⟩ := h s (hI s hs)
    exact ⟨hG s (eff s) hs hstep, fun hs' => ih s (hnext (hI _ hs'))⟩

/-- Nothing is asked of the steps, and every result will do. -/
lemma keeps_any {p : Prog S L E α} (hQ : ∀ r, Q r) : p.Keeps I (fun _ _ => True) Q := by
  induction p with
  | done r => exact hQ r
  | step l eff next ih => exact fun s _ => ⟨trivial, fun _ => ih s⟩

/-- A program whose result is looked at in another way. -/
lemma Keeps.imp {Q' : Except E α → Prop} {p : Prog S L E α} (h : p.Keeps I G Q)
    (hQ : ∀ r, Q r → Q' r) : p.Keeps I G Q' :=
  h.mono (fun _ hs => hs) (fun _ _ _ hstep => hstep) hQ

/-- The rule of sequential composition. -/
lemma Keeps.bind {R : Except E β → Prop} {p : Prog S L E α} {k : α → Prog S L E β}
    (hp : p.Keeps I G fun r => match r with
      | .ok a    => (k a).Keeps I G R
      | .error e => R (.error e)) :
    (p >>= k).Keeps I G R := by
  show (p.bind k).Keeps I G R
  induction p with
  | done r => cases r <;> exact hp
  | step l eff next ih => exact fun s hs => ⟨(hp s hs).1, fun hs' => ih s ((hp s hs).2 hs')⟩

/-- The same with what is known of the first result stated on its own. -/
lemma Keeps.seq {R : Except E β → Prop} {p : Prog S L E α} {k : α → Prog S L E β}
    (hp : p.Keeps I G Q) (hok : ∀ a, Q (.ok a) → (k a).Keeps I G R)
    (herr : ∀ e, Q (.error e) → R (.error e)) : (p >>= k).Keeps I G R := by
  refine Keeps.bind (hp.imp fun r hr => ?_)
  cases r with
  | ok a => exact hok a hr
  | error e => exact herr e hr

/-- A sequence whose first part is bound to fail. -/
lemma Keeps.bind_error {e : E} {p : Prog S L E α} {k : α → Prog S L E β}
    (hp : p.Keeps I G fun r => r = .error e) : (p >>= k).Keeps I G fun r => r = .error e := by
  refine hp.seq ?_ ?_
  · rintro a ⟨⟩
  · rintro _ ⟨⟩
    rfl

lemma Keeps.handle {h : E → Prog S L E α} {p : Prog S L E α}
    (hp : p.Keeps I G fun r => match r with
      | .ok a    => Q (.ok a)
      | .error e => (h e).Keeps I G Q) :
    (p.handle h).Keeps I G Q := by
  induction p with
  | done r => cases r <;> exact hp
  | step l eff next ih => exact fun s hs => ⟨(hp s hs).1, fun hs' => ih s ((hp s hs).2 hs')⟩

/-! ### Programs that bring something about -/

/-- Every run of the program, whatever others do between its steps, goes through a state with `J` or
ends with a result that meets `R`. -/
def PassesOr (J : S → Prop) (R : Except E α → Prop) : Prog S L E α → Prop
  | .done r           => R r
  | .step _ eff next  => ∀ s, J s ∨ J (eff s) ∨ PassesOr J R (next s)

section PassesOr

variable {J : S → Prop} {R : Except E α → Prop}

lemma passesOr_pure {a : α} (h : R (.ok a)) : (pure a : Prog S L E α).PassesOr J R := h

lemma passesOr_raise {e : E} (h : R (.error e)) : (raise e : Prog S L E α).PassesOr J R := h

lemma passesOr_read {l : L} {f : S → α} (h : ∀ s, J s ∨ R (.ok (f s))) :
    (read l f : Prog S L E α).PassesOr J R := fun s => (h s).imp_right .inr

lemma passesOr_attempt {l : L} {f : S → Except E (α × S)}
    (hok : ∀ s a s', f s = .ok (a, s') → J s ∨ J s' ∨ R (.ok a))
    (herr : ∀ s e, f s = .error e → J s ∨ R (.error e)) : (attempt l f).PassesOr J R := by
  intro s
  cases hf : f s with
  | ok r =>
    simp only [hf]
    exact hok s r.1 r.2 hf
  | error e =>
    simp only [hf]
    exact (herr s e hf).imp_right .inr

lemma PassesOr.seq {R' : Except E β → Prop} {p : Prog S L E α} {k : α → Prog S L E β}
    (hp : p.PassesOr J R) (hok : ∀ a, R (.ok a) → (k a).PassesOr J R')
    (herr : ∀ e, R (.error e) → R' (.error e)) : (p >>= k).PassesOr J R' := by
  show (p.bind k).PassesOr J R'
  induction p with
  | done r =>
    cases r with
    | ok a => exact hok a hp
    | error e => exact herr e hp
  | step l eff next ih => exact fun s => (hp s).imp_right fun hs => hs.imp_right (ih s)

/-- Nothing is asked of the result. -/
lemma passesOr_any {p : Prog S L E α} (hR : ∀ r, R r) : p.PassesOr J R := by
  induction p with
  | done r => exact hR r
  | step l eff next ih => exact fun s => .inr (.inr (ih s))

end PassesOr

end Prog

/-! ### Calls together -/

namespace Config

variable {C Φ S L E α G : Type} (cfg : Config C Φ S L E α G)

/-- Each call started so far is of the kind that is expected of its number. -/
def Calls (ok : ℕ → C → Prop) : Prop := ∀ i th, cfg.threads i = some th → ok i th.call

/-- The call has ended. -/
def Ended (i : ℕ) : Prop := ∃ th r, cfg.threads i = some th ∧ th.code = .done r

/-- The code of every call under way keeps the guarantee of the call. -/
def Keeps (I : S → Prop) (Gr : C → S → S → Prop) (Q : ℕ → C → Except E α → Prop) : Prop :=
  ∀ i th, cfg.threads i = some th → th.code.Keeps I (Gr th.call) (Q i th.call)

variable {cfg} {I : S → Prop} {Gr : C → S → S → Prop} {Q : ℕ → C → Except E α → Prop}

/-- What a call that has ended returned. -/
lemma Keeps.result (h : cfg.Keeps I Gr Q) {i : ℕ} {th : Thread C Φ S L E α} {r : Except E α}
    (hi : cfg.threads i = some th) (hdone : th.code = .done r) : Q i th.call r := by
  have hth := h i th hi
  rwa [hdone] at hth

/-- What the next step of a call does. -/
lemma Keeps.step (h : cfg.Keeps I Gr Q) {i : ℕ} {th : Thread C Φ S L E α} {l : L} {eff : S → S}
    {next : S → Prog S L E α} (hi : cfg.threads i = some th) (hcode : th.code = .step l eff next)
    (hI : I cfg.state) : Gr th.call cfg.state (eff cfg.state) := by
  have hth := h i th hi
  rw [hcode] at hth
  exact (hth cfg.state hI).1

lemma calls_any : cfg.Calls fun _ _ => True := fun _ _ _ => trivial

lemma keeps_of_idle (h : ∀ i, cfg.threads i = none) : cfg.Keeps I Gr Q := by
  intro i th hi
  rw [h i] at hi
  cases hi

end Config

namespace System

variable {C Φ S L E α G : Type} {sys : System C Φ S L E α G} {may : Guard C Φ S L E α G}
  {cfg cfg' : Config C Φ S L E α G} {I : S → Prop} {Gr : C → S → S → Prop}
  {Q : ℕ → C → Except E α → Prop} {ok : ℕ → C → Prop}

/-- A run that meets a side condition is a run. -/
lemma Reach.always (h : sys.Reach may cfg cfg') : sys.Reach Always cfg cfg' := by
  refine Relation.ReflTransGen.mono ?_ _ _ h
  intro c c' hs
  cases hs with
  | start i call hi => exact .start c i call hi
  | run i th l eff next hi hcode hmay => exact .run c i th l eff next hi hcode trivial
  | env s hs => exact .env c s hs

/-- A call that was started stays there. -/
lemma Step.call_eq (h : sys.Step may cfg cfg') {i : ℕ} {th : Thread C Φ S L E α}
    (hi : cfg.threads i = some th) : ∃ th', cfg'.threads i = some th' ∧ th'.call = th.call := by
  cases h with
  | start j c hj =>
    have hne : i ≠ j := by
      rintro rfl
      rw [hj] at hi
      cases hi
    exact ⟨th, by rw [started_thread, if_neg hne, hi], rfl⟩
  | run j tj l eff next hj hcode hmay =>
    rw [stepped_thread]
    by_cases hij : i = j
    · subst hij
      rw [hj] at hi
      cases hi
      exact ⟨_, if_pos rfl, rfl⟩
    · exact ⟨th, (if_neg hij).trans hi, rfl⟩
  | env s hs => exact ⟨th, hi, rfl⟩

lemma Reach.call_eq (h : sys.Reach may cfg cfg') {i : ℕ} {th : Thread C Φ S L E α}
    (hi : cfg.threads i = some th) : ∃ th', cfg'.threads i = some th' ∧ th'.call = th.call := by
  induction h with
  | refl => exact ⟨th, hi, rfl⟩
  | tail _ hs ih =>
    obtain ⟨th', hi', hcall⟩ := ih
    obtain ⟨th'', hi'', hcall'⟩ := hs.call_eq hi'
    exact ⟨th'', hi'', hcall'.trans hcall⟩

/-- A call that was not started later was not started before. -/
lemma Reach.idle (h : sys.Reach may cfg cfg') {i : ℕ} (hi : cfg'.threads i = none) :
    cfg.threads i = none := by
  by_contra hne
  obtain ⟨th, hth⟩ := Option.ne_none_iff_exists'.mp hne
  obtain ⟨th', hth', -⟩ := h.call_eq hth
  rw [hi] at hth'
  cases hth'

lemma Reach.calls (h : sys.Reach may cfg cfg') (hok : cfg'.Calls ok) : cfg.Calls ok := by
  intro i th hi
  obtain ⟨th', hi', hcall⟩ := h.call_eq hi
  exact hcall ▸ hok i th' hi'

/-- What one step does to a state with the invariant, when every call keeps its guarantee. -/
lemma Step.effect (h : sys.Step may cfg cfg') (hkeep : cfg.Keeps I Gr Q) (hI : I cfg.state) :
    cfg'.state = cfg.state ∨ sys.env cfg.state cfg'.state ∨
      ∃ i th, cfg.threads i = some th ∧ Gr th.call cfg.state cfg'.state := by
  cases h with
  | start i c hi => exact .inl rfl
  | run i th l eff next hi hcode hmay => exact .inr (.inr ⟨i, th, hi, hkeep.step hi hcode hI⟩)
  | env s hs => exact .inr (.inl hs)

lemma Step.keeps (h : sys.Step may cfg cfg')
    (hprog : ∀ i c, cfg.threads i = none → ok i c → (sys.program c).Keeps I (Gr c) (Q i c))
    (hok : cfg'.Calls ok) (hkeep : cfg.Keeps I Gr Q) (hI : I cfg.state) (hI' : I cfg'.state) :
    cfg'.Keeps I Gr Q := by
  intro j tj hj
  cases h with
  | start i c hi =>
    have hcall := hok j tj hj
    rw [started_thread] at hj
    split_ifs at hj with hji
    · cases hj
      exact hprog j c (hji ▸ hi) hcall
    · exact hkeep j tj hj
  | run i th l eff next hi hcode hmay =>
    rw [stepped_thread] at hj
    split_ifs at hj with hji
    · cases hj
      subst hji
      have hth := hkeep j th hi
      rw [hcode] at hth
      exact (hth cfg.state hI).2 hI'
    · exact hkeep j tj hj
  | env s hs => exact hkeep j tj hj

/-- Parallel composition: calls whose steps keep the invariant, if each state they are resumed in
has it, keep it in every interleaving, and each of them its own guarantee. What is known of every
state on the way, `J`, may be used for it. -/
theorem Reach.keeps_along {J : S → Prop} (h : sys.Reach may cfg cfg')
    (hprog : ∀ i c, cfg.threads i = none → ok i c → (sys.program c).Keeps I (Gr c) (Q i c))
    (hJ : ∀ mid, sys.Reach may cfg mid → sys.Reach may mid cfg' → J mid.state)
    (hG : ∀ i c s s', ok i c → I s → J s' → Gr c s s' → I s')
    (henv : ∀ s s', I s → J s' → sys.env s s' → I s') (hok : cfg'.Calls ok)
    (hkeep : cfg.Keeps I Gr Q) (hI : I cfg.state) : cfg'.Keeps I Gr Q ∧ I cfg'.state := by
  induction h with
  | refl => exact ⟨hkeep, hI⟩
  | @tail mid last hreach hs ih =>
    have hlast : sys.Reach may mid last := .single hs
    have hok' := hlast.calls hok
    obtain ⟨hkeep', hI'⟩ := ih (fun c hc hc' => hJ c hc (hc'.trans hlast)) hok'
    have hJ' := hJ last (Reach.trans hreach hlast) .refl
    have hlast' : I last.state := by
      obtain heq | hstep | ⟨i, th, hi, hstep⟩ := hs.effect hkeep' hI'
      · exact heq ▸ hI'
      · exact henv _ _ hI' hJ' hstep
      · exact hG i _ _ _ (hok' i th hi) hI' hJ' hstep
    exact ⟨hs.keeps (fun i c hi => hprog i c (Reach.idle hreach hi)) hok hkeep' hI' hlast', hlast'⟩

/-- Parallel composition with nothing known beforehand. -/
theorem Reach.keeps (h : sys.Reach may cfg cfg')
    (hprog : ∀ i c, cfg.threads i = none → ok i c → (sys.program c).Keeps I (Gr c) (Q i c))
    (hG : ∀ i c s s', ok i c → I s → Gr c s s' → I s') (henv : ∀ s s', I s → sys.env s s' → I s')
    (hok : cfg'.Calls ok) (hkeep : cfg.Keeps I Gr Q) (hI : I cfg.state) :
    cfg'.Keeps I Gr Q ∧ I cfg'.state :=
  h.keeps_along (J := fun _ => True) hprog (fun _ _ _ => trivial)
    (fun i c s s' hc hs _ hstep => hG i c s s' hc hs hstep)
    (fun s s' hs _ hstep => henv s s' hs hstep)
    hok hkeep hI

/-- What is known of every state from some point on decides what a call that begins later
returns. -/
theorem Reach.result_of_later {J : S → Prop} {R : Except E α → Prop} (h : sys.Reach may cfg cfg')
    (hJ : ∀ mid, sys.Reach may cfg mid → sys.Reach may mid cfg' → J mid.state) {i : ℕ}
    (hlater : cfg.threads i = none) {th : Thread C Φ S L E α} (hi : cfg'.threads i = some th)
    {r : Except E α} (hdone : th.code = .done r)
    (hprog : (sys.program th.call).Keeps J (fun _ _ => True) R) : R r := by
  have hkeep : cfg'.Keeps J (fun _ _ _ => True) fun j c r =>
      cfg.threads j = none → c = th.call → R r := by
    refine (h.keeps_along ?_ hJ (fun _ _ _ _ _ _ hs _ => hs) (fun _ _ _ hs _ => hs)
      Config.calls_any ?_ (hJ cfg .refl h)).1
    · intro j c _ _
      by_cases hc : c = th.call
      · exact (hc ▸ hprog).imp fun r hr _ _ => hr
      · exact Prog.keeps_any fun r _ hc' => absurd hc' hc
    · intro j tj hj
      refine Prog.keeps_any fun r hnone => ?_
      rw [hj] at hnone
      cases hnone
  exact hkeep.result hi hdone hlater rfl

/-- A call that has ended stays as it is. -/
lemma Step.done_eq (h : sys.Step may cfg cfg') {i : ℕ} {th : Thread C Φ S L E α} {r : Except E α}
    (hi : cfg.threads i = some th) (hdone : th.code = .done r) : cfg'.threads i = some th := by
  cases h with
  | start j c hj =>
    rw [started_thread, if_neg, hi]
    rintro rfl
    rw [hj] at hi
    cases hi
  | run j tj l eff next hj hcode hmay =>
    rw [stepped_thread, if_neg, hi]
    rintro rfl
    rw [hj, Option.some.injEq] at hi
    rw [hi, hdone] at hcode
    cases hcode
  | env s hs => exact hi

lemma Reach.done_eq (h : sys.Reach may cfg cfg') {i : ℕ} {th : Thread C Φ S L E α} {r : Except E α}
    (hi : cfg.threads i = some th) (hdone : th.code = .done r) : cfg'.threads i = some th := by
  induction h with
  | refl => exact hi
  | tail _ hs ih => exact hs.done_eq ih hdone

lemma Reach.ended (h : sys.Reach may cfg cfg') {i : ℕ} (hi : cfg.Ended i) : cfg'.Ended i := by
  obtain ⟨th, r, hth, hdone⟩ := hi
  exact ⟨th, r, h.done_eq hth hdone, hdone⟩

/-- A call that is there after a step is as it was, has not taken a step yet, or has taken this
one. -/
lemma Step.thread_cases (h : sys.Step may cfg cfg') {i : ℕ} {th : Thread C Φ S L E α}
    (hi : cfg'.threads i = some th) :
    cfg.threads i = some th ∨ th.code = sys.program th.call ∨
      ∃ th' l, cfg.threads i = some th' ∧ th'.call = th.call ∧ may cfg i th' l := by
  cases h with
  | start j c hj =>
    rw [started_thread] at hi
    split_ifs at hi with hij
    · cases hi
      exact .inr (.inl rfl)
    · exact .inl hi
  | run j tj l eff next hj hcode hmay =>
    rw [stepped_thread] at hi
    split_ifs at hi with hij
    · cases hi
      subst hij
      exact .inr (.inr ⟨tj, l, hj, rfl, hmay⟩)
    · exact .inl hi
  | env s hs => exact .inl hi

/-- What a call brings about, and nothing on the way undoes, is there when it has ended, unless it
ended in another way. -/
theorem Reach.brings {J : S → Prop} {R : Except E α → Prop} (h : sys.Reach may cfg cfg') {i : ℕ}
    (hlater : cfg.threads i = none) {th : Thread C Φ S L E α} (hi : cfg'.threads i = some th)
    (hprog : (sys.program th.call).PassesOr J R)
    (hstable : ∀ mid, sys.Reach may cfg mid → sys.Reach may mid cfg' → J mid.state → J cfg'.state) :
    J cfg'.state ∨ th.code.PassesOr J R := by
  have hway : ∀ c, sys.Reach may cfg c → sys.Reach may c cfg' →
      J cfg'.state ∨ ∀ tc, c.threads i = some tc → tc.code.PassesOr J R := by
    intro c hc
    induction hc with
    | refl =>
      intro _
      refine .inr fun tc htc => ?_
      rw [hlater] at htc
      cases htc
    | @tail mid last hmid hs ih =>
      intro hrest
      have hlast : sys.Reach may mid last := .single hs
      have hreach : sys.Reach may cfg last := Reach.trans hmid hlast
      refine (ih (Reach.trans hlast hrest)).elim .inl fun hmid' => ?_
      cases hs with
      | start j c hj =>
        refine .inr fun tc htc => ?_
        obtain ⟨tc', htc', hcall⟩ := hrest.call_eq htc
        rw [hi, Option.some.injEq] at htc'
        rw [started_thread] at htc
        split_ifs at htc with hij
        · cases htc
          rw [htc', hcall] at hprog
          exact hprog
        · exact hmid' tc htc
      | run j tj l eff next hj hcode hmay =>
        by_cases hij : i = j
        · subst hij
          have htj := hmid' tj hj
          rw [hcode] at htj
          obtain hJ | hJ | hnext := htj mid.state
          · exact .inl (hstable mid hmid (Reach.trans hlast hrest) hJ)
          · exact .inl (hstable _ hreach hrest hJ)
          · refine .inr fun tc htc => ?_
            rw [stepped_thread, if_pos rfl] at htc
            cases htc
            exact hnext
        · refine .inr fun tc htc => ?_
          rw [stepped_thread, if_neg hij] at htc
          exact hmid' tc htc
      | env s hs => exact .inr hmid'
  exact (hway cfg' h .refl).imp_right fun hcode => hcode th hi

/-- Where every step of a call and of the environment goes on as `R` says, so does a run. -/
theorem Reach.evolves {R : S → S → Prop} (h : sys.Reach may cfg cfg')
    (hprog : ∀ i c, cfg.threads i = none → ok i c → (sys.program c).Keeps I (Gr c) (Q i c))
    (hG : ∀ i c s s', ok i c → I s → Gr c s s' → I s') (henv : ∀ s s', I s → sys.env s s' → I s')
    (hok : cfg'.Calls ok) (hkeep : cfg.Keeps I Gr Q) (hI : I cfg.state)
    (hrefl : ∀ s, R s s) (htrans : ∀ s s' s'', R s s' → R s' s'' → R s s'')
    (hR : ∀ i c s s', ok i c → I s → Gr c s s' → R s s') (henvR : ∀ s s', sys.env s s' → R s s') :
    R cfg.state cfg'.state := by
  induction h with
  | refl => exact hrefl _
  | @tail mid last hreach hs ih =>
    have hlast : sys.Reach may mid last := .single hs
    have hok' := hlast.calls hok
    obtain ⟨hkeep', hI'⟩ := Reach.keeps hreach hprog hG henv hok' hkeep hI
    refine htrans _ _ _ (ih hok') ?_
    obtain heq | hstep | ⟨i, th, hi, hstep⟩ := hs.effect hkeep' hI'
    · exact heq ▸ hrefl _
    · exact henvR _ _ hstep
    · exact hR i _ _ _ (hok' i th hi) hI' hstep

end System
