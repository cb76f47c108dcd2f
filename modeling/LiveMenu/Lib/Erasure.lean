import LiveMenu.Lib.Guarantee

/-!
# Runs without some of the calls

Somebody who looks at a state sees a part of it, and `R s t` says that he cannot tell `s` from `t`.
`Prog.Follows` says that a second program keeps up with a first one: whenever the first is resumed
in one of two states that look alike, the second has some steps that make them look alike again, and
where the first ends the second has ended alike. `System.Reach.erase` leaves calls out of a run: if
no step of theirs can be seen, a run without them looks the same to every other call.
-/

/-- Both fail with the same error, or both succeed with values that are related. -/
inductive Except.Both {ε α β : Type} (R : α → β → Prop) : Except ε α → Except ε β → Prop
  | ok {a : α} {b : β} (h : R a b) : Both R (.ok a) (.ok b)
  | error (e : ε) : Both R (.error e) (.error e)

lemma Except.Both.bind {ε α β γ δ : Type} {R : α → β → Prop} {R' : γ → δ → Prop}
    {x : Except ε α} {y : Except ε β} {f : α → Except ε γ} {g : β → Except ε δ}
    (h : x.Both R y) (hf : ∀ a b, R a b → (f a).Both R' (g b)) : (x >>= f).Both R' (y >>= g) := by
  cases h with
  | ok hab => exact hf _ _ hab
  | error e => exact .error e

lemma Except.Both.imp {ε α β : Type} {R R' : α → β → Prop} {x : Except ε α} {y : Except ε β}
    (h : x.Both R y) (hR : ∀ a b, R a b → R' a b) : x.Both R' y := by
  cases h with
  | ok hab => exact .ok (hR _ _ hab)
  | error e => exact .error e

/-- A common beginning. -/
lemma Except.both_bind {ε α γ δ : Type} {R' : γ → δ → Prop} {x : Except ε α} {f : α → Except ε γ}
    {g : α → Except ε δ} (hf : ∀ a, x = .ok a → (f a).Both R' (g a)) :
    (x >>= f).Both R' (x >>= g) := by
  cases x with
  | error e => exact .error e
  | ok a => exact hf a rfl

namespace Prog

variable {S L E α β : Type}

/-- Some steps of a program that nobody interrupts. -/
inductive Runs : Prog S L E α → S → Prog S L E α → S → Prop
  | refl (p : Prog S L E α) (s : S) : Runs p s p s
  | step {l : L} {eff : S → S} {next : S → Prog S L E α} {s t : S} {q : Prog S L E α}
      (h : Runs (next s) (eff s) q t) : Runs (.step l eff next) s q t

lemma Runs.bind {p q : Prog S L E α} {s t : S} (h : p.Runs s q t) (k : α → Prog S L E β) :
    (p >>= k).Runs s (q >>= k) t := by
  induction h with
  | refl p s => exact .refl _ _
  | step _ ih => exact .step ih

lemma Runs.handle {p q : Prog S L E α} {s t : S} (h : p.Runs s q t) (k : E → Prog S L E α) :
    (p.handle k).Runs s (q.handle k) t := by
  induction h with
  | refl p s => exact .refl _ _
  | step _ ih => exact .step ih

/-- The second program keeps up with the first: from states related by `R` to states related by
`R'`, and to results related by `Q`. -/
def Follows (R R' : S → S → Prop) (Q : Except E α → Except E α → Prop) :
    Prog S L E α → Prog S L E α → Prop
  | .done r, q            => ∃ r', q = .done r' ∧ Q r r'
  | .step _ eff next, q   => ∀ s t, R s t →
    ∃ q' t', q.Runs t q' t' ∧ R' (eff s) t' ∧ Follows R R' Q (next s) q'

variable {R R' : S → S → Prop} {Q : Except E α → Except E α → Prop}

lemma follows_done {r r' : Except E α} (h : Q r r') :
    Follows R R' Q (.done r : Prog S L E α) (.done r') := ⟨r', rfl, h⟩

lemma follows_pure {a a' : α} (h : Q (.ok a) (.ok a')) :
    Follows R R' Q (pure a : Prog S L E α) (pure a') := follows_done h

lemma follows_raise {e e' : E} (h : Q (.error e) (.error e')) :
    Follows R R' Q (raise e : Prog S L E α) (raise e') := follows_done h

/-- Step by step. -/
lemma follows_step {l l' : L} {eff eff' : S → S} {next next' : S → Prog S L E α}
    (h : ∀ s t, R s t → R' (eff s) (eff' t) ∧ Follows R R' Q (next s) (next' t)) :
    Follows R R' Q (.step l eff next) (.step l' eff' next') := fun s t hst =>
  ⟨next' t, eff' t, .step (.refl _ _), (h s t hst).1, (h s t hst).2⟩

/-- A step that the second program does not make. -/
lemma follows_skip {l : L} {eff : S → S} {next : S → Prog S L E α} {q : Prog S L E α}
    (h : ∀ s t, R s t → R' (eff s) t ∧ Follows R R' Q (next s) q) :
    Follows R R' Q (.step l eff next) q := fun s t hst =>
  ⟨q, t, .refl _ _, (h s t hst).1, (h s t hst).2⟩

lemma follows_modify {Q : Except E Unit → Except E Unit → Prop} {l : L} {f : S → S}
    (h : ∀ s t, R s t → R' (f s) (f t)) (hQ : Q (.ok ()) (.ok ())) :
    Follows R R' Q (modify l f : Prog S L E Unit) (modify l f) :=
  follows_step fun s t hst => ⟨h s t hst, follows_done hQ⟩

lemma follows_attempt {l : L} {f : S → Except E (α × S)}
    (hok : ∀ s t, R s t → (f s).Both (fun x y => R' x.2 y.2 ∧ Q (.ok x.1) (.ok y.1)) (f t))
    (herr : ∀ s t e, R s t → R' s t ∧ Q (.error e) (.error e)) :
    Follows R R' Q (attempt l f) (attempt l f) := by
  refine follows_step fun s t hst => ?_
  have hboth := hok s t hst
  cases hs : f s with
  | ok x =>
    cases ht : f t with
    | ok y =>
      rw [hs, ht] at hboth
      cases hboth with
      | ok h => exact ⟨h.1, follows_done h.2⟩
    | error e =>
      rw [hs, ht] at hboth
      cases hboth
  | error e =>
    cases ht : f t with
    | ok y =>
      rw [hs, ht] at hboth
      cases hboth
    | error e' =>
      rw [hs, ht] at hboth
      cases hboth
      exact ⟨(herr s t e hst).1, follows_done (herr s t e hst).2⟩

lemma Follows.imp {Q' : Except E α → Except E α → Prop} {p q : Prog S L E α}
    (h : p.Follows R R' Q q) (hQ : ∀ r r', Q r r' → Q' r r') : p.Follows R R' Q' q := by
  induction p generalizing q with
  | done r =>
    obtain ⟨r', rfl, hr⟩ := h
    exact ⟨r', rfl, hQ r r' hr⟩
  | step l eff next ih =>
    intro s t hst
    obtain ⟨q', t', hruns, hrel, hnext⟩ := h s t hst
    exact ⟨q', t', hruns, hrel, ih s hnext⟩

/-- The rule of sequential composition. -/
lemma Follows.bind {Q' : Except E β → Except E β → Prop} {p q : Prog S L E α}
    {k k' : α → Prog S L E β} (h : p.Follows R R' Q q)
    (hok : ∀ a r', Q (.ok a) r' → (k a).Follows R R' Q' ((.done r' : Prog S L E α) >>= k'))
    (herr : ∀ e r', Q (.error e) r' →
      (raise e : Prog S L E β).Follows R R' Q' ((.done r' : Prog S L E α) >>= k')) :
    (p >>= k).Follows R R' Q' (q >>= k') := by
  show (p.bind k).Follows R R' Q' (q >>= k')
  induction p generalizing q with
  | done r =>
    obtain ⟨r', rfl, hr⟩ := h
    cases r with
    | ok a => exact hok a r' hr
    | error e => exact herr e r' hr
  | step l eff next ih =>
    intro s t hst
    obtain ⟨q', t', hruns, hrel, hnext⟩ := h s t hst
    exact ⟨q' >>= k', t', hruns.bind k', hrel, ih s hnext⟩

lemma Follows.handle {p q : Prog S L E α} {k k' : E → Prog S L E α} (h : p.Follows R R' Q q)
    {Q' : Except E α → Except E α → Prop}
    (hok : ∀ a r', Q (.ok a) r' →
      (pure a : Prog S L E α).Follows R R' Q' ((.done r' : Prog S L E α).handle k'))
    (herr : ∀ e r', Q (.error e) r' →
      (k e).Follows R R' Q' ((.done r' : Prog S L E α).handle k')) :
    (p.handle k).Follows R R' Q' (q.handle k') := by
  induction p generalizing q with
  | done r =>
    obtain ⟨r', rfl, hr⟩ := h
    cases r with
    | ok a => exact hok a r' hr
    | error e => exact herr e r' hr
  | step l eff next ih =>
    intro s t hst
    obtain ⟨q', t', hruns, hrel, hnext⟩ := h s t hst
    exact ⟨q'.handle k', t', hruns.handle k', hrel, ih s hnext⟩

/-! ### Programs that see nothing -/

/-- The program cannot tell states apart that look alike: it makes the same steps in both, which
look alike again, and returns the same, of which `q` holds. -/
def Blind (R R' : S → S → Prop) (q : α → Prop) (p : Prog S L E α) : Prop :=
  p.Follows R R' (fun r r' => r' = r ∧ ∀ a, r = .ok a → q a) p

section Blind

variable {q : α → Prop} {q' : β → Prop}

lemma blind_pure {a : α} (h : q a) : Blind R R' q (pure a : Prog S L E α) := by
  refine follows_pure ⟨rfl, ?_⟩
  rintro _ ⟨⟩
  exact h

lemma blind_raise (e : E) : Blind R R' q (raise e : Prog S L E α) := by
  refine follows_raise ⟨rfl, ?_⟩
  rintro _ ⟨⟩

lemma blind_read {l : L} {f : S → α} (hR : ∀ s t, R s t → R' s t)
    (h : ∀ s t, R s t → f t = f s ∧ q (f s)) : Blind R R' q (read l f : Prog S L E α) := by
  refine follows_step fun s t hst => ⟨hR s t hst, follows_done ⟨?_, ?_⟩⟩
  · rw [(h s t hst).1]
  · rintro _ ⟨⟩
    exact (h s t hst).2

lemma blind_modify {q : Unit → Prop} {l : L} {f : S → S} (h : ∀ s t, R s t → R' (f s) (f t))
    (hq : q ()) : Blind R R' q (modify l f : Prog S L E Unit) :=
  follows_modify h ⟨rfl, fun _ _ => hq⟩

lemma blind_attempt {l : L} {f : S → Except E (α × S)} (hR : ∀ s t, R s t → R' s t)
    (h : ∀ s t, R s t → (f s).Both (fun x y => y.1 = x.1 ∧ R' x.2 y.2 ∧ q x.1) (f t)) :
    Blind R R' q (attempt l f) := by
  refine follows_attempt (fun s t hst => ?_) fun s t e hst => ⟨hR s t hst, rfl, ?_⟩
  · refine (h s t hst).imp fun x y hxy => ⟨hxy.2.1, by rw [hxy.1], ?_⟩
    rintro _ ⟨⟩
    exact hxy.2.2
  · rintro _ ⟨⟩

lemma Blind.imp {q' : α → Prop} {p : Prog S L E α} (h : p.Blind R R' q) (hq : ∀ a, q a → q' a) :
    p.Blind R R' q' :=
  Follows.imp h fun _ _ hr => ⟨hr.1, fun a ha => hq a (hr.2 a ha)⟩

/-- What goes on from a result that is the same in both. -/
lemma Blind.follows_bind {Q' : Except E β → Except E β → Prop} {p : Prog S L E α}
    {k k' : α → Prog S L E β} (hp : p.Blind R R' q)
    (hk : ∀ a, q a → (k a).Follows R R' Q' (k' a)) (herr : ∀ e, Q' (.error e) (.error e)) :
    (p >>= k).Follows R R' Q' (p >>= k') := by
  refine Follows.bind hp ?_ ?_
  · rintro a _ ⟨rfl, ha⟩
    exact hk a (ha a rfl)
  · rintro e _ ⟨rfl, -⟩
    exact follows_raise (herr e)

lemma Blind.bind {p : Prog S L E α} {k : α → Prog S L E β} (hp : p.Blind R R' q)
    (hk : ∀ a, q a → (k a).Blind R R' q') : (p >>= k).Blind R R' q' := by
  refine hp.follows_bind hk fun e => ⟨rfl, ?_⟩
  rintro _ ⟨⟩

lemma Blind.map {p : Prog S L E α} {f : α → β} (hp : p.Blind R R' fun a => q' (f a)) :
    (f <$> p).Blind R R' q' :=
  Blind.bind hp fun _ ha => blind_pure ha

lemma Blind.handle {p : Prog S L E α} {h : E → Prog S L E α} (hp : p.Blind R R' q)
    (hh : ∀ e, (h e).Blind R R' q) : Blind R R' q (p.handle h) := by
  refine Follows.handle hp ?_ ?_
  · rintro a _ ⟨rfl, ha⟩
    exact blind_pure (ha a rfl)
  · rintro e _ ⟨rfl, -⟩
    exact hh e

/-- What is read and then not used. -/
lemma blind_unread {γ : Type} {l : L} {f : S → γ} {p : Prog S L E α} (hR : ∀ s t, R s t → R' s t)
    (hp : p.Blind R R' q) : Blind R R' q ((read l f : Prog S L E γ) >>= fun _ => p) :=
  follows_step fun s t hst => ⟨hR s t hst, hp⟩

end Blind

end Prog

/-! ### Calls together -/

namespace System

variable {C Φ S L E α G : Type} {sys : System C Φ S L E α G}

variable (sys) in
/-- The steps of a call in a configuration where nobody else moves. -/
lemma exists_reach_of_runs {p q : Prog S L E α} {s t : S} (h : p.Runs s q t)
    {cfg : Config C Φ S L E α G} {i : ℕ} {th : Thread C Φ S L E α}
    (hi : cfg.threads i = some th) (hcode : th.code = p) (hs : cfg.state = s) :
    ∃ cfg' th', sys.Reach Always cfg cfg' ∧ cfg'.state = t ∧ cfg'.threads i = some th' ∧
      th'.call = th.call ∧ th'.code = q ∧ ∀ j ≠ i, cfg'.threads j = cfg.threads j := by
  induction h generalizing cfg th with
  | refl p s => exact ⟨cfg, th, .refl, hs, hi, rfl, hcode, fun _ _ => rfl⟩
  | @step l eff next s t q _ ih =>
    subst hs
    obtain ⟨cfg', th', hreach, ht, hi', hcall, hq, hothers⟩ :=
      @ih (sys.stepped cfg i th l (eff cfg.state) (next cfg.state)) _
        ((stepped_thread cfg i i th l _ _).trans (if_pos rfl)) rfl rfl
    refine ⟨cfg', th', .head (.run cfg i th l eff next hi hcode trivial) hreach, ht, hi', hcall, hq,
      fun j hj => ?_⟩
    rw [hothers j hj, stepped_thread, if_neg hj]

/-- How a call looks in a run without the hidden ones. -/
inductive Mirrors (hidden : C → Prop) (R R' : S → S → Prop)
    (Q : C → Except E α → Except E α → Prop) :
    Option (Thread C Φ S L E α) → Option (Thread C Φ S L E α) → Prop
  | idle : Mirrors hidden R R' Q none none
  | hidden {th : Thread C Φ S L E α} (h : hidden th.call) : Mirrors hidden R R' Q (some th) none
  | seen {th th' : Thread C Φ S L E α} (h : ¬ hidden th.call) (hcall : th'.call = th.call)
      (hcode : th.code.Follows R R' (Q th.call) th'.code) :
      Mirrors hidden R R' Q (some th) (some th')

section Mirrors

variable {hidden : C → Prop} {R R' : S → S → Prop} {Q : C → Except E α → Except E α → Prop}
  {o o' : Option (Thread C Φ S L E α)}

/-- The calls that are left are those that are not hidden. -/
lemma Mirrors.map_call [DecidablePred hidden] (h : Mirrors hidden R R' Q o o') :
    o'.map (·.call) = (o.map (·.call)).filter fun c => ¬ hidden c := by
  cases h with
  | idle => rfl
  | hidden h => rw [Option.map_some, Option.filter_some, if_neg (by simpa using h), Option.map_none]
  | seen h hcall _ =>
    rw [Option.map_some, Option.map_some, Option.filter_some, if_pos (decide_eq_true h), hcall]

/-- A call that has ended has ended alike. -/
lemma Mirrors.done {c : C} {φ : Φ} {r : Except E α}
    (h : Mirrors hidden R R' Q (some ⟨c, φ, .done r⟩) o') (hc : ¬ hidden c) :
    ∃ φ' r', o' = some ⟨c, φ', .done r'⟩ ∧ Q c r r' := by
  generalize ho : (some ⟨c, φ, .done r⟩ : Option (Thread C Φ S L E α)) = o at h
  cases h with
  | idle => cases ho
  | hidden h =>
    cases ho
    exact absurd h hc
  | @seen _ th' _ hcall hcode =>
    cases ho
    obtain ⟨r', hr', hQ⟩ := hcode
    obtain ⟨c', φ', code⟩ := th'
    cases hcall
    cases hr'
    exact ⟨φ', r', rfl, hQ⟩

/-- What is said of every call is said of those that are left. -/
lemma calls_of_mirrors {ok : C → Prop} {cfg tw : Config C Φ S L E α G}
    (h : ∀ i, Mirrors hidden R R' Q (cfg.threads i) (tw.threads i))
    (hcalls : cfg.Calls fun _ => ok) : tw.Calls fun _ => ok := by
  intro i th hi
  have hm := h i
  rw [hi] at hm
  generalize hthr : cfg.threads i = o at hm
  cases hm with
  | seen _ hcall _ => exact hcall ▸ hcalls i _ hthr

end Mirrors

variable {hidden : C → Prop} {I : S → Prop} {R R₀ : S → S → Prop}
  {Q : C → Except E α → Except E α → Prop} {ok : C → Prop}
  {cfg cfg' : Config C Φ S L E α G}

variable (hidden) in
/-- A run from which the hidden calls are left out: what can be seen of their steps others might
have done as well, and every other call does the same in states that look alike. `I` is what is
known of every state of a run. -/
theorem Reach.erase (h : sys.Reach Always cfg cfg') (hidle : ∀ i, cfg.threads i = none)
    (hcalls : cfg'.Calls fun _ => ok)
    (hI : ∀ mid, sys.Reach Always cfg mid → (mid.Calls fun _ => ok) → I mid.state)
    (hboth : ∀ s t, I s → I t → R s t → R₀ s t)
    (hprog : ∀ c, ¬ hidden c → ok c →
      (sys.program c).Follows R₀ R (Q c) (sys.program c))
    (hhidden : ∀ mid i th l eff next t, sys.Reach Always cfg mid → (mid.Calls fun _ => ok) →
      mid.threads i = some th → hidden th.call → th.code = .step l eff next → R mid.state t →
        ∃ t', sys.env t t' ∧ R (eff mid.state) t')
    (henv : ∀ s s' t, R s t → sys.env s s' → ∃ t', sys.env t t' ∧ R s' t')
    (hrefl : R cfg.state cfg.state) :
    ∃ tw, sys.Reach Always cfg tw ∧ R cfg'.state tw.state ∧
      ∀ i, Mirrors hidden R₀ R Q (cfg'.threads i) (tw.threads i) := by
  induction h with
  | refl =>
    refine ⟨cfg, .refl, hrefl, fun i => ?_⟩
    rw [hidle i]
    exact .idle
  | @tail mid last hmid hs ih =>
    have hcalls' : mid.Calls fun _ => ok := Reach.calls (.single hs) hcalls
    obtain ⟨tw, htw, hrel, hmirror⟩ := ih hcalls'
    have hok : tw.Calls fun _ => ok := calls_of_mirrors hmirror hcalls'
    cases hs with
    | start i c hi =>
      have hnone : tw.threads i = none := by
        have hm := hmirror i
        rw [hi] at hm
        generalize tw.threads i = o at hm
        cases hm with
        | idle => rfl
      by_cases hc : hidden c
      · refine ⟨tw, htw, hrel, fun j => ?_⟩
        rw [started_thread]
        split_ifs with hji
        · rw [hji, hnone]
          exact .hidden hc
        · exact hmirror j
      · refine ⟨sys.started tw i c, htw.tail (.start tw i c hnone), hrel, fun j => ?_⟩
        rw [started_thread, started_thread]
        split_ifs with hji
        · refine .seen hc rfl (hprog c hc (hcalls i ⟨c, sys.init c, sys.program c⟩ ?_))
          rw [started_thread, if_pos rfl]
        · exact hmirror j
    | run i th l eff next hi hcode hmay =>
      by_cases hc : hidden th.call
      · obtain ⟨t', henv', hrel'⟩ :=
          hhidden mid i th l eff next tw.state hmid hcalls' hi hc hcode hrel
        refine ⟨{ tw with state := t' }, htw.tail (.env tw t' henv'), hrel', fun j => ?_⟩
        rw [stepped_thread]
        have hm := hmirror j
        split_ifs with hji
        · subst hji
          rw [hi] at hm
          generalize tw.threads j = o at hm
          cases hm with
          | hidden h => exact .hidden h
          | seen h _ _ => exact absurd hc h
        · exact hm
      · have hm := hmirror i
        rw [hi] at hm
        generalize hthr : tw.threads i = o at hm
        cases hm with
        | hidden h => exact absurd h hc
        | @seen _ th' h hcall hfollows =>
          rw [hcode] at hfollows
          obtain ⟨q', t', hruns, hrel', hnext⟩ := hfollows mid.state tw.state
            (hboth _ _ (hI mid hmid hcalls') (hI tw htw hok) hrel)
          obtain ⟨tw', th'', hreach, rfl, hi', hcall', rfl, hothers⟩ :=
            exists_reach_of_runs sys hruns hthr rfl rfl
          refine ⟨tw', Reach.trans htw hreach, hrel', fun j => ?_⟩
          rw [stepped_thread]
          split_ifs with hji
          · rw [hji, hi']
            exact .seen h (hcall'.trans hcall) hnext
          · rw [hothers j hji]
            exact hmirror j
    | env s henv' =>
      obtain ⟨t', ht', hrel'⟩ := henv _ _ _ hrel henv'
      exact ⟨{ tw with state := t' }, htw.tail (.env tw t' ht'), hrel', hmirror⟩

end System
