import Mathlib.Logic.Relation
import LiveMenu.Lib.Program

/-!
# Interleaved calls

A `Config` is a shared state with any number of calls in flight. A step starts a call, runs one
atomic step of one call, or lets the environment move the state. `System.Reach` closes these
steps under a side condition on the steps of calls, `may`; taking `fun _ _ _ _ => True` gives every
interleaving. The ghost component records what the state forgets and never changes a run.
-/

/-- A call in flight: what was called, the phase its monitor is in, the code that is left. -/
structure Thread (C Φ S L E α : Type) where
  call : C
  phase : Φ
  code : Prog S L E α

/-- A shared state, the calls made so far by number, and history variables. -/
structure Config (C Φ S L E α G : Type) where
  state : S
  threads : ℕ → Option (Thread C Φ S L E α)
  ghost : G

/-- The programs of the calls, how phases and history follow the steps, and what the
environment may do. -/
structure System (C Φ S L E α G : Type) where
  program : C → Prog S L E α
  init : C → Φ
  monitor : C → Monitor S L Φ
  onStart : Config C Φ S L E α G → ℕ → C → G
  onStep : Config C Φ S L E α G → ℕ → Thread C Φ S L E α → L → S → G
  env : S → S → Prop

/-- One choice of the scheduler. -/
inductive Choice (C S : Type) where
  | start (i : ℕ) (c : C)
  | run (i : ℕ)
  | env (s : S)

namespace System

variable {C Φ S L E α G : Type} (sys : System C Φ S L E α G)

/-- The configuration after call `i` was started. -/
def started (cfg : Config C Φ S L E α G) (i : ℕ) (c : C) : Config C Φ S L E α G where
  state := cfg.state
  threads := Function.update cfg.threads i (some ⟨c, sys.init c, sys.program c⟩)
  ghost := sys.onStart cfg i c

/-- The configuration after call `i` made the step `l`, which takes the state to `s'` and
leaves `code`. -/
def stepped (cfg : Config C Φ S L E α G) (i : ℕ) (th : Thread C Φ S L E α) (l : L) (s' : S)
    (code : Prog S L E α) : Config C Φ S L E α G where
  state := s'
  threads := Function.update cfg.threads i
    (some ⟨th.call, (sys.monitor th.call).next th.phase l cfg.state s', code⟩)
  ghost := sys.onStep cfg i th l s'

/-- A side condition on the steps of calls: the configuration, the call and its label. -/
abbrev Guard (C Φ S L E α G : Type) :=
  Config C Φ S L E α G → ℕ → Thread C Φ S L E α → L → Prop

/-- The steps of a system under a side condition. -/
inductive Step (may : Guard C Φ S L E α G) :
    Config C Φ S L E α G → Config C Φ S L E α G → Prop
  | start (cfg) (i : ℕ) (c : C) (h : cfg.threads i = none) : Step may cfg (sys.started cfg i c)
  | run (cfg) (i : ℕ) (th : Thread C Φ S L E α) (l : L) (eff : S → S)
      (next : S → Prog S L E α) (h : cfg.threads i = some th) (hcode : th.code = .step l eff next)
      (hmay : may cfg i th l) :
      Step may cfg (sys.stepped cfg i th l (eff cfg.state) (next cfg.state))
  | env (cfg) (s : S) (h : sys.env cfg.state s) : Step may cfg { cfg with state := s }

/-- Reachability by steps that meet the side condition. -/
def Reach (may : Guard C Φ S L E α G) :
    Config C Φ S L E α G → Config C Φ S L E α G → Prop :=
  Relation.ReflTransGen (sys.Step may)

/-- Every interleaving. -/
abbrev Always : Guard C Φ S L E α G := fun _ _ _ _ => True

variable {sys} {may : Guard C Φ S L E α G}

/-- What holds at first and is kept by each step holds of every reachable configuration. -/
lemma Reach.invariant {I : Config C Φ S L E α G → Prop} {cfg cfg' : Config C Φ S L E α G}
    (h : sys.Reach may cfg cfg') (h0 : I cfg)
    (hstep : ∀ c c', I c → sys.Step may c c' → I c') : I cfg' := by
  induction h with
  | refl => exact h0
  | tail _ hs ih => exact hstep _ _ ih hs

lemma Reach.trans {a b c : Config C Φ S L E α G} (h : sys.Reach may a b)
    (h' : sys.Reach may b c) : sys.Reach may a c := Relation.ReflTransGen.trans h h'

lemma started_thread (cfg : Config C Φ S L E α G) (i j : ℕ) (c : C) :
    (sys.started cfg i c).threads j
      = if j = i then some ⟨c, sys.init c, sys.program c⟩ else cfg.threads j := by
  simp only [started, Function.update_apply]

lemma stepped_thread (cfg : Config C Φ S L E α G) (i j : ℕ) (th : Thread C Φ S L E α) (l : L)
    (s' : S) (code : Prog S L E α) :
    (sys.stepped cfg i th l s' code).threads j
      = if j = i then some ⟨th.call, (sys.monitor th.call).next th.phase l cfg.state s', code⟩
        else cfg.threads j := by
  simp only [stepped, Function.update_apply]

/-- The code of every call in flight is accepted from its phase, if it was at first and every
program is accepted from its first phase. -/
lemma Reach.accepts {Q : C → Φ → Except E α → Prop} {cfg cfg' : Config C Φ S L E α G}
    (hprog : ∀ c, (sys.monitor c).Accepts (Q c) (sys.program c) (sys.init c))
    (h0 : ∀ i th, cfg.threads i = some th →
      (sys.monitor th.call).Accepts (Q th.call) th.code th.phase) (h : sys.Reach may cfg cfg') :
    ∀ i th, cfg'.threads i = some th →
      (sys.monitor th.call).Accepts (Q th.call) th.code th.phase := by
  refine Reach.invariant (I := fun cfg => ∀ i th, cfg.threads i = some th →
    (sys.monitor th.call).Accepts (Q th.call) th.code th.phase) h h0 ?_
  intro c c' hI hs j th hj
  cases hs with
  | start i call hi =>
    rw [started_thread] at hj
    split_ifs at hj with hji
    · cases hj
      exact hprog call
    · exact hI j th hj
  | run i ti l eff next hi hcode hmay =>
    rw [stepped_thread] at hj
    split_ifs at hj with hji
    · cases hj
      have hacc := hI i ti hi
      rw [hcode] at hacc
      exact (hacc c.state).2
    · exact hI j th hj
  | env s hs => exact hI j th hj

/-- The induction over interleavings of monitored programs: what holds at first, and is kept by
a new call, by the environment and by every step that the monitor of its call allows, holds of
every reachable configuration. -/
lemma Reach.monitored_code {Q : C → Φ → Except E α → Prop} {I : Config C Φ S L E α G → Prop}
    {cfg cfg' : Config C Φ S L E α G} (h : sys.Reach may cfg cfg')
    (hprog : ∀ c, (sys.monitor c).Accepts (Q c) (sys.program c) (sys.init c))
    (hacc : ∀ i th, cfg.threads i = some th →
      (sys.monitor th.call).Accepts (Q th.call) th.code th.phase) (h0 : I cfg)
    (hstart : ∀ cfg i c, I cfg → cfg.threads i = none → I (sys.started cfg i c))
    (hrun : ∀ cfg i th l eff next, I cfg → cfg.threads i = some th → th.code = .step l eff next →
      may cfg i th l → (sys.monitor th.call).allows th.phase l cfg.state (eff cfg.state) →
        I (sys.stepped cfg i th l (eff cfg.state) (next cfg.state)))
    (henv : ∀ cfg s, I cfg → sys.env cfg.state s → I { cfg with state := s }) : I cfg' := by
  induction h with
  | refl => exact h0
  | tail hreach hs ih =>
    cases hs with
    | start i c hi => exact hstart _ i c ih hi
    | run i th l eff next hi hcode hmay =>
      have hcall := Reach.accepts hprog hacc hreach i th hi
      rw [hcode] at hcall
      exact hrun _ i th l eff next ih hi hcode hmay (hcall _).1
    | env s hs => exact henv _ s ih hs

/-- The same for what depends on a step only through what its monitor allows. -/
lemma Reach.monitored {Q : C → Φ → Except E α → Prop} {I : Config C Φ S L E α G → Prop}
    {cfg cfg' : Config C Φ S L E α G} (h : sys.Reach may cfg cfg')
    (hprog : ∀ c, (sys.monitor c).Accepts (Q c) (sys.program c) (sys.init c))
    (hacc : ∀ i th, cfg.threads i = some th →
      (sys.monitor th.call).Accepts (Q th.call) th.code th.phase) (h0 : I cfg)
    (hstart : ∀ cfg i c, I cfg → cfg.threads i = none → I (sys.started cfg i c))
    (hrun : ∀ cfg i th l s' code, I cfg → cfg.threads i = some th → may cfg i th l →
      (sys.monitor th.call).allows th.phase l cfg.state s' → I (sys.stepped cfg i th l s' code))
    (henv : ∀ cfg s, I cfg → sys.env cfg.state s → I { cfg with state := s }) : I cfg' :=
  h.monitored_code hprog hacc h0 hstart
    (fun cfg i th l _ _ hI hi _ hmay hallow => hrun cfg i th l _ _ hI hi hmay hallow) henv

/-! ### Schedules -/

variable (sys) [DecidableRel sys.env]

/-- Follow one choice of the scheduler, if it is enabled and, for the step of a call, `ok`. -/
def act (ok : Config C Φ S L E α G → ℕ → Bool) (cfg : Config C Φ S L E α G) :
    Choice C S → Option (Config C Φ S L E α G)
  | .start i c =>
    match cfg.threads i with
    | none   => some (sys.started cfg i c)
    | some _ => none
  | .run i =>
    match cfg.threads i with
    | some ⟨c, φ, .step l eff next⟩ =>
      if ok cfg i then
        some (sys.stepped cfg i ⟨c, φ, .step l eff next⟩ l (eff cfg.state) (next cfg.state))
      else none
    | _ => none
  | .env s => if sys.env cfg.state s then some { cfg with state := s } else none

/-- Follow a whole schedule. -/
def follow (ok : Config C Φ S L E α G → ℕ → Bool) :
    List (Choice C S) → Config C Φ S L E α G → Option (Config C Φ S L E α G)
  | [], cfg      => some cfg
  | a :: as, cfg => (sys.act ok cfg a).bind (follow ok as)

variable {sys} {ok : Config C Φ S L E α G → ℕ → Bool}

lemma step_of_act {cfg cfg' : Config C Φ S L E α G} {a : Choice C S}
    (hok : ∀ i th l, cfg.threads i = some th → ok cfg i = true → may cfg i th l)
    (h : sys.act ok cfg a = some cfg') : sys.Step may cfg cfg' := by
  cases a with
  | start i c =>
    simp only [act] at h
    split at h
    · rename_i hi
      cases h
      exact .start cfg i c hi
    · cases h
  | run i =>
    simp only [act] at h
    split at h
    · rename_i c φ l eff next hi
      split_ifs at h with hi'
      cases h
      exact .run cfg i _ l eff next hi rfl (hok i _ l hi hi')
    · cases h
  | env s =>
    simp only [act] at h
    split_ifs at h with hs
    cases h
    exact .env cfg s hs

/-- Calls that were not started are not there. -/
lemma idle_of_act {cfg cfg' : Config C Φ S L E α G} {a : Choice C S} {j : ℕ}
    (h : sys.act ok cfg a = some cfg') (hj : cfg.threads j = none)
    (ha : ∀ c, a ≠ .start j c) : cfg'.threads j = none := by
  cases a with
  | start i c =>
    simp only [act] at h
    split at h
    · cases h
      rw [started_thread, if_neg, hj]
      rintro rfl
      exact ha c rfl
    · cases h
  | run i =>
    simp only [act] at h
    split at h
    · rename_i c φ l eff next hi
      split_ifs at h
      cases h
      rw [stepped_thread, if_neg, hj]
      rintro rfl
      rw [hi] at hj
      cases hj
    · cases h
  | env s =>
    simp only [act] at h
    split_ifs at h
    cases h
    exact hj

/-- What every choice of a schedule keeps holds at its end. -/
lemma follow_invariant {J : Config C Φ S L E α G → Prop} {as : List (Choice C S)}
    {cfg cfg' : Config C Φ S L E α G}
    (hJ : ∀ cfg cfg' a, a ∈ as → J cfg → sys.act ok cfg a = some cfg' → J cfg') (h0 : J cfg)
    (h : sys.follow ok as cfg = some cfg') : J cfg' := by
  induction as generalizing cfg with
  | nil =>
    cases h
    exact h0
  | cons a as ih =>
    simp only [follow, Option.bind_eq_some_iff] at h
    obtain ⟨mid, ha, hrest⟩ := h
    exact ih (fun cfg cfg' a' ha' => hJ cfg cfg' a' (.tail _ ha')) (hJ cfg mid a (.head _) h0 ha)
      hrest

/-- A schedule that can be followed is an interleaving under the side condition that `ok` checks,
where `J` holds of the configurations on the way. -/
lemma reach_of_follow {J : Config C Φ S L E α G → Prop} {as : List (Choice C S)}
    {cfg cfg' : Config C Φ S L E α G}
    (hJ : ∀ cfg cfg' a, a ∈ as → J cfg → sys.act ok cfg a = some cfg' → J cfg')
    (hok : ∀ cfg i th l, J cfg → cfg.threads i = some th → ok cfg i = true → may cfg i th l)
    (h0 : J cfg) (h : sys.follow ok as cfg = some cfg') : sys.Reach may cfg cfg' := by
  induction as generalizing cfg with
  | nil =>
    cases h
    exact .refl
  | cons a as ih =>
    simp only [follow, Option.bind_eq_some_iff] at h
    obtain ⟨mid, ha, hrest⟩ := h
    refine .head (step_of_act (fun i th l hi hoki => hok cfg i th l h0 hi hoki) ha) ?_
    exact ih (fun cfg cfg' a' ha' => hJ cfg cfg' a' (.tail _ ha')) (hJ cfg mid a (.head _) h0 ha)
      hrest

/-- What a schedule leads to can be reached under the side condition that `ok` checks. -/
lemma exists_reach_of_checked {as : List (Choice C S)} {cfg : Config C Φ S L E α G}
    {p : Config C Φ S L E α G → Bool}
    (hok : ∀ (cfg : Config C Φ S L E α G) i th l, cfg.threads i = some th → ok cfg i = true →
      may cfg i th l)
    (h : (sys.follow ok as cfg).any p = true) : ∃ cfg', sys.Reach may cfg cfg' ∧ p cfg' = true := by
  cases hf : sys.follow ok as cfg with
  | none =>
    rw [hf] at h
    cases h
  | some cfg' =>
    rw [hf] at h
    exact ⟨cfg', reach_of_follow (J := fun _ => True) (fun _ _ _ _ _ _ => trivial)
      (fun cfg i th l _ => hok cfg i th l) trivial hf, h⟩

/-- What a schedule leads to can be reached. -/
lemma exists_reach_of_follow {as : List (Choice C S)} {cfg : Config C Φ S L E α G}
    {p : Config C Φ S L E α G → Bool}
    (h : (sys.follow (fun _ _ => true) as cfg).any p = true) :
    ∃ cfg', sys.Reach Always cfg cfg' ∧ p cfg' = true :=
  exists_reach_of_checked (fun _ _ _ _ _ _ => trivial) h

/-- What a schedule of the calls below `n` leads to can be reached under the side condition that
`ok` checks. -/
lemma exists_reach_of_follow_below {n : ℕ} {as : List (Choice C S)} {cfg : Config C Φ S L E α G}
    {p : Config C Φ S L E α G → Bool} (hidle : ∀ j, n ≤ j → cfg.threads j = none)
    (has : ∀ i c, .start i c ∈ as → i < n)
    (hok : ∀ (cfg : Config C Φ S L E α G) i th l, (∀ j, n ≤ j → cfg.threads j = none) →
      cfg.threads i = some th → ok cfg i = true → may cfg i th l)
    (h : (sys.follow ok as cfg).any p = true) :
    ∃ cfg', sys.Reach may cfg cfg' ∧ (∀ j, n ≤ j → cfg'.threads j = none) ∧ p cfg' = true := by
  have hkeep : ∀ (cfg cfg' : Config C Φ S L E α G) a, a ∈ as →
      (∀ j, n ≤ j → cfg.threads j = none) → sys.act ok cfg a = some cfg' →
        ∀ j, n ≤ j → cfg'.threads j = none := by
    intro cfg cfg' a ha hJ hact j hj
    apply idle_of_act hact (hJ j hj)
    intro c hc
    exact absurd (has j c (hc ▸ ha)) (Nat.not_lt.mpr hj)
  cases hf : sys.follow ok as cfg with
  | none =>
    rw [hf] at h
    cases h
  | some cfg' =>
    rw [hf] at h
    exact ⟨cfg', reach_of_follow hkeep hok hidle hf, follow_invariant hkeep hidle hf, h⟩

end System
