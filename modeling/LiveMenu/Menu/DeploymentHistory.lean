import LiveMenu.Menu.History
import LiveMenu.Menu.Processes
import LiveMenu.Model.Deployment

/-!
# Where the menus of a deployment come from

The requests to all processes, interleaved at their awaits. To one process the others are part of
what happens around it, so its share of the record is that of a process of its own; the record of
the deployment adds the times.
-/

namespace LiveMenu

open MenuService

/-! ### The record -/

/-- What happened so far, stamped with the number of steps made before. -/
structure DeploymentHistory where
  moment : ℕ
  /-- The database that each step found. -/
  db : ℕ → Database
  /-- When each step was made. -/
  time : ℕ → Time
  committed : ℕ → Option ℕ
  source : ℕ → ℕ
  /-- When the first of the rows was read that a cached menu of a process was built from. -/
  cachedAt : ℕ → String → ℕ
  /-- When a call last looked into the cache or stored a menu there: a call that has a menu got it
  then. -/
  returned : ℕ → ℕ

namespace DeploymentHistory

/-- Nothing has happened yet. -/
def empty (db : Database) : DeploymentHistory where
  moment := 0
  db _ := db
  time _ := 0
  committed _ := none
  source _ := 0
  cachedAt _ _ := 0
  returned _ := 0

/-- The record as far as it concerns the cache of process `p`. -/
def of (h : DeploymentHistory) (p : ℕ) : MenuHistory :=
  ⟨h.moment, h.db, h.committed, h.source, h.cachedAt p⟩

/-- Call `i` makes the step `l` in process `p`, in the world `w`. -/
def stepped (h : DeploymentHistory) (p i : ℕ) (l : Label) (w : World) : DeploymentHistory where
  moment := ((h.of p).stepped i l w).moment
  db := ((h.of p).stepped i l w).db
  time := Function.update h.time h.moment w.now
  committed := ((h.of p).stepped i l w).committed
  source := ((h.of p).stepped i l w).source
  cachedAt := Function.update h.cachedAt p ((h.of p).stepped i l w).cachedAt
  returned :=
    match l with
    | .cacheGet _ | .cacheSet _ => Function.update h.returned i h.moment
    | _                         => h.returned

/-- What holds of the database at every recorded moment from the time `a` to the time `b`. -/
def Throughout (h : DeploymentHistory) (a b : Time) (p : Tables → Prop) : Prop :=
  ∀ k < h.moment, a ≤ h.time k → h.time k ≤ b → p (h.db k).toTables

variable {h : DeploymentHistory} {p q i j : ℕ} {l : Label} {w : World}

@[simp] lemma of_moment : (h.of p).moment = h.moment := rfl

@[simp] lemma of_db : (h.of p).db = h.db := rfl

@[simp] lemma of_source : (h.of p).source = h.source := rfl

@[simp] lemma of_cachedAt : (h.of p).cachedAt = h.cachedAt p := rfl

@[simp] lemma stepped_moment : (h.stepped p i l w).moment = h.moment + 1 := rfl

/-- The step is one of the process. -/
lemma of_stepped_self : (h.stepped p i l w).of p = (h.of p).stepped i l w := by
  have hcached : (h.stepped p i l w).cachedAt p = ((h.of p).stepped i l w).cachedAt :=
    Function.update_self _ _ _
  simp only [of, hcached]
  rfl

lemma stepped_cachedAt_of_ne (hq : q ≠ p) : (h.stepped p i l w).cachedAt q = h.cachedAt q :=
  Function.update_of_ne hq _ _

/-- To the other processes it is one more moment. -/
lemma continues_of_stepped : (h.of q).Continues ((h.stepped p i l w).of q) :=
  ⟨Nat.le_succ _, fun _ ht => Function.update_of_ne ht.ne _ _⟩

lemma stepped_source_of_ne (hj : j ≠ i) : (h.stepped p i l w).source j = h.source j :=
  @MenuHistory.stepped_source (h.of p) i j l w hj

lemma stepped_db {k : ℕ} (hk : k < h.moment) : (h.stepped p i l w).db k = h.db k :=
  Function.update_of_ne hk.ne _ _

@[simp] lemma stepped_db_self : (h.stepped p i l w).db h.moment = w.db := Function.update_self _ _ _

lemma stepped_time {k : ℕ} (hk : k < h.moment) : (h.stepped p i l w).time k = h.time k :=
  Function.update_of_ne hk.ne _ _

@[simp] lemma stepped_time_self : (h.stepped p i l w).time h.moment = w.now :=
  Function.update_self _ _ _

lemma stepped_returned_of_ne (hj : j ≠ i) : (h.stepped p i l w).returned j = h.returned j := by
  cases l <;> first | rfl | exact Function.update_of_ne hj _ _

end DeploymentHistory

/-! ### The deployment -/

def RoutedRequest.monitor (c : RoutedRequest) : Monitor Deployment Label MenuPhase where
  next φ l s _ := c.request.next φ l ((Deployment.process c.process).get s)
  allows φ l s s' := ∃ w', s' = (Deployment.process c.process).set s w' ∧
    ProcessStep ((Deployment.process c.process).get s) w' c.request φ l
      (c.request.next φ l ((Deployment.process c.process).get s))

/-- Requests to any number of processes, while time passes and processes lose menus: when a process
is stopped, its cache is gone. -/
def deploymentSystem (P : Platform) :
    System RoutedRequest MenuPhase Deployment Label Exc Response DeploymentHistory where
  program c := c.code P
  init _ := .start
  monitor := RoutedRequest.monitor
  onStart cfg _ _ := cfg.ghost
  onStep cfg i th l _ := cfg.ghost.stepped th.call.process i l
    ((Deployment.process th.call.process).get cfg.state)
  env s s' := s'.db = s.db ∧ (∀ p, ∀ e ∈ s'.caches p, e ∈ s.caches p) ∧ s.now ≤ s'.now

abbrev DeploymentConfig : Type :=
  Config RoutedRequest MenuPhase Deployment Label Exc Response DeploymentHistory

/-- A deployment whose processes have cached nothing. -/
def deployed (db : Database) (now : Time) : DeploymentConfig :=
  ⟨⟨db, fun _ => [], now⟩, fun _ => none, DeploymentHistory.empty db⟩

/-- The code of every request follows its phases in the process it is routed to. -/
lemma RoutedRequest.accepts (P : Platform) (c : RoutedRequest) :
    c.monitor.Accepts c.request.Ends (c.code P) .start := by
  refine Monitor.accepts_zoom (c.request.accepts P) (fun φ l s w' hstep => ?_) fun φ r hends => ?_
  · exact ⟨⟨w', rfl, hstep⟩, rfl⟩
  · intro hreads a ha
    apply hends hreads a
    cases r with
    | ok b => exact ha
    | error e => cases ha

lemma accepts_of_deployed (db : Database) (now : Time) :
    ∀ i th, (deployed db now).threads i = some th →
      th.call.monitor.Accepts th.call.request.Ends th.code th.phase := by
  rintro i th ⟨⟩

/-- The slug and the menu of the read `i` that has returned. -/
def answeredMenu (cfg : DeploymentConfig) (i : ℕ) : Option (String × MenuResponse) :=
  match cfg.threads i with
  | some ⟨c, _, .done (.ok (.menu m))⟩ => c.request.reads.map fun read => (read.2, m)
  | _                                  => none

lemma exists_of_answeredMenu {cfg : DeploymentConfig} {i : ℕ} {slug : String} {menu : MenuResponse}
    (h : answeredMenu cfg i = some (slug, menu)) :
    ∃ c φ scan, cfg.threads i = some ⟨c, φ, .done (.ok (.menu menu))⟩ ∧
      c.request.reads = some (scan, slug) := by
  rw [answeredMenu] at h
  split at h
  · rename_i c φ m hi
    simp only [Option.map_eq_some_iff, Prod.mk.injEq] at h
    obtain ⟨⟨scan, slug'⟩, hreads, rfl, rfl⟩ := h
    exact ⟨c, φ, scan, hi, hreads⟩
  · cases h

/-! ### What the calls know -/

/-- What every read knows is true, and every cached menu was assembled at the recorded moments. -/
structure Traced (cfg : DeploymentConfig) : Prop where
  calls : ∀ i th scan slug, cfg.threads i = some th → th.call.request.reads = some (scan, slug) →
    th.phase.Knows (cfg.ghost.of th.call.process) i (.menu scan slug)
  caches : ∀ p, (cfg.ghost.of p).Accounts (cfg.state.caches p)

/-- A cache that only lost menus is accounted for as before. -/
lemma MenuHistory.Accounts.continues {h h' : MenuHistory} {cache cache' : Cache MenuResponse}
    (ha : h.Accounts cache) (hc : h.Continues h')
    (hcache : ∀ e ∈ cache', e ∈ cache ∧ h'.cachedAt e.1 = h.cachedAt e.1) :
    h'.Accounts cache' := by
  intro e he
  obtain ⟨hmem, hcached⟩ := hcache e he
  obtain ⟨slug, hkey, hassembled⟩ := ha e hmem
  refine ⟨slug, hkey, ?_⟩
  rw [hcached]
  exact hassembled.continues hc

namespace Traced

variable {P : Platform} {cfg : DeploymentConfig}

lemma deployed (db : Database) (now : Time) : Traced (deployed db now) := by
  refine ⟨?_, fun p => List.forall_mem_nil _⟩
  rintro i th scan slug ⟨⟩

lemma started (h : Traced cfg) (i : ℕ) (c : RoutedRequest) :
    Traced ((deploymentSystem P).started cfg i c) := by
  refine ⟨fun j th scan slug hj hreads => ?_, h.caches⟩
  rw [System.started_thread] at hj
  split_ifs at hj
  · cases hj
    trivial
  · exact h.calls j th scan slug hj hreads

lemma background (h : Traced cfg) {s : Deployment}
    (hs : ∀ p, ∀ e ∈ s.caches p, e ∈ cfg.state.caches p) : Traced { cfg with state := s } :=
  ⟨h.calls, fun p e he => h.caches p e (hs p e he)⟩

lemma stepped (h : Traced cfg) {i : ℕ}
    {th : Thread RoutedRequest MenuPhase Deployment Label Exc Response} {l : Label}
    {s' : Deployment}
    (code : Prog Deployment Label Exc Response) (hi : cfg.threads i = some th)
    (hallow : th.call.monitor.allows th.phase l cfg.state s') :
    Traced ((deploymentSystem P).stepped cfg i th l s' code) := by
  obtain ⟨w', rfl, hstep⟩ := hallow
  refine ⟨fun j tj scan slug hj hreads => ?_, fun q => ?_⟩
  · rw [System.stepped_thread] at hj
    split_ifs at hj with hji
    · subst hji
      cases hj
      have hknows := h.calls j th scan slug hi hreads
      cases hstep with
      | read hr hmenu =>
        cases hreads.symm.trans hr
        show MenuPhase.Knows ((cfg.ghost.stepped th.call.process j l _).of th.call.process) j _ _
        rw [DeploymentHistory.of_stepped_self]
        exact hmenu.knows (h.caches th.call.process) hknows
      | mutate hstay hr hnow hcache hdb =>
        obtain ⟨⟨m, hφ⟩, t, rfl⟩ := hr (hreads ▸ rfl)
        show MenuPhase.Knows _ j _ (th.call.request.next th.phase _ _)
        rw [hstay, hφ]
        rw [hφ] at hknows
        exact MenuHistory.Assembled.continues hknows DeploymentHistory.continues_of_stepped
    · refine (h.calls j tj scan slug hj hreads).continues
        DeploymentHistory.continues_of_stepped ?_ ?_
      · exact DeploymentHistory.stepped_source_of_ne
          (w := (Deployment.process th.call.process).get cfg.state) hji
      · exact MenuHistory.stepped_committed
          (w := (Deployment.process th.call.process).get cfg.state) fun _ _ => hji
  · by_cases hq : q = th.call.process
    · subst hq
      have hcaches : (Function.update cfg.state.caches th.call.process w'.cache) th.call.process
          = w'.cache := Function.update_self _ _ _
      show MenuHistory.Accounts ((cfg.ghost.stepped th.call.process i l _).of th.call.process)
        ((Function.update cfg.state.caches th.call.process w'.cache) th.call.process)
      rw [hcaches, DeploymentHistory.of_stepped_self]
      cases hstep with
      | @read scan slug _ _ _ hr hmenu =>
        exact hmenu.accounts (h.caches th.call.process) (h.calls i th scan slug hi hr)
      | mutate hstay hr hnow hcache hdb =>
        refine (h.caches th.call.process).continues (MenuHistory.continues_stepped _ _ _ _) ?_
        exact fun e he => ⟨hcache.2 e he, MenuHistory.stepped_cachedAt (hcache.1 e.1)⟩
    · refine (h.caches q).continues DeploymentHistory.continues_of_stepped fun e he => ⟨?_, ?_⟩
      · have hcaches : (Function.update cfg.state.caches th.call.process w'.cache) q
            = cfg.state.caches q := Function.update_of_ne hq _ _
        exact hcaches ▸ he
      · exact congrFun (DeploymentHistory.stepped_cachedAt_of_ne hq) e.1

end Traced

end LiveMenu
