import Mathlib.Algebra.Ring.Parity
import LiveMenu.Concurrent.Lookups
import LiveMenu.Model.Requests
import LiveMenu.Writes.Constraints

/-!
# Toggles that run at the same time

A toggle reads a dish in one statement and writes the opposite of what it read in a later
transaction. A commit that finds what its call has read negates the availability; one that finds the
opposite leaves it as it is.
-/

namespace LiveMenu

/-- The availability of a dish, if it has a row. -/
def storedAvailability (dishId : Uuid) (w : World) : Option Bool :=
  (Rows.get (·.id) dishId w.db.dishes).map (·.available)

/-- How far a toggle is. -/
inductive TogglePhase where
  | start
  /-- The dish was read with this availability. -/
  | read (available : Bool)
  /-- The commit was made. -/
  | written

/-- A toggle reads the row once and changes it in the commit after that. -/
def toggleMonitor (dishId : Uuid) : Monitor World Label TogglePhase where
  next φ l w _ :=
    match φ, l with
    | .start, .select .dishes   =>
      match storedAvailability dishId w with
      | some b => .read b
      | none   => .start
    | .read b, .commit .dishes  =>
      if (storedAvailability dishId w).isSome then .written else .read b
    | φ, _                      => φ
  allows φ l w w' :=
    match φ, l with
    | .read b, .commit .dishes  =>
      storedAvailability dishId w' = (storedAvailability dishId w).map fun _ => !b
    | _, _                      => w'.db = w.db

/-! ### The code follows the phases -/

section

variable {db : Database} {d cur : Dish} (now : Time)

/-- The commit of a toggle changes two columns of the row as it is stored by then. -/
lemma Database.updateDish_toggle (hcur : Rows.get (·.id) d.id db.dishes = some cur) :
    ∃ db', db.updateDish d { d with available := !d.available } now = .ok db' ∧
      Rows.get (·.id) d.id db'.dishes
        = some { cur with available := !d.available, updatedAt := now } := by
  have hid := Rows.get_key hcur
  have hmem := Rows.get_mem hcur
  have hne : ({ d with available := !d.available } : Dish) ≠ d := by
    intro h
    have := congrArg Dish.available h
    simp at this
  let new : Dish := { cur with available := !d.available, updatedAt := now }
  have hflush : Dish.flush d { d with available := !d.available } now cur = new := by
    simp [Dish.flush, flushColumn, new]
  have hrows : Rows.modify (·.id) d.id (Dish.flush d { d with available := !d.available } now)
      db.dishes = Rows.modify (·.id) d.id (fun _ => new) db.dishes := by
    rw [← hflush, ← hid]
    exact Rows.modify_eq_const db.valid.dishId hmem
  have hvalid : ({ db.toTables with
      dishes := Rows.modify (·.id) d.id (fun _ => new) db.dishes } : Tables).Constraints := by
    rw [← hid]
    exact db.valid.modifyDish rfl (db.valid.dishCategoryFk cur hmem)
  refine ⟨⟨_, hvalid⟩, ?_, Rows.get_modified hvalid.dishId rfl hmem hid hid⟩
  rw [Database.updateDish, if_neg hne, hcur, if_neg (by simp), hrows]
  exact Database.write_of hvalid

lemma Database.updateDish_gone {new : Dish} (hgone : Rows.get (·.id) d.id db.dishes = none)
    (hne : new ≠ d) : db.updateDish d new now = .error .stale := by
  rw [Database.updateDish, if_neg hne, hgone]
  rfl

end

/-- Queries let a toggle wait where it is, once it has read the row. -/
lemma toggleMonitor_query {dishId : Uuid} {b : Bool} (l : Label) (w : World) (hl : l.IsQuery) :
    (toggleMonitor dishId).allows (.read b) l w w ∧
      (toggleMonitor dishId).next (.read b) l w w = .read b := by
  cases l with
  | select | refresh | clock => exact ⟨rfl, rfl⟩
  | commit | cacheGet | cacheSet | cacheInvalidatePrefix => exact hl.elim

namespace DishRepository

/-- From the row it has read on, a toggle commits the opposite. -/
lemma accepts_toggleAvailability {dishId : Uuid} {d : Dish} (hid : d.id = dishId) :
    (toggleMonitor dishId).Accepts (fun φ r => ∀ d', r = .ok d' → φ = .written)
      (toggleAvailability d) (.read d.available) := by
  subst hid
  have hne : ({ d with available := !d.available } : Dish) ≠ d := by
    intro h
    have := congrArg Dish.available h
    simp at this
  refine Async.accepts_commit_bind (fun w a db hw => ?_) fun w e hw => ?_
  · simp only [Except.bind_eq_ok_iff, Except.pure_eq_ok, Except.ok.injEq, Prod.mk.injEq] at hw
    obtain ⟨db', ⟨n, rfl, hdb⟩, -, rfl⟩ := hw
    cases hget : Rows.get (·.id) d.id w.db.dishes with
    | none =>
      rw [Database.updateDish_gone w.now hget hne] at hdb
      cases hdb
    | some cur =>
      obtain ⟨db'', hdb'', hrow⟩ := Database.updateDish_toggle w.now hget
      rw [hdb''] at hdb
      cases hdb
      have hnext : (toggleMonitor d.id).next (.read d.available) (.commit .dishes) w
          { w with db := db' } = .written := by
        simp [toggleMonitor, storedAvailability, hget]
      rw [hnext]
      constructor
      · simp [toggleMonitor, storedAvailability, hget, hrow]
      · refine Async.accepts_refresh fun w => ⟨rfl, fun _ _ _ _ => rfl, fun _ d' h => ?_⟩
        cases h
  · cases hget : Rows.get (·.id) d.id w.db.dishes with
    | none =>
      constructor
      · simp [toggleMonitor, storedAvailability, hget]
      · intro d' h
        cases h
    | some cur =>
      obtain ⟨db', hdb', -⟩ := Database.updateDish_toggle w.now hget
      simp only [bind, Except.bind, hdb', pure, Except.pure] at hw
      cases hw

end DishRepository

/-- The code of a toggle follows the phases, and has committed when it returns. -/
lemma DishService.accepts_toggleAvailability (dishId u : Uuid) :
    (toggleMonitor dishId).Accepts (fun φ r => ∀ d, r = .ok d → φ = .written)
      (DishService.toggleAvailability dishId u) .start := by
  refine Monitor.accepts_bind (Async.accepts_select_bind fun w => ⟨rfl, ?_⟩)
  cases hget : (Rows.get (·.id) dishId w.db.dishes).filter fun d => false || d.deletedAt.isNone with
  | none =>
    apply Async.accepts_http
    intro d h
    cases h
  | some d =>
    obtain ⟨hrow, -⟩ := Option.filter_eq_some_iff.mp hget
    have hnext : (toggleMonitor dishId).next .start (.select .dishes) w w = .read d.available := by
      simp [toggleMonitor, storedAvailability, hrow]
    rw [hnext]
    refine (queries_verifyCategoryOwnership _ _).accepts_bind toggleMonitor_query (fun _ => ?_) ?_
    · refine Monitor.accepts_pure (Monitor.accepts_bind ?_)
      have hid := Rows.get_key hrow
      apply (DishRepository.accepts_toggleAvailability hid).mono
      intro φ r h
      cases r with
      | error e =>
        intro d' h'
        cases h'
      | ok d' =>
        have hφ : φ = .written := h d' rfl
        subst hφ
        exact Monitor.accepts_bind (Monitor.accepts_modify fun _ => ⟨rfl, fun _ _ => rfl⟩)
    · intro e d' h
      cases h

/-! ### The process -/

/-- Toggles of one dish by any users, interleaved at their awaits, while anything else happens that
leaves its availability alone. The record counts the commits that found the opposite of what their
call had read. -/
def toggleSystem (dishId : Uuid) : System Uuid TogglePhase World Label Exc Dish ℕ where
  program u := DishService.toggleAvailability dishId u
  init _ := .start
  monitor _ := toggleMonitor dishId
  onStart cfg _ _ := cfg.ghost
  onStep cfg _ th l _ :=
    match th.phase, l with
    | .read b, .commit .dishes  =>
      if storedAvailability dishId cfg.state = some (!b) then cfg.ghost + 1 else cfg.ghost
    | _, _                      => cfg.ghost
  env := Background (storedAvailability dishId)

instance (dishId : Uuid) : DecidableRel (toggleSystem dishId).env := fun w w' =>
  inferInstanceAs (Decidable (Background (storedAvailability dishId) w w'))

abbrev ToggleConfig : Type := Config Uuid TogglePhase World Label Exc Dish ℕ

/-- No call is under way. -/
def toggleStart (w : World) : ToggleConfig := ⟨w, fun _ => none, 0⟩

/-- The call has returned without an exception. -/
def toggleReturned (cfg : ToggleConfig) (i : ℕ) : Bool :=
  match cfg.threads i with
  | some ⟨_, _, .done (.ok _)⟩ => true
  | _                          => false

/-- The call has made its commit. -/
def ToggleWritten (cfg : ToggleConfig) (i : ℕ) : Prop :=
  ∃ th, cfg.threads i = some th ∧ th.phase = .written

/-- Steps other than the commit of a toggle leave the tables alone, and no call ends its commit. -/
lemma toggleMonitor_look {dishId : Uuid} {φ : TogglePhase} {l : Label} {w w' : World}
    (h : ¬ ∃ b, φ = .read b ∧ l = .commit .dishes)
    (hallow : (toggleMonitor dishId).allows φ l w w') :
    w'.db = w.db ∧ ((toggleMonitor dishId).next φ l w w' = .written ↔ φ = .written) := by
  simp only [toggleMonitor] at hallow ⊢
  split at hallow
  · exact absurd ⟨_, rfl, rfl⟩ h
  · refine ⟨hallow, ?_⟩
    split
    · split <;> simp
    · exact absurd ⟨_, rfl, rfl⟩ h
    · rfl

/-- The commits so far, and how often one left the availability as it was. -/
def TogglesCounted (dishId : Uuid) (b : Bool) (cfg : ToggleConfig) : Prop :=
  ∃ commits : Finset ℕ, (∀ i, i ∈ commits ↔ ToggleWritten cfg i) ∧
    storedAvailability dishId cfg.state = some (not^[commits.card + cfg.ghost] b)

namespace TogglesCounted

variable {dishId : Uuid} {b : Bool} {cfg : ToggleConfig}

lemma start {w : World} (h : storedAvailability dishId w = some b) :
    TogglesCounted dishId b (toggleStart w) := by
  refine ⟨∅, fun i => ?_, h⟩
  simp [ToggleWritten, toggleStart]

lemma started (h : TogglesCounted dishId b cfg) {i : ℕ} (hi : cfg.threads i = none) (u : Uuid) :
    TogglesCounted dishId b ((toggleSystem dishId).started cfg i u) := by
  obtain ⟨commits, hmem, hstored⟩ := h
  refine ⟨commits, fun j => ?_, hstored⟩
  rw [hmem, ToggleWritten, ToggleWritten, System.started_thread]
  split_ifs with hji
  · simp [hji, hi, toggleSystem]
  · rfl

lemma background (h : TogglesCounted dishId b cfg) {w : World}
    (hw : storedAvailability dishId w = storedAvailability dishId cfg.state) :
    TogglesCounted dishId b { cfg with state := w } := by
  obtain ⟨commits, hmem, hstored⟩ := h
  exact ⟨commits, hmem, hw.trans hstored⟩

/-- The commits after a step of one call. -/
lemma written_stepped {i : ℕ} {th : Thread Uuid TogglePhase World Label Exc Dish} {l : Label}
    {w' : World} {code : Async Dish} (j : ℕ) :
    ToggleWritten ((toggleSystem dishId).stepped cfg i th l w' code) j ↔
      if j = i then (toggleMonitor dishId).next th.phase l cfg.state w' = .written
      else ToggleWritten cfg j := by
  rw [ToggleWritten, System.stepped_thread]
  split_ifs
  · simp [toggleSystem]
  · rfl

/-- The commit of a call negates what it found, unless that is the opposite of what the call had
read. -/
lemma stored_commit {i : ℕ} {th : Thread Uuid TogglePhase World Label Exc Dish} {w' : World}
    {code : Async Dish} {b' : Bool} {n : ℕ} (hφ : th.phase = .read b')
    (hw' : storedAvailability dishId w' = some (!b'))
    (hstored : storedAvailability dishId cfg.state = some (not^[n + cfg.ghost] b)) :
    storedAvailability dishId w' = some (not^[n + 1 +
      ((toggleSystem dishId).stepped cfg i th (.commit .dishes) w' code).ghost] b) := by
  have hghost : ((toggleSystem dishId).stepped cfg i th (.commit .dishes) w' code).ghost
      = if storedAvailability dishId cfg.state = some (!b') then cfg.ghost + 1
        else cfg.ghost := by
    simp only [System.stepped, toggleSystem, hφ]
  rw [hw', hghost, hstored]
  split_ifs with hstale
  · rw [show n + 1 + (cfg.ghost + 1) = n + cfg.ghost + 1 + 1 by omega,
      Function.iterate_succ_apply', Function.iterate_succ_apply', Bool.not_not, ← hstale]
  · have hfound : not^[n + cfg.ghost] b = b' := by
      simpa using hstale
    rw [show n + 1 + cfg.ghost = n + cfg.ghost + 1 by omega, Function.iterate_succ_apply', hfound]

lemma stepped (h : TogglesCounted dishId b cfg) {i : ℕ}
    {th : Thread Uuid TogglePhase World Label Exc Dish} {l : Label} {w' : World} {code : Async Dish}
    (hi : cfg.threads i = some th)
    (hallow : (toggleMonitor dishId).allows th.phase l cfg.state w') :
    TogglesCounted dishId b ((toggleSystem dishId).stepped cfg i th l w' code) := by
  obtain ⟨commits, hmem, hstored⟩ := h
  by_cases hcommit : ∃ b', th.phase = .read b' ∧ l = .commit .dishes
  · obtain ⟨b', hφ, rfl⟩ := hcommit
    have hnot : i ∉ commits := by
      rw [hmem]
      rintro ⟨th', hi', hφ'⟩
      rw [hi] at hi'
      cases hi'
      rw [hφ] at hφ'
      cases hφ'
    refine ⟨insert i commits, fun j => ?_, ?_⟩
    · rw [written_stepped, Finset.mem_insert, hmem]
      split_ifs with hji
      · simp [hji, hφ, toggleMonitor, hstored]
      · simp [hji]
    · rw [hφ] at hallow
      have hw' : storedAvailability dishId w' = some (!b') := by
        rw [show storedAvailability dishId w' = _ from hallow, hstored]
        rfl
      rw [Finset.card_insert_of_notMem hnot]
      exact stored_commit hφ hw' hstored
  · obtain ⟨hdb, hnext⟩ := toggleMonitor_look hcommit hallow
    refine ⟨commits, fun j => ?_, ?_⟩
    · rw [written_stepped, hmem]
      split_ifs with hji
      · rw [hnext, hji, ToggleWritten, hi]
        simp
      · rfl
    · have hghost : ((toggleSystem dishId).stepped cfg i th l w' code).ghost = cfg.ghost := by
        simp only [System.stepped, toggleSystem]
        split
        · exact absurd ⟨_, by assumption, rfl⟩ hcommit
        · rfl
      rw [hghost]
      simp only [System.stepped, storedAvailability, hdb]
      exact hstored

lemma reach (h0 : TogglesCounted dishId b cfg) {may : System.Guard _ _ _ _ _ _ _}
    {cfg' : ToggleConfig} (hacc : cfg.threads = fun _ => none)
    (h : (toggleSystem dishId).Reach may cfg cfg') : TogglesCounted dishId b cfg' := by
  refine h.monitored (fun u => DishService.accepts_toggleAvailability dishId u) ?_ h0 ?_ ?_ ?_
  · intro i th hi
    rw [hacc] at hi
    cases hi
  · exact fun cfg i u hI hi => hI.started hi u
  · exact fun cfg i th l s' code hI hi _ hallow => hI.stepped hi hallow
  · exact fun cfg s hI henv => hI.background henv.1

end TogglesCounted

/-! ### The result -/

/-- A toggle commits while the stored availability is the one it has read. -/
def FindsWhatItRead (dishId : Uuid) : System.Guard Uuid TogglePhase World Label Exc Dish ℕ :=
  fun cfg _ th l => ∀ b, th.phase = .read b → l = .commit .dishes →
    storedAvailability dishId cfg.state = some b

/-- With such commits nothing is recorded. -/
lemma ghost_of_findsWhatItRead {dishId : Uuid} {w : World} {cfg : ToggleConfig}
    (h : (toggleSystem dishId).Reach (FindsWhatItRead dishId) (toggleStart w) cfg) :
    cfg.ghost = 0 := by
  apply h.invariant (I := fun cfg => cfg.ghost = 0) rfl
  intro c c' hc hs
  cases hs with
  | start i u hi => exact hc
  | env s hs => exact hc
  | run i th l eff next hi hcode hmay =>
    simp only [System.stepped, toggleSystem]
    split
    · rename_i b hφ
      have := hmay b hφ rfl
      simp [this, hc]
    · exact hc

/-- The calls that have returned are those that have committed, once every call has returned. -/
lemma written_of_returned {dishId : Uuid} {w : World} {cfg : ToggleConfig} {may}
    (h : (toggleSystem dishId).Reach may (toggleStart w) cfg) {i : ℕ}
    (hret : toggleReturned cfg i = true) : ToggleWritten cfg i := by
  have hacc := h.accepts (fun u => DishService.accepts_toggleAvailability dishId u)
    (by rintro i th ⟨⟩)
  simp only [toggleReturned] at hret
  split at hret
  · rename_i u φ d hi
    exact ⟨_, hi, hacc i _ hi d rfl⟩
  · cases hret

/-- Toggles of one dish that interleave in any way and all succeed have negated its availability as
often as they were called if and only if an even number of their commits found the opposite of what
the call had read. Where no commit does, every state of the run has the availability negated once
for each commit made so far. -/
theorem toggles_not_lost_iff {dishId : Uuid} {w : World} {b : Bool}
    (hb : storedAvailability dishId w = some b) (cfg : ToggleConfig) :
    ((toggleSystem dishId).Reach System.Always (toggleStart w) cfg →
      ∀ calls : Finset ℕ, (∀ i, i ∈ calls ↔ (cfg.threads i).isSome) →
        (∀ i ∈ calls, toggleReturned cfg i = true) →
          (storedAvailability dishId cfg.state = some (not^[calls.card] b) ↔ Even cfg.ghost)) ∧
    ((toggleSystem dishId).Reach (FindsWhatItRead dishId) (toggleStart w) cfg →
      ∃ commits : Finset ℕ, (∀ i, i ∈ commits ↔ ToggleWritten cfg i) ∧
        storedAvailability dishId cfg.state = some (not^[commits.card] b)) := by
  have hstart := TogglesCounted.start hb
  constructor
  · intro h calls hcalls hret
    obtain ⟨commits, hmem, hstored⟩ := hstart.reach rfl h
    have hall : commits = calls := by
      ext i
      rw [hmem, hcalls]
      constructor
      · rintro ⟨th, hi, -⟩
        rw [hi]
        rfl
      · intro hi
        exact written_of_returned h (hret i ((hcalls i).mpr hi))
    rw [hstored, hall, Option.some.injEq, Nat.add_comm, Function.iterate_add_apply]
    rcases Nat.even_or_odd cfg.ghost with heven | hodd
    · rw [Bool.involutive_not.iterate_even heven]
      exact iff_of_true rfl heven
    · rw [Bool.involutive_not.iterate_odd hodd]
      exact iff_of_false (by simp) (Nat.not_even_iff_odd.mpr hodd)
  · intro h
    obtain ⟨commits, hmem, hstored⟩ := hstart.reach rfl h
    rw [ghost_of_findsWhatItRead h] at hstored
    exact ⟨commits, hmem, hstored⟩

/-- Two toggles, one after the other. -/
theorem toggles_not_lost_iff_in_turn :
    ∃ cfg, toggleReturned cfg 0 = true ∧ toggleReturned cfg 1 = true ∧
      storedAvailability 30 cfg.state = some true := by
  have hrun : ((toggleSystem 30).follow (fun _ _ => true)
      (.start 0 1 :: List.replicate 6 (.run 0) ++ .start 1 1 :: List.replicate 6 (.run 1))
      (toggleStart sopaServed)).any (fun cfg =>
        (toggleReturned cfg 0 && toggleReturned cfg 1) && cfg.ghost == 0) = true := by
    decide +kernel
  obtain ⟨cfg, hreach, hidle, hp⟩ := System.exists_reach_of_follow_below (n := 2)
    (fun _ _ => rfl) (fun i c h => by simp at h; omega)
    (fun cfg i th l _ _ _ => (trivial : System.Always cfg i th l)) hrun
  simp only [Bool.and_eq_true, beq_iff_eq] at hp
  have hb : storedAvailability 30 sopaServed = some true := by decide +kernel
  have hthere : ∀ i, toggleReturned cfg i = true → (cfg.threads i).isSome = true := by
    intro i hi
    simp only [toggleReturned] at hi
    split at hi
    · rename_i hth
      rw [hth]
      rfl
    · cases hi
  refine ⟨cfg, hp.1.1, hp.1.2, ((toggles_not_lost_iff hb cfg).1 hreach {0, 1} ?_ ?_).mpr ?_⟩
  · intro i
    simp only [Finset.mem_insert, Finset.mem_singleton]
    constructor
    · rintro (rfl | rfl)
      · exact hthere 0 hp.1.1
      · exact hthere 1 hp.1.2
    · intro hi
      by_contra hne
      rw [hidle i (by omega)] at hi
      cases hi
  · intro i hi
    simp only [Finset.mem_insert, Finset.mem_singleton] at hi
    rcases hi with rfl | rfl
    · exact hp.1.1
    · exact hp.1.2
  · rw [hp.2]
    exact Even.zero

/-- Two toggles that both read before either commits: both succeed, and the dish ends up toggled
once. -/
theorem toggle_lost :
    storedAvailability 30 sopaServed = some true ∧
      ∃ cfg, (toggleSystem 30).Reach System.Always (toggleStart sopaServed) cfg ∧
        toggleReturned cfg 0 = true ∧ toggleReturned cfg 1 = true ∧
          (∀ j, 2 ≤ j → cfg.threads j = none) ∧
            storedAvailability 30 cfg.state = some false := by
  have hrun : ((toggleSystem 30).follow (fun _ _ => true)
      (.start 0 1 :: List.replicate 3 (.run 0) ++ .start 1 1 :: List.replicate 6 (.run 1) ++
        List.replicate 3 (.run 0)) (toggleStart sopaServed)).any (fun cfg =>
          (toggleReturned cfg 0 && toggleReturned cfg 1) &&
            storedAvailability 30 cfg.state == some false) = true := by
    decide +kernel
  obtain ⟨cfg, hreach, hidle, hp⟩ := System.exists_reach_of_follow_below (n := 2)
    (fun _ _ => rfl) (fun i c h => by simp at h; omega)
    (fun cfg i th l _ _ _ => (trivial : System.Always cfg i th l)) hrun
  simp only [Bool.and_eq_true, beq_iff_eq] at hp
  exact ⟨by decide +kernel, cfg, hreach, hp.1.1, hp.1.2, hidle, hp.2⟩

end LiveMenu
