import LiveMenu.Concurrent.Writes
import LiveMenu.Menu.Calls

/-!
# Requests in a process, step by step

A request that reads a menu goes through the phases of a read. Every other step leaves the cache
with what it had or less, and moves no category to another restaurant.
-/

namespace LiveMenu

open MenuService

/-- The read of a menu that a request makes. -/
def Request.reads : Request → Option (MenuScan × String)
  | .menu scan slug | .viewMenu scan slug _ _ => some (scan, slug)
  | _                                         => none

/-- How a step moves the phase of the read. -/
def Request.next (r : Request) (φ : MenuPhase) (l : Label) (w : World) : MenuPhase :=
  match r.reads with
  | some (scan, slug) => (MenuCall.menu scan slug).next φ l w
  | none              => φ

/-- A category that is there before and after belongs to the same restaurant. -/
def KeepsRestaurants (t t' : Tables) : Prop :=
  ∀ c ∈ t.categories, ∀ c' ∈ t'.categories, c'.id = c.id → c'.restaurantId = c.restaurantId

/-- What a step of a request does. -/
inductive ProcessStep (w w' : World) (r : Request) : MenuPhase → Label → MenuPhase → Prop
  | read {scan slug φ l φ'} (hr : r.reads = some (scan, slug))
      (hstep : MenuStep w w' (.menu scan slug) φ l φ') : ProcessStep w w' r φ l φ'
  /-- A read that has its menu only commits: it records the view. -/
  | mutate {φ l φ'} (hstay : φ' = φ)
      (hr : r.reads.isSome → (∃ m, φ = .answered m) ∧ ∃ t, l = .commit t) (hnow : w'.now = w.now)
      (hcache : Async.StepCachesNothing l w w')
      (hdb : KeepsRestaurants w.db.toTables w'.db.toTables) : ProcessStep w w' r φ l φ'

def Request.monitor (r : Request) : Monitor World Label MenuPhase where
  next φ l w _ := r.next φ l w
  allows φ l w w' := ProcessStep w w' r φ l (r.next φ l w)

/-- A request that returns a menu was answered with it. -/
def Request.Ends (r : Request) (φ : MenuPhase) (result : Except Exc Response) : Prop :=
  r.reads.isSome → ∀ a, result = .ok a → ∃ m, a = .menu m ∧ φ = .answered m

/-! ### Categories stay with their restaurants -/

section

variable {db db' : Database}

/-- Where every category was there before, none has moved. -/
lemma keepsRestaurants_of_comesFrom (h : ∀ c' ∈ db'.categories, ∃ c ∈ db.categories,
    c'.id = c.id ∧ c'.restaurantId = c.restaurantId) :
    KeepsRestaurants db.toTables db'.toTables := by
  intro c hc c' hc' hid
  obtain ⟨c₀, hc₀, hid₀, hrestaurant⟩ := h c' hc'
  have heq : c₀ = c := Rows.eq_of_key_eq db.valid.categoryId hc₀ hc (hid₀.symm.trans hid)
  rw [hrestaurant, heq]

lemma keepsRestaurants_of_subset (h : ∀ c ∈ db'.categories, c ∈ db.categories) :
    KeepsRestaurants db.toTables db'.toTables :=
  keepsRestaurants_of_comesFrom fun c hc => ⟨c, h c hc, rfl, rfl⟩

lemma keepsRestaurants_of_superset (h : ∀ c ∈ db.categories, c ∈ db'.categories) :
    KeepsRestaurants db.toTables db'.toTables := by
  intro c hc c' hc' hid
  rw [Rows.eq_of_key_eq db'.valid.categoryId hc' (h c hc) hid]

lemma keepsRestaurants_of_same (h : db'.categories = db.categories) :
    KeepsRestaurants db.toTables db'.toTables :=
  keepsRestaurants_of_subset fun _ hc => h ▸ hc

/-- No operation of an owner moves a category to another restaurant. -/
lemma AdminWrite.keepsRestaurants {u : Uuid} {now : Time} {op : AdminOp}
    (h : AdminWrite u now db.toTables db'.toTables op) :
    KeepsRestaurants db.toTables db'.toTables := by
  cases h with
  | restaurantDelete ht =>
    apply keepsRestaurants_of_subset
    intro c hc
    rw [ht] at hc
    exact (List.mem_filter.mp hc).1
  | categoryDelete ht =>
    apply keepsRestaurants_of_subset
    intro c hc
    rw [ht] at hc
    exact (List.mem_filter.mp hc).1
  | categoryCreate hid ht =>
    apply keepsRestaurants_of_superset
    intro c hc
    rw [ht]
    exact List.mem_append_left _ hc
  | categoryUpdate ht =>
    apply keepsRestaurants_of_comesFrom
    intro c' hc'
    rw [ht] at hc'
    rcases Rows.mem_modify.mp hc' with ⟨hc, -⟩ | ⟨c, hc, -, rfl⟩
    · exact ⟨c', hc, rfl, rfl⟩
    · exact ⟨c, hc, rfl, rfl⟩
  | categoryReorder hrows ht =>
    obtain ⟨f, hf, hkeep⟩ := CategoryRepository.reorderRows_ok hrows
    apply keepsRestaurants_of_comesFrom
    intro c' hc'
    rw [ht, hf] at hc'
    obtain ⟨c, hc, rfl⟩ := List.mem_map.mp hc'
    rcases hkeep c with heq | ⟨-, p, heq⟩
    · exact ⟨c, hc, by rw [heq], by rw [heq]⟩
    · exact ⟨c, hc, by rw [heq], by rw [heq]⟩
  | restaurantCreate _ ht | restaurantUpdate ht | dishCreate _ ht | dishUpdate _ ht
  | dishDelete _ ht | dishToggle _ ht | logout ht => exact keepsRestaurants_of_same (by rw [ht])

lemma Async.StepWrites.keepsRestaurants {R : Time → Tables → Tables → Prop} {l : Label}
    {w w' : World} (h : Async.StepWrites R l w w')
    (hR : R w.now w.db.toTables w'.db.toTables →
      KeepsRestaurants w.db.toTables w'.db.toTables) :
    KeepsRestaurants w.db.toTables w'.db.toTables := by
  rcases h with hdb | ⟨-, h⟩
  · exact keepsRestaurants_of_same (by rw [hdb])
  · exact hR h

end

/-! ### The code follows the phases -/

section

variable {r : Request} {scan : MenuScan} {slug : String}

lemma readsMenu_request (hr : r.reads = some (scan, slug)) :
    r.monitor.Accepts (fun φ result => ∀ m, result = .ok m → φ = .answered m)
      (getMenuBySlug scan slug) .start := by
  apply readsMenu_getMenuBySlug.simulate
  intro φ l w w' hstep
  have hnext : r.next φ l w = (MenuCall.menu scan slug).next φ l w := by
    simp only [Request.next, hr]
  refine ⟨?_, hnext⟩
  show ProcessStep w w' r φ l (r.next φ l w)
  rw [hnext]
  exact .read hr hstep

/-- The view is recorded after the menu is read. -/
lemma accepts_viewMenu (P : Platform) (client : Client) (id : Uuid) :
    (Request.viewMenu scan slug client id).monitor.Accepts
      (fun φ result => ∀ m, result = .ok m → φ = .answered m)
      (MenuRouter.getMenu P scan slug client id) .start := by
  refine Monitor.accepts_bind ((readsMenu_request rfl).mono fun φ result hresult => ?_)
  cases result with
  | error e => exact not_returns_error _ _
  | ok m =>
    obtain rfl := hresult m rfl
    have hrecord : (Request.viewMenu scan slug client id).monitor.Accepts
        (fun φ _ => φ = .answered m) (recordScan P m client id) (.answered m) := by
      refine Monitor.accepts_handle (Async.accepts_commit ?_ ?_)
      · intro w a db hw
        refine ⟨.mutate rfl (fun _ => ⟨⟨m, rfl⟩, _, rfl⟩) rfl
          ⟨fun _ => Label.noConfusion, fun e he => he⟩
          (keepsRestaurants_of_same ?_), rfl⟩
        simp only [Except.bind_eq_ok_iff, Except.pure_eq_ok, Except.ok.injEq, Prod.mk.injEq] at hw
        obtain ⟨userAgent, -, referrer, -, db', hdb, -, rfl⟩ := hw
        rw [Database.write_ok hdb]
      · intro w e _
        refine ⟨.mutate rfl (fun _ => ⟨⟨m, rfl⟩, _, rfl⟩) rfl
          ⟨fun _ => Label.noConfusion, fun e he => he⟩
          (keepsRestaurants_of_same rfl), ?_⟩
        exact Monitor.accepts_pure rfl
    refine Monitor.accepts_bind (hrecord.mono fun φ result hφ => ?_)
    subst hφ
    cases result with
    | error e => exact not_returns_error _ _
    | ok _ =>
      apply Monitor.accepts_pure
      rintro _ ⟨⟩
      rfl

/-- What reads no menu may do anything that keeps categories where they are. -/
lemma Async.Mutates.accepts_request {R : Time → Tables → Tables → Prop} {p : Async Response}
    (hr : r.reads = none) (hp : p.Mutates R)
    (hR : ∀ now (db db' : Database), R now db.toTables db'.toTables →
      KeepsRestaurants db.toTables db'.toTables) : r.monitor.Accepts r.Ends p .start := by
  have hreads : ∀ {q : Prop}, r.reads.isSome = true → q := by
    intro q h
    rw [hr] at h
    cases h
  refine (hp.accepts fun l w w' hnow hwrites hcache => ?_).mono fun _ _ _ h => hreads h
  have hnext : r.next .start l w = .start := by simp only [Request.next, hr]
  refine ⟨?_, hnext⟩
  show ProcessStep w w' r .start l (r.next .start l w)
  rw [hnext]
  exact .mutate rfl hreads hnow hcache (hwrites.keepsRestaurants (hR _ _ _))

end

/-- The code of every request follows its phases. -/
theorem Request.accepts (P : Platform) (r : Request) :
    r.monitor.Accepts r.Ends (r.code P) .start := by
  have hsame : ∀ now (db db' : Database), SameCategories now db.toTables db'.toTables →
      KeepsRestaurants db.toTables db'.toTables := fun _ _ _ => keepsRestaurants_of_same
  cases r with
  | menu scan slug =>
    refine Monitor.accepts_map ((readsMenu_request rfl).mono fun φ result hresult _ => ?_)
    cases result with
    | error e => exact not_returns_error _ _
    | ok m =>
      rintro _ ⟨⟩
      exact ⟨m, rfl, hresult m rfl⟩
  | viewMenu scan slug client id =>
    refine Monitor.accepts_map ((accepts_viewMenu P client id).mono fun φ result hresult _ => ?_)
    cases result with
    | error e => exact not_returns_error _ _
    | ok m =>
      rintro _ ⟨⟩
      exact ⟨m, rfl, hresult m rfl⟩
  | admin u op =>
    exact (op.mutates P u).accepts_request rfl fun _ _ _ => AdminWrite.keepsRestaurants
  | register email password draws =>
    exact ((AuthService.mutates_register P email password draws).map _).accepts_request rfl hsame
  | login email password draws =>
    exact ((AuthService.mutates_login P email password draws).map _).accepts_request rfl hsame
  | refresh token draws =>
    exact ((AuthService.mutates_refresh P token draws).map _).accepts_request rfl hsame

end LiveMenu
