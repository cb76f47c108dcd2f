import LiveMenu.Sequential.Menu

/-!
# The cache is transparent when requests run one at a time

Every cached menu is one that the database would give now. Mutations flush the cache, a new
restaurant takes a slug nobody has, and a 404 is never cached, so nothing can make an entry stale.
-/

namespace LiveMenu

open MenuService

/-! ### Ties -/

/-- No two categories of a restaurant and no two dishes of a category share position and
creation time. -/
structure Tables.NoTies (t : Tables) : Prop where
  categories : ∀ c ∈ t.categories, ∀ c' ∈ t.categories, c.restaurantId = c'.restaurantId →
    c.orderKey = c'.orderKey → c = c'
  dishes : ∀ d ∈ t.dishes, ∀ d' ∈ t.dishes, d.categoryId = d'.categoryId →
    d.menuKey = d'.menuKey → d = d'

lemma activeCategories_eq_of_noTies {db : Database} (h : db.NoTies) (scan scan' : MenuScan)
    (restaurantId : Uuid) :
    activeCategories scan restaurantId db = activeCategories scan' restaurantId db := by
  refine orderBy_eq_of_perm ?_ ((scan.categories.perm _).trans (scan'.categories.perm _).symm)
  intro c hc c' hc' hkey
  simp only [(scan.categories.perm _).mem_iff, List.mem_filter, decide_eq_true_eq] at hc hc'
  exact h.categories c hc.1 c' hc'.1 (hc.2.1.trans hc'.2.1.symm) hkey

/-- Without ties the server has one way to answer. -/
lemma builtMenu_eq_of_noTies {db : Database} (h : db.NoTies) (scan scan' : MenuScan)
    (slug : String) : builtMenu scan slug db = builtMenu scan' slug db := by
  simp only [builtMenu]
  congr 1
  funext r
  rw [activeCategories_eq_of_noTies h scan scan' r.id]
  split_ifs with hnil
  · rfl
  · simp only [menuResponse]
    congr 2
    apply List.map_congr_left
    intro c _
    simp only [categoryResponse, availableDishes]
    congr 2
    refine orderBy_eq_of_perm ?_ (((scan.dishes.perm _).trans (scan'.dishes.perm _).symm).filter _)
    intro d hd d' hd' hkey
    simp only [List.mem_filter, loadedDishes, (scan.dishes.perm _).mem_iff,
      decide_eq_true_eq] at hd hd'
    exact h.dishes d hd.1.1 d' hd'.1.1 (hd.2.1.trans hd'.2.1.symm) hkey

/-! ### The invariant -/

/-- Every cached menu is the one the database gives for its slug, under some order of ties. -/
def CacheFresh (w : World) : Prop :=
  ∀ e ∈ w.cache, ∃ slug scan, e.1 = cacheKey slug ∧ builtMenu scan slug w.db = some e.2.1

namespace CacheFresh

variable {w w' : World}

lemma kept (h : CacheFresh w) (hr : w'.db.restaurants = w.db.restaurants)
    (hc : w'.db.categories = w.db.categories) (hd : w'.db.dishes = w.db.dishes)
    (hcache : ∀ e ∈ w'.cache, e ∈ w.cache) : CacheFresh w' := by
  intro e he
  obtain ⟨slug, scan, hkey, hmenu⟩ := h e (hcache e he)
  exact ⟨slug, scan, hkey, (builtMenu_congr hr hc hd).trans hmenu⟩

lemma opened (h : CacheFresh w) {r : Restaurant}
    (hr : w'.db.restaurants = w.db.restaurants ++ [r])
    (hc : w'.db.categories = w.db.categories) (hd : w'.db.dishes = w.db.dishes)
    (hcache : w'.cache = w.cache) : CacheFresh w' := by
  intro e he
  obtain ⟨slug, scan, hkey, hmenu⟩ := h e (hcache ▸ he)
  exact ⟨slug, scan, hkey, builtMenu_opened hr hc hd hmenu⟩

/-- Invalidating the menu prefix leaves nothing in the cache. -/
lemma flushed (h : CacheFresh w) (db : Database) : CacheFresh (w.flushed db) := by
  intro e he
  obtain ⟨hmem, hpre⟩ := Cache.mem_cacheInvalidatePrefix.mp he
  obtain ⟨slug, scan, hkey, -⟩ := h e hmem
  rw [hkey, cacheKey_startswith] at hpre
  cases hpre

lemma stored (h : CacheFresh w) {scan : MenuScan} {slug : String} {menu : MenuResponse}
    (hmenu : builtMenu scan slug w.db = some menu) {c : Cache MenuResponse}
    (hsub : ∀ e ∈ c, e ∈ w.cache) (ttl : ℤ) (now : Time) :
    CacheFresh { w with cache := c.cacheSet (cacheKey slug) menu ttl now } := by
  intro e he
  rcases Cache.mem_store he with rfl | ⟨he, -⟩
  · exact ⟨slug, scan, rfl, hmenu⟩
  · exact h e (hsub e he)

/-- A read of the menu keeps the cache fresh, and a hit returns what a build could return. -/
lemma getMenuBySlug (h : CacheFresh w) (scan : MenuScan) (slug : String) :
    CacheFresh ((getMenuBySlug scan slug).exec w).2 ∧
      ((MenuService.getMenuBySlug scan slug).exec w).2.db = w.db ∧
      ∃ scan', ((MenuService.getMenuBySlug scan slug).exec w).1
        = outcome slug (builtMenu scan' slug w.db) := by
  have hsub : ∀ e ∈ (w.cache.cacheGet (cacheKey slug) w.now).2, e ∈ w.cache :=
    fun e he => Cache.mem_cacheGet he
  cases hget : (w.cache.cacheGet (cacheKey slug) w.now).1 with
  | some menu =>
    rw [exec_getMenuBySlug_hit w scan slug hget]
    obtain ⟨t, hmem, -⟩ := Cache.cacheGet_some hget
    obtain ⟨slug', scan', hkey, hmenu⟩ := h _ hmem
    cases cacheKey_injective hkey
    refine ⟨h.kept rfl rfl rfl hsub, rfl, scan', ?_⟩
    rw [hmenu]
    rfl
  | none =>
    rw [exec_getMenuBySlug_miss w scan slug hget]
    cases hbuilt : builtMenu scan slug w.db with
    | none => exact ⟨h.kept rfl rfl rfl hsub, rfl, scan, by rw [hbuilt]⟩
    | some menu => exact ⟨h.stored hbuilt hsub _ _, rfl, scan, by rw [hbuilt]⟩

end CacheFresh

/-! ### Every request keeps it -/

lemma CacheFresh.admin {P : Platform} {u : Uuid} {op : AdminOp} {w : World} (h : CacheFresh w) :
    CacheFresh ((op.code P u).exec w).2 := by
  rcases AdminOp.cases P u op w with ⟨e, hfail⟩ | ⟨r, w', hrun, heff⟩
  · rw [hfail]
    exact h
  · rw [hrun]
    cases heff with
    | restaurantCreate hnone hslug hrow hdb =>
      exact h.opened (by rw [hdb]) (by rw [hdb]) (by rw [hdb]) rfl
    | logout hdb => exact h.kept (by rw [hdb]) (by rw [hdb]) (by rw [hdb]) fun e he => he
    | restaurantGet | categoryList | dishList | dishGet | analyticsGet | analyticsExport => exact h
    | restaurantUpdate | restaurantDelete | categoryCreate | categoryUpdate | categoryDelete
    | categoryReorder | dishCreate | dishUpdate | dishDelete | dishToggle => exact h.flushed _

/-- Every request keeps the cache fresh. -/
lemma CacheFresh.request {P : Platform} {w : World} (h : CacheFresh w) (r : Request) :
    CacheFresh ((r.code P).exec w).2 := by
  have hauth := @Request.auth_tables P w r
  cases r with
  | menu scan slug =>
    rw [Request.code, Prog.exec_map]
    exact (h.getMenuBySlug scan slug).1
  | viewMenu scan slug client id =>
    rw [Request.code, Prog.exec_map]
    have hmenu := (h.getMenuBySlug scan slug).1
    obtain ⟨w', rfl, -, -, ⟨e, hx⟩ | ⟨menu, -, hx⟩⟩ :=
      MenuRouter.getMenu_cases P w scan slug client id
    · rw [hx]
      exact hmenu
    · obtain ⟨db, events, ht, hrec⟩ := exec_recordScan P menu client id
        ((MenuService.getMenuBySlug scan slug).exec w).2
      rw [hx, hrec]
      exact hmenu.kept (by rw [ht]) (by rw [ht]) (by rw [ht]) fun e he => he
  | admin u op => exact h.admin
  | register | login | refresh =>
    obtain ⟨db, users, refreshTokens, hx, ht⟩ := hauth (by simp)
    rw [hx]
    exact h.kept (by rw [ht]) (by rw [ht]) (by rw [ht]) fun e he => he

lemma CacheFresh.event {P : Platform} {w : World} (h : CacheFresh w) (e : Event) :
    CacheFresh (e.run P w) := by
  cases e with
  | request r => exact h.request r
  | tick delay => exact h

lemma CacheFresh.run {P : Platform} {w : World} (h : CacheFresh w) (events : List Event) :
    CacheFresh (runEvents P w events) :=
  runEvents_invariant (fun _ e hw => hw.event e) h events

lemma cacheFresh_of_empty (db : Database) (now : Time) : CacheFresh ⟨db, [], now⟩ :=
  List.forall_mem_nil _

/-! ### Transparency -/

/-- In every run of a process from an empty cache, a call returns what it could return with the
cache empty; where no rows tie, it returns exactly that. -/
theorem getMenuBySlug_eq_without_cache (P : Platform) (db : Database) (now : Time)
    (events : List Event) (scan : MenuScan) (slug : String) :
    let w := runEvents P ⟨db, [], now⟩ events
    (∃ scan', ((getMenuBySlug scan slug).exec w).1
      = ((getMenuBySlug scan' slug).exec { w with cache := [] }).1) ∧
    (w.db.NoTies → ∀ scan', ((getMenuBySlug scan slug).exec w).1
      = ((getMenuBySlug scan' slug).exec { w with cache := [] }).1) := by
  intro w
  have hfresh : CacheFresh w := (cacheFresh_of_empty db now).run events
  obtain ⟨-, -, scan', h⟩ := hfresh.getMenuBySlug scan slug
  refine ⟨⟨scan', ?_⟩, fun hties scan'' => ?_⟩
  · rw [h, exec_getMenuBySlug_empty]
  · rw [h, exec_getMenuBySlug_empty, builtMenu_eq_of_noTies hties scan' scan'']

end LiveMenu
