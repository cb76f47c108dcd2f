import LiveMenu.Sequential.Auth
import LiveMenu.Sequential.Effects

/-!
# The menu and the public requests, one call at a time

The menu as a function of the database, and what every event of a process does to the three tables
the menu is built from.
-/

namespace LiveMenu

namespace MenuService

/-! ### The menu without the cache -/

/-- The menu a call builds from the database, if some restaurant has the slug. -/
def builtMenu (scan : MenuScan) (slug : String) (db : Database) : Option MenuResponse :=
  (Rows.get (·.slug.val) slug db.restaurants).map fun r =>
    let categories := activeCategories scan r.id db
    menuResponse r categories (if categories.isEmpty then [] else loadedDishes scan categories db)

/-- What is raised where no restaurant has the slug. -/
def notFound (slug : String) : Exc :=
  .http 404 ("Restaurant with slug '" ++ slug ++ "' not found")

/-- The outcome of a call that built `menu`, or none because no restaurant has the slug; a lookup
by a slug with a NUL is refused. -/
def outcome (slug : String) : Option MenuResponse → Except Exc MenuResponse
  | some menu => .ok menu
  | none      => .error (if nul ∈ slug.toList then .db .data else notFound slug)

lemma outcome_none {slug : String} (h : nul ∉ slug.toList) :
    outcome slug none = .error (notFound slug) := by
  rw [outcome, if_neg h]

variable (w : World) (scan : MenuScan) (slug : String)

lemma exec_getMenuBySlug_hit {menu : MenuResponse}
    (h : (w.cache.cacheGet (cacheKey slug) w.now).1 = some menu) :
    (getMenuBySlug scan slug).exec w
      = (.ok menu, { w with cache := (w.cache.cacheGet (cacheKey slug) w.now).2 }) := by
  rw [getMenuBySlug, Async.exec_cacheGet_bind, h]
  rfl

lemma exec_getMenuBySlug_miss (h : (w.cache.cacheGet (cacheKey slug) w.now).1 = none) :
    (getMenuBySlug scan slug).exec w
      = (outcome slug (builtMenu scan slug w.db),
        match builtMenu scan slug w.db with
        | none      => { w with cache := (w.cache.cacheGet (cacheKey slug) w.now).2 }
        | some menu => { w with
          cache := (w.cache.cacheGet (cacheKey slug) w.now).2.cacheSet (cacheKey slug) menu
            menuCacheTtl w.now }) := by
  rw [getMenuBySlug, Async.exec_cacheGet_bind, h, builtMenu]
  by_cases hnul : nul ∈ slug.toList
  · have hnone : Rows.get (·.slug.val) slug w.db.restaurants = none :=
      Rows.get_eq_none.mpr fun r _ hr => r.slug.fits.2 (hr ▸ hnul)
    simp only [RestaurantRepository.exec_getBySlug_bind_refused _ hnul, hnone, Option.map_none,
      outcome, if_pos hnul]
  · simp only [RestaurantRepository.exec_getBySlug_bind _ hnul]
    cases Rows.get (·.slug.val) slug w.db.restaurants with
    | none => rw [Option.map_none, outcome_none hnul]; rfl
    | some r =>
      simp only [Option.map_some, Async.exec_select_bind]
      split_ifs with hnil <;> rfl

@[simp] lemma exec_getMenuBySlug_empty :
    ((getMenuBySlug scan slug).exec { w with cache := [] }).1
      = outcome slug (builtMenu scan slug w.db) := by
  rw [exec_getMenuBySlug_miss _ _ _ rfl]

/-- The menu is that of the restaurant that has the slug. -/
lemma builtMenu_eq_some {db : Database} {menu : MenuResponse}
    (h : builtMenu scan slug db = some menu) :
    ∃ r, Rows.get (·.slug.val) slug db.restaurants = some r ∧ menu.restaurantId = r.id := by
  simp only [builtMenu, Option.map_eq_some_iff] at h
  obtain ⟨r, hr, rfl⟩ := h
  exact ⟨r, hr, rfl⟩

variable {scan slug}

lemma activeCategories_congr {db db' : Database} (h : db'.categories = db.categories)
    (restaurantId : Uuid) :
    activeCategories scan restaurantId db' = activeCategories scan restaurantId db := by
  rw [activeCategories, activeCategories, h]

lemma loadedDishes_congr {db db' : Database} (h : db'.dishes = db.dishes)
    (categories : List Category) :
    loadedDishes scan categories db' = loadedDishes scan categories db := by
  rw [loadedDishes, loadedDishes, h]

/-- The menu only reads restaurants, categories and dishes. -/
lemma builtMenu_congr {db db' : Database} (hr : db'.restaurants = db.restaurants)
    (hc : db'.categories = db.categories) (hd : db'.dishes = db.dishes) :
    builtMenu scan slug db' = builtMenu scan slug db := by
  simp only [builtMenu, activeCategories_congr hc, loadedDishes_congr hd, hr]

/-- A menu that exists stays the same when a restaurant is added. -/
lemma builtMenu_opened {db db' : Database} {r : Restaurant} {menu : MenuResponse}
    (hr : db'.restaurants = db.restaurants ++ [r]) (hc : db'.categories = db.categories)
    (hd : db'.dishes = db.dishes) (h : builtMenu scan slug db = some menu) :
    builtMenu scan slug db' = some menu := by
  simp only [builtMenu, Option.map_eq_some_iff, activeCategories_congr hc,
    loadedDishes_congr hd] at h ⊢
  obtain ⟨r', hget, hmenu⟩ := h
  refine ⟨r', ?_, hmenu⟩
  rw [hr]
  exact Rows.get_append hget

end MenuService

/-- Recording a scan event writes at most one scan event, with the hash of the host. -/
lemma exec_recordScan_cases (P : Platform) (menu : MenuResponse) (client : Client) (id : Uuid)
    (w : World) :
    ∃ db events, db.toTables = { w.db.toTables with scanEvents := events } ∧
      (recordScan P menu client id).exec w = (.ok (), { w with db := db }) ∧
      (events = w.db.scanEvents ∨ ∃ e : ScanEvent, events = w.db.scanEvents ++ [e] ∧
        e.ipHash = hashIp P (client.host.getD "unknown")) := by
  rw [recordScan, Prog.exec_handle, Async.exec_commit]
  cases hua : PgText.ofString (client.userAgent.getD "unknown") with
  | error e => exact ⟨w.db, w.db.scanEvents, rfl, rfl, .inl rfl⟩
  | ok ua =>
    cases href : nullable PgText.ofString client.referer with
    | error e => exact ⟨w.db, w.db.scanEvents, rfl, rfl, .inl rfl⟩
    | ok ref =>
      simp only [bind, Except.bind]
      cases hw : Database.write { w.db.toTables with scanEvents := w.db.scanEvents ++
          [⟨id, menu.restaurantId, w.now, ua, hashIp P (client.host.getD "unknown"), ref⟩] } with
      | error e => exact ⟨w.db, w.db.scanEvents, rfl, rfl, .inl rfl⟩
      | ok db => exact ⟨db, _, Database.write_ok hw, rfl, .inr ⟨_, rfl, rfl⟩⟩

lemma exec_recordScan (P : Platform) (menu : MenuResponse) (client : Client) (id : Uuid)
    (w : World) :
    ∃ db events, db.toTables = { w.db.toTables with scanEvents := events } ∧
      (recordScan P menu client id).exec w = (.ok (), { w with db := db }) := by
  obtain ⟨db, events, ht, hx, -⟩ := exec_recordScan_cases P menu client id w
  exact ⟨db, events, ht, hx⟩

/-! ### The tables of the menu -/

/-- The tables the menu is built from are the same. -/
structure SameMenu (t t' : Tables) : Prop where
  restaurants : t'.restaurants = t.restaurants
  categories : t'.categories = t.categories
  dishes : t'.dishes = t.dishes

lemma MenuService.getMenuBySlug_db (w : World) (scan : MenuScan) (slug : String) :
    ((getMenuBySlug scan slug).exec w).2.db = w.db := by
  cases h : (w.cache.cacheGet (cacheKey slug) w.now).1 with
  | some menu => rw [exec_getMenuBySlug_hit w scan slug h]
  | none =>
    rw [exec_getMenuBySlug_miss w scan slug h]
    cases builtMenu scan slug w.db <;> rfl

lemma MenuService.getMenuBySlug_now (w : World) (scan : MenuScan) (slug : String) :
    ((getMenuBySlug scan slug).exec w).2.now = w.now := by
  cases h : (w.cache.cacheGet (cacheKey slug) w.now).1 with
  | some menu => rw [exec_getMenuBySlug_hit w scan slug h]
  | none =>
    rw [exec_getMenuBySlug_miss w scan slug h]
    cases builtMenu scan slug w.db <;> rfl

/-- A view of a menu is a read of it, then the recording of the view. -/
lemma MenuRouter.getMenu_cases (P : Platform) (w : World) (scan : MenuScan) (slug : String)
    (client : Client) (id : Uuid) :
    ∃ w', w' = ((MenuService.getMenuBySlug scan slug).exec w).2 ∧ w'.db = w.db ∧ w'.now = w.now ∧
      ((∃ e, (getMenu P scan slug client id).exec w = (.error e, w')) ∨
        ∃ menu, ((MenuService.getMenuBySlug scan slug).exec w).1 = .ok menu ∧
          (getMenu P scan slug client id).exec w
            = (.ok menu, ((recordScan P menu client id).exec w').2)) := by
  refine ⟨_, rfl, MenuService.getMenuBySlug_db w scan slug,
    MenuService.getMenuBySlug_now w scan slug, ?_⟩
  rw [getMenu, Prog.exec_bind]
  rcases (MenuService.getMenuBySlug scan slug).exec w with ⟨r, w'⟩
  cases r with
  | error e => exact .inl ⟨e, rfl⟩
  | ok menu =>
    obtain ⟨db, events, -, hrec⟩ := exec_recordScan P menu client id w'
    refine .inr ⟨menu, rfl, ?_⟩
    simp only [Prog.exec_bind_ok hrec, Prog.exec_pure, hrec]

/-- A view of a menu writes scan events at most. -/
lemma MenuRouter.getMenu_tables (P : Platform) (w : World) (scan : MenuScan) (slug : String)
    (client : Client) (id : Uuid) :
    ∃ events, ((getMenu P scan slug client id).exec w).2.db.toTables
      = { w.db.toTables with scanEvents := events } := by
  obtain ⟨w', -, hdb, -, ⟨e, hx⟩ | ⟨menu, -, hx⟩⟩ := getMenu_cases P w scan slug client id
  · exact ⟨w.db.scanEvents, by rw [hx, hdb]⟩
  · obtain ⟨db, events, ht, hrec⟩ := exec_recordScan P menu client id w'
    exact ⟨events, by rw [hx, hrec, ht, hdb]⟩

/-- A request for tokens only writes users and tokens. -/
lemma Request.auth_tables (P : Platform) (w : World) {r : Request}
    (hr : (∃ email password draws, r = .register email password draws) ∨
      (∃ email password draws, r = .login email password draws) ∨
      ∃ token draws, r = .refresh token draws) :
    ∃ db users refreshTokens, ((r.code P).exec w).2 = { w with db := db } ∧
      db.toTables = { w.db.toTables with users := users, refreshTokens := refreshTokens } := by
  rcases hr with ⟨email, password, draws, rfl⟩ | ⟨email, password, draws, rfl⟩ |
    ⟨token, draws, rfl⟩
  · rw [code, Prog.exec_map]
    rcases AuthService.register_cases P w email password draws with
      ⟨e, hx⟩ | ⟨user, db, ht, ⟨e, hx⟩ | ⟨db', ht', hx⟩⟩ <;> rw [hx]
    · exact ⟨w.db, _, _, rfl, rfl⟩
    · exact ⟨db, _, _, rfl, ht⟩
    · exact ⟨db', _, _, rfl, ht'.trans (by rw [ht])⟩
  · rw [code, Prog.exec_map]
    rcases AuthService.login_cases P w email password draws with
      ⟨e, hx⟩ | ⟨user, db, -, -, ht, hx⟩ <;> rw [hx]
    · exact ⟨w.db, _, _, rfl, rfl⟩
    · exact ⟨db, _, _, rfl, ht⟩
  · rw [code, Prog.exec_map]
    rcases AuthService.refresh_cases P w token draws with
      ⟨-, status, detail, -, -, hx⟩ | ⟨c, k, db, -, ht, ⟨-, hx⟩ | ⟨db', ht', hx⟩⟩ <;> rw [hx]
    · exact ⟨w.db, _, _, rfl, rfl⟩
    · exact ⟨db, _, _, rfl, ht⟩
    · exact ⟨db', _, _, rfl, ht'.trans (by rw [ht])⟩

/-- No time passes in a request that runs alone. -/
lemma Request.now (P : Platform) (w : World) (r : Request) :
    ((r.code P).exec w).2.now = w.now := by
  have hauth := @auth_tables P w r
  cases r with
  | menu scan slug => rw [code, Prog.exec_map, MenuService.getMenuBySlug_now]
  | viewMenu scan slug client id =>
    rw [code, Prog.exec_map]
    obtain ⟨w', -, -, hnow, ⟨e, hx⟩ | ⟨menu, -, hx⟩⟩ :=
      MenuRouter.getMenu_cases P w scan slug client id
    · rw [hx, hnow]
    · obtain ⟨db, events, -, hrec⟩ := exec_recordScan P menu client id w'
      rw [hx, hrec]
      exact hnow
  | admin u op =>
    rw [code]
    rcases AdminOp.cases P u op w with ⟨e, hfail⟩ | ⟨r, w', hrun, heff⟩
    · rw [hfail]
    · rw [hrun]
      cases heff <;> rfl
  | register | login | refresh =>
    obtain ⟨db, users, refreshTokens, hx, -⟩ := hauth (by simp)
    rw [hx]

/-- What a request of no owner does to the database: it leaves the tables of the menu alone, and
only a view of a menu can add a scan event. -/
lemma Request.tables (P : Platform) (w : World) (r : Request) (hr : ∀ u op, r ≠ .admin u op) :
    ∃ users scanEvents refreshTokens,
      ((r.code P).exec w).2.db.toTables = { w.db.toTables with
        users := users, scanEvents := scanEvents, refreshTokens := refreshTokens } ∧
      ((∀ scan slug client id, r ≠ .viewMenu scan slug client id) →
        scanEvents = w.db.scanEvents) := by
  have hauth := @auth_tables P w r
  cases r with
  | menu scan slug =>
    rw [code, Prog.exec_map, MenuService.getMenuBySlug_db]
    exact ⟨_, _, _, rfl, fun _ => rfl⟩
  | viewMenu scan slug client id =>
    rw [code, Prog.exec_map]
    obtain ⟨events, ht⟩ := MenuRouter.getMenu_tables P w scan slug client id
    exact ⟨_, events, _, ht, fun h => absurd rfl (h scan slug client id)⟩
  | admin u op => exact absurd rfl (hr u op)
  | register | login | refresh =>
    obtain ⟨db, users, refreshTokens, hx, ht⟩ := hauth (by simp)
    rw [hx]
    exact ⟨users, _, refreshTokens, ht, fun _ => rfl⟩

/-- Only the owners' operations touch the tables of the menu. -/
lemma Request.sameMenu (P : Platform) (w : World) (r : Request) (hr : ∀ u op, r ≠ .admin u op) :
    SameMenu w.db.toTables ((r.code P).exec w).2.db.toTables := by
  obtain ⟨users, scanEvents, refreshTokens, ht, -⟩ := r.tables P w hr
  rw [ht]
  exact ⟨rfl, rfl, rfl⟩

/-- An event leaves the tables of the menu alone, or it is an operation of an owner that has its
effect. -/
lemma Event.menu_cases (P : Platform) (w : World) (e : Event) :
    SameMenu w.db.toTables (e.run P w).db.toTables ∨
      ∃ u op r w', e = .request (.admin u op) ∧ e.run P w = w' ∧ AdminEffect P u w op r w' := by
  cases e with
  | tick delay => exact .inl ⟨rfl, rfl, rfl⟩
  | request r =>
    by_cases hpublic : ∀ u op, r ≠ .admin u op
    · exact .inl (Request.sameMenu P w r hpublic)
    · obtain ⟨u, op, rfl⟩ : ∃ u op, r = .admin u op := by simpa using hpublic
      rw [run, Request.code]
      rcases AdminOp.cases P u op w with ⟨e, hfail⟩ | ⟨r, w', hrun, heff⟩
      · rw [hfail]
        exact .inl ⟨rfl, rfl, rfl⟩
      · rw [hrun]
        exact .inr ⟨u, op, r, w', rfl, rfl, heff⟩

/-! ### Restaurants over a run -/

/-- What an event does to the restaurants: nothing, or the effect of a restaurant operation. -/
inductive RestaurantsEffect (w : World) : Event → List Restaurant → Prop
  | same (e : Event) : RestaurantsEffect w e w.db.restaurants
  | created {v : Uuid} {fuel : ℕ} {data : RestaurantCreate} {id : Uuid} {k : ℕ} {r : Restaurant}
      (hnone : Rows.get (·.ownerUserId) v w.db.restaurants = none)
      (hslug : w.db.FirstFree (generateSlug data.name.val) none k)
      (hrow : Restaurant.ofCreate data v (slugCandidate (generateSlug data.name.val) k) id w.now
        = .ok r) :
      RestaurantsEffect w (.request (.admin v (.restaurantCreate fuel data id)))
        (w.db.restaurants ++ [r])
  | updated {v : Uuid} {fuel : ℕ} {data : RestaurantUpdate} {r n : Restaurant}
      {slug : Option String}
      (hr : Rows.get (·.ownerUserId) v w.db.restaurants = some r)
      (hslug : RestaurantService.SlugOfUpdate w r data slug)
      (hset : r.setattrs data slug = .ok n) :
      RestaurantsEffect w (.request (.admin v (.restaurantUpdate fuel data)))
        (Rows.modify (·.id) r.id (fun _ => r.saved n w.now) w.db.restaurants)
  | deleted {v : Uuid} {r : Restaurant}
      (hr : Rows.get (·.ownerUserId) v w.db.restaurants = some r) :
      RestaurantsEffect w (.request (.admin v .restaurantDelete))
        (w.db.restaurants.filter fun r' => r'.id ≠ r.id)

lemma Event.restaurants_cases (P : Platform) (w : World) (e : Event) :
    RestaurantsEffect w e (e.run P w).db.restaurants := by
  rcases Event.menu_cases P w e with hsame | ⟨u, op, r, w', rfl, hrun, heff⟩
  · rw [hsame.restaurants]
    exact .same _
  · rw [hrun]
    cases heff with
    | restaurantCreate hnone hslug hrow hdb =>
      simp only [hdb]
      exact .created hnone hslug hrow
    | restaurantUpdate hr hslug hset hdb =>
      simp only [World.flushed, hdb]
      exact .updated hr hslug hset
    | restaurantDelete hr hdb =>
      simp only [World.flushed, hdb]
      exact .deleted hr
    | categoryCreate _ _ hdb | categoryUpdate _ _ _ hdb | categoryDelete _ _ hdb
    | categoryReorder _ _ _ hdb | dishCreate _ _ hdb | dishUpdate _ _ _ hdb
    | dishDelete _ _ hdb | dishToggle _ _ hdb =>
      simp only [World.flushed, hdb]
      exact .same _
    | logout hdb =>
      simp only [hdb]
      exact .same _
    | restaurantGet | categoryList | dishList | dishGet | analyticsGet | analyticsExport =>
      exact .same _

end LiveMenu
