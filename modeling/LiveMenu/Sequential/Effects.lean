import LiveMenu.Sequential.Services

/-!
# Effects of the admin operations

`AdminEffect` says all that a successful operation of a user can have done: the checks it passed,
the tables it committed, what it returned. An operation has one of these effects, or it raises an
exception with the world as it was.
-/

namespace LiveMenu

/-! ### Analytics of selected rows -/

namespace AnalyticsService

variable (P : Platform)

/-- The analytics of a list of scan events. -/
def summary (granularity : String) (scan : Scan (String × ℕ)) (rows : List ScanEvent) :
    AnalyticsResponse where
  totalScans := rows.length
  scansByPeriod := (orderBy Prod.fst (groupCount (fun e => P.dateTrunc
    (if granularity ∈ ["day", "week", "month"] then granularity else "day") e.timestamp) rows)).map
      fun item => ((PyDateTime.utc item.1).isoformat, item.2)
  scansByHour := orderBy Prod.fst (groupCount (fun e => P.extractHour e.timestamp) rows)
  topUserAgents := (orderBy (fun g => OrderDual.toDual g.2)
    (scan.order (groupCount (fun e => e.userAgent.val) rows))).take 5

/-- The export of a list of scan events. -/
def csvText (scan : Scan ScanEvent) (rows : List ScanEvent) : String :=
  let events := orderBy (fun e => OrderDual.toDual e.timestamp) (scan.order rows)
  CsvExport.exportToCsv
    (CsvExport.scanEventsToCsvData (events.map CsvExport.ScanFields.ofRow)) CsvExport.columns

variable (w : World) (u : Uuid) (fromDate toDate : Option PyDateTime)

lemma exec_query {α : Type} (restaurantId : Uuid) (q : List ScanEvent → α) :
    (AnalyticsRepository.query restaurantId fromDate toDate q).exec w
      = match dateBounds fromDate toDate with
        | .error e   => (.error e, w)
        | .ok bounds =>
          (.ok (q (w.db.scanEvents.filter (selectsScan restaurantId bounds))), w) := by
  rw [AnalyticsRepository.query]
  cases dateBounds fromDate toDate <;> rfl

section

variable {u fromDate toDate} {r : Restaurant}
  (hr : Rows.get (·.ownerUserId) u w.db.restaurants = some r)

include hr

lemma exec_getAnalytics (granularity : String) (scan : Scan (String × ℕ)) :
    (getAnalytics P u granularity fromDate toDate scan).exec w
      = match dateBounds fromDate toDate with
        | .error e   => (.error e, w)
        | .ok bounds => (.ok (summary P granularity scan
            (w.db.scanEvents.filter (selectsScan r.id bounds))), w) := by
  simp only [getAnalytics, RestaurantRepository.getByOwnerId, Async.exec_select_bind, hr]
  simp only [AnalyticsRepository.getTotalScans, AnalyticsRepository.getScansByPeriod,
    AnalyticsRepository.getScansByHour, AnalyticsRepository.getTopUserAgents, Prog.exec_bind,
    exec_query]
  cases dateBounds fromDate toDate <;> rfl

lemma exec_exportAnalytics (scan : Scan ScanEvent) :
    (exportAnalytics u fromDate toDate scan).exec w
      = match dateBounds fromDate toDate with
        | .error e   => (.error e, w)
        | .ok bounds => (.ok (csvText scan
            (w.db.scanEvents.filter (selectsScan r.id bounds))), w) := by
  simp only [exportAnalytics, RestaurantRepository.getByOwnerId, Async.exec_select_bind, hr]
  simp only [AnalyticsRepository.getScanEventsForExport, Prog.exec_bind, exec_query]
  cases dateBounds fromDate toDate <;> rfl

end

lemma getAnalytics_cases (granularity : String) (scan : Scan (String × ℕ)) :
    Failed (getAnalytics P u granularity fromDate toDate scan) w ∨
      ∃ r bounds, Rows.get (·.ownerUserId) u w.db.restaurants = some r ∧
        (getAnalytics P u granularity fromDate toDate scan).exec w
          = (.ok (summary P granularity scan
              (w.db.scanEvents.filter (selectsScan r.id bounds))), w) := by
  cases hr : Rows.get (·.ownerUserId) u w.db.restaurants with
  | none =>
    simp only [getAnalytics, RestaurantRepository.getByOwnerId, Failed, Async.exec_select_bind, hr]
    exact .inl ⟨_, rfl⟩
  | some r =>
    rw [Failed, exec_getAnalytics P w hr]
    cases dateBounds fromDate toDate with
    | error e => exact .inl ⟨e, rfl⟩
    | ok bounds => exact .inr ⟨r, bounds, rfl, rfl⟩

lemma exportAnalytics_cases (scan : Scan ScanEvent) :
    Failed (exportAnalytics u fromDate toDate scan) w ∨
      ∃ r bounds, Rows.get (·.ownerUserId) u w.db.restaurants = some r ∧
        (exportAnalytics u fromDate toDate scan).exec w
          = (.ok (csvText scan (w.db.scanEvents.filter (selectsScan r.id bounds))), w) := by
  cases hr : Rows.get (·.ownerUserId) u w.db.restaurants with
  | none =>
    simp only [exportAnalytics, RestaurantRepository.getByOwnerId, Failed, Async.exec_select_bind,
      hr]
    exact .inl ⟨_, rfl⟩
  | some r =>
    rw [Failed, exec_exportAnalytics w hr]
    cases dateBounds fromDate toDate with
    | error e => exact .inl ⟨e, rfl⟩
    | ok bounds => exact .inr ⟨r, bounds, rfl, rfl⟩

end AnalyticsService

/-! ### Effects -/

/-- What a successful operation of the user `u` did in the world `w`: its response and the world
after it. -/
inductive AdminEffect (P : Platform) (u : Uuid) (w : World) : AdminOp → Response → World → Prop
  | restaurantGet {r : Restaurant}
      (hr : Rows.get (·.ownerUserId) u w.db.restaurants = some r) :
      AdminEffect P u w .restaurantGet (.restaurant r) w
  | restaurantCreate {fuel : ℕ} {data : RestaurantCreate} {id : Uuid} {k : ℕ} {r : Restaurant}
      {db : Database}
      (hnone : Rows.get (·.ownerUserId) u w.db.restaurants = none)
      (hslug : w.db.FirstFree (generateSlug data.name.val) none k)
      (hrow : Restaurant.ofCreate data u (slugCandidate (generateSlug data.name.val) k) id w.now
        = .ok r)
      (hdb : db.toTables = { w.db.toTables with restaurants := w.db.restaurants ++ [r] }) :
      AdminEffect P u w (.restaurantCreate fuel data id) (.restaurant r) { w with db := db }
  | restaurantUpdate {fuel : ℕ} {data : RestaurantUpdate} {r n : Restaurant}
      {slug : Option String} {db : Database}
      (hr : Rows.get (·.ownerUserId) u w.db.restaurants = some r)
      (hslug : RestaurantService.SlugOfUpdate w r data slug)
      (hset : r.setattrs data slug = .ok n)
      (hdb : db.toTables = { w.db.toTables with
        restaurants := Rows.modify (·.id) r.id (fun _ => r.saved n w.now) w.db.restaurants }) :
      AdminEffect P u w (.restaurantUpdate fuel data) (.restaurant (r.saved n w.now))
        (w.flushed db)
  | restaurantDelete {r : Restaurant} {db : Database}
      (hr : Rows.get (·.ownerUserId) u w.db.restaurants = some r)
      (hdb : db.toTables = w.db.toTables.deleteRestaurant r.id) :
      AdminEffect P u w .restaurantDelete .none (w.flushed db)
  | categoryList {activeOnly : Bool} {scan : Scan Category} {r : Restaurant}
      (hr : Rows.get (·.ownerUserId) u w.db.restaurants = some r) :
      AdminEffect P u w (.categoryList activeOnly scan)
        (.categories (orderBy Category.orderKey (scan.order (w.db.categories.filter fun c =>
          c.restaurantId = r.id ∧ (activeOnly → c.active))))) w
  | categoryCreate {data : CategoryCreate} {id : Uuid} {r : Restaurant} {p : ℤ} {c : Category}
      {db : Database}
      (hr : Rows.get (·.ownerUserId) u w.db.restaurants = some r)
      (hrow : Category.ofCreate r.id data.name data.description p data.active id w.now = .ok c)
      (hdb : db.toTables = { w.db.toTables with categories := w.db.categories ++ [c] }) :
      AdminEffect P u w (.categoryCreate data id) (.category c) (w.flushed db)
  | categoryUpdate {categoryId : Uuid} {data : CategoryUpdate} {c n : Category} {db : Database}
      (hc : Rows.get (·.id) categoryId w.db.categories = some c)
      (hown : w.db.restaurantOwner c.restaurantId = some u)
      (hset : c.setattrs data = .ok n)
      (hdb : db.toTables = { w.db.toTables with
        categories := Rows.modify (·.id) c.id (fun _ => c.saved n w.now) w.db.categories }) :
      AdminEffect P u w (.categoryUpdate categoryId data) (.category (c.saved n w.now))
        (w.flushed db)
  | categoryDelete {categoryId : Uuid} {c : Category} {db : Database}
      (hc : Rows.get (·.id) categoryId w.db.categories = some c)
      (hown : w.db.restaurantOwner c.restaurantId = some u)
      (hdb : db.toTables = w.db.toTables.deleteCategory c.id) :
      AdminEffect P u w (.categoryDelete categoryId) .none (w.flushed db)
  | categoryReorder {ids : List Uuid} {r : Restaurant} {rows : List Category} {db : Database}
      (hr : Rows.get (·.ownerUserId) u w.db.restaurants = some r)
      (hown : ∀ id ∈ ids, w.db.categoryOwner id = some u)
      (hrows : CategoryRepository.reorderRows w.now r.id 0 ids w.db.categories = .ok rows)
      (hdb : db.toTables = { w.db.toTables with categories := rows }) :
      AdminEffect P u w (.categoryReorder ids) .none (w.flushed db)
  | dishList {f : DishFilter} {limit offset : ℕ} {scan : Scan Dish} {r : Restaurant}
      {rows : List Dish}
      (hr : Rows.get (·.ownerUserId) u w.db.restaurants = some r)
      (hcat : ∀ cid, f.categoryId = some cid → w.db.categoryOwner cid = some u)
      (hrows : rows = w.db.dishes.filter ((f.ofRestaurant r.id).matches P w.db)) :
      AdminEffect P u w (.dishList f limit offset scan)
        (.dishes ⟨((orderBy Dish.listKey (scan.order rows)).drop offset).take limit, rows.length,
          limit, offset⟩) w
  | dishGet {dishId : Uuid} {d : Dish}
      (hd : DishService.OwnsDish w u dishId d) :
      AdminEffect P u w (.dishGet dishId) (.dish d) w
  | dishCreate {data : DishCreate} {id : Uuid} {p : ℤ} {d : Dish} {db : Database}
      (hown : w.db.categoryOwner data.categoryId = some u)
      (hrow : Dish.ofCreate data p id w.now = .ok d)
      (hdb : db.toTables = { w.db.toTables with dishes := w.db.dishes ++ [d] }) :
      AdminEffect P u w (.dishCreate data id) (.dish d) (w.flushed db)
  | dishUpdate {dishId : Uuid} {data : DishUpdate} {d n : Dish} {db : Database}
      (hd : DishService.OwnsDish w u dishId d)
      (htarget : DishService.TargetOwned w u data)
      (hset : d.setattrs data = .ok n)
      (hdb : db.toTables = { w.db.toTables with
        dishes := Rows.modify (·.id) d.id (fun _ => d.saved n w.now) w.db.dishes }) :
      AdminEffect P u w (.dishUpdate dishId data) (.dish (d.saved n w.now)) (w.flushed db)
  | dishDelete {dishId : Uuid} {d n : Dish} {db : Database}
      (hd : DishService.OwnsDish w u dishId d)
      (hn : n = { d with deletedAt := some w.now })
      (hdb : db.toTables = { w.db.toTables with
        dishes := Rows.modify (·.id) d.id (fun _ => d.saved n w.now) w.db.dishes }) :
      AdminEffect P u w (.dishDelete dishId) (.dish (d.saved n w.now)) (w.flushed db)
  | dishToggle {dishId : Uuid} {d n : Dish} {db : Database}
      (hd : DishService.OwnsDish w u dishId d)
      (hn : n = { d with available := !d.available })
      (hdb : db.toTables = { w.db.toTables with
        dishes := Rows.modify (·.id) d.id (fun _ => d.saved n w.now) w.db.dishes }) :
      AdminEffect P u w (.dishToggle dishId) (.dish (d.saved n w.now)) (w.flushed db)
  | analyticsGet {granularity : String} {fromDate toDate : Option PyDateTime}
      {scan : Scan (String × ℕ)} {r : Restaurant} {bounds : Option Time × Option Time}
      (hr : Rows.get (·.ownerUserId) u w.db.restaurants = some r) :
      AdminEffect P u w (.analyticsGet granularity fromDate toDate scan)
        (.analytics (AnalyticsService.summary P granularity scan
          (w.db.scanEvents.filter (selectsScan r.id bounds)))) w
  | analyticsExport {fromDate toDate : Option PyDateTime} {scan : Scan ScanEvent} {r : Restaurant}
      {bounds : Option Time × Option Time}
      (hr : Rows.get (·.ownerUserId) u w.db.restaurants = some r) :
      AdminEffect P u w (.analyticsExport fromDate toDate scan)
        (.csv (AnalyticsService.csvText scan
          (w.db.scanEvents.filter (selectsScan r.id bounds)))) w
  | logout {db : Database}
      (hdb : db.toTables = { w.db.toTables with
        refreshTokens := w.db.refreshTokens.map fun k =>
          if k.userId = u ∧ k.revokedAt.isNone then { k with revokedAt := some w.now } else k }) :
      AdminEffect P u w .logout .none { w with db := db }

/-- An operation fails and changes nothing, or it has its effect. -/
lemma AdminOp.cases (P : Platform) (u : Uuid) (op : AdminOp) (w : World) :
    Failed (op.code P u) w ∨
      ∃ r w', (op.code P u).exec w = (.ok r, w') ∧ AdminEffect P u w op r w' := by
  -- the response is the value of the service call, wrapped
  have wrap : ∀ {α : Type} {p : Async α} (f : α → Response) {a : α} {w' : World},
      p.exec w = (.ok a, w') → (f <$> p).exec w = (.ok (f a), w') := by
    intro α p f a w' h
    rw [Prog.exec_map, h]
    rfl
  cases op with
  | restaurantGet =>
    rcases RestaurantService.getByOwner_cases w u with h | ⟨r, hr, h⟩
    · exact .inl (h.map _).failed
    · exact .inr ⟨_, _, wrap .restaurant h, .restaurantGet hr⟩
  | restaurantCreate fuel data id =>
    rcases RestaurantService.create_cases w u fuel data id with
      h | ⟨k, r, db, hnone, hk, hr, ht, h⟩
    · exact .inl (h.map _)
    · exact .inr ⟨_, _, wrap .restaurant h, .restaurantCreate hnone hk hr ht⟩
  | restaurantUpdate fuel data =>
    rcases RestaurantService.update_cases w u fuel data with
      h | ⟨r, slug, n, db, hr, hslug, hn, ht, h⟩
    · exact .inl (h.map _)
    · exact .inr ⟨_, _, wrap .restaurant h, .restaurantUpdate hr hslug hn ht⟩
  | restaurantDelete =>
    rcases RestaurantService.delete_cases w u with h | ⟨r, db, hr, ht, h⟩
    · exact .inl (h.map _)
    · exact .inr ⟨_, _, wrap (fun _ => .none) h, .restaurantDelete hr ht⟩
  | categoryList activeOnly scan =>
    rcases CategoryService.listCategories_cases w u activeOnly scan with h | ⟨r, hr, h⟩
    · exact .inl (h.map _).failed
    · exact .inr ⟨_, _, wrap .categories h, .categoryList hr⟩
  | categoryCreate data id =>
    rcases CategoryService.create_cases w u data id with h | ⟨r, p, c, db, hr, hc, ht, h⟩
    · exact .inl (h.map _)
    · exact .inr ⟨_, _, wrap .category h, .categoryCreate hr hc ht⟩
  | categoryUpdate categoryId data =>
    rcases CategoryService.update_cases w u categoryId data with
      h | ⟨c, n, db, hc, hown, hn, ht, h⟩
    · exact .inl (h.map _)
    · exact .inr ⟨_, _, wrap .category h, .categoryUpdate hc hown hn ht⟩
  | categoryDelete categoryId =>
    rcases CategoryService.delete_cases w u categoryId with h | ⟨-, h | ⟨c, db, hc, hown, ht, h⟩⟩
    · exact .inl (h.map _).failed
    · exact .inl (h.map _)
    · exact .inr ⟨_, _, wrap (fun _ => .none) h, .categoryDelete hc hown ht⟩
  | categoryReorder ids =>
    rcases CategoryService.reorder_cases w u ids with
      h | ⟨hown, h | ⟨r, rows, db, hr, hrows, ht, h⟩⟩
    · exact .inl (h.map _).failed
    · exact .inl (h.map _)
    · exact .inr ⟨_, _, wrap (fun _ => .none) h, .categoryReorder hr hown hrows ht⟩
  | dishList f limit offset scan =>
    rcases DishService.listDishes_cases w u P f limit offset scan with
      h | ⟨r, hr, hcat, h | ⟨rows, hrows, h⟩⟩
    · exact .inl (h.map _).failed
    · exact .inl (h.map _)
    · exact .inr ⟨_, _, wrap .dishes h, .dishList hr hcat hrows⟩
  | dishGet dishId =>
    rcases DishService.getDish_cases w u dishId with ⟨-, h⟩ | ⟨d, hd, h⟩
    · exact .inl (h.map _).failed
    · exact .inr ⟨_, _, wrap .dish h, .dishGet hd⟩
  | dishCreate data id =>
    rcases DishService.create_cases w u data id with h | ⟨p, d, db, hown, hd, ht, h⟩
    · exact .inl (h.map _)
    · exact .inr ⟨_, _, wrap .dish h, .dishCreate hown hd ht⟩
  | dishUpdate dishId data =>
    rcases DishService.exec_update w u dishId data with ⟨-, h⟩ | ⟨d, hd, htarget, hx⟩
    · exact .inl (h.map _).failed
    · rcases DishService.save_cases w hd.get hx with h | ⟨n, db, hn, ht, h⟩
      · exact .inl (h.map _)
      · exact .inr ⟨_, _, wrap .dish h, .dishUpdate hd htarget hn ht⟩
  | dishDelete dishId =>
    rcases DishService.exec_delete w u dishId with h | ⟨d, hd, hx⟩
    · exact .inl (h.map _).failed
    · rcases DishService.save_cases w hd.get hx with h | ⟨n, db, hn, ht, h⟩
      · exact .inl (h.map _)
      · exact .inr ⟨_, _, wrap .dish h, .dishDelete hd (Except.ok.inj hn).symm ht⟩
  | dishToggle dishId =>
    rcases DishService.exec_toggleAvailability w u dishId with h | ⟨d, hd, hx⟩
    · exact .inl (h.map _).failed
    · rcases DishService.save_cases w hd.get hx with h | ⟨n, db, hn, ht, h⟩
      · exact .inl (h.map _)
      · exact .inr ⟨_, _, wrap .dish h, .dishToggle hd (Except.ok.inj hn).symm ht⟩
  | analyticsGet granularity fromDate toDate scan =>
    rcases AnalyticsService.getAnalytics_cases P w u fromDate toDate granularity scan with
      h | ⟨r, bounds, hr, h⟩
    · exact .inl (h.map _)
    · exact .inr ⟨_, _, wrap .analytics h, .analyticsGet hr⟩
  | analyticsExport fromDate toDate scan =>
    rcases AnalyticsService.exportAnalytics_cases w u fromDate toDate scan with
      h | ⟨r, bounds, hr, h⟩
    · exact .inl (h.map _)
    · exact .inr ⟨_, _, wrap .csv h, .analyticsExport hr⟩
  | logout =>
    obtain ⟨db, ht, h⟩ := RefreshTokenRepository.revokeAllForUser_cases w u
    exact .inr ⟨_, _, wrap (fun _ => .none) h, .logout ht⟩

end LiveMenu
