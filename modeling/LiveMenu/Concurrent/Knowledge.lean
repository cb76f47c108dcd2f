import LiveMenu.Lib.Guarantee
import LiveMenu.Concurrent.Steps
import LiveMenu.Sequential.Auth
import LiveMenu.Sequential.Effects

/-!
# What a request knows when it writes

Between its reads and its commit a request is interrupted by others, so all it knows of the rows
it has read is what holds of every row that was ever stored. `Facts` is such a property of rows and
cached menus, `Request.Writes` says what a commit may do to the tables, given the facts of the
rows that the request has read, and `Request.Answers` what it may return.
-/

namespace LiveMenu

/-- A property of the stored rows, of the tables they make up and of the cached menus. -/
structure Facts where
  tables : Tables → Prop := fun _ => True
  user : User → Prop := fun _ => True
  restaurant : Restaurant → Prop := fun _ => True
  category : Category → Prop := fun _ => True
  dish : Dish → Prop := fun _ => True
  scanEvent : ScanEvent → Prop := fun _ => True
  refreshToken : RefreshToken → Prop := fun _ => True
  menu : String → MenuResponse → Prop := fun _ _ => True

namespace Facts

variable (F : Facts)

/-- The facts hold of everything that is stored. -/
structure Hold (w : World) : Prop where
  tables : F.tables w.db.toTables
  users : ∀ u ∈ w.db.users, F.user u
  restaurants : ∀ r ∈ w.db.restaurants, F.restaurant r
  categories : ∀ c ∈ w.db.categories, F.category c
  dishes : ∀ d ∈ w.db.dishes, F.dish d
  scanEvents : ∀ e ∈ w.db.scanEvents, F.scanEvent e
  refreshTokens : ∀ k ∈ w.db.refreshTokens, F.refreshToken k
  menus : ∀ e ∈ w.cache, F.menu e.1 e.2.1

/-- The rows were selected from a table in one state. -/
def Selected {ρ : Type} (rows : Tables → List ρ) (xs : List ρ) : Prop :=
  ∃ t, F.tables t ∧ xs.Sublist (rows t)

lemma Hold.selected {w : World} {F : Facts} (h : F.Hold w) {ρ : Type} (rows : Tables → List ρ)
    (p : ρ → Bool) : F.Selected rows ((rows w.db.toTables).filter p) :=
  ⟨_, h.tables, List.filter_sublist⟩

/-! ### What the checks of the services tell -/

/-- A restaurant of the user `u` was read. -/
structure OwnRestaurant (u : Uuid) (r : Restaurant) : Prop where
  fact : F.restaurant r
  owner : r.ownerUserId = u

/-- A category with the id was read, and its restaurant was one of the user `u`. -/
def OwnCategory (u categoryId : Uuid) (c : Category) : Prop :=
  F.category c ∧ c.id = categoryId ∧ ∃ r, F.OwnRestaurant u r ∧ r.id = c.restaurantId

/-- A dish with the id was read that was not deleted, and its category was one of the user `u`. -/
structure OwnDish (u dishId : Uuid) (d : Dish) : Prop where
  fact : F.dish d
  id : d.id = dishId
  live : d.deletedAt = none
  category : ∃ c, F.OwnCategory u d.categoryId c

/-- The menu was put together from a restaurant with the slug, from active categories of that
restaurant and from dishes of these categories. -/
def Built (slug : String) (menu : MenuResponse) : Prop :=
  ∃ r cs ds, F.restaurant r ∧ r.slug.val = slug ∧
    (∀ c ∈ cs, F.category c ∧ c.restaurantId = r.id ∧ c.active = true) ∧
    (∀ d ∈ ds, F.dish d ∧ d.categoryId ∈ cs.map (·.id)) ∧
    menu = MenuService.menuResponse r cs ds

/-- The menu was cached under the slug, or put together. -/
def Served (slug : String) (menu : MenuResponse) : Prop :=
  F.menu (MenuService.cacheKey slug) menu ∨ F.Built slug menu

end Facts

/-- The slug that an update sets. -/
inductive NewSlug (name : Patch (BoundedStr 1 100)) : Option String → Prop
  | kept (h : name.value = none) : NewSlug name none
  | named {text : BoundedStr 1 100} (k : ℕ) (h : name.value = some (some text)) :
      NewSlug name (some (slugCandidate (generateSlug text.val) k))

/-- The token row of a refresh token that was created for the user. -/
structure IsIssued (P : Platform) (userId : Uuid) (email : String) (draws : Draws)
    (k : RefreshToken) : Prop where
  hash : ∃ t,
    k.tokenHash = P.sha256 (P.jwtEncode (refreshClaims P userId email draws.refreshJti t))
  id : k.id = draws.tokenId
  user : k.userId = userId
  live : k.revokedAt = none

/-- The id a request draws for a row of the catalog, with its table and the user it acts for. -/
def Request.draws : Request → Option (Table × Uuid × Uuid)
  | .admin u (.restaurantCreate _ _ id)  => some (.restaurants, id, u)
  | .admin u (.categoryCreate _ id)      => some (.categories, id, u)
  | .admin u (.dishCreate _ id)          => some (.dishes, id, u)
  | _                                    => none

/-- The scan event has the data of the client and the time. -/
structure IsScanBy (P : Platform) (client : Client) (now : Time) (e : ScanEvent) : Prop where
  timestamp : e.timestamp = now
  userAgent : PgText.ofString (client.userAgent.getD "unknown") = .ok e.userAgent
  ipHash : e.ipHash = hashIp P (client.host.getD "unknown")
  referrer : nullable PgText.ofString client.referer = .ok e.referrer

namespace Request

variable (P : Platform) (F : Facts)

/-- What a commit of a request may do to the tables. -/
inductive Writes (now : Time) (t t' : Tables) : Request → Prop
  | restaurantCreate {u fuel data id n r}
      (hrow : Restaurant.ofCreate data u (slugCandidate (generateSlug data.name.val) n) id now
        = .ok r)
      (ht : t' = { t with restaurants := t.restaurants ++ [r] }) :
      Writes now t t' (.admin u (.restaurantCreate fuel data id))
  | restaurantUpdate {u fuel data old new slug} (hold : F.OwnRestaurant u old)
      (hslug : NewSlug data.name slug) (hset : old.setattrs data slug = .ok new)
      (ht : t' = { t with
        restaurants := Rows.modify (·.id) old.id (old.flush new now) t.restaurants }) :
      Writes now t t' (.admin u (.restaurantUpdate fuel data))
  | restaurantDelete {u r} (hr : F.OwnRestaurant u r) (ht : t' = t.deleteRestaurant r.id) :
      Writes now t t' (.admin u .restaurantDelete)
  | categoryCreate {u data id r position c} (hr : F.OwnRestaurant u r)
      (hrow : Category.ofCreate r.id data.name data.description position data.active id now = .ok c)
      (ht : t' = { t with categories := t.categories ++ [c] }) :
      Writes now t t' (.admin u (.categoryCreate data id))
  | categoryUpdate {u categoryId data old new} (hold : F.OwnCategory u categoryId old)
      (hset : old.setattrs data = .ok new)
      (ht : t' = { t with
        categories := Rows.modify (·.id) old.id (old.flush new now) t.categories }) :
      Writes now t t' (.admin u (.categoryUpdate categoryId data))
  | categoryDelete {u categoryId c} {ds : List Dish} (hc : F.OwnCategory u categoryId c)
      (hds : ∀ d ∈ ds, F.dish d ∧ d.categoryId = c.id)
      (ht : t' = (t.deleteDishes (ds.map (·.id))).deleteCategory c.id) :
      Writes now t t' (.admin u (.categoryDelete categoryId))
  | categoryReorder {u ids r rows} (hr : F.OwnRestaurant u r)
      (hids : ∀ id ∈ ids, ∃ c, F.category c ∧ c.id = id ∧ c.restaurantId = r.id)
      (hrows : CategoryRepository.reorderRows now r.id 0 ids t.categories = .ok rows)
      (ht : t' = { t with categories := rows }) :
      Writes now t t' (.admin u (.categoryReorder ids))
  | dishCreate {u data id c position d} (hc : F.OwnCategory u data.categoryId c)
      (hrow : Dish.ofCreate data position id now = .ok d)
      (ht : t' = { t with dishes := t.dishes ++ [d] }) :
      Writes now t t' (.admin u (.dishCreate data id))
  | dishUpdate {u dishId data old new} (hold : F.OwnDish u dishId old)
      (htarget : ∀ cid, data.categoryId.value = some (some cid) → ∃ c, F.OwnCategory u cid c)
      (hset : old.setattrs data = .ok new)
      (ht : t' = { t with dishes := Rows.modify (·.id) old.id (old.flush new now) t.dishes }) :
      Writes now t t' (.admin u (.dishUpdate dishId data))
  | dishDelete {u dishId old at'} (hold : F.OwnDish u dishId old)
      (ht : t' = { t with
        dishes := Rows.modify (·.id) old.id (old.flush { old with deletedAt := some at' } now)
          t.dishes }) :
      Writes now t t' (.admin u (.dishDelete dishId))
  | dishToggle {u dishId old} (hold : F.OwnDish u dishId old)
      (ht : t' = { t with
        dishes := Rows.modify (·.id) old.id (old.flush { old with available := !old.available } now)
          t.dishes }) :
      Writes now t t' (.admin u (.dishToggle dishId))
  | logout {u ks at'} (hks : ∀ k ∈ ks, F.refreshToken k ∧ k.userId = u ∧ k.revokedAt = none)
      (ht : t' = { t with
        refreshTokens :=
          t.refreshTokens.map (RefreshToken.flushAll (RefreshToken.revocations ks at')) }) :
      Writes now t t' (.admin u .logout)
  | record {scan slug client id menu e} (hmenu : F.Served slug menu) (hid : e.id = id)
      (hrid : e.restaurantId = menu.restaurantId) (hscan : IsScanBy P client now e)
      (ht : t' = { t with scanEvents := t.scanEvents ++ [e] }) :
      Writes now t t' (.viewMenu scan slug client id)
  | registerUser {email password draws hash user}
      (hhash : P.hashPassword draws.salt password = .ok hash)
      (hrow : User.ofCreate P email hash draws.userId now = .ok user)
      (ht : t' = { t with users := t.users ++ [user] }) :
      Writes now t t' (.register email password draws)
  | registerToken {email password draws user k} (huser : F.user user)
      (hid : user.id = draws.userId) (hk : IsIssued P user.id user.email.val draws k)
      (ht : t' = { t with refreshTokens := t.refreshTokens ++ [k] }) :
      Writes now t t' (.register email password draws)
  | login {email password draws user k} (huser : F.user user)
      (hemail : user.email.val = P.strLower email)
      (hpassword : P.verifyPassword password user.passwordHash.val = .ok true)
      (hk : IsIssued P user.id user.email.val draws k)
      (ht : t' = { t with refreshTokens := t.refreshTokens ++ [k] }) :
      Writes now t t' (.login email password draws)
  | revoke {token draws k at'} (hk : F.refreshToken k) (hhash : k.tokenHash = P.sha256 token)
      (ht : t' = { t with
        refreshTokens :=
          t.refreshTokens.map (RefreshToken.flushAll (RefreshToken.revocations [k] at')) }) :
      Writes now t t' (.refresh token draws)
  | rotate {token draws payload k} (hpayload : P.jwtDecode token = some payload)
      (hk : IsIssued P payload.sub payload.email draws k)
      (ht : t' = { t with refreshTokens := t.refreshTokens ++ [k] }) :
      Writes now t t' (.refresh token draws)

/-- The slug whose menu a request reads. -/
def menuSlug : Request → Option String
  | .menu _ slug | .viewMenu _ slug _ _ => some slug
  | _                                   => none

/-- What a step of a request may do. -/
inductive Does (req : Request) (w w' : World) : Prop
  | stays (hdb : w'.db = w.db) (hcache : ∀ e ∈ w'.cache, e ∈ w.cache) (hnow : w'.now = w.now)
  | commits (h : req.Writes P F w.now w.db.toTables w'.db.toTables) (hcache : w'.cache = w.cache)
      (hnow : w'.now = w.now)
  | caches {slug menu} (hslug : req.menuSlug = some slug) (hmenu : F.Built slug menu)
      (hw : w' = { w with
        cache := w.cache.cacheSet (MenuService.cacheKey slug) menu MenuService.menuCacheTtl w.now })

/-- The categories were selected in the restaurant. -/
structure CategoriesOf (rid : Uuid) (rows : List Category) : Prop where
  selected : F.Selected Tables.categories rows
  row : ∀ c ∈ rows, F.category c ∧ c.restaurantId = rid

/-- The dishes were selected in the restaurant and are not deleted. -/
structure DishesOf (rid : Uuid) (rows : List Dish) : Prop where
  selected : F.Selected Tables.dishes rows
  row : ∀ d ∈ rows, F.dish d ∧ d.deletedAt = none ∧
    ∃ c, F.category c ∧ c.id = d.categoryId ∧ c.restaurantId = rid

/-- The scan events were selected among those of the restaurant. -/
structure ScansOf (rid : Uuid) (rows : List ScanEvent) : Prop where
  selected : F.Selected Tables.scanEvents rows
  row : ∀ e ∈ rows, F.scanEvent e ∧ e.restaurantId = rid

/-- What a request may return. -/
inductive Answers : Request → Response → Prop
  | restaurantGet {u r} (hr : F.OwnRestaurant u r) :
      Answers (.admin u .restaurantGet) (.restaurant r)
  | restaurantCreate {u fuel data id n now created r}
      (hrow : Restaurant.ofCreate data u (slugCandidate (generateSlug data.name.val) n) id now
        = .ok created) (hcreated : F.restaurant created) (hr : F.restaurant r) (hid : r.id = id) :
      Answers (.admin u (.restaurantCreate fuel data id)) (.restaurant r)
  | restaurantUpdate {u fuel data old r} (hold : F.OwnRestaurant u old) (hr : F.restaurant r)
      (hid : r.id = old.id) : Answers (.admin u (.restaurantUpdate fuel data)) (.restaurant r)
  | restaurantDelete {u r} (hr : F.OwnRestaurant u r) : Answers (.admin u .restaurantDelete) .none
  | categoryList {u activeOnly scan r cs selected} (hr : F.OwnRestaurant u r)
      (hcs : CategoriesOf F r.id selected) (hperm : cs.Perm selected) :
      Answers (.admin u (.categoryList activeOnly scan)) (.categories cs)
  | categoryCreate {u data id r position now created c} (hr : F.OwnRestaurant u r)
      (hrow : Category.ofCreate r.id data.name data.description position data.active id now
        = .ok created) (hcreated : F.category created) (hc : F.category c) (hid : c.id = id) :
      Answers (.admin u (.categoryCreate data id)) (.category c)
  | categoryUpdate {u categoryId data old c} (hold : F.OwnCategory u categoryId old)
      (hc : F.category c) (hid : c.id = categoryId) :
      Answers (.admin u (.categoryUpdate categoryId data)) (.category c)
  | categoryDelete {u categoryId c} (hc : F.OwnCategory u categoryId c) :
      Answers (.admin u (.categoryDelete categoryId)) .none
  | categoryReorder {u ids r} (hr : F.OwnRestaurant u r)
      (hids : ∀ id ∈ ids, ∃ c, F.category c ∧ c.id = id ∧ c.restaurantId = r.id) :
      Answers (.admin u (.categoryReorder ids)) .none
  | dishList {u f limit offset scan r page selected counted} (hr : F.OwnRestaurant u r)
      (hds : DishesOf F r.id selected) (hpage : page.items.Subperm selected)
      (hcounted : DishesOf F r.id counted) (htotal : page.total = counted.length) :
      Answers (.admin u (.dishList f limit offset scan)) (.dishes page)
  | dishGet {u dishId d} (hd : F.OwnDish u dishId d) :
      Answers (.admin u (.dishGet dishId)) (.dish d)
  | dishCreate {u data id c position now created d} (hc : F.OwnCategory u data.categoryId c)
      (hrow : Dish.ofCreate data position id now = .ok created) (hcreated : F.dish created)
      (hd : F.dish d) (hid : d.id = id) : Answers (.admin u (.dishCreate data id)) (.dish d)
  | dishUpdate {u dishId data old d} (hold : F.OwnDish u dishId old) (hd : F.dish d)
      (hid : d.id = dishId) : Answers (.admin u (.dishUpdate dishId data)) (.dish d)
  | dishDelete {u dishId old d} (hold : F.OwnDish u dishId old) (hd : F.dish d)
      (hid : d.id = dishId) : Answers (.admin u (.dishDelete dishId)) (.dish d)
  | dishToggle {u dishId old d} (hold : F.OwnDish u dishId old) (hd : F.dish d)
      (hid : d.id = dishId) : Answers (.admin u (.dishToggle dishId)) (.dish d)
  | analyticsGet {u granularity fromDate toDate scan r total periods hours agents a}
      (hr : F.OwnRestaurant u r) (htotal : ScansOf F r.id total) (hperiods : ScansOf F r.id periods)
      (hhours : ScansOf F r.id hours) (hagents : ScansOf F r.id agents)
      (ha : a = {
        totalScans := (AnalyticsService.summary P granularity scan total).totalScans
        scansByPeriod := (AnalyticsService.summary P granularity scan periods).scansByPeriod
        scansByHour := (AnalyticsService.summary P granularity scan hours).scansByHour
        topUserAgents := (AnalyticsService.summary P granularity scan agents).topUserAgents }) :
      Answers (.admin u (.analyticsGet granularity fromDate toDate scan)) (.analytics a)
  | analyticsExport {u fromDate toDate scan r rows} (hr : F.OwnRestaurant u r)
      (hrows : ScansOf F r.id rows) :
      Answers (.admin u (.analyticsExport fromDate toDate scan))
        (.csv (AnalyticsService.csvText scan rows))
  | logout {u} : Answers (.admin u .logout) .none
  | menu {scan slug m} (hm : F.Served slug m) : Answers (.menu scan slug) (.menu m)
  | viewMenu {scan slug client id m} (hm : F.Served slug m) :
      Answers (.viewMenu scan slug client id) (.menu m)
  | register {email password draws hash now created user a t t'}
      (hhash : P.hashPassword draws.salt password = .ok hash)
      (hrow : User.ofCreate P email hash draws.userId now = .ok created)
      (hcreated : F.user created) (huser : F.user user) (hid : user.id = draws.userId)
      (ha : a = ⟨some user, P.jwtEncode (accessClaims P user.id user.email.val draws.accessJti t),
        P.jwtEncode (refreshClaims P user.id user.email.val draws.refreshJti t')⟩) :
      Answers (.register email password draws) (.auth a)
  | login {email password draws user a t t'} (huser : F.user user)
      (hemail : user.email.val = P.strLower email)
      (hpassword : P.verifyPassword password user.passwordHash.val = .ok true)
      (ha : a = ⟨some user, P.jwtEncode (accessClaims P user.id user.email.val draws.accessJti t),
        P.jwtEncode (refreshClaims P user.id user.email.val draws.refreshJti t')⟩) :
      Answers (.login email password draws) (.auth a)
  | refresh {token draws payload a t t'} (hpayload : P.jwtDecode token = some payload)
      (ha : a = ⟨none, P.jwtEncode (accessClaims P payload.sub payload.email draws.accessJti t),
        P.jwtEncode (refreshClaims P payload.sub payload.email draws.refreshJti t')⟩) :
      Answers (.refresh token draws) (.auth a)

end Request

end LiveMenu
