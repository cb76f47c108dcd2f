import LiveMenu.Concurrent.Footprints

/-!
# All requests together

One process serves any number of requests of every kind, interleaved at their awaits, while time
passes and cached menus get lost. A fact that every write keeps holds of all that is stored, in
every interleaving.
-/

namespace LiveMenu

/-! ### The process -/

/-- The requests to one process. -/
def apiSystem (P : Platform) : System Request Unit World Label Exc Response Unit where
  program req := req.code P
  init _ := ()
  monitor _ := ⟨fun _ _ _ _ => (), fun _ _ _ _ => True⟩
  onStart _ _ _ := ()
  onStep _ _ _ _ _ := ()
  env w w' := w'.db = w.db ∧ (∀ e ∈ w'.cache, e ∈ w.cache) ∧ w.now ≤ w'.now

instance (P : Platform) : DecidableRel (apiSystem P).env := fun w w' =>
  inferInstanceAs (Decidable (w'.db = w.db ∧ (∀ e ∈ w'.cache, e ∈ w.cache) ∧ w.now ≤ w'.now))

abbrev ApiConfig : Type := Config Request Unit World Label Exc Response Unit

/-- A process that serves no request yet. -/
def apiStart (db : Database) (now : Time) : ApiConfig := ⟨⟨db, [], now⟩, fun _ => none, ()⟩

/-- The interleavings of the requests to one process. -/
abbrev Serves (P : Platform) (cfg cfg' : ApiConfig) : Prop :=
  (apiSystem P).Reach System.Always cfg cfg'

/-! ### Facts that every write keeps -/

/-- The facts `F` of what is stored are kept by every write of a request `ok` that knows the facts
`K` of what it has read. What is not stated is immediate. -/
structure Facts.Kept (P : Platform) (K F : Facts) (ok : Request → Prop) : Prop where
  tables : ∀ t, F.tables t := by intros; trivial
  user : ∀ {email password draws hash now user}, ok (.register email password draws) →
    P.hashPassword draws.salt password = .ok hash →
    User.ofCreate P email hash draws.userId now = .ok user → F.user user := by intros; trivial
  restaurantCreate : ∀ {u fuel data id n now r}, ok (.admin u (.restaurantCreate fuel data id)) →
    Restaurant.ofCreate data u (slugCandidate (generateSlug data.name.val) n) id now = .ok r →
    F.restaurant r := by intros; trivial
  restaurantUpdate : ∀ {u fuel data old new slug now cur},
    ok (.admin u (.restaurantUpdate fuel data)) → K.OwnRestaurant u old →
    NewSlug data.name slug → old.setattrs data slug = .ok new → F.restaurant cur →
    cur.id = old.id → F.restaurant (old.flush new now cur) := by intros; trivial
  categoryCreate : ∀ {u data id r position now c}, ok (.admin u (.categoryCreate data id)) →
    K.OwnRestaurant u r →
    Category.ofCreate r.id data.name data.description position data.active id now = .ok c →
    F.category c := by intros; trivial
  categoryUpdate : ∀ {u categoryId data old new now cur},
    ok (.admin u (.categoryUpdate categoryId data)) → K.OwnCategory u categoryId old →
    old.setattrs data = .ok new → F.category cur → cur.id = old.id →
    F.category (old.flush new now cur) := by intros; trivial
  categoryReorder : ∀ {u ids r position now cur}, ok (.admin u (.categoryReorder ids)) →
    K.OwnRestaurant u r → F.category cur → cur.restaurantId = r.id →
    F.category { cur with position := position, updatedAt := now } := by intros; trivial
  dishCreate : ∀ {u data id c position now d}, ok (.admin u (.dishCreate data id)) →
    K.OwnCategory u data.categoryId c → Dish.ofCreate data position id now = .ok d →
    F.dish d := by intros; trivial
  dishUpdate : ∀ {u dishId data old new now cur}, ok (.admin u (.dishUpdate dishId data)) →
    K.OwnDish u dishId old →
    (∀ cid, data.categoryId.value = some (some cid) → ∃ c, K.OwnCategory u cid c) →
    old.setattrs data = .ok new → F.dish cur → cur.id = old.id →
    F.dish (old.flush new now cur) := by intros; trivial
  dishDelete : ∀ {u dishId old at' now cur}, ok (.admin u (.dishDelete dishId)) →
    K.OwnDish u dishId old → F.dish cur → cur.id = old.id →
    F.dish (old.flush { old with deletedAt := some at' } now cur) := by intros; trivial
  dishToggle : ∀ {u dishId old now cur}, ok (.admin u (.dishToggle dishId)) →
    K.OwnDish u dishId old → F.dish cur → cur.id = old.id →
    F.dish (old.flush { old with available := !old.available } now cur) := by intros; trivial
  record : ∀ {scan slug client menu e now}, ok (.viewMenu scan slug client e.id) →
    K.Served slug menu → e.restaurantId = menu.restaurantId → IsScanBy P client now e →
    F.scanEvent e := by intros; trivial
  registerToken : ∀ {email password draws user k}, ok (.register email password draws) →
    K.user user → user.id = draws.userId → IsIssued P user.id user.email.val draws k →
    F.refreshToken k := by intros; trivial
  loginToken : ∀ {email password draws user k}, ok (.login email password draws) →
    K.user user → user.email.val = P.strLower email →
    P.verifyPassword password user.passwordHash.val = .ok true →
    IsIssued P user.id user.email.val draws k → F.refreshToken k := by intros; trivial
  rotateToken : ∀ {token draws payload k}, ok (.refresh token draws) →
    P.jwtDecode token = some payload → IsIssued P payload.sub payload.email draws k →
    F.refreshToken k := by intros; trivial
  revoke : ∀ {k r}, F.refreshToken k → (k.revokedAt.isSome → r.isSome) →
    F.refreshToken { k with revokedAt := r } := by intros; trivial
  cache : ∀ {req slug menu}, ok req → req.menuSlug = some slug → K.Built slug menu →
    F.menu (MenuService.cacheKey slug) menu := by intros; trivial

namespace Facts

/-- The facts are kept by every write of a request that knows them of what it has read. -/
abbrev Closed (P : Platform) (F : Facts) (ok : Request → Prop) : Prop := Kept P F F ok

variable {P : Platform} {K F : Facts} {ok : Request → Prop}

lemma Kept.flushAll (hF : Kept P K F ok) (ks : List RefreshToken) (at' : Time) {k : RefreshToken}
    (hk : F.refreshToken k) :
    F.refreshToken (RefreshToken.flushAll (RefreshToken.revocations ks at') k) := by
  obtain ⟨r, hr, hsome⟩ := RefreshToken.flushAll_revocations ks at' k
  rw [hr]
  exact hF.revoke hk hsome

lemma forall_mem_append {ρ : Type} {p : ρ → Prop} {rows : List ρ} {r : ρ} (h : ∀ x ∈ rows, p x)
    (hr : p r) : ∀ x ∈ rows ++ [r], p x := by
  intro x hx
  rcases List.mem_append.mp hx with hx | hx
  · exact h x hx
  · rwa [List.mem_singleton.mp hx]

lemma forall_mem_modify {ρ : Type} {p : ρ → Prop} {key : ρ → Uuid} {k : Uuid} {f : ρ → ρ}
    {rows : List ρ} (h : ∀ x ∈ rows, p x) (hf : ∀ x, p x → key x = k → p (f x)) :
    ∀ x ∈ Rows.modify key k f rows, p x := by
  intro x hx
  obtain ⟨hx, -⟩ | ⟨y, hy, hkey, rfl⟩ := Rows.mem_modify.mp hx
  · exact h x hx
  · exact hf y (h y hy) hkey

/-- A write of such a request keeps the facts. -/
lemma Kept.hold_write (hF : Kept P K F ok) {req : Request} (hok : ok req) {w w' : World}
    (hw : F.Hold w) (h : req.Writes P K w.now w.db.toTables w'.db.toTables)
    (hcache : w'.cache = w.cache) : F.Hold w' := by
  have hsame : ∀ {t : Tables}, w'.db.toTables = t → t.users = w.db.users →
      t.scanEvents = w.db.scanEvents → t.refreshTokens = w.db.refreshTokens →
      (∀ r ∈ t.restaurants, F.restaurant r) → (∀ c ∈ t.categories, F.category c) →
      (∀ d ∈ t.dishes, F.dish d) → F.Hold w' := by
    rintro t rfl hu hs hk hr hc hd
    exact ⟨hF.tables _, hu ▸ hw.users, hr, hc, hd, hs ▸ hw.scanEvents, hk ▸ hw.refreshTokens,
      hcache ▸ hw.menus⟩
  have hcatalog : ∀ {t : Tables}, w'.db.toTables = t → t.restaurants = w.db.restaurants →
      t.categories = w.db.categories → t.dishes = w.db.dishes →
      (∀ u ∈ t.users, F.user u) → (∀ e ∈ t.scanEvents, F.scanEvent e) →
      (∀ k ∈ t.refreshTokens, F.refreshToken k) → F.Hold w' := by
    rintro t rfl hr hc hd hu hs hk
    exact ⟨hF.tables _, hu, hr ▸ hw.restaurants, hc ▸ hw.categories, hd ▸ hw.dishes, hs, hk,
      hcache ▸ hw.menus⟩
  cases h with
  | restaurantCreate hrow ht =>
    exact hsame ht rfl rfl rfl (forall_mem_append hw.restaurants (hF.restaurantCreate hok hrow))
      hw.categories hw.dishes
  | restaurantUpdate hold hslug hset ht =>
    refine hsame ht rfl rfl rfl (forall_mem_modify hw.restaurants fun cur hcur hid => ?_)
      hw.categories hw.dishes
    exact hF.restaurantUpdate hok hold hslug hset hcur hid
  | restaurantDelete hr ht =>
    constructor
    case tables => exact hF.tables _
    case users => exact ht ▸ hw.users
    case restaurants => exact ht ▸ fun r hr => hw.restaurants r (List.mem_of_mem_filter hr)
    case categories => exact ht ▸ fun c hc => hw.categories c (List.mem_of_mem_filter hc)
    case dishes => exact ht ▸ fun d hd => hw.dishes d (List.mem_of_mem_filter hd)
    case scanEvents => exact ht ▸ fun e he => hw.scanEvents e (List.mem_of_mem_filter he)
    case refreshTokens => exact ht ▸ hw.refreshTokens
    case menus => exact hcache ▸ hw.menus
  | categoryCreate hr hrow ht =>
    exact hsame ht rfl rfl rfl hw.restaurants
      (forall_mem_append hw.categories (hF.categoryCreate hok hr hrow)) hw.dishes
  | categoryUpdate hold hset ht =>
    refine hsame ht rfl rfl rfl hw.restaurants
      (forall_mem_modify hw.categories fun cur hcur hid => ?_) hw.dishes
    exact hF.categoryUpdate hok hold hset hcur hid
  | categoryDelete hc hds ht =>
    exact hsame ht rfl rfl rfl hw.restaurants
      (fun c hc => hw.categories c (List.mem_of_mem_filter hc))
      fun d hd => hw.dishes d (List.mem_of_mem_filter (List.mem_of_mem_filter hd))
  | categoryReorder hr hids hrows ht =>
    obtain ⟨f, rfl, hf⟩ := CategoryRepository.reorderRows_ok hrows
    refine hsame ht rfl rfl rfl hw.restaurants (List.forall_mem_map.mpr fun c hc => ?_) hw.dishes
    obtain heq | ⟨hrid, p, heq⟩ := hf c
    · rw [heq]
      exact hw.categories c hc
    · rw [heq]
      exact hF.categoryReorder hok hr (hw.categories c hc) hrid
  | dishCreate hc hrow ht =>
    exact hsame ht rfl rfl rfl hw.restaurants hw.categories
      (forall_mem_append hw.dishes (hF.dishCreate hok hc hrow))
  | dishUpdate hold htarget hset ht =>
    refine hsame ht rfl rfl rfl hw.restaurants hw.categories
      (forall_mem_modify hw.dishes fun cur hcur hid => ?_)
    exact hF.dishUpdate hok hold htarget hset hcur hid
  | dishDelete hold ht =>
    refine hsame ht rfl rfl rfl hw.restaurants hw.categories
      (forall_mem_modify hw.dishes fun cur hcur hid => ?_)
    exact hF.dishDelete hok hold hcur hid
  | dishToggle hold ht =>
    refine hsame ht rfl rfl rfl hw.restaurants hw.categories
      (forall_mem_modify hw.dishes fun cur hcur hid => ?_)
    exact hF.dishToggle hok hold hcur hid
  | logout hks ht =>
    exact hcatalog ht rfl rfl rfl hw.users hw.scanEvents
      (List.forall_mem_map.mpr fun k hk => hF.flushAll _ _ (hw.refreshTokens k hk))
  | record hmenu hid hrid hscan ht =>
    subst hid
    exact hcatalog ht rfl rfl rfl hw.users
      (forall_mem_append hw.scanEvents (hF.record hok hmenu hrid hscan)) hw.refreshTokens
  | registerUser hhash hrow ht =>
    exact hcatalog ht rfl rfl rfl (forall_mem_append hw.users (hF.user hok hhash hrow))
      hw.scanEvents hw.refreshTokens
  | registerToken huser hid hk ht =>
    exact hcatalog ht rfl rfl rfl hw.users hw.scanEvents
      (forall_mem_append hw.refreshTokens (hF.registerToken hok huser hid hk))
  | login huser hemail hpassword hk ht =>
    exact hcatalog ht rfl rfl rfl hw.users hw.scanEvents
      (forall_mem_append hw.refreshTokens (hF.loginToken hok huser hemail hpassword hk))
  | revoke hk hhash ht =>
    exact hcatalog ht rfl rfl rfl hw.users hw.scanEvents
      (List.forall_mem_map.mpr fun k hk => hF.flushAll _ _ (hw.refreshTokens k hk))
  | rotate hpayload hk ht =>
    exact hcatalog ht rfl rfl rfl hw.users hw.scanEvents
      (forall_mem_append hw.refreshTokens (hF.rotateToken hok hpayload hk))

lemma Hold.of_db {w w' : World} (h : F.Hold w) (hdb : w'.db = w.db)
    (hcache : ∀ e ∈ w'.cache, e ∈ w.cache) : F.Hold w' :=
  ⟨hdb ▸ h.tables, hdb ▸ h.users, hdb ▸ h.restaurants, hdb ▸ h.categories, hdb ▸ h.dishes,
    hdb ▸ h.scanEvents, hdb ▸ h.refreshTokens, fun e he => h.menus e (hcache e he)⟩

/-- So does every step. -/
lemma Kept.hold (hF : Kept P K F ok) {req : Request} (hok : ok req) {w w' : World}
    (hw : F.Hold w) (h : req.Does P K w w') : F.Hold w' := by
  cases h with
  | stays hdb hcache hnow => exact hw.of_db hdb hcache
  | commits h hcache hnow => exact hF.hold_write hok hw h hcache
  | caches hslug hmenu hw' =>
    subst hw'
    refine ⟨hF.tables _, hw.users, hw.restaurants, hw.categories, hw.dishes, hw.scanEvents,
      hw.refreshTokens, ?_⟩
    intro e he
    obtain rfl | ⟨he, -⟩ := Cache.mem_store he
    · exact hF.cache hok hslug hmenu
    · exact hw.menus e he

end Facts

/-! ### Every interleaving -/

variable {P : Platform} {F : Facts} {ok : Request → Prop}

/-- The requests under way write and answer, under the facts, what they stand for. -/
abbrev Guaranteed (P : Platform) (F : Facts) (cfg : ApiConfig) : Prop :=
  cfg.Keeps F.Hold (fun req => req.Does P F) fun _ req => OnReturn (req.Answers P F)

lemma guaranteed_start (db : Database) (now : Time) : Guaranteed P F (apiStart db now) :=
  Config.keeps_of_idle fun _ => rfl

/-- Facts that every write keeps hold in every interleaving. -/
theorem Facts.Closed.serves (hF : F.Closed P ok) {cfg cfg' : ApiConfig} (h : Serves P cfg cfg')
    (hok : cfg'.Calls fun _ => ok) (hkeep : Guaranteed P F cfg) (hI : F.Hold cfg.state) :
    Guaranteed P F cfg' ∧ F.Hold cfg'.state :=
  h.keeps (fun _ req _ _ => Request.yields P F req) (fun _ _ _ _ hok hw hs => hF.hold hok hw hs)
    (fun _ _ hw hs => hw.of_db hs.1 hs.2.1) hok hkeep hI

/-- Nothing is known of the rows. -/
lemma closed_nothing : Facts.Closed P {} fun _ => True := {}

lemma hold_nothing (w : World) : Facts.Hold {} w := by
  constructor
  all_goals
    intros
    trivial

/-- Facts that hold at some point and that the requests keep which have not ended there hold from
that point on. -/
theorem Facts.Kept.serves (hF : Facts.Kept P {} F ok) {db : Database} {now : Time}
    {mid cfg : ApiConfig} (hmid : Serves P (apiStart db now) mid) (h : Serves P mid cfg)
    (hok : ∀ i th, cfg.threads i = some th → ok th.call ∨ mid.Ended i) (hI : F.Hold mid.state) :
    F.Hold cfg.state := by
  obtain ⟨hplain, -⟩ := closed_nothing.serves hmid Config.calls_any (guaranteed_start db now)
    (hold_nothing _)
  have hstart : mid.Keeps F.Hold (fun req w w' => req.Does P {} w w' ∧ ok req)
      fun _ _ _ => True := by
    intro i th hi
    obtain ⟨th', hi', hcall⟩ := h.call_eq hi
    obtain hth | ⟨_, r, hth, hdone⟩ := hok i th' hi'
    · rw [hcall] at hth
      exact (hplain i th hi).mono (fun w _ => hold_nothing w) (fun _ _ _ hs => ⟨hs, hth⟩)
        fun _ _ => trivial
    · rw [hi, Option.some.injEq] at hth
      rw [hth, hdone]
      trivial
  have hcalls : cfg.Calls fun i req => ok req ∨ mid.Ended i := hok
  refine (System.Reach.keeps h ?_ (fun _ req w w' _ hw hs => hF.hold hs.2 hw hs.1)
    (fun _ _ hw hs => hw.of_db hs.1 hs.2.1) hcalls hstart hI).2
  rintro i req hi (hreq | ⟨th, r, hth, -⟩)
  · exact Prog.Keeps.mono (Request.yields P {} req) (fun w _ => hold_nothing w)
      (fun _ _ _ hs => ⟨hs, hreq⟩) fun _ _ => trivial
  · rw [hi] at hth
    cases hth

/-! ### Facts about a run -/

/-- What is known of the rows alone. -/
def Facts.rows (F : Facts) : Facts := { F with menu := fun _ _ => True }

lemma Facts.Hold.rows {w : World} (h : F.Hold w) : F.rows.Hold w :=
  { h with menus := fun _ _ => trivial }

/-- Cached menus are put together from rows of which the facts hold. -/
def Facts.withMenus (F : Facts) : Facts :=
  { F with menu := fun key menu => ∃ slug, key = MenuService.cacheKey slug ∧ F.Built slug menu }

lemma Facts.built_of_served {slug : String} {menu : MenuResponse}
    (h : F.withMenus.Served slug menu) : F.Built slug menu := by
  obtain ⟨slug', hkey, hbuilt⟩ | hbuilt := h
  · exact MenuService.cacheKey_injective hkey ▸ hbuilt
  · exact hbuilt

/-- What is known of the rows in every state on the way is known of what the requests write and
answer, and of what they cache. -/
theorem Serves.guaranteed {db : Database} {now : Time} {cfg : ApiConfig}
    (h : Serves P (apiStart db now) cfg)
    (hrows : ∀ mid, Serves P (apiStart db now) mid → Serves P mid cfg → F.rows.Hold mid.state) :
    Guaranteed P F.withMenus cfg ∧ F.withMenus.Hold cfg.state := by
  have hmenus : ∀ {w : World}, F.rows.Hold w → (∀ e ∈ w.cache, F.withMenus.menu e.1 e.2.1) →
      F.withMenus.Hold w := fun hw hmenu => { hw with menus := hmenu }
  refine System.Reach.keeps_along h (fun _ req _ _ => Request.yields P F.withMenus req) hrows ?_ ?_
    Config.calls_any (guaranteed_start db now) (hmenus (hrows _ .refl h) ?_)
  · intro _ req w w' _ hw hrows' hstep
    refine hmenus hrows' ?_
    cases hstep with
    | stays hdb hcache hnow => exact fun e he => hw.menus e (hcache e he)
    | commits hwrite hcache hnow => exact hcache ▸ hw.menus
    | caches hslug hmenu hw' =>
      subst hw'
      intro e he
      obtain rfl | ⟨he, -⟩ := Cache.mem_store he
      · exact ⟨_, rfl, hmenu⟩
      · exact hw.menus e he
  · exact fun w w' hw hrows' hstep => hmenus hrows' fun e he => hw.menus e (hstep.2.1 e he)
  · rintro e ⟨⟩

/-- Facts that requests keep which know what is so of the rows on the way. -/
theorem Facts.Kept.along {K : Facts} (hF : Facts.Kept P K.withMenus F ok) {db : Database}
    {now : Time} {cfg : ApiConfig} (h : Serves P (apiStart db now) cfg)
    (hrows : ∀ mid, Serves P (apiStart db now) mid → Serves P mid cfg → K.rows.Hold mid.state)
    (hok : cfg.Calls fun _ => ok) (hI : F.Hold ⟨db, [], now⟩) : F.Hold cfg.state := by
  induction h with
  | refl => exact hI
  | @tail mid last hmid hs ih =>
    have hlast : Serves P mid last := .single hs
    have hrows' : ∀ c, Serves P (apiStart db now) c → Serves P c mid → K.rows.Hold c.state :=
      fun c hc hrest => hrows c hc (hrest.trans hlast)
    have hok' := hlast.calls hok
    have hmid' := ih hrows' hok'
    obtain ⟨hkeep, hK⟩ := Serves.guaranteed hmid hrows'
    obtain heq | henv | ⟨i, th, hi, hdoes⟩ := hs.effect hkeep hK
    · exact heq ▸ hmid'
    · exact hmid'.of_db henv.1 henv.2.1
    · exact hF.hold (hok' i th hi) hmid' hdoes

/-- The row was stored in a state between the two. -/
def During (P : Platform) (first last : ApiConfig) {ρ : Type} (rows : Tables → List ρ) (x : ρ) :
    Prop :=
  ∃ mid, Serves P first mid ∧ Serves P mid last ∧ x ∈ rows mid.state.db.toTables

/-- The facts, and that the row was stored between the two states. -/
def Facts.during (F : Facts) (P : Platform) (first last : ApiConfig) : Facts where
  tables t := F.tables t ∧ ∃ mid, Serves P first mid ∧ Serves P mid last ∧ mid.state.db.toTables = t
  user x := F.user x ∧ During P first last Tables.users x
  restaurant x := F.restaurant x ∧ During P first last Tables.restaurants x
  category x := F.category x ∧ During P first last Tables.categories x
  dish x := F.dish x ∧ During P first last Tables.dishes x
  scanEvent x := F.scanEvent x ∧ During P first last Tables.scanEvents x
  refreshToken x := F.refreshToken x ∧ During P first last Tables.refreshTokens x
  menu := F.menu

lemma Facts.Hold.during {first mid last : ApiConfig} (h : F.Hold mid.state)
    (hmid : Serves P first mid) (hrest : Serves P mid last) :
    (F.during P first last).Hold mid.state where
  tables := ⟨h.tables, mid, hmid, hrest, rfl⟩
  users x hx := ⟨h.users x hx, mid, hmid, hrest, hx⟩
  restaurants x hx := ⟨h.restaurants x hx, mid, hmid, hrest, hx⟩
  categories x hx := ⟨h.categories x hx, mid, hmid, hrest, hx⟩
  dishes x hx := ⟨h.dishes x hx, mid, hmid, hrest, hx⟩
  scanEvents x hx := ⟨h.scanEvents x hx, mid, hmid, hrest, hx⟩
  refreshTokens x hx := ⟨h.refreshTokens x hx, mid, hmid, hrest, hx⟩
  menus := h.menus

/-- A request that begins after `first` answers from rows that are stored from then on. -/
theorem Serves.answers {first cfg : ApiConfig} (h : Serves P first cfg)
    (hrows : ∀ mid, Serves P first mid → Serves P mid cfg → F.Hold mid.state) {i : ℕ}
    {req : Request} {r : Response} (hfirst : first.threads i = none)
    (hi : cfg.threads i = some ⟨req, (), .done (.ok r)⟩) :
    req.Answers P (F.during P first cfg) r := by
  have hduring : ∀ mid, Serves P first mid → Serves P mid cfg →
      (F.during P first cfg).Hold mid.state :=
    fun mid hmid hrest => (hrows mid hmid hrest).during hmid hrest
  exact h.result_of_later hduring hfirst hi rfl <|
    Prog.Keeps.mono (Request.yields P (F.during P first cfg) req) (fun _ hw => hw)
      (fun _ _ _ _ => trivial) fun _ hr => hr

/-! ### Looking at a configuration -/

/-- What the calls below `n` draw. -/
def drawnBelow (n : ℕ) (cfg : ApiConfig) : List (Table × Uuid × Uuid) :=
  (List.range n).filterMap fun i => (cfg.threads i).bind (·.call.draws)

lemma mem_drawnBelow {n : ℕ} {cfg : ApiConfig} (hidle : ∀ j, n ≤ j → cfg.threads j = none) {i : ℕ}
    {th : Thread Request Unit World Label Exc Response} {table : Table} {id u : Uuid}
    (hi : cfg.threads i = some th) (hu : th.call.draws = some (table, id, u)) :
    (table, id, u) ∈ drawnBelow n cfg := by
  refine List.mem_filterMap.mpr ⟨i, List.mem_range.mpr ?_, ?_⟩
  · by_contra hn
    rw [hidle i (Nat.not_lt.mp hn)] at hi
    cases hi
  · rw [hi, Option.bind_some, hu]

end LiveMenu
