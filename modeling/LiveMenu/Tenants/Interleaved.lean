import LiveMenu.Tenants.Isolation
import LiveMenu.Sessions.Accounts

/-!
# Tenant isolation under interleaving

Between the ownership check of a request and its commit, any other request can delete and create
rows. As long as requests of different users do not draw the same id for a table, an id
belongs to one user for good, so what was checked of an id is still true at the commit: no step of
a request changes what another user holds, and no answer and no menu mixes the rows of two users.
-/

namespace LiveMenu

open MenuService

/-! ### Who an id belongs to -/

/-- The user whose row has the id. -/
def Tables.ownerIn (t : Tables) : Table → Uuid → Option Uuid
  | .restaurants, id => t.restaurantOwner id
  | .categories, id  => t.categoryOwner id
  | .dishes, id      => t.dishOwner id
  | _, _             => none

/-- The requests of different users draw different ids, and none draws the id of a row that
somebody else has. -/
structure DrawnApart (t : Tables) (cfg : ApiConfig) : Prop where
  requests : ∀ i j th th' table id u u', cfg.threads i = some th → cfg.threads j = some th' →
    th.call.draws = some (table, id, u) → th'.call.draws = some (table, id, u') → u = u'
  stored : ∀ i th table id u v, cfg.threads i = some th →
    th.call.draws = some (table, id, u) → t.ownerIn table id = some v → v = u

/-- The request draws its ids among those of its user. -/
def Request.DrawsOwn (ownerOf : Table → Uuid → Uuid) (req : Request) : Prop :=
  ∀ table id u, req.draws = some (table, id, u) → ownerOf table id = u

/-- Each id belongs to one user, whose rows have it before and after. -/
lemma DrawnApart.exists_owner {t : Tables} {cfg : ApiConfig} (h : DrawnApart t cfg) :
    ∃ ownerOf : Table → Uuid → Uuid,
      (∀ table id v, t.ownerIn table id = some v → ownerOf table id = v) ∧
        (cfg.Calls fun _ => Request.DrawsOwn ownerOf) := by
  have hone : ∀ table id, ∃ owner, (∀ v, t.ownerIn table id = some v → owner = v) ∧
      ∀ i th u, cfg.threads i = some th → th.call.draws = some (table, id, u) → owner = u := by
    intro table id
    cases hstored : t.ownerIn table id with
    | some v =>
      refine ⟨v, ?_, fun i th u hi hu => h.stored i th table id u v hi hu hstored⟩
      rintro _ ⟨⟩
      rfl
    | none =>
      by_cases hdrawn : ∃ i th u, cfg.threads i = some th ∧ th.call.draws = some (table, id, u)
      · obtain ⟨i, th, u, hi, hu⟩ := hdrawn
        refine ⟨u, ?_, fun j th' u' hj hu' => h.requests i j th th' table id u u' hi hj hu hu'⟩
        rintro _ ⟨⟩
      · refine ⟨0, ?_, fun i th u hi hu => absurd ⟨i, th, u, hi, hu⟩ hdrawn⟩
        rintro _ ⟨⟩
  choose ownerOf hstored hdrawn using hone
  exact ⟨ownerOf, hstored, fun i th hi table id u hu => hdrawn table id i th u hi hu⟩

/-! ### The facts -/

/-- Every row is of the user its id belongs to, and so is the row it refers to. -/
def ownership (ownerOf : Table → Uuid → Uuid) : Facts where
  restaurant r := ownerOf .restaurants r.id = r.ownerUserId
  category c := ownerOf .restaurants c.restaurantId = ownerOf .categories c.id
  dish d := ownerOf .categories d.categoryId = ownerOf .dishes d.id

/-- The facts tell whose a row is. -/
structure Facts.Tells (F : Facts) (ownerOf : Table → Uuid → Uuid) : Prop where
  restaurant : ∀ r, F.restaurant r → ownerOf .restaurants r.id = r.ownerUserId
  category : ∀ c, F.category c → ownerOf .restaurants c.restaurantId = ownerOf .categories c.id
  dish : ∀ d, F.dish d → ownerOf .categories d.categoryId = ownerOf .dishes d.id

namespace Facts.Tells

variable {F : Facts} {ownerOf : Table → Uuid → Uuid} {u : Uuid} (h : F.Tells ownerOf)

include h

lemma ownRestaurant {r : Restaurant} (hr : F.OwnRestaurant u r) : ownerOf .restaurants r.id = u :=
  (h.restaurant r hr.fact).trans hr.owner

lemma ownCategory {cid : Uuid} {c : Category} (hc : F.OwnCategory u cid c) :
    ownerOf .categories cid = u := by
  obtain ⟨hfact, rfl, r, hr, hrid⟩ := hc
  rw [← h.category c hfact, ← hrid, h.ownRestaurant hr]

lemma ownDish {did : Uuid} {d : Dish} (hd : F.OwnDish u did d) : ownerOf .dishes did = u := by
  obtain ⟨c, hc⟩ := hd.category
  rw [← hd.id, ← h.dish d hd.fact, h.ownCategory hc]

/-- A dish stays in the categories of its owner. -/
lemma flush {did : Uuid} {old new cur : Dish} {now : Time} (hold : F.OwnDish u did old)
    (hnew : ownerOf .categories new.categoryId = u) (hcur : F.dish cur) (hid : cur.id = old.id) :
    ownerOf .categories (old.flush new now cur).categoryId
      = ownerOf .dishes (old.flush new now cur).id := by
  show ownerOf .categories (flushColumn old.categoryId new.categoryId cur.categoryId)
    = ownerOf .dishes cur.id
  rw [flushColumn]
  split_ifs
  · exact h.dish cur hcur
  · rw [hnew, hid, hold.id, h.ownDish hold]

lemma during (P : Platform) (first last : ApiConfig) : (F.during P first last).Tells ownerOf where
  restaurant r hr := h.restaurant r hr.1
  category c hc := h.category c hc.1
  dish d hd := h.dish d hd.1

lemma withMenus : F.withMenus.Tells ownerOf := ⟨h.restaurant, h.category, h.dish⟩

end Facts.Tells

lemma ownership_tells (ownerOf : Table → Uuid → Uuid) : (ownership ownerOf).Tells ownerOf :=
  ⟨fun _ h => h, fun _ h => h, fun _ h => h⟩

/-! ### Every interleaving -/

variable {P : Platform} {ownerOf : Table → Uuid → Uuid}

/-- Every write keeps rows with their owners. -/
lemma ownership_closed : (ownership ownerOf).Closed P (Request.DrawsOwn ownerOf) where
  restaurantCreate hok hrow := by
    obtain ⟨hid, hown, -⟩ := Restaurant.ofCreate_ok hrow
    show ownerOf .restaurants _ = _
    rw [hid, hown]
    exact hok _ _ _ rfl
  restaurantUpdate _ _ _ _ hcur _ := hcur
  categoryCreate hok hr hrow := by
    obtain ⟨hid, hrid, -⟩ := Category.ofCreate_ok hrow
    show ownerOf .restaurants _ = ownerOf .categories _
    rw [hid, hrid, (ownership_tells _).ownRestaurant hr]
    exact (hok _ _ _ rfl).symm
  categoryUpdate _ _ _ hcur _ := hcur
  categoryReorder _ _ hcur _ := hcur
  dishCreate hok hc hrow := by
    obtain ⟨hid, hcid, -⟩ := Dish.ofCreate_ok hrow
    show ownerOf .categories _ = ownerOf .dishes _
    rw [hid, hcid, (ownership_tells _).ownCategory hc]
    exact (hok _ _ _ rfl).symm
  dishUpdate _ hold htarget hset hcur hid := by
    refine (ownership_tells _).flush hold ?_ hcur hid
    obtain ⟨-, -, -, hcid⟩ := Dish.setattrs_ok hset
    split at hcid
    · obtain ⟨c, hc⟩ := hold.category
      rw [hcid, (ownership_tells _).ownCategory hc]
    · rename_i hvalue
      subst hcid
      obtain ⟨c, hc⟩ := htarget _ hvalue
      exact (ownership_tells _).ownCategory hc
  dishDelete _ hold hcur hid := by
    obtain ⟨c, hc⟩ := hold.category
    exact (ownership_tells _).flush hold ((ownership_tells _).ownCategory hc) hcur hid
  dishToggle _ hold hcur hid := by
    obtain ⟨c, hc⟩ := hold.category
    exact (ownership_tells _).flush hold ((ownership_tells _).ownCategory hc) hcur hid

/-- What is stored at first is with its owner. -/
lemma ownership_stored {db : Database} (now : Time)
    (h : ∀ table id v, db.ownerIn table id = some v → ownerOf table id = v) :
    (ownership ownerOf).Hold ⟨db, [], now⟩ := by
  have hrest : ∀ r ∈ db.restaurants, ownerOf .restaurants r.id = r.ownerUserId := by
    intro r hr
    apply h .restaurants
    rw [Tables.ownerIn, Tables.restaurantOwner, Rows.get_of_mem db.valid.restaurantId hr]
    rfl
  have hcat : ∀ c ∈ db.categories,
      ownerOf .restaurants c.restaurantId = ownerOf .categories c.id := by
    intro c hc
    obtain ⟨r, hr, hrid⟩ := List.mem_map.mp (db.valid.categoryRestaurantFk c hc)
    rw [← hrid, hrest r hr]
    symm
    apply h .categories
    rw [Tables.ownerIn, Tables.categoryOwner, Rows.get_of_mem db.valid.categoryId hc,
      Option.bind_some, ← hrid, Tables.restaurantOwner, Rows.get_of_mem db.valid.restaurantId hr]
    rfl
  have hdish : ∀ d ∈ db.dishes, ownerOf .categories d.categoryId = ownerOf .dishes d.id := by
    intro d hd
    obtain ⟨c, hc, hcid⟩ := List.mem_map.mp (db.valid.dishCategoryFk d hd)
    obtain ⟨r, hr, hrid⟩ := List.mem_map.mp (db.valid.categoryRestaurantFk c hc)
    rw [← hcid, ← hcat c hc, ← hrid, hrest r hr]
    symm
    apply h .dishes
    rw [Tables.ownerIn, Tables.dishOwner, Rows.get_of_mem db.valid.dishId hd, Option.bind_some,
      ← hcid, Tables.categoryOwner, Rows.get_of_mem db.valid.categoryId hc, Option.bind_some,
      ← hrid, Tables.restaurantOwner, Rows.get_of_mem db.valid.restaurantId hr]
    rfl
  refine ⟨trivial, ?_, hrest, hcat, hdish, ?_, ?_, ?_⟩
  all_goals
    intros
    trivial

/-- In every interleaving of requests that draw their ids apart, rows stay with their owners. -/
lemma DrawnApart.owners {db : Database} {cfg : ApiConfig} (hids : DrawnApart db.toTables cfg)
    (P : Platform) (now : Time) :
    ∃ ownerOf, (cfg.Calls fun _ => Request.DrawsOwn ownerOf) ∧
      ∀ mid, Serves P (apiStart db now) mid → Serves P mid cfg →
        Guaranteed P (ownership ownerOf) mid ∧ (ownership ownerOf).Hold mid.state := by
  obtain ⟨ownerOf, hstored, hdrawn⟩ := hids.exists_owner
  refine ⟨ownerOf, hdrawn, fun mid hmid hrest => ?_⟩
  exact ownership_closed.serves hmid (hrest.calls hdrawn) (guaranteed_start db now)
    (ownership_stored now hstored)

/-! ### What a step leaves alone -/

/-- The rows whose ids belong to the user. -/
def Tables.ownRows (ownerOf : Table → Uuid → Uuid) (v : Uuid) (t : Tables) : Holdings where
  restaurants := t.restaurants.filter fun r => ownerOf .restaurants r.id = v
  categories := t.categories.filter fun c => ownerOf .categories c.id = v
  dishes := t.dishes.filter fun d => ownerOf .dishes d.id = v
  scanEvents := t.scanEvents.filter fun e => ownerOf .restaurants e.restaurantId = v
  refreshTokens := t.refreshTokens.filter fun k => k.userId = v

section OwnRows

variable {v : Uuid}

/-- What a user holds can be told from the ids alone. -/
lemma holdings_eq_ownRows {w : World} (hw : (ownership ownerOf).Hold w) (v : Uuid) :
    w.db.holdings v = w.db.toTables.ownRows ownerOf v := by
  have ht := w.db.valid
  have hrest : ∀ rid ∈ w.db.restaurants.map (·.id),
      (w.db.restaurantOwner rid = some v ↔ ownerOf .restaurants rid = v) := by
    intro rid hrid
    obtain ⟨r, hr, rfl⟩ := List.mem_map.mp hrid
    have hfact : ownerOf .restaurants r.id = r.ownerUserId := hw.restaurants r hr
    rw [Tables.restaurantOwner, Rows.get_of_mem ht.restaurantId hr, Option.map_some, hfact,
      Option.some.injEq]
  have hcat : ∀ cid ∈ w.db.categories.map (·.id),
      (w.db.categoryOwner cid = some v ↔ ownerOf .categories cid = v) := by
    intro cid hcid
    obtain ⟨c, hc, rfl⟩ := List.mem_map.mp hcid
    have hfact : ownerOf .restaurants c.restaurantId = ownerOf .categories c.id :=
      hw.categories c hc
    rw [Tables.categoryOwner, Rows.get_of_mem ht.categoryId hc, Option.bind_some,
      hrest _ (ht.categoryRestaurantFk c hc), hfact]
  simp only [Tables.holdings, Tables.ownRows, Holdings.mk.injEq, and_true]
  refine ⟨?_, ?_, ?_, ?_⟩
  · refine List.filter_congr fun r hr => decide_eq_decide.mpr ?_
    have hfact : ownerOf .restaurants r.id = r.ownerUserId := hw.restaurants r hr
    rw [hfact]
  · refine List.filter_congr fun c hc => decide_eq_decide.mpr ?_
    have hfact : ownerOf .restaurants c.restaurantId = ownerOf .categories c.id :=
      hw.categories c hc
    rw [hrest _ (ht.categoryRestaurantFk c hc), hfact]
  · refine List.filter_congr fun d hd => decide_eq_decide.mpr ?_
    have hfact : ownerOf .categories d.categoryId = ownerOf .dishes d.id := hw.dishes d hd
    rw [hcat _ (ht.dishCategoryFk d hd), hfact]
  · exact List.filter_congr fun e he =>
      decide_eq_decide.mpr (hrest _ (ht.scanEventRestaurantFk e he))

/-- The tables with the same rows of a user. -/
lemma ownRows_congr {t t' : Tables}
    (hr : t'.restaurants.filter (fun r => ownerOf .restaurants r.id = v)
      = t.restaurants.filter fun r => ownerOf .restaurants r.id = v)
    (hc : t'.categories.filter (fun c => ownerOf .categories c.id = v)
      = t.categories.filter fun c => ownerOf .categories c.id = v)
    (hd : t'.dishes.filter (fun d => ownerOf .dishes d.id = v)
      = t.dishes.filter fun d => ownerOf .dishes d.id = v)
    (he : t'.scanEvents.filter (fun e => ownerOf .restaurants e.restaurantId = v)
      = t.scanEvents.filter fun e => ownerOf .restaurants e.restaurantId = v)
    (hk : t'.refreshTokens.filter (fun k => k.userId = v)
      = t.refreshTokens.filter fun k => k.userId = v) :
    t'.ownRows ownerOf v = t.ownRows ownerOf v := by
  simp only [Tables.ownRows, hr, hc, hd, he, hk]

/-- A write for the user `u` leaves the rows of every other user alone. -/
lemma Request.Writes.ownRows_eq {F : Facts} (hF : F.Tells ownerOf) {now : Time} {w : World}
    {t' : Tables} {u : Uuid} {op : AdminOp}
    (h : Request.Writes P F now w.db.toTables t' (.admin u op))
    (htokens : op = .logout → ∀ k, F.refreshToken k → ∃ k' ∈ w.db.refreshTokens, k.Later k')
    (hok : Request.DrawsOwn ownerOf (.admin u op)) (hw : (ownership ownerOf).Hold w)
    (huv : u ≠ v) :
    t'.ownRows ownerOf v = w.db.toTables.ownRows ownerOf v := by
  have hne : ∀ {table id}, ownerOf table id = u → (decide (ownerOf table id = v)) = false :=
    fun h => decide_eq_false fun h' => huv (h.symm.trans h')
  have hdish : ∀ {did : Uuid} {old : Dish} {f : Dish → Dish}, ownerOf .dishes did = u →
      old.id = did → (∀ d, (f d).id = d.id) →
      (Rows.modify (·.id) old.id f w.db.dishes).filter (fun d => ownerOf .dishes d.id = v)
        = w.db.dishes.filter fun d => ownerOf .dishes d.id = v := by
    rintro did old f hown rfl hf
    refine Rows.filter_modify fun d hd hid => ?_
    rw [hf, hid]
    exact ⟨hne hown, hne hown⟩
  cases h with
  | restaurantCreate hrow ht =>
    subst ht
    obtain ⟨hid, -⟩ := Restaurant.ofCreate_ok hrow
    refine ownRows_congr (filter_append_of_false (hne ?_)) rfl rfl rfl rfl
    rw [hid]
    exact hok _ _ _ rfl
  | restaurantUpdate hold hslug hset ht =>
    subst ht
    refine ownRows_congr (Rows.filter_modify fun r hr hid => ?_) rfl rfl rfl rfl
    have hown := hF.ownRestaurant hold
    rw [← hid] at hown
    exact ⟨hne hown, hne hown⟩
  | @restaurantDelete _ r hr ht =>
    subst ht
    have hown := hF.ownRestaurant hr
    have hkeep : ∀ rid, ownerOf .restaurants rid = v → rid ≠ r.id := by
      rintro rid hv rfl
      exact huv (hown.symm.trans hv)
    refine ownRows_congr ?_ ?_ ?_ ?_ rfl
    · exact Rows.filter_filter_eq fun r' _ hv => decide_eq_true (hkeep _ (of_decide_eq_true hv))
    · refine Rows.filter_filter_eq fun c hc hv => decide_eq_true (hkeep _ ?_)
      have hfact : ownerOf .restaurants c.restaurantId = ownerOf .categories c.id :=
        hw.categories c hc
      rw [hfact, of_decide_eq_true hv]
    · refine Rows.filter_filter_eq fun d hd hv => decide_eq_true fun hgone => ?_
      -- the category of a dish that goes was in the restaurant
      obtain ⟨c, hc, hcid⟩ := List.mem_map.mp hgone
      obtain ⟨hc, hrid⟩ := List.mem_filter.mp hc
      have hfact : ownerOf .restaurants c.restaurantId = ownerOf .categories c.id :=
        hw.categories c hc
      have hfact' : ownerOf .categories d.categoryId = ownerOf .dishes d.id := hw.dishes d hd
      rw [of_decide_eq_true hv, ← hcid, ← hfact] at hfact'
      exact hkeep _ hfact' (of_decide_eq_true hrid)
    · exact Rows.filter_filter_eq fun e _ hv => decide_eq_true (hkeep _ (of_decide_eq_true hv))
  | categoryCreate hr hrow ht =>
    subst ht
    obtain ⟨hid, -⟩ := Category.ofCreate_ok hrow
    refine ownRows_congr rfl (filter_append_of_false (hne ?_)) rfl rfl rfl
    rw [hid]
    exact hok _ _ _ rfl
  | categoryUpdate hold hset ht =>
    subst ht
    refine ownRows_congr rfl (Rows.filter_modify fun c hc hid => ?_) rfl rfl rfl
    have hown := hF.ownCategory hold
    rw [← hold.2.1, ← hid] at hown
    exact ⟨hne hown, hne hown⟩
  | @categoryDelete _ cid c ds hc hds ht =>
    subst ht
    have hown : ownerOf .categories c.id = u := by rw [hc.2.1, hF.ownCategory hc]
    have hkeep : ∀ id, ownerOf .categories id = v → id ≠ c.id := by
      rintro id hv rfl
      exact huv (hown.symm.trans hv)
    refine ownRows_congr rfl ?_ ?_ rfl rfl
    · exact Rows.filter_filter_eq fun c' _ hv => decide_eq_true (hkeep _ (of_decide_eq_true hv))
    · have hcascade : ∀ d ∈ (w.db.toTables.deleteDishes (ds.map (·.id))).dishes,
          decide (ownerOf .dishes d.id = v) = true → decide (d.categoryId ≠ c.id) = true := by
        refine fun d hd hv => decide_eq_true (hkeep _ ?_)
        have hfact : ownerOf .categories d.categoryId = ownerOf .dishes d.id :=
          hw.dishes d (List.mem_of_mem_filter hd)
        rw [hfact, of_decide_eq_true hv]
      refine (Rows.filter_filter_eq hcascade).trans (Rows.filter_filter_eq fun d hd hv => ?_)
      -- a dish that was loaded is of the user who deletes
      refine decide_eq_true fun hloaded => huv ?_
      obtain ⟨d', hd', hid⟩ := List.mem_map.mp hloaded
      obtain ⟨hfact, hcat⟩ := hds d' hd'
      rw [← of_decide_eq_true hv, ← hid, ← hF.dish d' hfact, hcat, hown]
  | categoryReorder hr hids hrows ht =>
    subst ht
    obtain ⟨f, rfl, hf⟩ := CategoryRepository.reorderRows_ok hrows
    refine ownRows_congr rfl (Rows.filter_map_eq fun c hc => ?_) rfl rfl rfl
    obtain heq | ⟨hrid, p, heq⟩ := hf c
    · exact .inl heq
    · have hfact : ownerOf .restaurants c.restaurantId = ownerOf .categories c.id :=
        hw.categories c hc
      rw [hrid, hF.ownRestaurant hr] at hfact
      rw [heq]
      exact .inr ⟨hne hfact.symm, hne hfact.symm⟩
  | dishCreate hc hrow ht =>
    subst ht
    obtain ⟨hid, -⟩ := Dish.ofCreate_ok hrow
    refine ownRows_congr rfl rfl (filter_append_of_false (hne ?_)) rfl rfl
    rw [hid]
    exact hok _ _ _ rfl
  | dishUpdate hold _ _ ht | dishDelete hold ht | dishToggle hold ht =>
    subst ht
    exact ownRows_congr rfl rfl (hdish (hF.ownDish hold) hold.id fun _ => rfl) rfl rfl
  | @logout _ ks at' hks ht =>
    subst ht
    refine ownRows_congr rfl rfl rfl rfl (Rows.filter_map_eq fun k hk => ?_)
    by_cases hmem : ∃ k' ∈ ks, k.id = k'.id
    · -- the row that was loaded is the row that is stored, up to its revocation
      obtain ⟨k', hk', hid⟩ := hmem
      obtain ⟨hfact, huser, -⟩ := hks k' hk'
      obtain ⟨k'', hk'', hlater⟩ := htokens rfl k' hfact
      have heq := Rows.eq_of_key_eq w.db.valid.refreshTokenId hk hk'' (hid.trans hlater.id.symm)
      have hown : k.userId = u := by rw [heq, hlater.userId, huser]
      refine .inr ⟨?_, ?_⟩
      · rw [hown]
        exact decide_eq_false huv
      · rw [(RefreshToken.later_flushAll ks at' k).userId, hown]
        exact decide_eq_false huv
    · exact .inl (RefreshToken.flushAll_of_not_mem fun k' hk' hid => hmem ⟨k', hk', hid⟩)

end OwnRows

/-- What the other user holds is the same after a step of a request of `u`. -/
lemma Request.Does.holdings_eq {F : Facts} (hF : F.Tells ownerOf) {w w' : World} {u v : Uuid}
    {op : AdminOp} (htokens : ∀ k, F.refreshToken k → ∃ k' ∈ w.db.refreshTokens, k.Later k')
    (h : Request.Does P F (.admin u op) w w') (hok : Request.DrawsOwn ownerOf (.admin u op))
    (hw : (ownership ownerOf).Hold w) (hw' : (ownership ownerOf).Hold w') (huv : u ≠ v) :
    w'.db.holdings v = w.db.holdings v := by
  cases h with
  | stays hdb hcache hnow => rw [hdb]
  | commits h hcache hnow =>
    rw [holdings_eq_ownRows hw', holdings_eq_ownRows hw]
    exact h.ownRows_eq hF (fun _ => htokens) hok hw huv
  | caches hslug hmenu hw => cases hslug

/-- In every interleaving of all requests, if requests of different users draw their ids apart: no
step of a request of one user changes anything that another user holds. -/
theorem requests_isolated (P : Platform) (db : Database) (now : Time) {cfg : ApiConfig}
    (h : Serves P (apiStart db now) cfg) (hids : DrawnApart db.toTables cfg) {i : ℕ} {u : Uuid}
    {op : AdminOp} {l : Label} {eff : World → World} {next : World → Async Response}
    (hi : cfg.threads i = some ⟨.admin u op, (), .step l eff next⟩) {v : Uuid} (huv : u ≠ v) :
    (eff cfg.state).db.holdings v = cfg.state.db.holdings v := by
  obtain ⟨ownerOf, hdrawn, hown⟩ := hids.owners P now
  obtain ⟨hplain, hI⟩ := hown cfg h .refl
  obtain ⟨hkeep, hJ⟩ := h.guaranteed (F := (ownership ownerOf).during P (apiStart db now) cfg)
    fun mid hmid hrest => ((hown mid hmid hrest).2.during hmid hrest).rows
  have hok := hdrawn i _ hi
  have hafter := ownership_closed.hold hok hI (hplain.step hi rfl hI)
  refine (hkeep.step hi rfl hJ).holdings_eq ((ownership_tells ownerOf).during P _ _).withMenus ?_
    hok hI hafter huv
  rintro k ⟨-, mid, hmid, hrest, hk⟩
  exact (Serves.outlives hmid hrest).refreshTokens k hk

/-! ### Ana's dish and Luis's restaurant -/

/-- The calls below `n` draw their ids apart. -/
def drawnApart (n : ℕ) (t : Tables) (cfg : ApiConfig) : Bool :=
  (drawnBelow n cfg).all fun (table, id, u) =>
    ((t.ownerIn table id).all (· = u)) &&
      (drawnBelow n cfg).all fun (table', id', u') => !(table = table' && id = id') || u = u'

lemma drawnApart_of_checked {n : ℕ} {t : Tables} {cfg : ApiConfig}
    (hidle : ∀ j, n ≤ j → cfg.threads j = none) (h : drawnApart n t cfg = true) :
    DrawnApart t cfg := by
  simp only [drawnApart, List.all_eq_true, Bool.and_eq_true, Option.all_eq_true,
    Bool.or_eq_true, Bool.not_eq_true', Bool.and_eq_false_iff, decide_eq_true_eq,
    decide_eq_false_iff_not] at h
  constructor
  · intro i j th th' table id u u' hi hj hu hu'
    obtain hne | heq := (h _ (mem_drawnBelow hidle hi hu)).2 _ (mem_drawnBelow hidle hj hu')
    · simp at hne
    · exact heq
  · intro i th table id u v hi hu hv
    exact (h _ (mem_drawnBelow hidle hi hu)).1 v hv

/-- The user whose operation the next step of the call is a step of, and the world after it. -/
def afterStep (cfg : ApiConfig) (i : ℕ) : Option (Uuid × World) :=
  match cfg.threads i with
  | some ⟨.admin u _, _, .step _ eff _⟩ => some (u, eff cfg.state)
  | _                                   => none

/-- The page of dishes that the call has returned to the user. -/
def listed (cfg : ApiConfig) (i : ℕ) : Option (Uuid × AdminOp × PaginatedResponse Dish) :=
  match cfg.threads i with
  | some ⟨.admin u op, _, .done (.ok (.dishes page))⟩ => some (u, op, page)
  | _                                                 => none

/-- The menu that the call has returned for the slug. -/
def shown (cfg : ApiConfig) (i : ℕ) : Option (MenuScan × String × MenuResponse) :=
  match cfg.threads i with
  | some ⟨.menu scan slug, _, .done (.ok (.menu m))⟩ => some (scan, slug, m)
  | _                                                => none

/-- Luis creates a restaurant of the same name as Ana's. -/
def luisCreates : Request := .admin 2 (.restaurantCreate 5 { name := ⟨"CASA", by decide⟩ } 11)

/-- Luis's call is about to commit when Ana switches off her dish. -/
theorem requests_isolated_toggle :
    ∃ cfg w, Serves Platform.plain (apiStart sopaServed.db 0) cfg ∧ afterStep cfg 0 = some (2, w) ∧
      (w.db.holdings 2).restaurants.map (·.id) = [11] ∧
      (w.db.holdings 1).dishes.map (·.available) = [false] ∧
      w.db.holdings 1 = cfg.state.db.holdings 1 := by
  have hrun : ((apiSystem Platform.plain).follow (fun _ _ => true)
      (.start 0 luisCreates :: List.replicate 3 (.run 0) ++
        .start 1 (.admin 1 (.dishToggle 30)) :: List.replicate 6 (.run 1))
      (apiStart sopaServed.db 0)).any (fun cfg =>
        drawnApart 2 sopaServed.db.toTables cfg && (afterStep cfg 0).any fun s =>
          s.1 = 2 && ((s.2.db.holdings 2).restaurants.map (·.id) = [11] &&
            (s.2.db.holdings 1).dishes.map (·.available) = [false])) = true := by
    decide +kernel
  obtain ⟨cfg, h, hidle, hcfg⟩ := System.exists_reach_of_follow_below (n := 2) (fun _ _ => rfl)
    (fun i c h => by simp at h; omega) (fun _ _ _ _ _ _ _ => trivial) hrun
  simp only [Bool.and_eq_true, Option.any_eq_true, decide_eq_true_eq] at hcfg
  obtain ⟨hids, ⟨_, w⟩, hafter, rfl, hluis, hana⟩ := hcfg
  refine ⟨cfg, w, h, hafter, hluis, hana, ?_⟩
  rw [afterStep] at hafter
  split at hafter
  · rename_i u op φ l eff next hi
    cases hafter
    exact requests_isolated Platform.plain sopaServed.db 0 h (drawnApart_of_checked hidle hids) hi
      (by decide)
  · cases hafter

/-! ### What an answer shows -/

/-- The user held `x` in a state between `first` and `last`, and from `start` on nobody else ever
held a row with the same key. -/
structure Held (P : Platform) (start first last : ApiConfig) (u : Uuid) {ρ : Type}
    (rows : Holdings → List ρ) (key : ρ → Uuid) (x : ρ) : Prop where
  held : ∃ mid, Serves P first mid ∧ Serves P mid last ∧ x ∈ rows (mid.state.db.holdings u)
  alone : ∀ mid v y, Serves P start mid → Serves P mid last →
    y ∈ rows (mid.state.db.holdings v) → key y = key x → v = u

/-- The rows that `u` held between `first` and `last`, and nobody else ever. -/
def heldBy (P : Platform) (start first last : ApiConfig) (u : Uuid) : Facts where
  restaurant := Held P start first last u Holdings.restaurants (·.id)
  category := Held P start first last u Holdings.categories (·.id)
  dish := Held P start first last u Holdings.dishes (·.id)
  scanEvent := Held P start first last u Holdings.scanEvents (·.restaurantId)

/-- The user held this in a state between `first` and `last`. -/
def HoldingsDuring (P : Platform) (first last : ApiConfig) (u : Uuid) (h : Holdings) : Prop :=
  ∃ mid, Serves P first mid ∧ Serves P mid last ∧ h = mid.state.db.holdings u

/-- All that the response shows, lists or counts is as `F` says, and what it lists or counts are
different rows of one of the holdings `H`. -/
def Response.Shows (P : Platform) (F : Facts) (H : Holdings → Prop) : Response → Prop
  | .none           => True
  | .restaurant r   => F.restaurant r
  | .category c     => F.category c
  | .categories cs  => (∀ c ∈ cs, F.category c) ∧ ∃ h, H h ∧ cs.Subperm h.categories
  | .dish d         => F.dish d
  | .dishes page    =>
    ((∀ d ∈ page.items, F.dish d) ∧ ∃ h, H h ∧ page.items.Subperm h.dishes) ∧
      ∃ counted : List Dish, ((∀ d ∈ counted, F.dish d) ∧
        ∃ h, H h ∧ counted.Sublist h.dishes) ∧ page.total = counted.length
  | .analytics a    => ∃ granularity scan total periods hours agents,
    (∀ rows ∈ [total, periods, hours, agents], (∀ e ∈ rows, F.scanEvent e) ∧
      ∃ h, H h ∧ rows.Sublist h.scanEvents) ∧
      a = {
        totalScans := (AnalyticsService.summary P granularity scan total).totalScans
        scansByPeriod := (AnalyticsService.summary P granularity scan periods).scansByPeriod
        scansByHour := (AnalyticsService.summary P granularity scan hours).scansByHour
        topUserAgents := (AnalyticsService.summary P granularity scan agents).topUserAgents }
  | .csv text       => ∃ scan rows, ((∀ e ∈ rows, F.scanEvent e) ∧
      ∃ h, H h ∧ rows.Sublist h.scanEvents) ∧ text = AnalyticsService.csvText scan rows
  -- no operation of an owner returns these
  | .menu _         => False
  | .auth _         => False

section Shows

variable {start first last : ApiConfig} {u : Uuid}

/-- The ids of what a user holds belong to the user. -/
lemma ownRows_owner {w : World} {v : Uuid} (hw : (ownership ownerOf).Hold w) :
    (∀ r ∈ (w.db.holdings v).restaurants, ownerOf .restaurants r.id = v) ∧
      (∀ c ∈ (w.db.holdings v).categories, ownerOf .categories c.id = v) ∧
      (∀ d ∈ (w.db.holdings v).dishes, ownerOf .dishes d.id = v) ∧
      ∀ e ∈ (w.db.holdings v).scanEvents, ownerOf .restaurants e.restaurantId = v := by
  rw [holdings_eq_ownRows hw]
  refine ⟨?_, ?_, ?_, ?_⟩ <;>
    exact fun x hx => of_decide_eq_true (List.mem_filter.mp hx).2

/-- A stored row whose key belongs to the user is held by the user alone. -/
lemma held_of_owner {ρ : Type} {rows : Holdings → List ρ} {key : ρ → Uuid} {table : Table}
    {stored : Tables → List ρ} {x : ρ}
    (hown : ∀ mid, Serves P start mid → Serves P mid last → (ownership ownerOf).Hold mid.state)
    (hfirst : Serves P start first) (hx : During P first last stored x)
    (hkey : ownerOf table (key x) = u)
    (hrows : ∀ t : Tables, x ∈ stored t → x ∈ rows (t.ownRows ownerOf u))
    (howner : ∀ w v, (ownership ownerOf).Hold w → ∀ y ∈ rows (w.db.holdings v),
      ownerOf table (key y) = v) :
    Held P start first last u rows key x := by
  obtain ⟨mid, hmid, hrest, hmem⟩ := hx
  constructor
  · refine ⟨mid, hmid, hrest, ?_⟩
    rw [holdings_eq_ownRows (hown mid (hfirst.trans hmid) hrest)]
    exact hrows _ hmem
  · intro mid' v y hmid' hrest' hy hsame
    rw [← howner _ _ (hown mid' hmid' hrest') y hy, hsame, hkey]

variable (hown : ∀ mid, Serves P start mid → Serves P mid last →
    (ownership ownerOf).Hold mid.state) (hfirst : Serves P start first)

include hown hfirst

lemma heldBy_restaurant {r : Restaurant} (hr : During P first last Tables.restaurants r)
    (hkey : ownerOf .restaurants r.id = u) : (heldBy P start first last u).restaurant r :=
  held_of_owner hown hfirst hr hkey (fun _ hmem => List.mem_filter.mpr ⟨hmem, decide_eq_true hkey⟩)
    fun _ _ hw => (ownRows_owner hw).1

lemma heldBy_category {c : Category} (hc : During P first last Tables.categories c)
    (hkey : ownerOf .categories c.id = u) : (heldBy P start first last u).category c :=
  held_of_owner hown hfirst hc hkey (fun _ hmem => List.mem_filter.mpr ⟨hmem, decide_eq_true hkey⟩)
    fun _ _ hw => (ownRows_owner hw).2.1

lemma heldBy_dish {d : Dish} (hd : During P first last Tables.dishes d)
    (hkey : ownerOf .dishes d.id = u) : (heldBy P start first last u).dish d :=
  held_of_owner hown hfirst hd hkey (fun _ hmem => List.mem_filter.mpr ⟨hmem, decide_eq_true hkey⟩)
    fun _ _ hw => (ownRows_owner hw).2.2.1

lemma heldBy_scanEvent {e : ScanEvent} (he : During P first last Tables.scanEvents e)
    (hkey : ownerOf .restaurants e.restaurantId = u) :
    (heldBy P start first last u).scanEvent e :=
  held_of_owner hown hfirst he hkey (fun _ hmem => List.mem_filter.mpr ⟨hmem, decide_eq_true hkey⟩)
    fun _ _ hw => (ownRows_owner hw).2.2.2

/-- Selected rows whose keys belong to the user are a selection of the user's holdings. -/
lemma sublist_holdings {ρ : Type} {stored : Tables → List ρ} {rows : Holdings → List ρ}
    {key : ρ → Uuid} {table : Table} {xs : List ρ}
    (hrows : ∀ t : Tables, rows (t.ownRows ownerOf u)
      = (stored t).filter fun x => ownerOf table (key x) = u)
    (hsel : ((ownership ownerOf).during P first last).Selected stored xs)
    (hkey : ∀ x ∈ xs, ownerOf table (key x) = u) :
    ∃ h, HoldingsDuring P first last u h ∧ xs.Sublist (rows h) := by
  obtain ⟨_, ⟨-, mid, hmid, hrest, rfl⟩, hsub⟩ := hsel
  refine ⟨_, ⟨mid, hmid, hrest, rfl⟩, ?_⟩
  rw [holdings_eq_ownRows (hown mid (hfirst.trans hmid) hrest), hrows]
  have hfilter := hsub.filter fun x => ownerOf table (key x) = u
  rwa [List.filter_eq_self.mpr fun x hx => decide_eq_true (hkey x hx)] at hfilter

/-- What an operation of `u` answers was held by `u`. -/
lemma Request.Answers.shows {op : AdminOp} {r : Response}
    (h : Request.Answers P ((ownership ownerOf).during P first last) (.admin u op) r)
    (hok : Request.DrawsOwn ownerOf (.admin u op)) :
    r.Shows P (heldBy P start first last u) (HoldingsDuring P first last u) := by
  have hF := (ownership_tells ownerOf).during P first last
  have hcategories : ∀ {r cs}, ((ownership ownerOf).during P first last).OwnRestaurant u r →
      Request.CategoriesOf ((ownership ownerOf).during P first last) r.id cs →
      (∀ c ∈ cs, (heldBy P start first last u).category c) ∧
        ∃ h, HoldingsDuring P first last u h ∧ cs.Sublist h.categories := by
    intro r cs hr hcs
    have hkey : ∀ c ∈ cs, ownerOf .categories c.id = u := by
      intro c hc
      obtain ⟨hfact, hrid⟩ := hcs.row c hc
      rw [← hF.category c hfact, hrid, hF.ownRestaurant hr]
    exact ⟨fun c hc => heldBy_category hown hfirst (hcs.row c hc).1.2 (hkey c hc),
      sublist_holdings hown hfirst (fun _ => rfl) hcs.selected hkey⟩
  have hdishes : ∀ {r ds}, ((ownership ownerOf).during P first last).OwnRestaurant u r →
      Request.DishesOf ((ownership ownerOf).during P first last) r.id ds →
      (∀ d ∈ ds, (heldBy P start first last u).dish d) ∧
        ∃ h, HoldingsDuring P first last u h ∧ ds.Sublist h.dishes := by
    intro r ds hr hds
    have hkey : ∀ d ∈ ds, ownerOf .dishes d.id = u := by
      intro d hd
      obtain ⟨hfact, -, c, hc, hcid, hrid⟩ := hds.row d hd
      rw [← hF.dish d hfact, ← hcid, ← hF.category c hc, hrid, hF.ownRestaurant hr]
    exact ⟨fun d hd => heldBy_dish hown hfirst (hds.row d hd).1.2 (hkey d hd),
      sublist_holdings hown hfirst (fun _ => rfl) hds.selected hkey⟩
  have hscans : ∀ {r rows}, ((ownership ownerOf).during P first last).OwnRestaurant u r →
      Request.ScansOf ((ownership ownerOf).during P first last) r.id rows →
      (∀ e ∈ rows, (heldBy P start first last u).scanEvent e) ∧
        ∃ h, HoldingsDuring P first last u h ∧ rows.Sublist h.scanEvents := by
    intro r rows hr hrows
    have hkey : ∀ e ∈ rows, ownerOf .restaurants e.restaurantId = u := by
      intro e he
      rw [(hrows.row e he).2, hF.ownRestaurant hr]
    exact ⟨fun e he => heldBy_scanEvent hown hfirst (hrows.row e he).1.2 (hkey e he),
      sublist_holdings hown hfirst (fun _ => rfl) hrows.selected hkey⟩
  cases h with
  | restaurantGet hr => exact heldBy_restaurant hown hfirst hr.fact.2 (hF.ownRestaurant hr)
  | restaurantCreate hrow hcreated hr hid =>
    exact heldBy_restaurant hown hfirst hr.2 (hid ▸ hok _ _ _ rfl)
  | restaurantUpdate hold hr hid =>
    exact heldBy_restaurant hown hfirst hr.2 (hid ▸ hF.ownRestaurant hold)
  | restaurantDelete | categoryDelete | categoryReorder | logout => trivial
  | categoryList hr hcs hperm =>
    obtain ⟨hheld, h, hH, hsub⟩ := hcategories hr hcs
    exact ⟨fun c hc => hheld c (hperm.subset hc), h, hH, hperm.subperm.trans hsub.subperm⟩
  | categoryCreate hr hrow hcreated hc hid =>
    exact heldBy_category hown hfirst hc.2 (hid ▸ hok _ _ _ rfl)
  | categoryUpdate hold hc hid =>
    exact heldBy_category hown hfirst hc.2 (hid ▸ hF.ownCategory hold)
  | dishList hr hds hpage hcounted htotal =>
    obtain ⟨hheld, h, hH, hsub⟩ := hdishes hr hds
    exact ⟨⟨fun d hd => hheld d (hpage.subset hd), h, hH, hpage.trans hsub.subperm⟩, _,
      hdishes hr hcounted, htotal⟩
  | dishGet hd => exact heldBy_dish hown hfirst hd.fact.2 (hd.id ▸ hF.ownDish hd)
  | dishCreate hc hrow hcreated hd hid =>
    exact heldBy_dish hown hfirst hd.2 (hid ▸ hok _ _ _ rfl)
  | dishUpdate hold hd hid | dishDelete hold hd hid | dishToggle hold hd hid =>
    exact heldBy_dish hown hfirst hd.2 (hid ▸ hF.ownDish hold)
  | @analyticsGet _ granularity _ _ scan r total periods hours agents a hr htotal hperiods hhours
      hagents ha =>
    refine ⟨granularity, scan, total, periods, hours, agents, ?_, ha⟩
    intro rows hrows
    simp only [List.mem_cons, List.not_mem_nil, or_false] at hrows
    obtain rfl | rfl | rfl | rfl := hrows
    · exact hscans hr htotal
    · exact hscans hr hperiods
    · exact hscans hr hhours
    · exact hscans hr hagents
  | analyticsExport hr hrows => exact ⟨_, _, hscans hr hrows, rfl⟩

/-- A menu put together from rows that are with their owners is all of one of them. -/
lemma built_heldBy {slug : String} {m : MenuResponse}
    (h : ((ownership ownerOf).during P first last).withMenus.Built slug m) :
    ∃ u, (heldBy P start first last u).Built slug m := by
  have hF := (ownership_tells ownerOf).during P first last
  obtain ⟨r, cs, ds, hr, hslug, hcs, hds, rfl⟩ := h
  have hcat : ∀ c ∈ cs, ownerOf .categories c.id = ownerOf .restaurants r.id := by
    intro c hc
    obtain ⟨hfact, hrid, -⟩ := hcs c hc
    rw [← hF.category c hfact, hrid]
  refine ⟨ownerOf .restaurants r.id, r, cs, ds, heldBy_restaurant hown hfirst hr.2 rfl, hslug, ?_,
    ?_, rfl⟩
  · intro c hc
    obtain ⟨hfact, hrid, hactive⟩ := hcs c hc
    exact ⟨heldBy_category hown hfirst hfact.2 (hcat c hc), hrid, hactive⟩
  · intro d hd
    obtain ⟨hfact, hcid⟩ := hds d hd
    obtain ⟨c, hc, hsame⟩ := List.mem_map.mp hcid
    refine ⟨heldBy_dish hown hfirst hfact.2 ?_, hcid⟩
    rw [← hF.dish d hfact, ← hsame, hcat c hc]

end Shows

/-- In every interleaving of all requests, if requests of different users draw their ids apart: all
that an owner's request returns, lists or counts was this owner's in a state after the request
began, and has never been anybody else's. What it lists or counts together are different rows that
this owner had together. -/
theorem answers_isolated (P : Platform) (db : Database) (now : Time) {first cfg : ApiConfig}
    (hfirst : Serves P (apiStart db now) first) (h : Serves P first cfg)
    (hids : DrawnApart db.toTables cfg) {i : ℕ} (hnone : first.threads i = none) {u : Uuid}
    {op : AdminOp} {r : Response} (hi : cfg.threads i = some ⟨.admin u op, (), .done (.ok r)⟩) :
    r.Shows P (heldBy P (apiStart db now) first cfg u) (HoldingsDuring P first cfg u) := by
  obtain ⟨ownerOf, hdrawn, hown⟩ := hids.owners P now
  have hanswer := h.answers (F := ownership ownerOf)
    (fun mid hmid hrest => (hown mid (hfirst.trans hmid) hrest).2) hnone hi
  exact hanswer.shows (fun mid hmid hrest => (hown mid hmid hrest).2) hfirst (hdrawn i _ hi)

/-- Ana lists her dishes while Luis's restaurant gets created. -/
theorem answers_isolated_list :
    ∃ first cfg page, Serves Platform.plain (apiStart sopaServed.db 0) first ∧
      Serves Platform.plain first cfg ∧ page.items.map (·.id) = [30] ∧
      (Response.dishes page).Shows Platform.plain
        (heldBy Platform.plain (apiStart sopaServed.db 0) first cfg 1)
        (HoldingsDuring Platform.plain first cfg 1) := by
  have hrun : ((apiSystem Platform.plain).follow (fun _ _ => true)
      (.start 0 luisCreates :: List.replicate 3 (.run 0)) (apiStart sopaServed.db 0)).any
      (fun first => (first.threads 1).isNone &&
        ((apiSystem Platform.plain).follow (fun _ _ => true)
          (.start 1 (.admin 1 (.dishList {} 10 0 (Scan.stored Dish))) ::
            [1, 0, 1, 0, 1].map .run) first).any fun cfg =>
          drawnApart 2 sopaServed.db.toTables cfg && (listed cfg 1).any fun l =>
            l.1 = 1 && l.2.2.items.map (·.id) = [30]) = true := by
    decide +kernel
  obtain ⟨first, hfirst, hidle, hrest⟩ := System.exists_reach_of_follow_below (n := 2)
    (fun _ _ => rfl) (fun i c h => by simp at h; omega) (fun _ _ _ _ _ _ _ => trivial) hrun
  obtain ⟨hnone, hrest⟩ := Bool.and_eq_true_iff.mp hrest
  obtain ⟨cfg, h, hidle', hcfg⟩ := System.exists_reach_of_follow_below hidle
    (fun i c h => by simp at h; omega) (fun _ _ _ _ _ _ _ => trivial) hrest
  simp only [Bool.and_eq_true, Option.any_eq_true, decide_eq_true_eq] at hcfg
  obtain ⟨hids, ⟨_, op, page⟩, hi, rfl, hpage⟩ := hcfg
  have hids := drawnApart_of_checked hidle' hids
  have hlater := Option.isNone_iff_eq_none.mp hnone
  refine ⟨first, cfg, page, hfirst, h, hpage, ?_⟩
  rw [listed] at hi
  split at hi
  · cases hi
    exact answers_isolated Platform.plain sopaServed.db 0 hfirst h hids hlater (by assumption)
  · cases hi

/-- In every interleaving of all requests, if requests of different users draw their ids apart: a
menu that was returned for a slug, from the cache or not, was put together from a restaurant with
that slug and from rows of its owner, none of which has ever been anybody else's. -/
theorem menus_unmixed (P : Platform) (db : Database) (now : Time) {cfg : ApiConfig}
    (h : Serves P (apiStart db now) cfg) (hids : DrawnApart db.toTables cfg) {i : ℕ}
    {req : Request} {slug : String} {m : MenuResponse} (hslug : req.menuSlug = some slug)
    (hi : cfg.threads i = some ⟨req, (), .done (.ok (.menu m))⟩) :
    ∃ u, (heldBy P (apiStart db now) (apiStart db now) cfg u).Built slug m := by
  obtain ⟨ownerOf, -, hown⟩ := hids.owners P now
  obtain ⟨hkeep, -⟩ := h.guaranteed (F := (ownership ownerOf).during P (apiStart db now) cfg)
    fun mid hmid hrest => ((hown mid hmid hrest).2.during hmid hrest).rows
  have hserved : ((ownership ownerOf).during P (apiStart db now) cfg).withMenus.Served slug m := by
    have hanswer := hkeep.result hi rfl
    cases hanswer with
    | menu hm | viewMenu hm =>
      cases hslug
      exact hm
  exact built_heldBy (fun mid hmid hrest => (hown mid hmid hrest).2) .refl
    (Facts.built_of_served hserved)

/-- A guest reads Ana's menu while Luis's restaurant gets created, and another one gets it from the
cache. -/
theorem menus_unmixed_cached :
    ∃ cfg menu u, Serves Platform.plain (apiStart sopaServed.db 0) cfg ∧
      cfg.state.db.restaurants.map (·.slug.val) = ["casa", "casa-1"] ∧
      menu.categories.flatMap (fun c => c.dishes.map (·.id)) = [30] ∧
      (heldBy Platform.plain (apiStart sopaServed.db 0) (apiStart sopaServed.db 0) cfg u).Built
        "casa" menu := by
  have hrun : ((apiSystem Platform.plain).follow (fun _ _ => true)
      (.start 0 luisCreates :: .start 1 (.menu MenuScan.stored "casa") ::
        [0, 1, 0, 1, 0, 1, 0, 1, 1].map .run ++
          [.start 2 (.menu MenuScan.stored "casa"), .run 2])
      (apiStart sopaServed.db 0)).any (fun cfg =>
        (drawnApart 3 sopaServed.db.toTables cfg &&
          cfg.state.db.restaurants.map (·.slug.val) = ["casa", "casa-1"]) &&
        (shown cfg 2).any fun s => s.2.1 = "casa" &&
          s.2.2.categories.flatMap (fun c => c.dishes.map (·.id)) = [30]) = true := by
    decide +kernel
  obtain ⟨cfg, h, hidle, hcfg⟩ := System.exists_reach_of_follow_below (n := 3) (fun _ _ => rfl)
    (fun i c h => by simp at h; omega) (fun _ _ _ _ _ _ _ => trivial) hrun
  simp only [Bool.and_eq_true, Option.any_eq_true, decide_eq_true_eq] at hcfg
  obtain ⟨⟨hids, hslugs⟩, ⟨scan, _, menu⟩, hi, rfl, hdishes⟩ := hcfg
  have hids := drawnApart_of_checked hidle hids
  rw [shown] at hi
  split at hi
  · cases hi
    obtain ⟨u, hbuilt⟩ := menus_unmixed Platform.plain sopaServed.db 0 h hids rfl (by assumption)
    exact ⟨cfg, menu, u, h, hslugs, hdishes, hbuilt⟩
  · cases hi

end LiveMenu
