import LiveMenu.Sequential.Effects

/-!
# Tenant isolation

What a user holds is everything whose chain of ownership ends at that user. An operation of one
user leaves the holdings of every other user as they are, answers from its own holdings, and is
rejected when it names a dish or a category of somebody else.
-/

namespace LiveMenu

/-- The rows of one user. -/
structure Holdings where
  restaurants : List Restaurant
  categories : List Category
  dishes : List Dish
  scanEvents : List ScanEvent
  refreshTokens : List RefreshToken

/-- The rows whose ownership ends at the user `v`, soft-deleted dishes included. -/
def Tables.holdings (t : Tables) (v : Uuid) : Holdings where
  restaurants := t.restaurants.filter fun r => r.ownerUserId = v
  categories := t.categories.filter fun c => t.restaurantOwner c.restaurantId = some v
  dishes := t.dishes.filter fun d => t.categoryOwner d.categoryId = some v
  scanEvents := t.scanEvents.filter fun e => t.restaurantOwner e.restaurantId = some v
  refreshTokens := t.refreshTokens.filter fun k => k.userId = v

/-! ### Frames -/

section Frames

variable {t t' : Tables} {v : Uuid}

/-- The same restaurants and categories belong to `v`. -/
structure SameOwner (t t' : Tables) (v : Uuid) : Prop where
  restaurant : ∀ rid, t'.restaurantOwner rid = some v ↔ t.restaurantOwner rid = some v
  category : ∀ cid, t'.categoryOwner cid = some v ↔ t.categoryOwner cid = some v

/-- Holdings are the same if the old selections give the same rows. -/
lemma SameOwner.holdings_eq (h : SameOwner t t' v)
    (hr : t'.restaurants.filter (fun r => r.ownerUserId = v)
      = t.restaurants.filter fun r => r.ownerUserId = v)
    (hc : t'.categories.filter (fun c => t.restaurantOwner c.restaurantId = some v)
      = t.categories.filter fun c => t.restaurantOwner c.restaurantId = some v)
    (hd : t'.dishes.filter (fun d => t.categoryOwner d.categoryId = some v)
      = t.dishes.filter fun d => t.categoryOwner d.categoryId = some v)
    (he : t'.scanEvents.filter (fun e => t.restaurantOwner e.restaurantId = some v)
      = t.scanEvents.filter fun e => t.restaurantOwner e.restaurantId = some v)
    (hk : t'.refreshTokens.filter (fun k => k.userId = v)
      = t.refreshTokens.filter fun k => k.userId = v) :
    t'.holdings v = t.holdings v := by
  simp only [Tables.holdings, h.restaurant, h.category, hr, hc, hd, he, hk]

lemma filter_append_of_false {ρ : Type} {p : ρ → Bool} {rows : List ρ} {r : ρ}
    (h : p r = false) : (rows ++ [r]).filter p = rows.filter p := by
  rw [List.filter_append, List.filter_cons_of_neg (by simp [h]), List.filter_nil, List.append_nil]

/-- A category keeps its owner when the categories are the same and its restaurant keeps its. -/
lemma categoryOwner_iff_of_restaurant (hc : t'.categories = t.categories)
    (h : ∀ rid, t'.restaurantOwner rid = some v ↔ t.restaurantOwner rid = some v) (cid : Uuid) :
    t'.categoryOwner cid = some v ↔ t.categoryOwner cid = some v := by
  simp only [Tables.categoryOwner, hc, Option.bind_eq_some_iff, h]

variable (ht : t.Constraints) {u : Uuid} (huv : u ≠ v)

include ht huv

lemma holdings_insertRestaurant {r : Restaurant} (hown : r.ownerUserId = u) :
    { t with restaurants := t.restaurants ++ [r] }.holdings v = t.holdings v := by
  have hrest : ∀ rid, { t with restaurants := t.restaurants ++ [r] }.restaurantOwner rid = some v ↔
      t.restaurantOwner rid = some v := by
    intro rid
    simp only [Tables.restaurantOwner, Option.map_eq_some_iff]
    constructor
    · rintro ⟨r', hr', hv⟩
      rcases List.mem_append.mp (Rows.get_mem hr') with hmem | hmem
      · have hid := Rows.get_key hr'
        exact ⟨r', hid ▸ Rows.get_of_mem ht.restaurantId hmem, hv⟩
      · rw [List.mem_singleton.mp hmem] at hv
        exact absurd (hown.symm.trans hv) huv
    · rintro ⟨r', hr', hv⟩
      exact ⟨r', Rows.get_append hr', hv⟩
  refine SameOwner.holdings_eq ⟨hrest, categoryOwner_iff_of_restaurant rfl hrest⟩ ?_ rfl rfl rfl rfl
  exact filter_append_of_false (decide_eq_false fun h => huv (hown.symm.trans h))

lemma holdings_modifyRestaurant {r n : Restaurant} (hr : r ∈ t.restaurants)
    (hown : r.ownerUserId = u) (hid : n.id = r.id) (hnown : n.ownerUserId = r.ownerUserId) :
    { t with restaurants := Rows.modify (·.id) r.id (fun _ => n) t.restaurants }.holdings v
      = t.holdings v := by
  have hrest : ∀ rid, Tables.restaurantOwner
      { t with restaurants := Rows.modify (·.id) r.id (fun _ => n) t.restaurants } rid
        = t.restaurantOwner rid := by
    intro rid
    refine Rows.map_get_map (fun r' hr' => ?_) rid
    split_ifs with hk
    · have heq := Rows.eq_of_key_eq ht.restaurantId hr' hr hk
      exact ⟨hid.trans hk.symm, by rw [heq, hnown]⟩
    · exact ⟨rfl, rfl⟩
  have hiff := fun rid => iff_of_eq (congrArg (· = some v) (hrest rid))
  refine SameOwner.holdings_eq ⟨hiff, categoryOwner_iff_of_restaurant rfl hiff⟩ ?_ rfl rfl rfl rfl
  apply Rows.filter_modify
  intro r' hr' hk
  rw [Rows.eq_of_key_eq ht.restaurantId hr' hr hk, hnown, hown]
  exact ⟨decide_eq_false huv, decide_eq_false huv⟩

lemma holdings_deleteRestaurant {r : Restaurant} (hr : r ∈ t.restaurants)
    (hown : r.ownerUserId = u) : (t.deleteRestaurant r.id).holdings v = t.holdings v := by
  have howner : t.restaurantOwner r.id = some u := by
    rw [Tables.restaurantOwner, Rows.get_of_mem ht.restaurantId hr, Option.map_some, hown]
  have hne : ∀ rid, t.restaurantOwner rid = some v → rid ≠ r.id := by
    rintro rid h rfl
    exact huv (Option.some.inj (howner.symm.trans h))
  have hrest : ∀ rid, (t.deleteRestaurant r.id).restaurantOwner rid = some v ↔
      t.restaurantOwner rid = some v := by
    intro rid
    simp only [Tables.restaurantOwner, Tables.deleteRestaurant, Option.map_eq_some_iff,
      Rows.get_filter ht.restaurantId, Option.filter_eq_some_iff]
    constructor
    · rintro ⟨r', ⟨hr', -⟩, hv⟩
      exact ⟨r', hr', hv⟩
    · rintro ⟨r', hr', hv⟩
      have hk := Rows.get_key hr'
      refine ⟨r', ⟨hr', decide_eq_true ?_⟩, hv⟩
      rw [hk]
      exact hne rid (by rw [Tables.restaurantOwner, hr', Option.map_some, hv])
  have hcat : ∀ cid, (t.deleteRestaurant r.id).categoryOwner cid = some v ↔
      t.categoryOwner cid = some v := by
    intro cid
    simp only [Tables.categoryOwner, Option.bind_eq_some_iff, hrest]
    simp only [Tables.deleteRestaurant, Rows.get_filter ht.categoryId, Option.filter_eq_some_iff]
    apply exists_congr
    intro c
    constructor
    · rintro ⟨⟨hc, -⟩, h⟩
      exact ⟨hc, h⟩
    · rintro ⟨hc, h⟩
      exact ⟨⟨hc, decide_eq_true (hne _ h)⟩, h⟩
  refine SameOwner.holdings_eq ⟨hrest, hcat⟩ ?_ ?_ ?_ ?_ rfl
  · refine Rows.filter_filter_eq fun r' _ h => decide_eq_true ?_
    intro hid
    have hr' := Rows.eq_of_key_eq ht.restaurantId ‹_› hr hid
    exact huv (hown.symm.trans (hr' ▸ of_decide_eq_true h))
  · exact Rows.filter_filter_eq fun c _ h => decide_eq_true (hne _ (of_decide_eq_true h))
  · refine Rows.filter_filter_eq fun d _ h => decide_eq_true ?_
    intro hgone
    -- a category of the restaurant belongs to `u`
    obtain ⟨c, hc, hid⟩ := List.mem_map.mp hgone
    obtain ⟨hc, hrid⟩ := List.mem_filter.mp hc
    have h := of_decide_eq_true h
    rw [← hid, Tables.categoryOwner, Rows.get_of_mem ht.categoryId hc, Option.bind_some,
      of_decide_eq_true hrid, howner] at h
    exact huv (Option.some.inj h)
  · exact Rows.filter_filter_eq fun e _ h => decide_eq_true (hne _ (of_decide_eq_true h))

lemma holdings_insertCategory {c : Category} (hown : t.restaurantOwner c.restaurantId = some u) :
    { t with categories := t.categories ++ [c] }.holdings v = t.holdings v := by
  have hne : t.restaurantOwner c.restaurantId ≠ some v := fun h =>
    huv (Option.some.inj (hown.symm.trans h))
  refine SameOwner.holdings_eq ⟨fun rid => Iff.rfl, fun cid => ?_⟩ rfl
    (filter_append_of_false (decide_eq_false hne)) rfl rfl rfl
  simp only [Tables.categoryOwner, Option.bind_eq_some_iff]
  constructor
  · rintro ⟨c', hc', hv⟩
    rcases List.mem_append.mp (Rows.get_mem hc') with hmem | hmem
    · have hid := Rows.get_key hc'
      exact ⟨c', hid ▸ Rows.get_of_mem ht.categoryId hmem, hv⟩
    · rw [List.mem_singleton.mp hmem] at hv
      exact absurd hv hne
  · rintro ⟨c', hc', hv⟩
    exact ⟨c', Rows.get_append hc', hv⟩

omit ht in
/-- Categories of `u` are rewritten and stay in their restaurants. -/
lemma holdings_mapCategories {f : Category → Category}
    (hf : ∀ c ∈ t.categories, f c = c ∨ t.restaurantOwner c.restaurantId = some u ∧
      (f c).id = c.id ∧ (f c).restaurantId = c.restaurantId) :
    { t with categories := t.categories.map f }.holdings v = t.holdings v := by
  have hkeep : ∀ c ∈ t.categories, (f c).id = c.id ∧ (f c).restaurantId = c.restaurantId := by
    intro c hc
    rcases hf c hc with h | ⟨-, h⟩
    · rw [h]
      exact ⟨rfl, rfl⟩
    · exact h
  have hcat : ∀ cid, { t with categories := t.categories.map f }.categoryOwner cid
      = t.categoryOwner cid := by
    intro cid
    have hget := Rows.map_get_map hkeep cid
    have hcol := congrArg (fun o => o.bind t.restaurantOwner) hget
    simp only [Option.bind_map] at hcol
    exact hcol
  refine SameOwner.holdings_eq
    ⟨fun _ => Iff.rfl, fun cid => iff_of_eq (congrArg (· = some v) (hcat cid))⟩ rfl ?_ rfl rfl rfl
  apply Rows.filter_map_eq
  intro c hc
  rcases hf c hc with h | ⟨hown, -, hr⟩
  · exact .inl h
  · have hne : t.restaurantOwner c.restaurantId ≠ some v := fun h =>
      huv (Option.some.inj (hown.symm.trans h))
    exact .inr ⟨decide_eq_false hne, decide_eq_false (by rwa [hr])⟩

lemma holdings_deleteCategory {c : Category} (hc : c ∈ t.categories)
    (hown : t.restaurantOwner c.restaurantId = some u) :
    (t.deleteCategory c.id).holdings v = t.holdings v := by
  have hne : t.restaurantOwner c.restaurantId ≠ some v := fun h =>
    huv (Option.some.inj (hown.symm.trans h))
  have hcat : t.categoryOwner c.id ≠ some v := by
    rwa [Tables.categoryOwner, Rows.get_of_mem ht.categoryId hc, Option.bind_some]
  refine SameOwner.holdings_eq ⟨fun rid => Iff.rfl, fun cid => ?_⟩ rfl ?_ ?_ rfl rfl
  · simp only [Tables.categoryOwner, Tables.deleteCategory, Option.bind_eq_some_iff,
      Rows.get_filter ht.categoryId, Option.filter_eq_some_iff]
    apply exists_congr
    intro c'
    constructor
    · rintro ⟨⟨h, -⟩, hv⟩
      exact ⟨h, hv⟩
    · rintro ⟨h, hv⟩
      refine ⟨⟨h, decide_eq_true fun hid => hne ?_⟩, hv⟩
      rwa [← Rows.eq_of_key_eq ht.categoryId (Rows.get_mem h) hc hid]
  · refine Rows.filter_filter_eq fun c' hc' h => decide_eq_true fun hid => hne ?_
    rw [← Rows.eq_of_key_eq ht.categoryId hc' hc hid]
    exact of_decide_eq_true h
  · refine Rows.filter_filter_eq fun d _ h => decide_eq_true fun hid => hcat ?_
    rw [← hid]
    exact of_decide_eq_true h

omit ht in
lemma holdings_insertDish {d : Dish} (hown : t.categoryOwner d.categoryId = some u) :
    { t with dishes := t.dishes ++ [d] }.holdings v = t.holdings v := by
  have hne : t.categoryOwner d.categoryId ≠ some v := fun h =>
    huv (Option.some.inj (hown.symm.trans h))
  exact SameOwner.holdings_eq ⟨fun _ => Iff.rfl, fun _ => Iff.rfl⟩ rfl rfl
    (filter_append_of_false (decide_eq_false hne)) rfl rfl

/-- A dish of `u` is rewritten and stays in a category of `u`. -/
lemma holdings_modifyDish {d n : Dish} (hd : d ∈ t.dishes)
    (hown : t.categoryOwner d.categoryId = some u)
    (hnown : t.categoryOwner n.categoryId = some u) :
    { t with dishes := Rows.modify (·.id) d.id (fun _ => n) t.dishes }.holdings v
      = t.holdings v := by
  have hne : ∀ {cid}, t.categoryOwner cid = some u → t.categoryOwner cid ≠ some v := fun hu h =>
    huv (Option.some.inj (hu.symm.trans h))
  refine SameOwner.holdings_eq ⟨fun _ => Iff.rfl, fun _ => Iff.rfl⟩ rfl rfl ?_ rfl rfl
  apply Rows.filter_modify
  intro d' hd' hk
  rw [Rows.eq_of_key_eq ht.dishId hd' hd hk]
  exact ⟨decide_eq_false (hne hown), decide_eq_false (hne hnown)⟩

omit ht in
/-- Only tokens of `u` are rewritten. -/
lemma holdings_mapRefreshTokens {f : RefreshToken → RefreshToken}
    (hf : ∀ k, f k = k ∨ k.userId = u ∧ (f k).userId = u) :
    { t with refreshTokens := t.refreshTokens.map f }.holdings v = t.holdings v := by
  refine SameOwner.holdings_eq ⟨fun _ => Iff.rfl, fun _ => Iff.rfl⟩ rfl rfl rfl rfl ?_
  apply Rows.filter_map_eq
  intro k _
  rcases hf k with h | ⟨hu, hfu⟩
  · exact .inl h
  · rw [hu, hfu]
    exact .inr ⟨decide_eq_false huv, decide_eq_false huv⟩

end Frames

/-! ### What an operation leaves alone -/

lemma AdminEffect.holdings_eq {P : Platform} {u : Uuid} {w w' : World} {op : AdminOp} {r : Response}
    (h : AdminEffect P u w op r w') {v : Uuid} (huv : u ≠ v) :
    w'.db.holdings v = w.db.holdings v := by
  have ht := w.db.valid
  cases h with
  | restaurantGet | categoryList | dishList | dishGet | analyticsGet | analyticsExport => rfl
  | restaurantCreate hnone hslug hrow hdb =>
    simp only [hdb]
    exact holdings_insertRestaurant ht huv (Restaurant.ofCreate_ok hrow).2.1
  | restaurantUpdate hr hslug hset hdb =>
    have hown := Rows.get_key hr
    simp only [World.flushed, hdb]
    exact holdings_modifyRestaurant ht huv (Rows.get_mem hr) hown (Restaurant.saved_id _ _ _)
      (Restaurant.saved_ownerUserId _ _ _)
  | restaurantDelete hr hdb =>
    have hown := Rows.get_key hr
    simp only [World.flushed, hdb]
    exact holdings_deleteRestaurant ht huv (Rows.get_mem hr) hown
  | categoryCreate hr hrow hdb =>
    simp only [World.flushed, hdb]
    apply holdings_insertCategory ht huv
    rw [(Category.ofCreate_ok hrow).2.1]
    exact Tables.restaurantOwner_of_owner ht hr
  | categoryUpdate hc hown hset hdb =>
    simp only [World.flushed, hdb]
    apply holdings_mapCategories huv
    intro c' hc'
    split_ifs with hk
    · have heq := Rows.eq_of_key_eq ht.categoryId hc' (Rows.get_mem hc) hk
      exact .inr ⟨heq ▸ hown, (Category.saved_id _ _ _).trans hk.symm,
        heq ▸ Category.saved_restaurantId _ _ _⟩
    · exact .inl rfl
  | categoryDelete hc hown hdb =>
    simp only [World.flushed, hdb]
    exact holdings_deleteCategory ht huv (Rows.get_mem hc) hown
  | categoryReorder hr hown hrows hdb =>
    obtain ⟨f, rfl, hf⟩ := CategoryRepository.reorderRows_ok hrows
    simp only [World.flushed, hdb]
    apply holdings_mapCategories huv
    intro c _
    rcases hf c with h | ⟨hrid, p, hfc⟩
    · exact .inl h
    · rw [hfc, hrid]
      exact .inr ⟨Tables.restaurantOwner_of_owner ht hr, rfl, rfl⟩
  | dishCreate hown hrow hdb =>
    simp only [World.flushed, hdb]
    apply holdings_insertDish huv
    rwa [(Dish.ofCreate_ok hrow).2.1]
  | @dishUpdate dishId data d n db hd htarget hset hdb =>
    simp only [World.flushed, hdb]
    refine holdings_modifyDish ht huv (Rows.get_mem hd.get) hd.owned ?_
    rw [Dish.saved_categoryId]
    exact htarget.owned hd hset
  | dishDelete hd hn hdb | dishToggle hd hn hdb =>
    subst hn
    simp only [World.flushed, hdb]
    refine holdings_modifyDish ht huv (Rows.get_mem hd.get) hd.owned ?_
    rw [Dish.saved_categoryId]
    exact hd.owned
  | logout hdb =>
    simp only [hdb]
    apply holdings_mapRefreshTokens huv
    intro k
    split_ifs with hk
    · exact .inr ⟨hk.1, hk.1⟩
    · exact .inl rfl

/-! ### What an operation returns -/

/-- Every row of the response is held by `u`, and every count counts rows held by `u`. -/
def Response.OwnedBy (P : Platform) (u : Uuid) (t : Tables) : Response → Prop
  | .none           => True
  | .restaurant r   => r ∈ (t.holdings u).restaurants
  | .category c     => c ∈ (t.holdings u).categories
  | .categories cs  => ∀ c ∈ cs, c ∈ (t.holdings u).categories
  | .dish d         => d ∈ (t.holdings u).dishes
  | .dishes page    => (∀ d ∈ page.items, d ∈ (t.holdings u).dishes) ∧
    ∃ rows, List.Sublist rows (t.holdings u).dishes ∧ page.total = rows.length
  | .analytics a    => ∃ granularity scan rows, List.Sublist rows (t.holdings u).scanEvents ∧
    a = AnalyticsService.summary P granularity scan rows
  | .csv text       => ∃ scan rows, List.Sublist rows (t.holdings u).scanEvents ∧
    text = AnalyticsService.csvText scan rows
  | .menu _         => False
  | .auth _         => False

section Membership

variable {t : Tables} {u : Uuid}

lemma mem_holdings_restaurants {r : Restaurant} :
    r ∈ (t.holdings u).restaurants ↔ r ∈ t.restaurants ∧ r.ownerUserId = u := by
  simp [Tables.holdings]

lemma mem_holdings_categories {c : Category} :
    c ∈ (t.holdings u).categories ↔
      c ∈ t.categories ∧ t.restaurantOwner c.restaurantId = some u := by
  simp [Tables.holdings]

lemma mem_holdings_dishes {d : Dish} :
    d ∈ (t.holdings u).dishes ↔ d ∈ t.dishes ∧ t.categoryOwner d.categoryId = some u := by
  simp [Tables.holdings]

/-- The analytics queries select scan events of the restaurant. -/
lemma selected_sublist_scanEvents {rid : Uuid} (h : t.restaurantOwner rid = some u)
    (bounds : Option Time × Option Time) :
    (t.scanEvents.filter (selectsScan rid bounds)).Sublist (t.holdings u).scanEvents := by
  apply List.monotone_filter_right _
  intro e he
  simp only [selectsScan, Bool.and_eq_true, decide_eq_true_eq] at he
  rw [decide_eq_true_eq, he.1.1, h]

/-- The listing selects dishes of the restaurant. -/
lemma selected_sublist_dishes {P : Platform} {db : Database} {f : DishFilter} {rid : Uuid}
    (h : db.restaurantOwner rid = some u) (hf : f.restaurantId = some rid) :
    (db.dishes.filter (f.matches P db)).Sublist (db.holdings u).dishes := by
  apply List.monotone_filter_right _
  intro d hd
  obtain ⟨c, hc, hid, hrid⟩ := DishFilter.category_of_matches hd hf
  rw [decide_eq_true_eq, Tables.categoryOwner, ← hid, Rows.get_of_mem db.valid.categoryId hc,
    Option.bind_some, hrid, h]

end Membership

lemma AdminEffect.ownedBy {P : Platform} {u : Uuid} {w w' : World} {op : AdminOp} {r : Response}
    (h : AdminEffect P u w op r w') : r.OwnedBy P u w'.db.toTables := by
  have ht := w.db.valid
  cases h with
  | restaurantGet hr =>
    have hown := Rows.get_key hr
    exact mem_holdings_restaurants.mpr ⟨Rows.get_mem hr, hown⟩
  | restaurantCreate hnone hslug hrow hdb =>
    simp only [Response.OwnedBy, hdb]
    exact mem_holdings_restaurants.mpr ⟨by simp, (Restaurant.ofCreate_ok hrow).2.1⟩
  | restaurantUpdate hr hslug hset hdb =>
    have hown := Rows.get_key hr
    simp only [Response.OwnedBy, World.flushed, hdb]
    exact mem_holdings_restaurants.mpr
      ⟨Rows.mem_modify.mpr (.inr ⟨_, Rows.get_mem hr, rfl, rfl⟩), by simpa using hown⟩
  | restaurantDelete | categoryDelete | categoryReorder | logout => trivial
  | categoryList hr =>
    intro c hc
    simp only [mem_orderBy, (Scan.perm _ _).mem_iff, List.mem_filter, decide_eq_true_eq] at hc
    refine mem_holdings_categories.mpr ⟨hc.1, ?_⟩
    rw [hc.2.1]
    exact Tables.restaurantOwner_of_owner ht hr
  | categoryCreate hr hrow hdb =>
    simp only [Response.OwnedBy, World.flushed, hdb]
    refine mem_holdings_categories.mpr ⟨by simp, ?_⟩
    rw [(Category.ofCreate_ok hrow).2.1]
    exact Tables.restaurantOwner_of_owner ht hr
  | categoryUpdate hc hown hset hdb =>
    simp only [Response.OwnedBy, World.flushed, hdb]
    refine mem_holdings_categories.mpr
      ⟨Rows.mem_modify.mpr (.inr ⟨_, Rows.get_mem hc, rfl, rfl⟩), ?_⟩
    rw [Category.saved_restaurantId]
    exact hown
  | dishList hr hcat hrows =>
    have hown := Tables.restaurantOwner_of_owner ht hr
    have hsub := hrows ▸ selected_sublist_dishes hown rfl
    refine ⟨fun d hd => hsub.subset ?_, _, hsub, rfl⟩
    have hd := List.mem_of_mem_drop (List.mem_of_mem_take hd)
    simpa only [mem_orderBy, (Scan.perm _ _).mem_iff] using hd
  | dishGet hd => exact mem_holdings_dishes.mpr ⟨Rows.get_mem hd.get, hd.owned⟩
  | dishCreate hown hrow hdb =>
    simp only [Response.OwnedBy, World.flushed, hdb]
    refine mem_holdings_dishes.mpr ⟨by simp, ?_⟩
    rw [(Dish.ofCreate_ok hrow).2.1]
    exact hown
  | dishUpdate hd htarget hset hdb =>
    simp only [Response.OwnedBy, World.flushed, hdb]
    refine mem_holdings_dishes.mpr
      ⟨Rows.mem_modify.mpr (.inr ⟨_, Rows.get_mem hd.get, rfl, rfl⟩), ?_⟩
    rw [Dish.saved_categoryId]
    exact htarget.owned hd hset
  | dishDelete hd hn hdb | dishToggle hd hn hdb =>
    subst hn
    simp only [Response.OwnedBy, World.flushed, hdb]
    refine mem_holdings_dishes.mpr
      ⟨Rows.mem_modify.mpr (.inr ⟨_, Rows.get_mem hd.get, rfl, rfl⟩), ?_⟩
    rw [Dish.saved_categoryId]
    exact hd.owned
  | analyticsGet hr =>
    exact ⟨_, _, _, selected_sublist_scanEvents (Tables.restaurantOwner_of_owner ht hr) _, rfl⟩
  | analyticsExport hr =>
    exact ⟨_, _, selected_sublist_scanEvents (Tables.restaurantOwner_of_owner ht hr) _, rfl⟩

/-! ### What an operation may name -/

/-- The operation names a dish or a category whose owner is another user. -/
def AdminOp.NamesForeign (t : Tables) (u : Uuid) : AdminOp → Prop
  | .categoryUpdate categoryId _ | .categoryDelete categoryId =>
    ∃ v ≠ u, t.categoryOwner categoryId = some v
  | .categoryReorder ids          => ∃ id ∈ ids, ∃ v ≠ u, t.categoryOwner id = some v
  | .dishList f _ _ _             =>
    ∃ cid, f.categoryId = some cid ∧ ∃ v ≠ u, t.categoryOwner cid = some v
  | .dishGet dishId | .dishDelete dishId | .dishToggle dishId =>
    ∃ v ≠ u, t.dishOwner dishId = some v
  | .dishCreate data _            => ∃ v ≠ u, t.categoryOwner data.categoryId = some v
  | .dishUpdate dishId data       => (∃ v ≠ u, t.dishOwner dishId = some v) ∨
    ∃ cid, data.categoryId = .set cid ∧ ∃ v ≠ u, t.categoryOwner cid = some v
  | _                             => False

lemma DishService.OwnsDish.dishOwner {w : World} {u dishId : Uuid} {d : Dish}
    (h : OwnsDish w u dishId d) : w.db.dishOwner dishId = some u := by
  rw [Tables.dishOwner, h.get, Option.bind_some, h.owned]

lemma AdminOp.rejected_of_namesForeign {P : Platform} {u : Uuid} {w : World} {op : AdminOp}
    (h : op.NamesForeign w.db.toTables u) : Rejected (op.code P u) w := by
  have hclash : ∀ {o : Option Uuid}, o = some u → ¬ ∃ v ≠ u, o = some v := by
    rintro o rfl ⟨v, hv, hov⟩
    exact hv (Option.some.inj hov).symm
  cases op with
  | categoryUpdate categoryId data =>
    rcases CategoryService.exec_update w u categoryId data with ⟨-, hrej⟩ | ⟨c, hc, hown, -⟩
    · exact hrej.map _
    · refine absurd h (hclash ?_)
      rw [Tables.categoryOwner, hc, Option.bind_some, hown]
  | categoryDelete categoryId =>
    rcases CategoryService.delete_cases w u categoryId with hrej | ⟨hown, -⟩
    · exact hrej.map _
    · exact absurd h (hclash hown)
  | categoryReorder ids =>
    rcases CategoryService.reorder_cases w u ids with hrej | ⟨hown, -⟩
    · exact hrej.map _
    · obtain ⟨id, hid, hforeign⟩ := h
      exact absurd hforeign (hclash (hown id hid))
  | dishList f limit offset scan =>
    rcases DishService.listDishes_cases w u P f limit offset scan with hrej | ⟨r, -, hcat, -⟩
    · exact hrej.map _
    · obtain ⟨cid, hf, hforeign⟩ := h
      exact absurd hforeign (hclash (hcat cid hf))
  | dishGet dishId =>
    rcases DishService.getDish_cases w u dishId with ⟨-, hrej⟩ | ⟨d, hd, -⟩
    · exact hrej.map _
    · exact absurd h (hclash hd.dishOwner)
  | dishDelete dishId =>
    rcases DishService.exec_delete w u dishId with hrej | ⟨d, hd, -⟩
    · exact hrej.map _
    · exact absurd h (hclash hd.dishOwner)
  | dishToggle dishId =>
    rcases DishService.exec_toggleAvailability w u dishId with hrej | ⟨d, hd, -⟩
    · exact hrej.map _
    · exact absurd h (hclash hd.dishOwner)
  | dishCreate data id =>
    rcases DishService.exec_create w u data id with ⟨-, hrej⟩ | ⟨hown, -⟩
    · exact hrej.map _
    · exact absurd h (hclash hown)
  | dishUpdate dishId data =>
    rcases DishService.exec_update w u dishId data with ⟨-, hrej⟩ | ⟨d, hd, htarget, -⟩
    · exact hrej.map _
    · rcases h with hforeign | ⟨cid, hcid, hforeign⟩
      · exact absurd hforeign (hclash hd.dishOwner)
      · exact absurd hforeign (hclash (htarget (some cid) (by rw [hcid]; rfl)))
  | _ => exact h.elim

/-- Whatever an authenticated user calls, on whatever state: the rows of every other user are
unchanged, what is returned or counted is the user's own, and naming a dish or a category of
another user is rejected with the store unchanged. -/
theorem admin_operation_isolated (P : Platform) (w : World) (u : Uuid) (op : AdminOp) :
    (∀ v, u ≠ v → ((op.code P u).exec w).2.db.holdings v = w.db.holdings v) ∧
      (∀ r w', (op.code P u).exec w = (.ok r, w') → r.OwnedBy P u w'.db.toTables) ∧
      (op.NamesForeign w.db.toTables u → Rejected (op.code P u) w) := by
  refine ⟨fun v huv => ?_, fun r w' hrun => ?_, AdminOp.rejected_of_namesForeign⟩
  · rcases AdminOp.cases P u op w with ⟨e, hfail⟩ | ⟨r, w', hrun, heff⟩
    · rw [hfail]
    · rw [hrun]
      exact heff.holdings_eq huv
  · rcases AdminOp.cases P u op w with ⟨e, hfail⟩ | ⟨r', w'', hrun', heff⟩
    · rw [hfail] at hrun
      cases hrun
    · rw [hrun'] at hrun
      cases hrun
      exact heff.ownedBy

end LiveMenu
