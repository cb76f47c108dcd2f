import LiveMenu.Sequential.Menu

/-!
# The content of the public menu

The menu of a restaurant shows its active categories that have a dish to show, and of each the
dishes that are available and not deleted, both by position and then by age.
-/

namespace LiveMenu

open MenuService

/-! ### What a menu is put together from -/

/-- The public may see the dish: it is available and not deleted. -/
def Dish.Visible (d : Dish) : Prop := d.available = true ∧ d.deletedAt = none

/-- A menu has an entry for the dish. -/
def MenuResponse.HasDish (menu : MenuResponse) (dishId : Uuid) : Prop :=
  ∃ c ∈ menu.categories, ∃ d ∈ c.dishes, d.id = dishId

section

variable {c : Category} {categories : List Category} {d : Dish} {dishes : List Dish}

lemma mem_availableDishes :
    d ∈ availableDishes c dishes ↔ d ∈ dishes ∧ d.categoryId = c.id ∧ d.Visible := by
  simp only [availableDishes, mem_orderBy, List.mem_filter, decide_eq_true_eq, Dish.Visible,
    Option.isNone_iff_eq_none]

lemma availableDishes_nodup (h : dishes.Nodup) : (availableDishes c dishes).Nodup :=
  (orderBy_perm _ _).nodup_iff.mpr (h.filter _)

lemma availableDishes_sorted :
    (availableDishes c dishes).Pairwise fun d d' => d.menuKey ≤ d'.menuKey :=
  orderBy_sorted _ _

/-- A dish in a menu was among the dishes, visible, in one of the categories. -/
lemma hasDish_menuResponse {r : Restaurant} {dishId : Uuid}
    (h : (menuResponse r categories dishes).HasDish dishId) :
    ∃ c ∈ categories, ∃ d ∈ dishes, d.id = dishId ∧ d.categoryId = c.id ∧ d.Visible := by
  obtain ⟨m, hm, x, hx, hid⟩ := h
  obtain ⟨c, hc, rfl⟩ := List.mem_map.mp (List.mem_filter.mp hm).1
  obtain ⟨d, hd, rfl⟩ := List.mem_map.mp hx
  obtain ⟨hmem, hcat, hvisible⟩ := mem_availableDishes.mp hd
  exact ⟨c, hc, d, hmem, hid, hcat, hvisible⟩

variable {scan : MenuScan} {rid : Uuid} {db : Database}

lemma mem_activeCategories :
    c ∈ activeCategories scan rid db ↔
      c ∈ db.categories ∧ c.restaurantId = rid ∧ c.active = true := by
  simp only [activeCategories, mem_orderBy, (scan.categories.perm _).mem_iff, List.mem_filter,
    decide_eq_true_eq]

lemma activeCategories_nodup : (activeCategories scan rid db).Nodup := by
  refine (orderBy_perm _ _).nodup_iff.mpr ((scan.categories.perm _).nodup_iff.mpr ?_)
  exact db.valid.categoryId.of_map.filter _

lemma mem_loadedDishes :
    d ∈ loadedDishes scan categories db ↔
      d ∈ db.dishes ∧ d.categoryId ∈ categories.map (·.id) := by
  simp only [loadedDishes, (scan.dishes.perm _).mem_iff, List.mem_filter, decide_eq_true_eq]

lemma loadedDishes_nodup : (loadedDishes scan categories db).Nodup :=
  (scan.dishes.perm _).nodup_iff.mpr (db.valid.dishId.of_map.filter _)

end

/-! ### The specification -/

/-- The dishes of a category that the public may see, each once, in the order of the menu. -/
structure ListsDishes (t : Tables) (c : Category) (dishes : List Dish) : Prop where
  nodup : dishes.Nodup
  mem : ∀ d, d ∈ dishes ↔ d ∈ t.dishes ∧ d.categoryId = c.id ∧ d.Visible
  sorted : dishes.Pairwise fun d d' => d.menuKey ≤ d'.menuKey

/-- The active categories of a restaurant with a dish to show, each once, in the order of the
menu. -/
structure ListsCategories (t : Tables) (r : Restaurant) (categories : List Category) : Prop where
  nodup : categories.Nodup
  mem : ∀ c, c ∈ categories ↔ c ∈ t.categories ∧ c.restaurantId = r.id ∧ c.active = true ∧
    ∃ d ∈ t.dishes, d.categoryId = c.id ∧ d.Visible
  sorted : categories.Pairwise fun c c' => c.orderKey ≤ c'.orderKey

/-- The entry of a menu has the fields of the dish. -/
structure ShowsDish (m : MenuDishResponse) (d : Dish) : Prop where
  id : m.id = d.id
  name : m.name = d.name.val
  description : m.description = d.description.map (·.val)
  price : m.price = d.price.val
  salePrice : m.salePrice = d.salePrice.map (·.val)
  imageUrl : m.imageUrl = d.imageUrl.map (·.val)
  tags : m.tags = d.tags.map (·.map (·.val))
  featured : m.featured = d.featured
  position : m.position = d.position.val

structure ShowsCategory (t : Tables) (m : MenuCategoryResponse) (c : Category) : Prop where
  id : m.id = c.id
  name : m.name = c.name.val
  description : m.description = c.description.map (·.val)
  position : m.position = c.position.val
  dishes : ∃ dishes, ListsDishes t c dishes ∧ List.Forall₂ ShowsDish m.dishes dishes

/-- The menu is the one of the restaurant, with what the public may see of its content. -/
structure ShowsRestaurant (t : Tables) (m : MenuResponse) (r : Restaurant) : Prop where
  id : m.restaurantId = r.id
  name : m.restaurantName = r.name.val
  slug : m.restaurantSlug = r.slug.val
  description : m.description = r.description.map (·.val)
  logoUrl : m.logoUrl = r.logoUrl.map (·.val)
  phone : m.phone = r.phone.map (·.val)
  address : m.address = r.address.map (·.val)
  hours : m.hours = r.hours.map (·.val)
  categories : ∃ categories, ListsCategories t r categories ∧
    List.Forall₂ (ShowsCategory t) m.categories categories

/-! ### The built menu meets it -/

lemma showsDish_dishResponse (d : Dish) : ShowsDish (dishResponse d) d := by
  constructor <;> rfl

section

variable {r : Restaurant} {c : Category} {db : Database} {categories : List Category}
  {dishes : List Dish}

/-- The dishes at hand are all dishes of the categories at hand. -/
def LoadsDishes (db : Database) (categories : List Category) (dishes : List Dish) : Prop :=
  ∀ c ∈ categories, ∀ d, d ∈ dishes ∧ d.categoryId = c.id ↔ d ∈ db.dishes ∧ d.categoryId = c.id

lemma loadsDishes_loaded (scan : MenuScan) :
    LoadsDishes db categories (loadedDishes scan categories db) := by
  intro c hc d
  rw [mem_loadedDishes]
  constructor
  · rintro ⟨⟨hd, -⟩, hcat⟩
    exact ⟨hd, hcat⟩
  · rintro ⟨hd, hcat⟩
    exact ⟨⟨hd, hcat ▸ List.mem_map_of_mem hc⟩, hcat⟩

lemma LoadsDishes.listsDishes (h : LoadsDishes db categories dishes) (hnd : dishes.Nodup)
    (hc : c ∈ categories) : ListsDishes db.toTables c (availableDishes c dishes) := by
  refine ⟨availableDishes_nodup hnd, fun d => ?_, availableDishes_sorted⟩
  rw [mem_availableDishes, ← and_assoc, h c hc d, and_assoc]

lemma LoadsDishes.showsCategory (h : LoadsDishes db categories dishes) (hnd : dishes.Nodup)
    (hc : c ∈ categories) : ShowsCategory db.toTables (categoryResponse dishes c) c := by
  refine ⟨rfl, rfl, rfl, rfl, availableDishes c dishes, h.listsDishes hnd hc, ?_⟩
  simp only [categoryResponse, List.forall₂_map_left_iff, List.forall₂_same]
  exact fun d _ => showsDish_dishResponse d

/-- The category has a dish to show. -/
lemma LoadsDishes.isEmpty_iff (h : LoadsDishes db categories dishes) (hc : c ∈ categories) :
    (categoryResponse dishes c).dishes.isEmpty = false ↔
      ∃ d ∈ db.dishes, d.categoryId = c.id ∧ d.Visible := by
  simp only [categoryResponse, List.isEmpty_map, List.isEmpty_eq_false_iff_exists_mem,
    mem_availableDishes]
  apply exists_congr
  intro d
  rw [← and_assoc, h c hc d, and_assoc]

/-- A menu built from the active categories and their dishes shows what it should. -/
lemma LoadsDishes.showsRestaurant {scan : MenuScan}
    (h : LoadsDishes db (activeCategories scan r.id db) dishes) (hnd : dishes.Nodup) :
    ShowsRestaurant db.toTables (menuResponse r (activeCategories scan r.id db) dishes) r := by
  refine ⟨rfl, rfl, rfl, rfl, rfl, rfl, rfl, rfl, (activeCategories scan r.id db).filter fun c =>
    !(categoryResponse dishes c).dishes.isEmpty, ⟨?_, ?_, ?_⟩, ?_⟩
  · exact activeCategories_nodup.filter _
  · intro c
    rw [List.mem_filter, Bool.not_eq_true']
    constructor
    · rintro ⟨hc, hne⟩
      obtain ⟨hmem, hcr, hactive⟩ := mem_activeCategories.mp hc
      exact ⟨hmem, hcr, hactive, (h.isEmpty_iff hc).mp hne⟩
    · rintro ⟨hmem, hcr, hactive, hdish⟩
      have hc : c ∈ activeCategories scan r.id db :=
        mem_activeCategories.mpr ⟨hmem, hcr, hactive⟩
      exact ⟨hc, (h.isEmpty_iff hc).mpr hdish⟩
  · exact (orderBy_sorted _ _).sublist List.filter_sublist
  · simp only [menuResponse, List.filter_map, List.forall₂_map_left_iff, Function.comp_def,
      List.forall₂_same]
    exact fun c hc => h.showsCategory hnd (List.mem_of_mem_filter hc)

end

/-- What a call builds is the menu of the restaurant with the slug. -/
lemma showsRestaurant_builtMenu {db : Database} {scan : MenuScan} {slug : String} {r : Restaurant}
    (hr : r ∈ db.restaurants) (hslug : r.slug.val = slug) :
    ∃ menu, builtMenu scan slug db = some menu ∧ ShowsRestaurant db.toTables menu r := by
  have hget : Rows.get (·.slug.val) slug db.restaurants = some r :=
    hslug ▸ Rows.get_of_mem db.slugVal_nodup hr
  simp only [builtMenu, hget, Option.map_some, Option.some.injEq, exists_eq_left']
  split_ifs with hnil
  · rw [List.isEmpty_iff] at hnil
    refine LoadsDishes.showsRestaurant ?_ List.nodup_nil
    rw [hnil]
    exact List.forall_mem_nil _
  · exact (loadsDishes_loaded scan).showsRestaurant loadedDishes_nodup

/-- A built menu only has visible dishes of the database. -/
lemma hasDish_builtMenu {db : Database} {scan : MenuScan} {slug : String} {menu : MenuResponse}
    {dishId : Uuid} (h : builtMenu scan slug db = some menu) (hdish : menu.HasDish dishId) :
    ∃ d ∈ db.dishes, d.id = dishId ∧ d.Visible := by
  simp only [builtMenu, Option.map_eq_some_iff] at h
  obtain ⟨r, -, rfl⟩ := h
  obtain ⟨c, -, d, hd, hid, -, hvisible⟩ := hasDish_menuResponse hdish
  split_ifs at hd with hnil
  · cases hd
  · exact ⟨d, (mem_loadedDishes.mp hd).1, hid, hvisible⟩

/-- Without a live cache entry for the slug, a call answers 404 exactly when no restaurant has the
slug, and else returns the menu of the restaurant that has it, if and only if PostgreSQL takes
the slug for a text. -/
theorem getMenuBySlug_content_iff (w : World) (scan : MenuScan) (slug : String)
    (hmiss : (w.cache.cacheGet (cacheKey slug) w.now).1 = none) :
    (((∃ detail, ((getMenuBySlug scan slug).exec w).1 = .error (.http 404 detail)) ↔
        ∀ r ∈ w.db.restaurants, r.slug.val ≠ slug) ∧
      ∀ r ∈ w.db.restaurants, r.slug.val = slug →
        ∃ menu, ((getMenuBySlug scan slug).exec w).1 = .ok menu ∧
          ShowsRestaurant w.db.toTables menu r) ↔
    nul ∉ slug.toList := by
  rw [exec_getMenuBySlug_miss w scan slug hmiss]
  have hnone : (∀ r ∈ w.db.restaurants, r.slug.val ≠ slug) →
      builtMenu scan slug w.db = none := by
    intro hslug
    rw [builtMenu, Rows.get_eq_none.mpr hslug]
    rfl
  constructor
  · -- no restaurant has a slug with a NUL, and what is raised is no 404
    rintro ⟨hmissing, -⟩ hnul
    have hslug : ∀ r ∈ w.db.restaurants, r.slug.val ≠ slug :=
      fun r _ hr => r.slug.fits.2 (hr ▸ hnul)
    obtain ⟨detail, herror⟩ := hmissing.mpr hslug
    rw [hnone hslug, outcome, if_pos hnul] at herror
    cases herror
  · intro hnul
    refine ⟨⟨?_, fun hslug => ?_⟩, ?_⟩
    · rintro ⟨detail, herror⟩ r hr hslug
      obtain ⟨menu, hmenu, -⟩ := @showsRestaurant_builtMenu _ scan _ _ hr hslug
      rw [hmenu] at herror
      cases herror
    · rw [hnone hslug, outcome_none hnul]
      exact ⟨_, rfl⟩
    · intro r hr hslug
      obtain ⟨menu, hmenu, hshows⟩ := @showsRestaurant_builtMenu _ scan _ _ hr hslug
      exact ⟨menu, by rw [hmenu]; rfl, hshows⟩

/-- The menu of a restaurant with one dish. -/
theorem getMenuBySlug_content_sopa :
    ∃ menu, ((getMenuBySlug .stored "casa").exec sopaServed).1 = .ok menu ∧
      ∃ r ∈ sopaServed.db.restaurants, ShowsRestaurant sopaServed.db.toTables menu r := by
  obtain ⟨r, hr, hslug⟩ : ∃ r ∈ sopaServed.db.restaurants, r.slug.val = "casa" := by
    decide +kernel
  obtain ⟨menu, hmenu, hshows⟩ :=
    ((getMenuBySlug_content_iff sopaServed .stored "casa" (by decide +kernel)).mpr
      (by decide)).2 r hr hslug
  exact ⟨menu, hmenu, r, hr, hshows⟩

/-- The menu under the slug of one NUL: no restaurant has it, and the call raises an error of the
database. -/
theorem getMenuBySlug_nul :
    (∀ r ∈ sopaServed.db.restaurants, r.slug.val ≠ String.ofList [nul]) ∧
      (sopaServed.cache.cacheGet (cacheKey (String.ofList [nul])) sopaServed.now).1 = none ∧
      ((getMenuBySlug .stored (String.ofList [nul])).exec sopaServed).1 = .error (.db .data) := by
  refine ⟨by decide +kernel, by decide +kernel, ?_⟩
  rw [exec_getMenuBySlug_miss _ _ _ (by decide +kernel)]
  decide +kernel

end LiveMenu
