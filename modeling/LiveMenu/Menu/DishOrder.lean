import LiveMenu.Dishes.Listing
import LiveMenu.Menu.Transparency

/-!
# The order of dishes in the menu and in the listing

The menu sorts the dishes of a category by position, older first; the owner's listing sorts them
by position, newer first. Read over all pages, the two agree exactly where no two dishes share
a position.
-/

namespace LiveMenu

open MenuService

/-! ### Two orders of the same rows -/

/-- The dishes of a category that both the menu and the listing of available dishes show. -/
def Tables.shownDishes (t : Tables) (categoryId : Uuid) : List Dish :=
  t.dishes.filter fun d => d.categoryId = categoryId ∧ d.available ∧ d.deletedAt.isNone

section Orders

variable {rows : List Dish}

lemma position_le_of_menuKey {d d' : Dish} (h : d.menuKey ≤ d'.menuKey) :
    d.position.val ≤ d'.position.val := by
  rcases (Prod.Lex.le_iff' ..).mp h with ⟨h, -⟩
  exact h

lemma position_le_of_listKey {d d' : Dish} (h : d.listKey ≤ d'.listKey) :
    d.position.val ≤ d'.position.val := by
  rcases (Prod.Lex.le_iff' ..).mp h with ⟨h, -⟩
  exact h

/-- With distinct positions there is one order by position. -/
lemma orderBy_menuKey_eq_listKey
    (hpos : ∀ d ∈ rows, ∀ d' ∈ rows, d.position.val = d'.position.val → d = d') :
    orderBy Dish.menuKey rows = orderBy Dish.listKey rows := by
  refine eq_of_perm_of_sorted (k := fun d : Dish => d.position.val) ?_ ?_ ?_ ?_
  · intro d hd d' hd'
    exact hpos d (mem_orderBy.mp hd) d' (mem_orderBy.mp hd')
  · exact (orderBy_perm _ rows).trans (orderBy_perm _ rows).symm
  · exact (orderBy_sorted Dish.menuKey rows).imp position_le_of_menuKey
  · exact (orderBy_sorted Dish.listKey rows).imp position_le_of_listKey

/-- A list in both orders has its dishes at distinct positions, unless two share the time as
well. -/
lemma position_injOn_of_orders_eq (hnd : rows.Nodup)
    (hkey : ∀ d ∈ rows, ∀ d' ∈ rows, d.menuKey = d'.menuKey → d = d')
    (h : orderBy Dish.menuKey rows = orderBy Dish.listKey rows) :
    ∀ d ∈ rows, ∀ d' ∈ rows, d.position.val = d'.position.val → d = d' := by
  have hmenu := orderBy_sorted Dish.menuKey rows
  have hlist := orderBy_sorted Dish.listKey rows
  rw [← h] at hlist
  have hboth := (hmenu.and hlist).and ((orderBy_perm Dish.menuKey rows).nodup_iff.mpr hnd)
  have hpos : ((orderBy Dish.menuKey rows).map fun d => d.position.val).Nodup := by
    refine List.pairwise_map.mpr (hboth.imp_of_mem fun {d d'} hd hd' ⟨⟨hm, hl⟩, hdd⟩ hpos => hdd ?_)
    -- older first and newer first leave one creation time
    have h1 := ((Prod.Lex.le_iff' ..).mp hm).2 hpos
    have h2 := ((Prod.Lex.le_iff' ..).mp hl).2 hpos
    refine hkey d (mem_orderBy.mp hd) d' (mem_orderBy.mp hd') ?_
    exact congrArg toLex (Prod.ext hpos (le_antisymm h1 (OrderDual.toDual_le_toDual.mp h2)))
  intro d hd d' hd'
  exact List.inj_on_of_nodup_map hpos (mem_orderBy.mpr hd) (mem_orderBy.mpr hd')

end Orders

/-! ### The menu -/

section

variable {w : World} {c : Category} {r : Restaurant}

/-- The menu shows an active category with its shown dishes, in menu order. -/
lemma exists_category_of_menu (scan : MenuScan) (hr : r ∈ w.db.restaurants)
    (hc : c ∈ w.db.categories) (hcr : c.restaurantId = r.id) (hactive : c.active = true)
    (hkey : ∀ d ∈ w.db.shownDishes c.id, ∀ d' ∈ w.db.shownDishes c.id,
      d.menuKey = d'.menuKey → d = d')
    (hshown : w.db.shownDishes c.id ≠ []) :
    ∃ menu, ((getMenuBySlug scan r.slug.val).exec { w with cache := [] }).1 = .ok menu ∧
      ∀ ids, (∃ cr ∈ menu.categories, cr.id = c.id ∧ cr.dishes.map (·.id) = ids) ↔
        ids = (orderBy Dish.menuKey (w.db.shownDishes c.id)).map (·.id) := by
  have hget := Rows.get_of_mem w.db.slugVal_nodup hr
  have hmem : c ∈ activeCategories scan r.id w.db := by
    simp only [activeCategories, mem_orderBy, (scan.categories.perm _).mem_iff, List.mem_filter,
      decide_eq_true_eq]
    exact ⟨hc, hcr, hactive⟩
  have hne : (activeCategories scan r.id w.db).isEmpty = false := by
    cases h : activeCategories scan r.id w.db with
    | nil => rw [h] at hmem; cases hmem
    | cons _ _ => rfl
  -- of the loaded dishes the category keeps its shown ones
  have hdishes : availableDishes c (loadedDishes scan (activeCategories scan r.id w.db) w.db)
      = orderBy Dish.menuKey (w.db.shownDishes c.id) := by
    refine (orderBy_eq_of_perm hkey ?_).symm
    refine .trans (.of_eq ?_) ((scan.dishes.perm _).filter _).symm
    rw [List.filter_filter]
    apply List.filter_congr
    intro d _
    by_cases hd : d.categoryId = c.id
    · have : d.categoryId ∈ (activeCategories scan r.id w.db).map (·.id) :=
        hd ▸ List.mem_map_of_mem hmem
      simp [hd, hd ▸ this]
    · simp [hd]
  refine ⟨menuResponse r (activeCategories scan r.id w.db)
    (loadedDishes scan (activeCategories scan r.id w.db) w.db), ?_, fun ids => ?_⟩
  · rw [exec_getMenuBySlug_empty, builtMenu, hget]
    simp only [Option.map_some, hne, Bool.false_eq_true, if_false]
    rfl
  · simp only [menuResponse, List.mem_filter, List.mem_map]
    constructor
    · rintro ⟨-, ⟨⟨c', hc', rfl⟩, -⟩, hid, rfl⟩
      have hc' : c' ∈ w.db.categories := by
        simp only [activeCategories, mem_orderBy, (scan.categories.perm _).mem_iff,
          List.mem_filter] at hc'
        exact hc'.1
      have hcc : c' = c := Rows.eq_of_key_eq w.db.valid.categoryId hc' hc hid
      rw [hcc, categoryResponse, List.map_map, hdishes]
      rfl
    · rintro rfl
      refine ⟨categoryResponse _ c, ⟨⟨c, hmem, rfl⟩, ?_⟩, rfl, ?_⟩
      · simpa [categoryResponse, hdishes, ← List.length_eq_zero_iff,
          (orderBy_perm _ _).length_eq] using hshown
      · rw [categoryResponse, List.map_map, hdishes]
        rfl

end

/-! ### The listing -/

/-- The items a client reads that follows the pages of the listing of the available dishes of
a category, from `offset` on, with any order of ties on each page. -/
inductive PagesFrom (P : Platform) (u categoryId : Uuid) (limit : ℕ) (w : World) :
    ℕ → List Dish → Prop
  | last {offset : ℕ} {scan : Scan Dish} {page : PaginatedResponse Dish}
      (hpage : (DishService.listDishes P u
        { categoryId := some categoryId, available := some true } limit offset scan).exec w
          = (.ok page, w))
      (hmore : page.hasMore = false) : PagesFrom P u categoryId limit w offset page.items
  | more {offset : ℕ} {scan : Scan Dish} {page : PaginatedResponse Dish} {items : List Dish}
      (hpage : (DishService.listDishes P u
        { categoryId := some categoryId, available := some true } limit offset scan).exec w
          = (.ok page, w))
      (hmore : page.hasMore = true)
      (hrest : PagesFrom P u categoryId limit w (offset + limit) items) :
      PagesFrom P u categoryId limit w offset (page.items ++ items)

section

variable {P : Platform} {w : World} {u : Uuid} {c : Category} {r : Restaurant}

/-- The listing selects the dishes that the menu shows. -/
lemma listed_eq_shownDishes (hc : c ∈ w.db.categories) (hcr : c.restaurantId = r.id) :
    DishFilter.matching P { categoryId := some c.id, available := some true } w.db r.id
      = w.db.shownDishes c.id := by
  apply List.filter_congr
  intro d _
  by_cases hd : d.categoryId = c.id
  · have hany : (w.db.categories.any fun c' => c'.id = c.id ∧ c'.restaurantId = r.id) = true :=
      List.any_eq_true.mpr ⟨c, hc, decide_eq_true ⟨rfl, hcr⟩⟩
    simp only [DishFilter.matches, DishFilter.tests, DishFilter.ofRestaurant, hd, hany,
      Option.all_some]
    cases d.available <;> cases d.deletedAt <;> rfl
  · simp [DishFilter.matches, DishFilter.tests, DishFilter.ofRestaurant, hd]

variable (hr : Rows.get (·.ownerUserId) u w.db.restaurants = some r) (hc : c ∈ w.db.categories)
  (hcr : c.restaurantId = r.id)

include hr hc hcr

lemma categoryOwner_of_own : ∀ cid ∈ some c.id, w.db.categoryOwner cid = some u := by
  rintro cid ⟨⟩
  rw [Tables.categoryOwner, Rows.get_of_mem w.db.valid.categoryId hc, Option.bind_some, hcr]
  exact Tables.restaurantOwner_of_owner w.db.valid hr

lemma page_eq_of_listDishes {limit offset : ℕ} {scan : Scan Dish} {page : PaginatedResponse Dish}
    (hpage : (DishService.listDishes P u { categoryId := some c.id, available := some true } limit
      offset scan).exec w = (.ok page, w)) :
    page = ⟨((orderBy Dish.listKey (scan.order (w.db.shownDishes c.id))).drop offset).take limit,
      (w.db.shownDishes c.id).length, limit, offset⟩ := by
  rw [(DishService.listDishes_eq_ok _ limit offset scan hr (categoryOwner_of_own hr hc hcr)
    hpage).2, listed_eq_shownDishes hc hcr]

/-- The pages are the pieces of one sorted list. -/
lemma PagesFrom.items_eq {limit offset : ℕ} {items : List Dish}
    (hkey : ∀ d ∈ w.db.shownDishes c.id, ∀ d' ∈ w.db.shownDishes c.id,
      d.listKey = d'.listKey → d = d')
    (h : PagesFrom P u c.id limit w offset items) :
    items = (orderBy Dish.listKey (w.db.shownDishes c.id)).drop offset := by
  have hsorted : ∀ scan : Scan Dish, orderBy Dish.listKey (scan.order (w.db.shownDishes c.id))
      = orderBy Dish.listKey (w.db.shownDishes c.id) := fun scan =>
    (orderBy_eq_of_perm hkey (scan.perm _).symm).symm
  have hlength : (orderBy Dish.listKey (w.db.shownDishes c.id)).length
      = (w.db.shownDishes c.id).length := (orderBy_perm _ _).length_eq
  induction h with
  | last hpage hmore =>
    obtain rfl := page_eq_of_listDishes hr hc hcr hpage
    simp only [PaginatedResponse.hasMore, decide_eq_false_iff_not, not_lt] at hmore
    rw [hsorted, List.take_of_length_le]
    rw [List.length_drop, hlength]
    omega
  | more hpage hmore hrest ih =>
    obtain rfl := page_eq_of_listDishes hr hc hcr hpage
    rw [hsorted, ih, ← List.drop_drop, List.take_append_drop]

end

/-- With no two dishes of the category sharing position and creation time, the menu shows the
dishes of the category in the order of the listing, read over all pages, exactly if no two of the
shown dishes share a position. -/
theorem menu_order_eq_listing_iff (P : Platform) (w : World) (u : Uuid) (r : Restaurant)
    (c : Category) (scan : MenuScan) (limit : ℕ) (items : List Dish)
    (hr : Rows.get (·.ownerUserId) u w.db.restaurants = some r) (hc : c ∈ w.db.categories)
    (hcr : c.restaurantId = r.id) (hactive : c.active = true)
    (hshown : w.db.shownDishes c.id ≠ [])
    (hkey : ∀ d ∈ w.db.dishes, ∀ d' ∈ w.db.dishes, d.categoryId = c.id → d'.categoryId = c.id →
      d.position = d'.position → d.createdAt = d'.createdAt → d = d')
    (hitems : PagesFrom P u c.id limit w 0 items) :
    (∃ menu, ((getMenuBySlug scan r.slug.val).exec { w with cache := [] }).1 = .ok menu ∧
        ∃ cr ∈ menu.categories, cr.id = c.id ∧ cr.dishes.map (·.id) = items.map (·.id)) ↔
      ∀ d ∈ w.db.shownDishes c.id, ∀ d' ∈ w.db.shownDishes c.id,
        d.position = d'.position → d = d' := by
  have hval : ∀ {p q : PgInt}, p.val = q.val → p = q := by
    rintro ⟨p, hp⟩ ⟨q, hq⟩ rfl
    rfl
  have hdist : ∀ d ∈ w.db.shownDishes c.id, ∀ d' ∈ w.db.shownDishes c.id,
      d.position.val = d'.position.val → d.createdAt = d'.createdAt → d = d' := by
    intro d hd d' hd' hpos htime
    simp only [Tables.shownDishes, List.mem_filter, decide_eq_true_eq] at hd hd'
    exact hkey d hd.1 d' hd'.1 hd.2.1 hd'.2.1 (hval hpos) htime
  have hmenuKey : ∀ d ∈ w.db.shownDishes c.id, ∀ d' ∈ w.db.shownDishes c.id,
      d.menuKey = d'.menuKey → d = d' := fun d hd d' hd' h =>
    hdist d hd d' hd' (congrArg (fun k => (ofLex k).1) h) (congrArg (fun k => (ofLex k).2) h)
  have hlistKey : ∀ d ∈ w.db.shownDishes c.id, ∀ d' ∈ w.db.shownDishes c.id,
      d.listKey = d'.listKey → d = d' := fun d hd d' hd' h =>
    hdist d hd d' hd' (congrArg (fun k => (ofLex k).1) h)
      (OrderDual.toDual_inj.mp (congrArg (fun k => (ofLex k).2) h))
  have hids : ((w.db.shownDishes c.id).map (·.id)).Nodup :=
    w.db.valid.dishId.sublist (List.filter_sublist.map _)
  obtain ⟨menu, hmenu, hcats⟩ :=
    exists_category_of_menu scan (Rows.get_mem hr) hc hcr hactive hmenuKey hshown
  have hlisted := hitems.items_eq hr hc hcr hlistKey
  rw [List.drop_zero] at hlisted
  subst hlisted
  rw [hmenu]
  simp only [Except.ok.injEq, exists_eq_left', hcats]
  constructor
  · intro h d hd d' hd' hpos
    have horders : orderBy Dish.menuKey (w.db.shownDishes c.id)
        = orderBy Dish.listKey (w.db.shownDishes c.id) := by
      refine Rows.eq_of_map_key_eq hids ?_ ?_ h.symm <;> exact fun d hd => mem_orderBy.mp hd
    exact position_injOn_of_orders_eq hids.of_map hmenuKey horders d hd d' hd'
      (congrArg PgInt.val hpos)
  · intro h
    rw [orderBy_menuKey_eq_listKey fun d hd d' hd' hpos => h d hd d' hd' (hval hpos)]

/-! ### Two dishes -/

/-- The world after Ana created a second dish in her category, a second after the first one, and
updated it by `patch`. -/
def twoDishes (patch : DishUpdate) : World := runEvents Platform.plain sopaServed [
  .tick 1000000,
  .request (.admin 1 (.dishCreate
    { categoryId := 20, name := ⟨"Arroz", by decide⟩, price := ⟨⟨7, 0⟩, by decide⟩ } 31)),
  .request (.admin 1 (.dishUpdate 31 patch))]

def casa : Restaurant :=
  ⟨10, 1, ⟨"Casa", by decide⟩, ⟨"casa", by decide⟩, none, none, none, none, none, 0, 0⟩

def platos : Category := ⟨20, 10, ⟨"Platos", by decide⟩, none, ⟨0, by decide⟩, true, 0, 0⟩

/-- The listing of the two dishes, read in one page. -/
lemma pagesFrom_twoDishes {patch : DishUpdate}
    (hr : Rows.get (·.ownerUserId) 1 (twoDishes patch).db.restaurants = some casa)
    (hc : platos ∈ (twoDishes patch).db.categories)
    (hlength : ((twoDishes patch).db.shownDishes 20).length ≤ 20) :
    PagesFrom Platform.plain 1 20 20 (twoDishes patch) 0
      (((orderBy Dish.listKey ((twoDishes patch).db.shownDishes 20)).drop 0).take 20) := by
  have htaken : DishFilter.Taken { categoryId := some 20, available := some true } 20 0 :=
    ⟨⟨by simp, by simp, by simp, by simp⟩, by decide, by decide⟩
  have hpage := DishService.exec_listDishes_taken (P := Platform.plain) _ 20 0 (Scan.stored Dish)
    hr (categoryOwner_of_own hr hc rfl) htaken
  have hlisted : DishFilter.matching Platform.plain
      { categoryId := some 20, available := some true }
      (twoDishes patch).db casa.id = (twoDishes patch).db.shownDishes 20 :=
    listed_eq_shownDishes (c := platos) (r := casa) hc rfl
  rw [hlisted] at hpage
  exact .last hpage (decide_eq_false (Nat.not_lt.mpr hlength))

theorem menu_order_eq_listing_moved :
    ∃ menu, ((getMenuBySlug MenuScan.stored "casa").exec
        { twoDishes { position := .set 1 } with cache := [] }).1 = .ok menu ∧
      ∃ cr ∈ menu.categories, cr.id = 20 ∧ cr.dishes.map (·.id) = [30, 31] := by
  have hr : Rows.get (·.ownerUserId) 1 (twoDishes { position := .set 1 }).db.restaurants
      = some casa := by decide +kernel
  have hc : platos ∈ (twoDishes { position := .set 1 }).db.categories := by decide +kernel
  have hids : (((orderBy Dish.listKey ((twoDishes { position := .set 1 }).db.shownDishes 20)).drop
      0).take 20).map (·.id) = [30, 31] := by decide +kernel
  rw [← hids]
  exact (menu_order_eq_listing_iff Platform.plain _ 1 casa platos MenuScan.stored 20 _ hr hc rfl rfl
    (by decide +kernel) (by decide +kernel)
    (pagesFrom_twoDishes hr hc (by decide +kernel))).mpr (by decide +kernel)

/-- Both dishes are created at position 0: the menu shows the older first, the listing the
newer. -/
theorem menu_order_ne_listing_created :
    (twoDishes {}).db.dishes.map (fun d => (d.id, d.position.val, d.createdAt))
        = [(30, 0, 0), (31, 0, 1000000)] ∧
      ((getMenuBySlug MenuScan.stored "casa").exec { twoDishes {} with cache := [] }).1.map
        (fun menu => menu.categories.map fun cr => (cr.id, cr.dishes.map (·.id)))
          = .ok [(20, [30, 31])] ∧
      ∃ items, PagesFrom Platform.plain 1 20 20 (twoDishes {}) 0 items ∧
        items.map (·.id) = [31, 30] :=
  ⟨by decide +kernel, by decide +kernel, _,
    pagesFrom_twoDishes (by decide +kernel) (by decide +kernel) (by decide +kernel),
    by decide +kernel⟩

end LiveMenu
