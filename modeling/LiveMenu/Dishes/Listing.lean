import LiveMenu.Sequential.Services

/-!
# The listing of the dishes

The page and the total come from two statements that select the dishes that satisfy every filter
given, so the page is a slice of an arrangement of as many dishes as the total says. A request
with a text or a number that PostgreSQL does not take gets neither.
-/

namespace LiveMenu

/-! ### What the filters mean -/

/-- A dish of the restaurant that is not deleted and satisfies every filter given. -/
structure DishFilter.Selects (P : Platform) (f : DishFilter) (db : Database) (rid : Uuid)
    (d : Dish) : Prop where
  restaurant : ∃ c ∈ db.categories, c.id = d.categoryId ∧ c.restaurantId = rid
  deleted : d.deletedAt = none
  category : ∀ cid ∈ f.categoryId, d.categoryId = cid
  available : ∀ b ∈ f.available, d.available = b
  featured : ∀ b ∈ f.featured, d.featured = b
  search : ∀ q ∈ f.searchQuery, q ≠ "" →
    ilike P.pgLower (searchPattern q).toList d.name.val.toList = true ∨
      ∃ s ∈ d.description, ilike P.pgLower (searchPattern q).toList s.val.toList = true
  tag : ∀ t ∈ f.tag, t ≠ "" → ∃ ts ∈ d.tags, ∃ x ∈ ts, x.val = t
  minPrice : ∀ p ∈ f.minPrice, p.bound ≤ d.price.val
  maxPrice : ∀ p ∈ f.maxPrice, d.price.val ≤ p.bound

lemma Dish.found_iff (P : Platform) (q : String) (d : Dish) :
    d.found P q = true ↔
      ilike P.pgLower (searchPattern q).toList d.name.val.toList = true ∨
        ∃ s ∈ d.description, ilike P.pgLower (searchPattern q).toList s.val.toList = true := by
  rw [Dish.found, Bool.or_eq_true]
  cases d.description <;> simp

lemma Dish.tagged_iff (t : String) (d : Dish) :
    d.tagged t = true ↔ ∃ ts ∈ d.tags, ∃ x ∈ ts, x.val = t := by
  rw [Dish.tagged]
  cases d.tags <;> simp

/-- The two statements select exactly the dishes that satisfy the filters. -/
lemma DishFilter.matches_iff (P : Platform) (f : DishFilter) (db : Database) (rid : Uuid)
    (d : Dish) : (f.ofRestaurant rid).matches P db d = true ↔ f.Selects P db rid d := by
  have hempty : ∀ s : String, s.isEmpty = true ↔ s = "" := fun s => String.isEmpty_iff
  simp only [DishFilter.matches, DishFilter.tests, ofRestaurant, Bool.and_eq_true,
    Option.all_eq_true, Option.all_some, List.any_eq_true, decide_eq_true_eq, Bool.false_or,
    Option.isNone_iff_eq_none, beq_iff_eq, Bool.or_eq_true, Dish.found_iff, Dish.tagged_iff,
    hempty, Option.mem_def]
  constructor
  · rintro ⟨hr, ⟨⟨⟨⟨⟨⟨hd, hc⟩, ha⟩, hf⟩, hs⟩, ht⟩, hmin⟩, hmax⟩
    exact {
      restaurant := hr
      deleted := hd
      category := hc
      available := ha
      featured := hf
      search := fun q hq hne => (hs q hq).resolve_left hne
      tag := fun t h hne => (ht t h).resolve_left hne
      minPrice := hmin
      maxPrice := hmax }
  · intro h
    have hs := fun q hq => or_iff_not_imp_left.mpr (h.search q hq)
    have ht := fun t ht => or_iff_not_imp_left.mpr (h.tag t ht)
    exact ⟨h.restaurant, ⟨⟨⟨⟨⟨⟨h.deleted, h.category⟩, h.available⟩, h.featured⟩, hs⟩, ht⟩,
      h.minPrice⟩, h.maxPrice⟩

/-! ### The page and the total -/

/-- The dishes of the restaurant that the filters select, as they are stored. -/
def DishFilter.matching (P : Platform) (f : DishFilter) (db : Database) (rid : Uuid) :
    List Dish :=
  db.dishes.filter ((f.ofRestaurant rid).matches P db)

namespace DishFilter

variable (P : Platform) (f : DishFilter) (db : Database) (rid : Uuid)

lemma mem_matching (d : Dish) :
    d ∈ f.matching P db rid ↔ d ∈ db.dishes ∧ f.Selects P db rid d := by
  rw [matching, List.mem_filter, matches_iff]

lemma matching_nodup : (f.matching P db rid).Nodup :=
  (List.Nodup.of_map _ db.valid.dishId).filter _

end DishFilter

lemma Dish.listKey_le_iff (d d' : Dish) :
    d.listKey ≤ d'.listKey ↔ d.position.val < d'.position.val ∨
      d.position.val = d'.position.val ∧ d'.createdAt ≤ d.createdAt :=
  Prod.Lex.le_iff ..

/-- All that a request binds is taken: no NUL in a text, prices in range, a page that 64 bits can
number. -/
structure DishFilter.Taken (f : DishFilter) (limit offset : ℕ) : Prop where
  binds : f.Binds
  limit : limit < 2 ^ 63
  offset : offset < 2 ^ 63

namespace DishService

variable {P : Platform} {w : World} {u : Uuid} {r : Restaurant}

section

variable (f : DishFilter) (limit offset : ℕ) (scan : Scan Dish)
  (hr : Rows.get (·.ownerUserId) u w.db.restaurants = some r)
  (hcat : ∀ cid ∈ f.categoryId, w.db.categoryOwner cid = some u)
include hr hcat

/-- For a restaurant and a category of the caller the listing is a slice of a sorted
arrangement of the dishes that match, next to their number. -/
lemma exec_listDishes_taken (h : f.Taken limit offset) :
    (listDishes P u f limit offset scan).exec w =
      (.ok ⟨((orderBy Dish.listKey (scan.order (f.matching P w.db r.id))).drop offset).take limit,
        (f.matching P w.db r.id).length, limit, offset⟩, w) := by
  have hbinds : (f.ofRestaurant r.id).Binds := ⟨h.binds.1, h.binds.2, h.binds.3, h.binds.4⟩
  rw [exec_listDishes w u P f limit offset scan hr hcat, Prog.exec_map,
    DishRepository.exec_listDishes scan w hbinds h.limit h.offset]
  rfl

/-- A value that is not taken ends the request in the database layer. -/
lemma exec_listDishes_refused (h : ¬ f.Taken limit offset) :
    (listDishes P u f limit offset scan).exec w = (.error (.db .data), w) := by
  have hrefused : ¬ ((f.ofRestaurant r.id).Binds ∧ limit < 2 ^ 63 ∧ offset < 2 ^ 63) :=
    fun h' => h ⟨⟨h'.1.1, h'.1.2, h'.1.3, h'.1.4⟩, h'.2.1, h'.2.2⟩
  rw [exec_listDishes w u P f limit offset scan hr hcat, Prog.exec_map,
    DishRepository.exec_listDishes_refused scan w hrefused]
  rfl

/-- A page that is returned is this slice. -/
lemma listDishes_eq_ok {page : PaginatedResponse Dish} {w' : World}
    (h : (listDishes P u f limit offset scan).exec w = (.ok page, w')) :
    f.Taken limit offset ∧
      page = ⟨((orderBy Dish.listKey (scan.order (f.matching P w.db r.id))).drop offset).take limit,
        (f.matching P w.db r.id).length, limit, offset⟩ := by
  by_cases htaken : f.Taken limit offset
  · rw [exec_listDishes_taken f limit offset scan hr hcat htaken] at h
    cases h
    exact ⟨htaken, rfl⟩
  · rw [exec_listDishes_refused f limit offset scan hr hcat htaken] at h
    cases h

end

/-- A caller without a restaurant and a category of somebody else are rejected. Any other
listing with a value that is not taken raises. All others return as the total the number of the
dishes that the filters select, and as the items the slice `[offset, offset + limit)` of an
arrangement of exactly these dishes by position and, at one position, newest first. -/
theorem listDishes_page_and_total (P : Platform) (w : World) (u : Uuid) (f : DishFilter)
    (limit offset : ℕ) (scan : Scan Dish) :
    (Rows.get (·.ownerUserId) u w.db.restaurants = none →
      (listDishes P u f limit offset scan).exec w =
        (.error (.http 404 "Restaurant not found"), w)) ∧
    ∀ r, Rows.get (·.ownerUserId) u w.db.restaurants = some r →
      ((∃ cid ∈ f.categoryId, w.db.categoryOwner cid ≠ some u) →
        Rejected (listDishes P u f limit offset scan) w) ∧
      ((∀ cid ∈ f.categoryId, w.db.categoryOwner cid = some u) →
        (¬ f.Taken limit offset →
          (listDishes P u f limit offset scan).exec w = (.error (.db .data), w)) ∧
        (f.Taken limit offset →
          ∃ page, (listDishes P u f limit offset scan).exec w = (.ok page, w) ∧
          ∃ selected arrangement : List Dish, selected.Nodup ∧
            (∀ d, d ∈ selected ↔ d ∈ w.db.dishes ∧ f.Selects P w.db r.id d) ∧
            page.total = selected.length ∧
            arrangement.Perm selected ∧
            arrangement.Pairwise (fun d d' => d.position.val < d'.position.val ∨
              d.position.val = d'.position.val ∧ d'.createdAt ≤ d.createdAt) ∧
            page.items = (arrangement.drop offset).take limit ∧
            page.items.length = min limit (page.total - offset))) := by
  constructor
  · intro hr
    rw [listDishes, RestaurantRepository.getByOwnerId, Async.exec_select_bind, hr]
    rfl
  · intro r hr
    refine ⟨?_, fun hcat => ⟨exec_listDishes_refused f limit offset scan hr hcat, fun h => ?_⟩⟩
    · rintro ⟨cid, hc, hne⟩
      rcases listDishes_rejected w u P f limit offset scan with hrej | ⟨r', -, hcat⟩
      · exact hrej
      · exact absurd (hcat cid hc) hne
    · have hperm := (orderBy_perm Dish.listKey (scan.order (f.matching P w.db r.id))).trans
        (scan.perm _)
      have hsorted := orderBy_sorted Dish.listKey (scan.order (f.matching P w.db r.id))
      refine ⟨_, exec_listDishes_taken f limit offset scan hr hcat h, f.matching P w.db r.id, _,
        f.matching_nodup P w.db r.id, f.mem_matching P w.db r.id, rfl, hperm, ?_, rfl, ?_⟩
      · exact hsorted.imp fun h => (Dish.listKey_le_iff ..).mp h
      · rw [List.length_take, List.length_drop, hperm.length_eq]

/-- Names and prices of the dishes that Ana lists, who has a soup for 5.00. -/
def anasDishes (f : DishFilter) (offset : ℕ) : Except Exc (List (String × ℚ)) :=
  ((listDishes Platform.plain 1 f 20 offset (Scan.stored Dish)).exec sopaServed).1.map
    fun page => page.items.map fun d => (d.name.val, d.price.val)

/-- A search for a NUL or for a tag with one, a page that 64 bits cannot number and a price that
is out of range raise; and a least price of 5.004 lists the soup for 5.00. -/
theorem listDishes_refuses_and_rounds :
    anasDishes { searchQuery := some (String.ofList [nul]) } 0 = .error (.db .data) ∧
      anasDishes { tag := some (String.ofList [nul]) } 0 = .error (.db .data) ∧
      anasDishes {} (2 ^ 63) = .error (.db .data) ∧
      anasDishes { maxPrice := some ⟨1, 8⟩ } 0 = .error (.db .data) ∧
      anasDishes { minPrice := some ⟨5004, -3⟩ } 0 = .ok [("Sopa", 5)] := by
  decide +kernel

end DishService

end LiveMenu
