import LiveMenu.Model.Requests
import LiveMenu.Sequential.DishQueries
import LiveMenu.Sequential.Slugs

/-!
# Services, one call at a time

The ownership checks and what they let through. Each admin operation either is rejected with a 4xx
and changes nothing, or it passed its checks and is the repository call that follows them, with the
cache flushed after it.
-/

namespace LiveMenu

/-! ### Ownership -/

namespace Tables

variable (t : Tables)

/-- The owner of a restaurant. -/
def restaurantOwner (restaurantId : Uuid) : Option Uuid :=
  (Rows.get (·.id) restaurantId t.restaurants).map (·.ownerUserId)

/-- The owner of the restaurant of a category. -/
def categoryOwner (categoryId : Uuid) : Option Uuid :=
  (Rows.get (·.id) categoryId t.categories).bind fun c => t.restaurantOwner c.restaurantId

/-- The owner of the restaurant of the category of a dish. -/
def dishOwner (dishId : Uuid) : Option Uuid :=
  (Rows.get (·.id) dishId t.dishes).bind fun d => t.categoryOwner d.categoryId

variable {t}

lemma restaurantOwner_of_owner (h : t.Constraints) {u : Uuid} {r : Restaurant}
    (hr : Rows.get (·.ownerUserId) u t.restaurants = some r) :
    t.restaurantOwner r.id = some u := by
  rw [restaurantOwner, Rows.get_of_mem h.restaurantId (Rows.get_mem hr), Option.map_some,
    Rows.get_key hr]

end Tables

/-! ### Rejections -/

/-- The call raises an `HTTPException` with a 4xx status and leaves the world as it was. -/
def Rejected {α : Type} (p : Async α) (w : World) : Prop :=
  ∃ status detail, 400 ≤ status ∧ status < 500 ∧ p.exec w = (.error (.http status detail), w)

/-- The call raises some exception and leaves the world as it was. -/
def Failed {α : Type} (p : Async α) (w : World) : Prop := ∃ e, p.exec w = (.error e, w)

section

variable {α β : Type} {w : World}

lemma rejected_http {status : ℕ} {detail : String} (h : 400 ≤ status ∧ status < 500) :
    Rejected (Async.http status detail : Async α) w := ⟨status, detail, h.1, h.2, rfl⟩

lemma Rejected.failed {p : Async α} (h : Rejected p w) : Failed p w := by
  obtain ⟨status, detail, -, -, h⟩ := h
  exact ⟨_, h⟩

lemma Rejected.bind {p : Async α} (h : Rejected p w) (k : α → Async β) :
    Rejected (p >>= k) w := by
  obtain ⟨status, detail, hlo, hhi, h⟩ := h
  exact ⟨status, detail, hlo, hhi, Prog.exec_bind_error h⟩

lemma Rejected.map {p : Async α} (h : Rejected p w) (f : α → β) : Rejected (f <$> p) w :=
  h.bind fun a => pure (f a)

lemma Failed.bind {p : Async α} (h : Failed p w) (k : α → Async β) : Failed (p >>= k) w := by
  obtain ⟨e, h⟩ := h
  exact ⟨e, Prog.exec_bind_error h⟩

lemma Failed.map {p : Async α} (h : Failed p w) (f : α → β) : Failed (f <$> p) w :=
  h.bind fun a => pure (f a)

end

/-- A committed mutation: the new tables, and no cached menu. -/
def World.flushed (w : World) (db : Database) : World :=
  { w with db := db, cache := w.cache.cacheInvalidatePrefix "menu:" }

/-- The tail of a mutating service method. -/
lemma exec_then_flush {α : Type} {w : World} {p : Async α} {a : α} {db : Database}
    (h : p.exec w = (.ok a, { w with db := db })) :
    (do let a ← p; Async.cacheInvalidatePrefix "menu:"; return a : Async α).exec w
      = (.ok a, w.flushed db) := by
  rw [Prog.exec_bind_ok h]
  rfl

section

variable (w : World)

/-! ### Restaurants -/

namespace RestaurantService

variable (u : Uuid)

lemma getByOwner_cases :
    Rejected (getByOwner u) w ∨
      ∃ r, Rows.get (·.ownerUserId) u w.db.restaurants = some r ∧
        (getByOwner u).exec w = (.ok r, w) := by
  simp only [getByOwner, RestaurantRepository.getByOwnerId, Rejected, Async.exec_select_bind]
  cases Rows.get (·.ownerUserId) u w.db.restaurants with
  | none => exact .inl (rejected_http (by decide))
  | some r => exact .inr ⟨r, rfl, rfl⟩

lemma exec_create (fuel : ℕ) (data : RestaurantCreate) (id : Uuid) :
    (create fuel u data id).exec w
      = match Rows.get (·.ownerUserId) u w.db.restaurants with
        | some _ => (.error (.http 409 "User already has a restaurant"), w)
        | none   => (do
          let slug ← ensureUniqueSlug fuel (generateSlug data.name.val) none
          RestaurantRepository.create u data slug id).exec w := by
  simp only [create, RestaurantRepository.getByOwnerId, Async.exec_select_bind]
  cases Rows.get (·.ownerUserId) u w.db.restaurants <;> rfl

lemma create_cases (fuel : ℕ) (data : RestaurantCreate) (id : Uuid) :
    Failed (create fuel u data id) w ∨
      ∃ k r db, Rows.get (·.ownerUserId) u w.db.restaurants = none ∧
        w.db.FirstFree (generateSlug data.name.val) none k ∧
        Restaurant.ofCreate data u (slugCandidate (generateSlug data.name.val) k) id w.now
          = .ok r ∧
        db.toTables = { w.db.toTables with restaurants := w.db.restaurants ++ [r] } ∧
        (create fuel u data id).exec w = (.ok r, { w with db := db }) := by
  rw [Failed, exec_create]
  cases hget : Rows.get (·.ownerUserId) u w.db.restaurants with
  | some r => exact .inl ⟨_, rfl⟩
  | none =>
    simp only
    rcases ensureUniqueSlug_cases w _ none (nul_not_mem_generateSlug data.name.val) fuel with
      ⟨k, hk, hslug⟩ | ⟨-, hslug⟩
    · rw [Prog.exec_bind_ok hslug]
      rcases RestaurantRepository.create_cases w u data
          (slugCandidate (generateSlug data.name.val) k) id with ⟨e, h⟩ | ⟨r, db, hr, ht, h⟩
      · exact .inl ⟨_, h⟩
      · exact .inr ⟨k, r, db, trivial, hk, hr, ht, h⟩
    · rw [Prog.exec_bind_error hslug]
      exact .inl ⟨_, rfl⟩

/-- The slug an update sets: none without a name in the body, else the first free candidate. -/
def SlugOfUpdate (r : Restaurant) (data : RestaurantUpdate) (slug : Option String) : Prop :=
  match data.name with
  | .unset    => slug = none
  | .null     => False
  | .set name => ∃ k, w.db.FirstFree (generateSlug name.val) (some r.id) k ∧
      slug = some (slugCandidate (generateSlug name.val) k)

lemma updatedSlug_cases (fuel : ℕ) (r : Restaurant) (data : RestaurantUpdate) :
    Failed (updatedSlug fuel r data.name) w ∨
      ∃ slug, SlugOfUpdate w r data slug ∧
        (updatedSlug fuel r data.name).exec w = (.ok slug, w) := by
  simp only [updatedSlug, SlugOfUpdate]
  cases data.name with
  | unset => exact .inr ⟨none, rfl, rfl⟩
  | null => exact .inl ⟨_, rfl⟩
  | set name =>
    simp only [Patch.value, Failed]
    rcases ensureUniqueSlug_cases w _ (some r.id) (nul_not_mem_generateSlug name.val) fuel with
      ⟨k, hk, hslug⟩ | ⟨-, hslug⟩
    · exact .inr ⟨_, ⟨k, hk, rfl⟩, Prog.exec_bind_ok hslug⟩
    · exact .inl ⟨_, Prog.exec_bind_error hslug⟩

lemma update_cases (fuel : ℕ) (data : RestaurantUpdate) :
    Failed (update fuel u data) w ∨
      ∃ r slug n db, Rows.get (·.ownerUserId) u w.db.restaurants = some r ∧
        SlugOfUpdate w r data slug ∧ r.setattrs data slug = .ok n ∧
        db.toTables = { w.db.toTables with
          restaurants := Rows.modify (·.id) r.id (fun _ => r.saved n w.now) w.db.restaurants } ∧
        (update fuel u data).exec w = (.ok (r.saved n w.now), w.flushed db) := by
  rcases getByOwner_cases w u with h | ⟨r, hr, h⟩
  · exact .inl (h.bind _).failed
  · simp only [Failed, update, Prog.exec_bind_ok h]
    rcases updatedSlug_cases w fuel r data with ⟨e, hs⟩ | ⟨slug, hslug, hs⟩
    · exact .inl ⟨e, Prog.exec_bind_error hs⟩
    · rw [Prog.exec_bind_ok hs]
      rcases RestaurantRepository.update_cases w (Rows.get_mem hr) data slug with
        ⟨e, hu⟩ | ⟨n, db, hn, ht, hu⟩
      · exact .inl ⟨_, Prog.exec_bind_error hu⟩
      · exact .inr ⟨r, slug, n, db, hr, hslug, hn, ht, exec_then_flush hu⟩

lemma delete_cases :
    Failed (delete u) w ∨
      ∃ r db, Rows.get (·.ownerUserId) u w.db.restaurants = some r ∧
        db.toTables = w.db.toTables.deleteRestaurant r.id ∧
        (delete u).exec w = (.ok (), w.flushed db) := by
  rcases getByOwner_cases w u with h | ⟨r, hr, h⟩
  · exact .inl (h.bind _).failed
  · simp only [Failed, delete, Prog.exec_bind_ok h]
    rcases RestaurantRepository.delete_cases w r with ⟨e, hd⟩ | ⟨db, ht, hd⟩
    · exact .inl ⟨_, Prog.exec_bind_error hd⟩
    · exact .inr ⟨r, db, hr, ht, Prog.exec_bind_ok hd⟩

end RestaurantService

/-! ### Categories -/

namespace CategoryService

variable (u : Uuid)

lemma verifyRestaurantOwnership_cases (restaurantId : Uuid) :
    (w.db.restaurantOwner restaurantId ≠ some u ∧
        Rejected (verifyRestaurantOwnership restaurantId u) w) ∨
      w.db.restaurantOwner restaurantId = some u ∧
        (verifyRestaurantOwnership restaurantId u).exec w = (.ok (), w) := by
  simp only [verifyRestaurantOwnership, RestaurantRepository.getById, Rejected,
    Async.exec_select_bind, Tables.restaurantOwner]
  cases Rows.get (·.id) restaurantId w.db.restaurants with
  | none => exact .inl ⟨(Option.some_ne_none u).symm, rejected_http (by decide)⟩
  | some r =>
    simp only [Option.map_some, ne_eq, Option.some.injEq]
    by_cases h : r.ownerUserId = u
    · rw [if_neg (not_not.mpr h)]
      exact .inr ⟨h, rfl⟩
    · rw [if_pos h]
      exact .inl ⟨h, rejected_http (by decide)⟩

/-- The check that guards every operation on one category. -/
lemma category_cases {α : Type} (categoryId : Uuid) (k : Category → Async α) :
    (w.db.categoryOwner categoryId ≠ some u ∧
        Rejected (do
          match ← CategoryRepository.getById categoryId with
          | none => Async.http 404 "Category not found"
          | some category => do
            verifyRestaurantOwnership category.restaurantId u
            k category) w) ∨
      ∃ c, Rows.get (·.id) categoryId w.db.categories = some c ∧
        w.db.restaurantOwner c.restaurantId = some u ∧
        (do
          match ← CategoryRepository.getById categoryId with
          | none => Async.http 404 "Category not found"
          | some category => do
            verifyRestaurantOwnership category.restaurantId u
            k category : Async α).exec w = (k c).exec w := by
  simp only [CategoryRepository.getById, Rejected, Async.exec_select_bind, Tables.categoryOwner]
  cases Rows.get (·.id) categoryId w.db.categories with
  | none => exact .inl ⟨(Option.some_ne_none u).symm, rejected_http (by decide)⟩
  | some c =>
    simp only [Option.bind_some]
    rcases verifyRestaurantOwnership_cases w u c.restaurantId with ⟨hne, h⟩ | ⟨hown, h⟩
    · exact .inl ⟨hne, h.bind _⟩
    · exact .inr ⟨c, rfl, hown, Prog.exec_bind_ok h⟩

lemma listCategories_cases (activeOnly : Bool) (scan : Scan Category) :
    Rejected (listCategories u activeOnly scan) w ∨
      ∃ r, Rows.get (·.ownerUserId) u w.db.restaurants = some r ∧
        (listCategories u activeOnly scan).exec w
          = (.ok (orderBy Category.orderKey (scan.order (w.db.categories.filter fun c =>
              c.restaurantId = r.id ∧ (activeOnly → c.active)))), w) := by
  simp only [listCategories, RestaurantRepository.getByOwnerId, Rejected, Async.exec_select_bind]
  cases Rows.get (·.ownerUserId) u w.db.restaurants with
  | none => exact .inl (rejected_http (by decide))
  | some r => exact .inr ⟨r, rfl, rfl⟩

lemma exec_create (data : CategoryCreate) (id : Uuid) :
    (Rows.get (·.ownerUserId) u w.db.restaurants = none ∧ Rejected (create u data id) w) ∨
      ∃ r, Rows.get (·.ownerUserId) u w.db.restaurants = some r ∧
        (create u data id).exec w = (do
          let category ← CategoryRepository.create r.id data.name data.description none
            data.active id
          Async.cacheInvalidatePrefix "menu:"
          return category : Async Category).exec w := by
  simp only [create, RestaurantRepository.getByOwnerId, Rejected, Async.exec_select_bind]
  cases Rows.get (·.ownerUserId) u w.db.restaurants with
  | none => exact .inl ⟨rfl, rejected_http (by decide)⟩
  | some r => exact .inr ⟨r, rfl, rfl⟩

lemma create_cases (data : CategoryCreate) (id : Uuid) :
    Failed (create u data id) w ∨
      ∃ r p c db, Rows.get (·.ownerUserId) u w.db.restaurants = some r ∧
        Category.ofCreate r.id data.name data.description p data.active id w.now = .ok c ∧
        db.toTables = { w.db.toTables with categories := w.db.categories ++ [c] } ∧
        (create u data id).exec w = (.ok c, w.flushed db) := by
  rcases exec_create w u data id with ⟨-, h⟩ | ⟨r, hr, h⟩
  · exact .inl h.failed
  · rw [Failed, h]
    rcases CategoryRepository.create_cases w r.id data.name data.description data.active id with
      ⟨e, hc⟩ | ⟨p, c, db, hc, ht, hx⟩
    · exact .inl ⟨_, Prog.exec_bind_error hc⟩
    · exact .inr ⟨r, p, c, db, hr, hc, ht, exec_then_flush hx⟩

lemma exec_update (categoryId : Uuid) (data : CategoryUpdate) :
    (w.db.categoryOwner categoryId ≠ some u ∧ Rejected (update categoryId u data) w) ∨
      ∃ c, Rows.get (·.id) categoryId w.db.categories = some c ∧
        w.db.restaurantOwner c.restaurantId = some u ∧
        (update categoryId u data).exec w = (do
          let result ← CategoryRepository.update c data
          Async.cacheInvalidatePrefix "menu:"
          return result : Async Category).exec w :=
  category_cases w u categoryId _

lemma update_cases (categoryId : Uuid) (data : CategoryUpdate) :
    Failed (update categoryId u data) w ∨
      ∃ c n db, Rows.get (·.id) categoryId w.db.categories = some c ∧
        w.db.restaurantOwner c.restaurantId = some u ∧ c.setattrs data = .ok n ∧
        db.toTables = { w.db.toTables with
          categories := Rows.modify (·.id) c.id (fun _ => c.saved n w.now) w.db.categories } ∧
        (update categoryId u data).exec w = (.ok (c.saved n w.now), w.flushed db) := by
  rcases exec_update w u categoryId data with ⟨-, h⟩ | ⟨c, hc, hown, h⟩
  · exact .inl h.failed
  · rw [Failed, h]
    rcases CategoryRepository.update_cases w (Rows.get_mem hc) data with
      ⟨e, hu⟩ | ⟨n, db, hn, ht, hu⟩
    · exact .inl ⟨_, Prog.exec_bind_error hu⟩
    · exact .inr ⟨c, n, db, hc, hown, hn, ht, exec_then_flush hu⟩

lemma delete_cases (categoryId : Uuid) :
    Rejected (delete categoryId u) w ∨
      w.db.categoryOwner categoryId = some u ∧
        (Failed (delete categoryId u) w ∨ ∃ c db,
          Rows.get (·.id) categoryId w.db.categories = some c ∧
          w.db.restaurantOwner c.restaurantId = some u ∧
          db.toTables = w.db.toTables.deleteCategory c.id ∧
          (delete categoryId u).exec w = (.ok (), w.flushed db)) := by
  rcases category_cases w u categoryId (fun category => do
      let active ← CategoryRepository.hasActiveDishes categoryId
      if active then
        Async.http 409 "Cannot delete category with active dishes"
      else do
        CategoryRepository.delete category
        Async.cacheInvalidatePrefix "menu:") with ⟨-, h⟩ | ⟨c, hc, hown, h⟩
  · exact .inl h
  · refine .inr ⟨by rw [Tables.categoryOwner, hc, Option.bind_some, hown], ?_⟩
    have h : (delete categoryId u).exec w = _ := h
    rw [Failed, h]
    simp only [CategoryRepository.hasActiveDishes, Prog.bind_assoc, Async.exec_select_bind,
      Prog.exec_pure_bind]
    split_ifs with hactive
    · exact .inl ⟨_, rfl⟩
    · rcases CategoryRepository.delete_cases w c with ⟨e, hd⟩ | ⟨db, ht, hd⟩
      · exact .inl ⟨_, Prog.exec_bind_error hd⟩
      · exact .inr ⟨c, db, hc, hown, ht, Prog.exec_bind_ok hd⟩

/-- The loop passes exactly the lists of categories of the restaurant. -/
lemma verifyOrderedIds_cases (restaurantId : Uuid) (ids : List Uuid) :
    Rejected (verifyOrderedIds restaurantId ids) w ∨
      (∀ id ∈ ids, ∃ c ∈ Rows.get (·.id) id w.db.categories, c.restaurantId = restaurantId) ∧
        (verifyOrderedIds restaurantId ids).exec w = (.ok (), w) := by
  induction ids with
  | nil => exact .inr ⟨by simp, rfl⟩
  | cons id ids ih =>
    simp only [verifyOrderedIds, CategoryRepository.getById, Rejected, Async.exec_select_bind]
    by_cases h : (Rows.get (·.id) id w.db.categories).any fun c => c.restaurantId = restaurantId
    · rw [if_pos h]
      obtain ⟨c, hc, hcr⟩ : ∃ c ∈ Rows.get (·.id) id w.db.categories,
          c.restaurantId = restaurantId := by simpa [Option.any_eq_true] using h
      rcases ih with hrej | ⟨hown, hok⟩
      · exact .inl hrej
      · refine .inr ⟨fun j hj => ?_, hok⟩
        rcases List.mem_cons.mp hj with rfl | hj
        · exact ⟨c, hc, hcr⟩
        · exact hown j hj
    · rw [if_neg h]
      exact .inl (rejected_http (by decide))

lemma reorder_cases (ids : List Uuid) :
    Rejected (reorder u ids) w ∨
      (∀ id ∈ ids, w.db.categoryOwner id = some u) ∧
        (Failed (reorder u ids) w ∨ ∃ r rows db,
          Rows.get (·.ownerUserId) u w.db.restaurants = some r ∧
          CategoryRepository.reorderRows w.now r.id 0 ids w.db.categories = .ok rows ∧
          db.toTables = { w.db.toTables with categories := rows } ∧
          (reorder u ids).exec w = (.ok (), w.flushed db)) := by
  simp only [reorder, RestaurantRepository.getByOwnerId, Rejected, Failed, Async.exec_select_bind]
  cases hget : Rows.get (·.ownerUserId) u w.db.restaurants with
  | none => exact .inl (rejected_http (by decide))
  | some r =>
    have hr : w.db.restaurantOwner r.id = some u := Tables.restaurantOwner_of_owner w.db.valid hget
    simp only
    rcases verifyOrderedIds_cases w r.id ids with h | ⟨hall, h⟩
    · exact .inl (h.bind _)
    · refine .inr ⟨fun id hid => ?_, ?_⟩
      · obtain ⟨c, hc, hcr⟩ := hall id hid
        rw [Tables.categoryOwner, Option.mem_def.mp hc, Option.bind_some, hcr, hr]
      · rw [Prog.exec_bind_ok h]
        rcases CategoryRepository.reorder_cases w r.id ids with ⟨e, hx⟩ | ⟨rows, db, hrows, ht, hx⟩
        · exact .inl ⟨_, Prog.exec_bind_error hx⟩
        · exact .inr ⟨r, rows, db, rfl, hrows, ht, Prog.exec_bind_ok hx⟩

end CategoryService

/-! ### Dishes -/

namespace DishService

variable (u : Uuid)

lemma verifyCategoryOwnership_cases (categoryId : Option Uuid) :
    (categoryId.bind w.db.categoryOwner ≠ some u ∧
        Rejected (verifyCategoryOwnership categoryId u) w) ∨
      categoryId.bind w.db.categoryOwner = some u ∧
        (verifyCategoryOwnership categoryId u).exec w = (.ok (), w) := by
  simp only [verifyCategoryOwnership, RestaurantRepository.getById, Rejected,
    Async.exec_select_bind]
  cases categoryId with
  | none => exact .inl ⟨(Option.some_ne_none u).symm, rejected_http (by decide)⟩
  | some cid =>
    simp only [Option.bind_some, Tables.categoryOwner, Tables.restaurantOwner]
    cases Rows.get (·.id) cid w.db.categories with
    | none => exact .inl ⟨(Option.some_ne_none u).symm, rejected_http (by decide)⟩
    | some c =>
      simp only [Option.bind_some, Async.exec_select_bind]
      cases Rows.get (·.id) c.restaurantId w.db.restaurants with
      | none => exact .inl ⟨(Option.some_ne_none u).symm, rejected_http (by decide)⟩
      | some r =>
        simp only [Option.any_some, Option.map_some, ne_eq, Option.some.injEq,
          decide_eq_true_eq]
        by_cases h : r.ownerUserId = u
        · rw [if_pos h]
          exact .inr ⟨h, rfl⟩
        · rw [if_neg h]
          exact .inl ⟨h, rejected_http (by decide)⟩

/-- The user may see the dish: it is not deleted and in a category of the user. -/
structure OwnsDish (dishId : Uuid) (d : Dish) : Prop where
  get : Rows.get (·.id) dishId w.db.dishes = some d
  live : d.deletedAt = none
  owned : w.db.categoryOwner d.categoryId = some u

lemma getDish_cases (dishId : Uuid) :
    ((¬ ∃ d, OwnsDish w u dishId d) ∧ Rejected (getDish dishId u) w) ∨
      ∃ d, OwnsDish w u dishId d ∧ (getDish dishId u).exec w = (.ok d, w) := by
  simp only [getDish, DishRepository.getById, Rejected, Async.exec_select_bind]
  cases hget : Rows.get (·.id) dishId w.db.dishes with
  | none =>
    refine .inl ⟨?_, rejected_http (by decide)⟩
    rintro ⟨d, h⟩
    rw [h.get] at hget
    cases hget
  | some d =>
    have heq : ∀ d', OwnsDish w u dishId d' → d = d' := fun d' h =>
      Option.some.inj (hget.symm.trans h.get)
    simp only [Option.filter_some, Bool.false_or]
    cases hdel : d.deletedAt with
    | some t =>
      refine .inl ⟨?_, rejected_http (by decide)⟩
      rintro ⟨d', h⟩
      rw [heq d' h, h.live] at hdel
      cases hdel
    | none =>
      rcases verifyCategoryOwnership_cases w u (some d.categoryId) with ⟨hne, h⟩ | ⟨hown, h⟩
      · refine .inl ⟨?_, h.bind _⟩
        rintro ⟨d', h'⟩
        exact hne (heq d' h' ▸ h'.owned)
      · exact .inr ⟨d, ⟨hget, hdel, hown⟩, Prog.exec_bind_ok h⟩

lemma exec_create (data : DishCreate) (id : Uuid) :
    (w.db.categoryOwner data.categoryId ≠ some u ∧ Rejected (create u data id) w) ∨
      w.db.categoryOwner data.categoryId = some u ∧
        (create u data id).exec w = (do
          let dish ← DishRepository.create data none id
          Async.cacheInvalidatePrefix "menu:"
          return dish : Async Dish).exec w := by
  rcases verifyCategoryOwnership_cases w u (some data.categoryId) with ⟨hne, h⟩ | ⟨hown, h⟩
  · exact .inl ⟨hne, h.bind _⟩
  · exact .inr ⟨hown, Prog.exec_bind_ok h⟩

lemma create_cases (data : DishCreate) (id : Uuid) :
    Failed (create u data id) w ∨
      ∃ p d db, w.db.categoryOwner data.categoryId = some u ∧
        Dish.ofCreate data p id w.now = .ok d ∧
        db.toTables = { w.db.toTables with dishes := w.db.dishes ++ [d] } ∧
        (create u data id).exec w = (.ok d, w.flushed db) := by
  rcases exec_create w u data id with ⟨-, h⟩ | ⟨hown, h⟩
  · exact .inl h.failed
  · rw [Failed, h]
    rcases DishRepository.create_cases w data id with ⟨e, hc⟩ | ⟨p, d, db, hd, ht, hx⟩
    · exact .inl ⟨_, Prog.exec_bind_error hc⟩
    · exact .inr ⟨p, d, db, hown, hd, ht, exec_then_flush hx⟩

/-- The body leaves the dish in its category or moves it to a category of the user. -/
def TargetOwned (data : DishUpdate) : Prop :=
  ∀ c, data.categoryId.value = some c → c.bind w.db.categoryOwner = some u

/-- The category an update leaves the dish in belongs to the user. -/
lemma TargetOwned.owned {w : World} {u dishId : Uuid} {data : DishUpdate} {d n : Dish}
    (h : TargetOwned w u data) (hd : OwnsDish w u dishId d) (hset : d.setattrs data = .ok n) :
    w.db.categoryOwner n.categoryId = some u := by
  have hcat := (Dish.setattrs_ok hset).2.2.2
  cases hv : data.categoryId.value with
  | none =>
    rw [hv] at hcat
    rw [hcat]
    exact hd.owned
  | some c =>
    rw [hv] at hcat
    have htarget := h c hv
    rwa [hcat] at htarget

/-- The check of the target category, where the body has one. -/
lemma target_cases (data : DishUpdate) :
    (¬ TargetOwned w u data ∧ Rejected (Async.whenSome data.categoryId.value fun cid =>
        verifyCategoryOwnership cid u) w) ∨
      TargetOwned w u data ∧ (Async.whenSome data.categoryId.value fun cid =>
        verifyCategoryOwnership cid u).exec w = (.ok (), w) := by
  rw [TargetOwned]
  cases data.categoryId.value with
  | none => exact .inr ⟨fun _ h => (by cases h), rfl⟩
  | some c =>
    rcases verifyCategoryOwnership_cases w u c with ⟨hne, h⟩ | ⟨hown, h⟩
    · exact .inl ⟨fun h => hne (h c rfl), h⟩
    · refine .inr ⟨fun c' hc => ?_, h⟩
      cases hc
      exact hown

lemma exec_update (dishId : Uuid) (data : DishUpdate) :
    ((¬ ∃ d, OwnsDish w u dishId d ∧ TargetOwned w u data) ∧
        Rejected (update dishId u data) w) ∨
      ∃ d, OwnsDish w u dishId d ∧ TargetOwned w u data ∧
        (update dishId u data).exec w = (do
          let result ← DishRepository.update d data
          Async.cacheInvalidatePrefix "menu:"
          return result : Async Dish).exec w := by
  rcases getDish_cases w u dishId with ⟨hne, h⟩ | ⟨d, hd, h⟩
  · refine .inl ⟨?_, h.bind _⟩
    rintro ⟨d, hd, -⟩
    exact hne ⟨d, hd⟩
  · simp only [update, Rejected, Prog.exec_bind_ok h]
    rcases target_cases w u data with ⟨hne, ht⟩ | ⟨htarget, ht⟩
    · refine .inl ⟨?_, ht.bind _⟩
      rintro ⟨-, -, htarget⟩
      exact hne htarget
    · exact .inr ⟨d, hd, htarget, Prog.exec_bind_ok ht⟩

lemma exec_delete (dishId : Uuid) :
    Rejected (delete dishId u) w ∨
      ∃ d, OwnsDish w u dishId d ∧
        (delete dishId u).exec w = (do
          let result ← DishRepository.save d (.ok { d with deletedAt := some w.now })
          Async.cacheInvalidatePrefix "menu:"
          return result : Async Dish).exec w := by
  rcases getDish_cases w u dishId with ⟨-, h⟩ | ⟨d, hd, h⟩
  · exact .inl (h.bind _)
  · exact .inr ⟨d, hd, Prog.exec_bind_ok h⟩

lemma exec_toggleAvailability (dishId : Uuid) :
    Rejected (toggleAvailability dishId u) w ∨
      ∃ d, OwnsDish w u dishId d ∧
        (toggleAvailability dishId u).exec w = (do
          let result ← DishRepository.save d (.ok { d with available := !d.available })
          Async.cacheInvalidatePrefix "menu:"
          return result : Async Dish).exec w := by
  rcases getDish_cases w u dishId with ⟨-, h⟩ | ⟨d, hd, h⟩
  · exact .inl (h.bind _)
  · exact .inr ⟨d, hd, Prog.exec_bind_ok h⟩

/-- For a restaurant and a category of the caller the listing is that of the repository. -/
lemma exec_listDishes {r : Restaurant} (P : Platform) (f : DishFilter) (limit offset : ℕ)
    (scan : Scan Dish) (hr : Rows.get (·.ownerUserId) u w.db.restaurants = some r)
    (hcat : ∀ cid, f.categoryId = some cid → w.db.categoryOwner cid = some u) :
    (listDishes P u f limit offset scan).exec w = ((fun page => ⟨page.1, page.2, limit, offset⟩) <$>
      DishRepository.listDishes P (f.ofRestaurant r.id) limit offset scan).exec w := by
  have hverify : (Async.whenSome f.categoryId fun cid =>
      verifyCategoryOwnership (some cid) u).exec w = (.ok (), w) := by
    cases hc : f.categoryId with
    | none => rfl
    | some cid =>
      rcases verifyCategoryOwnership_cases w u (some cid) with ⟨hne, -⟩ | ⟨-, h⟩
      · exact absurd (hcat cid hc) hne
      · exact h
  rw [listDishes, RestaurantRepository.getByOwnerId, Async.exec_select_bind, hr]
  simp only
  rw [Prog.exec_bind_ok hverify]
  rfl

/-- All other listings are rejected. -/
lemma listDishes_rejected (P : Platform) (f : DishFilter) (limit offset : ℕ) (scan : Scan Dish) :
    Rejected (listDishes P u f limit offset scan) w ∨
      ∃ r, Rows.get (·.ownerUserId) u w.db.restaurants = some r ∧
        ∀ cid, f.categoryId = some cid → w.db.categoryOwner cid = some u := by
  rw [Rejected, listDishes, RestaurantRepository.getByOwnerId, Async.exec_select_bind]
  cases Rows.get (·.ownerUserId) u w.db.restaurants with
  | none => exact .inl (rejected_http (by decide))
  | some r =>
    simp only
    cases hf : f.categoryId with
    | none => exact .inr ⟨r, rfl, fun _ h => (by cases h)⟩
    | some cid =>
      rcases verifyCategoryOwnership_cases w u (some cid) with ⟨-, h⟩ | ⟨hown, h⟩
      · exact .inl (h.bind _)
      · refine .inr ⟨r, rfl, fun cid' hc => ?_⟩
        cases hc
        exact hown

/-- The listing asks for the dishes of the restaurant of the user, whatever the filter says, and
fails if one of its values cannot be bound. -/
lemma listDishes_cases (P : Platform) (f : DishFilter) (limit offset : ℕ) (scan : Scan Dish) :
    Rejected (listDishes P u f limit offset scan) w ∨
      ∃ r, Rows.get (·.ownerUserId) u w.db.restaurants = some r ∧
        (∀ cid, f.categoryId = some cid → w.db.categoryOwner cid = some u) ∧
        (Failed (listDishes P u f limit offset scan) w ∨
          ∃ rows, rows = w.db.dishes.filter ((f.ofRestaurant r.id).matches P w.db) ∧
            (listDishes P u f limit offset scan).exec w
              = (.ok ⟨((orderBy Dish.listKey (scan.order rows)).drop offset).take limit,
                  rows.length, limit, offset⟩, w)) := by
  rcases listDishes_rejected w u P f limit offset scan with hrej | ⟨r, hr, hcat⟩
  · exact .inl hrej
  · refine .inr ⟨r, hr, hcat, ?_⟩
    rw [Failed, exec_listDishes w u P f limit offset scan hr hcat, Prog.exec_map]
    by_cases h : (f.ofRestaurant r.id).Binds ∧ limit < 2 ^ 63 ∧ offset < 2 ^ 63
    · rw [DishRepository.exec_listDishes scan w h.1 h.2.1 h.2.2]
      exact .inr ⟨_, rfl, rfl⟩
    · rw [DishRepository.exec_listDishes_refused scan w h]
      exact .inl ⟨_, rfl⟩

/-- A mutation of one dish that goes through `DishRepository.save`. -/
lemma save_cases {p : Async Dish} {dishId : Uuid} {d : Dish} {new : Except DbError Dish}
    (hd : Rows.get (·.id) dishId w.db.dishes = some d)
    (hp : p.exec w = (do
      let result ← DishRepository.save d new
      Async.cacheInvalidatePrefix "menu:"
      return result : Async Dish).exec w) :
    Failed p w ∨ ∃ n db, new = .ok n ∧
      db.toTables = { w.db.toTables with
        dishes := Rows.modify (·.id) d.id (fun _ => d.saved n w.now) w.db.dishes } ∧
      p.exec w = (.ok (d.saved n w.now), w.flushed db) := by
  rw [Failed, hp]
  rcases DishRepository.save_cases w (Rows.get_mem hd) new with ⟨e, h⟩ | ⟨n, db, hn, ht, h⟩
  · exact .inl ⟨_, Prog.exec_bind_error h⟩
  · exact .inr ⟨n, db, hn, ht, exec_then_flush h⟩

end DishService

end

end LiveMenu
