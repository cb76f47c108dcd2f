import LiveMenu.Model.Repositories
import LiveMenu.Model.Slug

/-!
# Restaurant, category, dish and menu services

The service methods as coroutines over the repositories. `fuel` bounds the search for a free
slug, the one loop of the source without a bound; the search ends as the source's does whenever the
fuel suffices.
-/

namespace LiveMenu

/-! ### Restaurants -/

namespace RestaurantService

def getByOwner (ownerUserId : Uuid) : Async Restaurant := do
  match ← RestaurantRepository.getByOwnerId ownerUserId with
  | none            => Async.http 404 "Restaurant not found"
  | some restaurant => pure restaurant

/-- `not existing or (exclude_id and existing.id == exclude_id)`. -/
def slugIsFree (existing : Option Restaurant) (excludeId : Option Uuid) : Bool :=
  match existing with
  | none   => true
  | some r => excludeId == some r.id

/-- `while True`, from `counter` on. -/
def searchSlug (baseSlug : String) (excludeId : Option Uuid) : ℕ → ℕ → Async String
  | 0, _              => Prog.raise .unfinished
  | fuel + 1, counter => do
    let existing ← RestaurantRepository.getBySlug (suffixed baseSlug counter)
    if slugIsFree existing excludeId then
      pure (suffixed baseSlug counter)
    else
      searchSlug baseSlug excludeId fuel (counter + 1)

/-- `_ensure_unique_slug`. -/
def ensureUniqueSlug (fuel : ℕ) (baseSlug : String) (excludeId : Option Uuid) :
    Async String := do
  let existing ← RestaurantRepository.getBySlug baseSlug
  if slugIsFree existing excludeId then
    pure baseSlug
  else
    searchSlug baseSlug excludeId fuel 1

def create (fuel : ℕ) (ownerUserId : Uuid) (data : RestaurantCreate) (id : Uuid) :
    Async Restaurant := do
  match ← RestaurantRepository.getByOwnerId ownerUserId with
  | some _ => Async.http 409 "User already has a restaurant"
  | none => do
    let slug ← ensureUniqueSlug fuel (generateSlug data.name.val) none
    RestaurantRepository.create ownerUserId data slug id

/-- The new slug of an update: none if the body has no name, and no slug of `None`. -/
def updatedSlug (fuel : ℕ) (restaurant : Restaurant) (name : Patch (BoundedStr 1 100)) :
    Async (Option String) :=
  match name.value with
  | none             => pure none
  | some none        => Prog.raise .attribute
  | some (some name) => do
    let slug ← ensureUniqueSlug fuel (generateSlug name.val) (some restaurant.id)
    return some slug

def update (fuel : ℕ) (ownerUserId : Uuid) (data : RestaurantUpdate) : Async Restaurant := do
  let restaurant ← getByOwner ownerUserId
  let slug ← updatedSlug fuel restaurant data.name
  let restaurant ← RestaurantRepository.update restaurant data slug
  Async.cacheInvalidatePrefix "menu:"
  return restaurant

def delete (ownerUserId : Uuid) : Async Unit := do
  let restaurant ← getByOwner ownerUserId
  RestaurantRepository.delete restaurant
  Async.cacheInvalidatePrefix "menu:"

end RestaurantService

/-! ### Categories -/

/-- `str(uuid)`. -/
def uuidStr (u : Uuid) : String :=
  let hex := Nat.toDigits 16 u.toNat
  let hex := List.replicate (32 - hex.length) '0' ++ hex
  let part := fun i n => String.ofList ((hex.drop i).take n)
  part 0 8 ++ "-" ++ part 8 4 ++ "-" ++ part 12 4 ++ "-" ++ part 16 4 ++ "-" ++ part 20 12

namespace CategoryService

/-- `_verify_restaurant_ownership`. -/
def verifyRestaurantOwnership (restaurantId ownerUserId : Uuid) : Async Unit := do
  match ← RestaurantRepository.getById restaurantId with
  | none => Async.http 404 "Restaurant not found"
  | some restaurant =>
    if restaurant.ownerUserId ≠ ownerUserId then
      Async.http 403 "Not authorized to access this restaurant"
    else
      pure ()

def listCategories (ownerUserId : Uuid) (activeOnly : Bool) (scan : Scan Category) :
    Async (List Category) := do
  match ← RestaurantRepository.getByOwnerId ownerUserId with
  | none            => Async.http 404 "Restaurant not found"
  | some restaurant => CategoryRepository.listByRestaurant restaurant.id activeOnly scan

def create (ownerUserId : Uuid) (data : CategoryCreate) (id : Uuid) : Async Category := do
  match ← RestaurantRepository.getByOwnerId ownerUserId with
  | none => Async.http 404 "Restaurant not found"
  | some restaurant => do
    let category ←
      CategoryRepository.create restaurant.id data.name data.description none data.active id
    Async.cacheInvalidatePrefix "menu:"
    return category

def update (categoryId ownerUserId : Uuid) (data : CategoryUpdate) : Async Category := do
  match ← CategoryRepository.getById categoryId with
  | none => Async.http 404 "Category not found"
  | some category => do
    verifyRestaurantOwnership category.restaurantId ownerUserId
    let result ← CategoryRepository.update category data
    Async.cacheInvalidatePrefix "menu:"
    return result

def delete (categoryId ownerUserId : Uuid) : Async Unit := do
  match ← CategoryRepository.getById categoryId with
  | none => Async.http 404 "Category not found"
  | some category => do
    verifyRestaurantOwnership category.restaurantId ownerUserId
    let active ← CategoryRepository.hasActiveDishes categoryId
    if active then
      Async.http 409 "Cannot delete category with active dishes"
    else do
      CategoryRepository.delete category
      Async.cacheInvalidatePrefix "menu:"

/-- The loop that checks that every listed category belongs to the restaurant. -/
def verifyOrderedIds (restaurantId : Uuid) : List Uuid → Async Unit
  | [] => pure ()
  | categoryId :: ids => do
    let category ← CategoryRepository.getById categoryId
    if category.any fun c => c.restaurantId = restaurantId then
      verifyOrderedIds restaurantId ids
    else
      Async.http 400 ("Category " ++ uuidStr categoryId ++ " does not belong to restaurant")

def reorder (ownerUserId : Uuid) (orderedIds : List Uuid) : Async Unit := do
  match ← RestaurantRepository.getByOwnerId ownerUserId with
  | none => Async.http 404 "Restaurant not found"
  | some restaurant => do
    verifyOrderedIds restaurant.id orderedIds
    CategoryRepository.reorderCategories restaurant.id orderedIds
    Async.cacheInvalidatePrefix "menu:"

end CategoryService

/-! ### Dishes -/

/-- `PaginatedResponse`. -/
structure PaginatedResponse (α : Type) where
  items : List α
  total : ℕ
  limit : ℕ
  offset : ℕ

namespace PaginatedResponse

variable {α : Type} (r : PaginatedResponse α)

def hasMore : Bool := decide (r.offset + r.limit < r.total)
def page : ℕ := if r.limit = 0 then 1 else r.offset / r.limit + 1
def totalPages : ℕ := if r.limit = 0 then 1 else (r.total + r.limit - 1) / r.limit

end PaginatedResponse

namespace DishService

/-- `_verify_category_ownership`. No category has the id `None`. -/
def verifyCategoryOwnership (categoryId : Option Uuid) (ownerUserId : Uuid) : Async Unit := do
  let category ← Async.select .categories fun db =>
    categoryId.bind fun id => Rows.get (·.id) id db.categories
  match category with
  | none => Async.http 404 "Category not found"
  | some category => do
    let restaurant ← RestaurantRepository.getById category.restaurantId
    if restaurant.any fun r => r.ownerUserId = ownerUserId then
      pure ()
    else
      Async.http 403 "Not authorized to access this category"

def listDishes (P : Platform) (ownerUserId : Uuid) (f : DishFilter) (limit offset : ℕ)
    (scan : Scan Dish) : Async (PaginatedResponse Dish) := do
  match ← RestaurantRepository.getByOwnerId ownerUserId with
  | none => Async.http 404 "Restaurant not found"
  | some restaurant => do
    Async.whenSome f.categoryId fun cid => verifyCategoryOwnership (some cid) ownerUserId
    let (dishes, total) ← DishRepository.listDishes P
      { f with restaurantId := some restaurant.id, includeDeleted := false } limit offset scan
    return ⟨dishes, total, limit, offset⟩

def getDish (dishId ownerUserId : Uuid) : Async Dish := do
  match ← DishRepository.getById dishId with
  | none => Async.http 404 "Dish not found"
  | some dish => do
    verifyCategoryOwnership (some dish.categoryId) ownerUserId
    return dish

def create (ownerUserId : Uuid) (data : DishCreate) (id : Uuid) : Async Dish := do
  verifyCategoryOwnership (some data.categoryId) ownerUserId
  let dish ← DishRepository.create data none id
  Async.cacheInvalidatePrefix "menu:"
  return dish

def update (dishId ownerUserId : Uuid) (data : DishUpdate) : Async Dish := do
  let dish ← getDish dishId ownerUserId
  Async.whenSome data.categoryId.value fun cid => verifyCategoryOwnership cid ownerUserId
  let result ← DishRepository.update dish data
  Async.cacheInvalidatePrefix "menu:"
  return result

def delete (dishId ownerUserId : Uuid) : Async Dish := do
  let dish ← getDish dishId ownerUserId
  let result ← DishRepository.softDelete dish
  Async.cacheInvalidatePrefix "menu:"
  return result

def toggleAvailability (dishId ownerUserId : Uuid) : Async Dish := do
  let dish ← getDish dishId ownerUserId
  let result ← DishRepository.toggleAvailability dish
  Async.cacheInvalidatePrefix "menu:"
  return result

end DishService

/-! ### The public menu -/

/-- The orders in which the server returns rows that tie in the queries of one menu. -/
structure MenuScan where
  categories : Scan Category
  dishes : Scan Dish

/-- `ORDER BY position ASC, created_at ASC`, and the sort key of the builder. -/
def Dish.menuKey (d : Dish) : ℤ ×ₗ ℤ := toLex (d.position.val, d.createdAt)

lemma append_right_injective (p : String) : Function.Injective (p ++ ·) := by
  intro s s' h
  have h := congrArg String.toList h
  simp only [String.toList_append, List.append_cancel_left_eq] at h
  exact String.toList_injective h

namespace MenuService

/-- `MENU_CACHE_TTL`. -/
def menuCacheTtl : ℤ := 300

def cacheKey (slug : String) : String := "menu:" ++ slug

lemma cacheKey_startswith (slug : String) : startswith (cacheKey slug) "menu:" = true := by
  simp only [startswith, cacheKey, String.toList_append]
  exact List.isPrefixOf_iff_prefix.mpr (List.prefix_append _ _)

lemma cacheKey_injective : Function.Injective cacheKey := append_right_injective "menu:"

def dishResponse (dish : Dish) : MenuDishResponse where
  id := dish.id
  name := dish.name.val
  description := dish.description.map (·.val)
  price := dish.price.val
  salePrice := dish.salePrice.map (·.val)
  imageUrl := dish.imageUrl.map (·.val)
  tags := dish.tags.map (·.map (·.val))
  featured := dish.featured
  position := dish.position.val

/-- The dishes of a category that the menu shows, in its order. -/
def availableDishes (category : Category) (dishes : List Dish) : List Dish :=
  orderBy Dish.menuKey (dishes.filter fun d =>
    d.categoryId = category.id ∧ d.available ∧ d.deletedAt.isNone)

def categoryResponse (dishes : List Dish) (category : Category) : MenuCategoryResponse where
  id := category.id
  name := category.name.val
  description := category.description.map (·.val)
  position := category.position.val
  dishes := (availableDishes category dishes).map dishResponse

/-- Assemble the menu from the rows of the three queries. -/
def menuResponse (restaurant : Restaurant) (categories : List Category) (dishes : List Dish) :
    MenuResponse where
  restaurantId := restaurant.id
  restaurantName := restaurant.name.val
  restaurantSlug := restaurant.slug.val
  description := restaurant.description.map (·.val)
  logoUrl := restaurant.logoUrl.map (·.val)
  phone := restaurant.phone.map (·.val)
  address := restaurant.address.map (·.val)
  hours := restaurant.hours.map (·.val)
  categories := (categories.map (categoryResponse dishes)).filter fun c => !c.dishes.isEmpty

/-- The query of the active categories. -/
def activeCategories (scan : MenuScan) (restaurantId : Uuid) (db : Database) : List Category :=
  orderBy Category.orderKey (scan.categories.order
    (db.categories.filter fun c => c.restaurantId = restaurantId ∧ c.active))

/-- `selectinload(Category.dishes)`: the dishes of the loaded categories. -/
def loadedDishes (scan : MenuScan) (categories : List Category) (db : Database) : List Dish :=
  scan.dishes.order (db.dishes.filter fun d => d.categoryId ∈ categories.map (·.id))

def getMenuBySlug (scan : MenuScan) (slug : String) : Async MenuResponse := do
  match ← Async.cacheGet (cacheKey slug) with
  | some cached => pure cached
  | none => do
    match ← RestaurantRepository.getBySlug slug with
    | none => Async.http 404 ("Restaurant with slug '" ++ slug ++ "' not found")
    | some restaurant => do
      let categories ← Async.select .categories (activeCategories scan restaurant.id)
      -- without categories there is nothing to load, and no second statement
      let dishes ← if categories.isEmpty then pure []
        else Async.select .dishes (loadedDishes scan categories)
      let menu := menuResponse restaurant categories dishes
      Async.cacheSet (cacheKey slug) menu menuCacheTtl
      return menu

end MenuService

end LiveMenu
