import LiveMenu.Lib.OrderBy
import LiveMenu.Lib.Like
import LiveMenu.Model.Platform

/-!
# Repositories

The data access of the six tables, one definition for each method. A new row gets its primary key
from the caller, which stands for `uuid.uuid4`; a key that is taken makes the commit fail.
-/

namespace LiveMenu

/-- `max_position or -1`, plus one: zero is as false as an absent maximum. -/
def nextPosition (maxPosition : Option ℤ) : ℤ :=
  (match maxPosition with
    | none   => -1
    | some 0 => -1
    | some p => p) + 1

namespace Async

variable {ρ : Type}

/-- `session.add(row)`, commit, refresh: build the row, write it, read it back. -/
def insert (t : Table) (row : Time → Except DbError ρ) (tables : Tables → ρ → Tables)
    (find : Uuid → Tables → Option ρ) (id : Uuid) : Async ρ := do
  let _ ← commit t fun now db => do
    let r ← row now
    let db ← Database.write (tables db.toTables r)
    return (r, db)
  refresh t fun db => find id db.toTables

/-- Commit the changed columns of an instance, refresh: write them, read the row back. -/
def save (t : Table) (update : Time → Database → Except DbError Database)
    (find : Uuid → Tables → Option ρ) (id : Uuid) : Async ρ := do
  let _ ← commit t fun now db => do
    let db ← update now db
    return ((), db)
  refresh t fun db => find id db.toTables

end Async

/-! ### Users -/

/-- The row the session inserts for a new user. -/
def User.ofCreate (P : Platform) (email passwordHash : String) (id : Uuid) (now : Time) :
    Except DbError User := do
  let email ← Varchar.ofString 255 (P.strLower email)
  let passwordHash ← PgText.ofString passwordHash
  return ⟨id, email, passwordHash, now, now⟩

namespace UserRepository

variable (P : Platform)

def create (email passwordHash : String) (id : Uuid) : Async User :=
  Async.insert .users (User.ofCreate P email passwordHash id)
    (fun t u => { t with users := t.users ++ [u] })
    (fun id t => Rows.get (·.id) id t.users) id

def getByEmail (email : String) : Async (Option User) :=
  Async.select .users fun db => db.users.find? fun u => u.email.val = P.strLower email

def existsByEmail (email : String) : Async Bool := do
  let user ← getByEmail P email
  return user.isSome

end UserRepository

/-! ### Refresh tokens -/

namespace RefreshTokenRepository

variable (P : Platform)

def hashToken (token : String) : Varchar 64 := P.sha256 token

def create (userId : Uuid) (token : String) (expiresInDays : ℤ) (id : Uuid) :
    Async RefreshToken := do
  let now ← Async.clock
  let expiresAt := now + Time.days expiresInDays
  Async.insert .refreshTokens
    (fun now => .ok ⟨id, userId, hashToken P token, none, expiresAt, now⟩)
    (fun t k => { t with refreshTokens := t.refreshTokens ++ [k] })
    (fun id t => Rows.get (·.id) id t.refreshTokens) id

def getByToken (token : String) : Async (Option RefreshToken) :=
  Async.select .refreshTokens fun db => Rows.get (·.tokenHash) (hashToken P token) db.refreshTokens

def isValid (token : String) : Async Bool := do
  match ← getByToken P token with
  | none => return false
  | some refreshToken =>
    if refreshToken.revokedAt.isSome then
      return false
    else do
      let now ← Async.clock
      return !decide (refreshToken.expiresAt < now)

def revoke (token : String) : Async Unit := do
  match ← getByToken P token with
  | none => return ()
  | some refreshToken => do
    let now ← Async.clock
    Async.commit .refreshTokens fun _ db => do
      let db ← db.updateRefreshTokens [(refreshToken, { refreshToken with revokedAt := some now })]
      return ((), db)

def revokeAllForUser (userId : Uuid) : Async Unit := do
  let tokens ← Async.select .refreshTokens fun db =>
    db.refreshTokens.filter fun t => t.userId = userId ∧ t.revokedAt.isNone
  let now ← Async.clock
  Async.commit .refreshTokens fun _ db => do
    let db ← db.updateRefreshTokens (tokens.map fun t => (t, { t with revokedAt := some now }))
    return ((), db)

end RefreshTokenRepository

/-! ### Restaurants -/

/-- The row the session inserts for a new restaurant. -/
def Restaurant.ofCreate (data : RestaurantCreate) (ownerUserId : Uuid) (slug : String) (id : Uuid)
    (now : Time) : Except DbError Restaurant := do
  let name ← Varchar.ofString 100 data.name.val
  let slug ← Varchar.ofString 150 slug
  let description ← nullable (fun s => Varchar.ofString 500 s.val) data.description
  let logoUrl ← nullable PgText.ofPy data.logoUrl
  let phone ← nullable (fun s => Varchar.ofString 50 s.val) data.phone
  let address ← nullable PgText.ofPy data.address
  let hours ← nullable Jsonb.ofJson data.hours
  return ⟨id, ownerUserId, name, slug, description, logoUrl, phone, address, hours, now, now⟩

/-- `setattr` of a NOT NULL column for a field of an update body: the old value if the field is
absent. -/
def setNotNull {α β : Type} (f : α → Except DbError β) (old : β) (field : Patch α) :
    Except DbError β :=
  match field.value with
  | none   => .ok old
  | some v => notNull f v

/-- `setattr` of a nullable column. -/
def setNullable {α β : Type} (f : α → Except DbError β) (old : Option β) (field : Patch α) :
    Except DbError (Option β) :=
  match field.value with
  | none   => .ok old
  | some v => nullable f v

def setSlug (old : Varchar 150) (slug : Option String) : Except DbError (Varchar 150) :=
  match slug with
  | none   => .ok old
  | some s => Varchar.ofString 150 s

/-- A value that `==` takes for the one loaded is no change of the attribute. -/
def setHours (old : Option Jsonb) (field : Patch JsonObject) : Except DbError (Option Jsonb) := do
  let new ← setNullable Jsonb.ofJson old field
  return match old, new with
    | some j, some j' => if j.val.pyEq j'.val then some j else some j'
    | _, new          => new

/-- The columns of a restaurant after the `setattr` loop, with the new slug if there is one. -/
def Restaurant.setattrs (r : Restaurant) (data : RestaurantUpdate) (slug : Option String) :
    Except DbError Restaurant := do
  let name ← setNotNull (fun s => Varchar.ofString 100 s.val) r.name data.name
  let description ← setNullable (fun s => Varchar.ofString 500 s.val) r.description data.description
  let logoUrl ← setNullable PgText.ofPy r.logoUrl data.logoUrl
  let phone ← setNullable (fun s => Varchar.ofString 50 s.val) r.phone data.phone
  let address ← setNullable PgText.ofPy r.address data.address
  let hours ← setHours r.hours data.hours
  let slug ← setSlug r.slug slug
  return { r with
    name := name
    slug := slug
    description := description
    logoUrl := logoUrl
    phone := phone
    address := address
    hours := hours }

namespace RestaurantRepository

def create (ownerUserId : Uuid) (data : RestaurantCreate) (slug : String) (id : Uuid) :
    Async Restaurant :=
  Async.insert .restaurants (Restaurant.ofCreate data ownerUserId slug id)
    (fun t r => { t with restaurants := t.restaurants ++ [r] })
    (fun id t => Rows.get (·.id) id t.restaurants) id

def getById (restaurantId : Uuid) : Async (Option Restaurant) :=
  Async.select .restaurants fun db => Rows.get (·.id) restaurantId db.restaurants

def getByOwnerId (ownerUserId : Uuid) : Async (Option Restaurant) :=
  Async.select .restaurants fun db => Rows.get (·.ownerUserId) ownerUserId db.restaurants

def getBySlug (slug : String) : Async (Option Restaurant) :=
  Async.selectBound .restaurants fun db => do
    let slug ← PgText.ofString slug
    return Rows.get (·.slug.val) slug.val db.restaurants

def update (restaurant : Restaurant) (data : RestaurantUpdate) (slug : Option String) :
    Async Restaurant :=
  Async.save .restaurants
    (fun now db => do
      let new ← restaurant.setattrs data slug
      db.updateRestaurant restaurant new now)
    (fun id t => Rows.get (·.id) id t.restaurants) restaurant.id

/-- `session.delete` loads what the deletion cascades to, then the commit deletes it. -/
def delete (restaurant : Restaurant) : Async Unit := do
  let _ ← Async.select .categories fun db =>
    db.categories.filter fun c => c.restaurantId = restaurant.id
  Async.commit .restaurants fun _ db => do
    let db ← Database.write (db.toTables.deleteRestaurant restaurant.id)
    return ((), db)

end RestaurantRepository

/-! ### Categories -/

def Category.ofCreate (restaurantId : Uuid) (name : BoundedStr 1 50) (description : Option PyStr)
    (position : ℤ) (active : Bool) (id : Uuid) (now : Time) : Except DbError Category := do
  let name ← Varchar.ofString 50 name.val
  let description ← nullable PgText.ofPy description
  let position ← PgInt.ofInt position
  return ⟨id, restaurantId, name, description, position, active, now, now⟩

def Category.setattrs (c : Category) (data : CategoryUpdate) : Except DbError Category := do
  let name ← setNotNull (fun s => Varchar.ofString 50 s.val) c.name data.name
  let description ← setNullable PgText.ofPy c.description data.description
  let active ← setNotNull .ok c.active data.active
  let position ← setNotNull PgInt.ofInt c.position data.position
  return { c with
    name := name
    description := description
    active := active
    position := position }

/-- `ORDER BY position ASC, created_at ASC`. -/
def Category.orderKey (c : Category) : ℤ ×ₗ ℤ := toLex (c.position.val, c.createdAt)

namespace CategoryRepository

def getNextPosition (restaurantId : Uuid) : Async ℤ := do
  let maxPosition ← Async.select .categories fun db =>
    ((db.categories.filter fun c => c.restaurantId = restaurantId).map (·.position.val)).max?
  return nextPosition maxPosition

def create (restaurantId : Uuid) (name : BoundedStr 1 50) (description : Option PyStr)
    (position : Option ℤ) (active : Bool) (id : Uuid) : Async Category := do
  let position ← Async.orElse position (getNextPosition restaurantId)
  Async.insert .categories (Category.ofCreate restaurantId name description position active id)
    (fun t c => { t with categories := t.categories ++ [c] })
    (fun id t => Rows.get (·.id) id t.categories) id

def getById (categoryId : Uuid) : Async (Option Category) :=
  Async.select .categories fun db => Rows.get (·.id) categoryId db.categories

def listByRestaurant (restaurantId : Uuid) (activeOnly : Bool) (scan : Scan Category) :
    Async (List Category) :=
  Async.select .categories fun db =>
    orderBy Category.orderKey (scan.order (db.categories.filter fun c =>
      c.restaurantId = restaurantId ∧ (activeOnly → c.active)))

def update (category : Category) (data : CategoryUpdate) : Async Category :=
  Async.save .categories
    (fun now db => do
      let new ← category.setattrs data
      db.updateCategory category new now)
    (fun id t => Rows.get (·.id) id t.categories) category.id

/-- `session.delete` loads the dishes of the category. The commit deletes these by their ids,
wherever they are by then, and the category with the dishes it has by then. -/
def delete (category : Category) : Async Unit := do
  let dishes ← Async.select .dishes fun db => db.dishes.filter fun d => d.categoryId = category.id
  Async.commit .categories fun _ db => do
    let db ← Database.write
      ((db.toTables.deleteDishes (dishes.map (·.id))).deleteCategory category.id)
    return ((), db)

def hasActiveDishes (categoryId : Uuid) : Async Bool := do
  let count ← Async.select .dishes fun db =>
    (db.dishes.filter fun d => d.categoryId = categoryId ∧ d.deletedAt.isNone).length
  return decide (count > 0)

/-- One UPDATE for each listed id, with its index as position; a later one overwrites. -/
def reorderRows (now : Time) (restaurantId : Uuid) :
    ℕ → List Uuid → List Category → Except DbError (List Category)
  | _, [], rows                  => .ok rows
  | index, categoryId :: ids, rows => do
    let position ← PgInt.ofInt index
    reorderRows now restaurantId (index + 1) ids (rows.map fun c =>
      if c.id = categoryId ∧ c.restaurantId = restaurantId then
        { c with position := position, updatedAt := now }
      else c)

def reorderCategories (restaurantId : Uuid) (orderedIds : List Uuid) : Async Unit :=
  Async.commit .categories fun now db => do
    let rows ← reorderRows now restaurantId 0 orderedIds db.categories
    let db ← Database.write { db.toTables with categories := rows }
    return ((), db)

end CategoryRepository

/-! ### Dishes -/

def Dish.ofCreate (data : DishCreate) (position : ℤ) (id : Uuid) (now : Time) :
    Except DbError Dish := do
  let name ← Varchar.ofString 100 data.name.val
  let description ← nullable (fun s => Varchar.ofString 300 s.val) data.description
  let price ← Numeric.ofDecimal data.price.val
  let salePrice ← nullable (fun p => Numeric.ofDecimal p.val) data.salePrice
  let imageUrl ← nullable PgText.ofPy data.imageUrl
  let tags ← nullable (array PgText.ofPy) data.tags
  let position ← PgInt.ofInt position
  return {
    id := id
    categoryId := data.categoryId
    name := name
    description := description
    price := price
    salePrice := salePrice
    imageUrl := imageUrl
    available := data.available
    featured := data.featured
    tags := tags
    position := position
    createdAt := now
    updatedAt := now
    deletedAt := none }

def Dish.setattrs (d : Dish) (data : DishUpdate) : Except DbError Dish := do
  let categoryId ← setNotNull .ok d.categoryId data.categoryId
  let name ← setNotNull (fun s => Varchar.ofString 100 s.val) d.name data.name
  let description ← setNullable (fun s => Varchar.ofString 300 s.val) d.description data.description
  let price ← setNotNull (fun p => Numeric.ofDecimal p.val) d.price data.price
  let salePrice ← setNullable (fun p => Numeric.ofDecimal p.val) d.salePrice data.salePrice
  let imageUrl ← setNullable PgText.ofPy d.imageUrl data.imageUrl
  let available ← setNotNull .ok d.available data.available
  let featured ← setNotNull .ok d.featured data.featured
  let tags ← setNullable (array PgText.ofPy) d.tags data.tags
  let position ← setNotNull PgInt.ofInt d.position data.position
  return { d with
    categoryId := categoryId
    name := name
    description := description
    price := price
    salePrice := salePrice
    imageUrl := imageUrl
    available := available
    featured := featured
    tags := tags
    position := position }

/-- The arguments of `list_dishes`. -/
structure DishFilter where
  restaurantId : Option Uuid := none
  categoryId : Option Uuid := none
  available : Option Bool := none
  featured : Option Bool := none
  searchQuery : Option String := none
  tag : Option String := none
  minPrice : Option Decimal := none
  maxPrice : Option Decimal := none
  includeDeleted : Bool := false

/-- A clause over the columns of a dish: the conversion of its bound value, then the test. -/
abbrev Clause := Except DbError (Dish → Bool)

/-- A statement over the dishes: the restaurant whose categories it joins, and its WHERE
clauses. -/
structure DishQuery where
  joined : Option Uuid
  wheres : List Clause

namespace DishQuery

/-- `Dish JOIN Category ON Dish.category_id = Category.id WHERE Category.restaurant_id = rid`: a
dish once for each category it is joined with. -/
def join (rid : Uuid) (db : Database) : List Dish :=
  db.dishes.flatMap fun d =>
    (db.categories.filter fun c => d.categoryId = c.id ∧ c.restaurantId = rid).map fun _ => d

/-- The rows of a statement, if all its values can be bound. -/
def rows (q : DishQuery) (db : Database) : Except DbError (List Dish) := do
  let wheres ← array id q.wheres
  return (match q.joined with
    | none     => db.dishes
    | some rid => join rid db).filter fun d => wheres.all fun p => p d

end DishQuery

/-- `f"%{search_query}%"`. -/
def searchPattern (q : String) : String := "%" ++ q ++ "%"

namespace DishFilter

variable (P : Platform) (f : DishFilter)

/-- `or_(Dish.name.ilike(..), Dish.description.ilike(..))`. -/
def searchFilter (q : String) : Clause := do
  let pattern ← PgText.ofString (searchPattern q)
  return fun d => ilike P.pgLower pattern.val.toList d.name.val.toList ||
    (match d.description with
      | none   => false
      | some s => ilike P.pgLower pattern.val.toList s.val.toList)

/-- `Dish.tags.contains([tag])`. -/
def tagsContain (tag : String) : Clause := do
  let tag ← PgText.ofString tag
  return fun d =>
    match d.tags with
    | none    => false
    | some ts => ts.any fun x => x = tag

/-- `Dish.price >= min_price`. -/
def priceFrom (minPrice : Decimal) : Clause := do
  let minPrice ← Numeric.ofDecimal minPrice
  return fun d => decide (minPrice.val ≤ d.price.val)

/-- `Dish.price <= max_price`. -/
def priceUpTo (maxPrice : Decimal) : Clause := do
  let maxPrice ← Numeric.ofDecimal maxPrice
  return fun d => decide (d.price.val ≤ maxPrice.val)

/-- A clause for a filter that is given. -/
def clause {α : Type} (o : Option α) (p : α → Clause) : List Clause :=
  match o with
  | none   => []
  | some a => [p a]

/-- A clause for a text filter: the empty text is as false as an absent one. -/
def textClause (o : Option String) (p : String → Clause) : List Clause :=
  match o with
  | none   => []
  | some s => if s.isEmpty then [] else [p s]

/-- `query`, before its ORDER BY. -/
def query : DishQuery where
  joined := f.restaurantId
  wheres :=
    (if f.includeDeleted then [] else [.ok fun d => d.deletedAt.isNone]) ++
    clause f.categoryId (fun cid => .ok fun d => decide (d.categoryId = cid)) ++
    clause f.available (fun b => .ok fun d => d.available == b) ++
    clause f.featured (fun b => .ok fun d => d.featured == b) ++
    textClause f.searchQuery (searchFilter P) ++
    textClause f.tag tagsContain ++
    clause f.minPrice priceFrom ++
    clause f.maxPrice priceUpTo

/-- `count_query`. -/
def countQuery : DishQuery where
  joined := f.restaurantId
  wheres :=
    (if f.includeDeleted then [] else [.ok fun d => d.deletedAt.isNone]) ++
    clause f.categoryId (fun cid => .ok fun d => decide (d.categoryId = cid)) ++
    clause f.available (fun b => .ok fun d => d.available == b) ++
    clause f.featured (fun b => .ok fun d => d.featured == b) ++
    textClause f.searchQuery (searchFilter P) ++
    textClause f.tag tagsContain ++
    clause f.minPrice priceFrom ++
    clause f.maxPrice priceUpTo

end DishFilter

/-- `ORDER BY position ASC, created_at DESC`. -/
def Dish.listKey (d : Dish) : ℤ ×ₗ ℤᵒᵈ := toLex (d.position.val, OrderDual.toDual d.createdAt)

namespace DishRepository

def getNextPosition (categoryId : Uuid) : Async ℤ := do
  let maxPosition ← Async.select .dishes fun db =>
    ((db.dishes.filter fun d => d.categoryId = categoryId ∧ d.deletedAt.isNone).map
      (·.position.val)).max?
  return nextPosition maxPosition

def create (data : DishCreate) (position : Option ℤ) (id : Uuid) : Async Dish := do
  let position ← Async.orElse position (getNextPosition data.categoryId)
  Async.insert .dishes (Dish.ofCreate data position id)
    (fun t d => { t with dishes := t.dishes ++ [d] })
    (fun id t => Rows.get (·.id) id t.dishes) id

def getById (dishId : Uuid) (includeDeleted : Bool := false) : Async (Option Dish) :=
  Async.select .dishes fun db =>
    (Rows.get (·.id) dishId db.dishes).filter fun d => includeDeleted || d.deletedAt.isNone

def listDishes (P : Platform) (f : DishFilter) (limit offset : ℕ) (scan : Scan Dish) :
    Async (List Dish × ℕ) := do
  let total ← Async.selectBound .dishes fun db => do
    let rows ← (f.countQuery P).rows db
    return rows.length
  let dishes ← Async.selectBound .dishes fun db => do
    let rows ← (f.query P).rows db
    let limit ← bindBigInt limit
    let offset ← bindBigInt offset
    return ((orderBy Dish.listKey (scan.order rows)).drop offset).take limit
  return (dishes, total)

/-- Commit the new columns of a dish. -/
def save (dish : Dish) (new : Except DbError Dish) : Async Dish :=
  Async.save .dishes
    (fun now db => do
      let new ← new
      db.updateDish dish new now)
    (fun id t => Rows.get (·.id) id t.dishes) dish.id

def update (dish : Dish) (data : DishUpdate) : Async Dish := save dish (dish.setattrs data)

def softDelete (dish : Dish) : Async Dish := do
  let now ← Async.clock
  save dish (.ok { dish with deletedAt := some now })

def toggleAvailability (dish : Dish) : Async Dish :=
  save dish (.ok { dish with available := !dish.available })

end DishRepository

end LiveMenu
