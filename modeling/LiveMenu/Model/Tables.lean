import LiveMenu.Lib.Rows
import LiveMenu.Model.Schemas

/-!
# The database

The rows of the six tables, the constraints of the schema, and the statements the repositories
commit. A `Database` satisfies its constraints: `Database.write` is the only way to a new one and
refuses what would break them, as the server does. A deletion removes what depends on the row
(`ondelete="CASCADE"`).
-/

namespace LiveMenu

structure User where
  id : Uuid
  email : Varchar 255
  passwordHash : PgText
  createdAt : Time
  updatedAt : Time
  deriving DecidableEq

structure Restaurant where
  id : Uuid
  ownerUserId : Uuid
  name : Varchar 100
  slug : Varchar 150
  description : Option (Varchar 500)
  logoUrl : Option PgText
  phone : Option (Varchar 50)
  address : Option PgText
  hours : Option Jsonb
  createdAt : Time
  updatedAt : Time
  deriving DecidableEq

structure Category where
  id : Uuid
  restaurantId : Uuid
  name : Varchar 50
  description : Option PgText
  position : PgInt
  active : Bool
  createdAt : Time
  updatedAt : Time
  deriving DecidableEq

structure Dish where
  id : Uuid
  categoryId : Uuid
  name : Varchar 100
  description : Option (Varchar 300)
  price : Numeric
  salePrice : Option Numeric
  imageUrl : Option PgText
  available : Bool
  featured : Bool
  tags : Option (List PgText)
  position : PgInt
  createdAt : Time
  updatedAt : Time
  deletedAt : Option Time
  deriving DecidableEq

structure ScanEvent where
  id : Uuid
  restaurantId : Uuid
  timestamp : Time
  userAgent : PgText
  ipHash : Varchar 64
  referrer : Option PgText
  deriving DecidableEq

structure RefreshToken where
  id : Uuid
  userId : Uuid
  tokenHash : Varchar 64
  revokedAt : Option Time
  expiresAt : Time
  createdAt : Time
  deriving DecidableEq

/-- The contents of the six tables. -/
structure Tables where
  users : List User
  restaurants : List Restaurant
  categories : List Category
  dishes : List Dish
  scanEvents : List ScanEvent
  refreshTokens : List RefreshToken
  deriving DecidableEq

/-- The primary keys, unique indexes and foreign keys of the schema. -/
structure Tables.Constraints (t : Tables) : Prop where
  userId : (t.users.map (·.id)).Nodup
  userEmail : (t.users.map (·.email)).Nodup
  restaurantId : (t.restaurants.map (·.id)).Nodup
  restaurantOwner : (t.restaurants.map (·.ownerUserId)).Nodup
  restaurantSlug : (t.restaurants.map (·.slug)).Nodup
  restaurantOwnerFk : ∀ r ∈ t.restaurants, r.ownerUserId ∈ t.users.map (·.id)
  categoryId : (t.categories.map (·.id)).Nodup
  categoryRestaurantFk : ∀ c ∈ t.categories, c.restaurantId ∈ t.restaurants.map (·.id)
  dishId : (t.dishes.map (·.id)).Nodup
  dishCategoryFk : ∀ d ∈ t.dishes, d.categoryId ∈ t.categories.map (·.id)
  scanEventId : (t.scanEvents.map (·.id)).Nodup
  scanEventRestaurantFk : ∀ e ∈ t.scanEvents, e.restaurantId ∈ t.restaurants.map (·.id)
  refreshTokenId : (t.refreshTokens.map (·.id)).Nodup
  refreshTokenHash : (t.refreshTokens.map (·.tokenHash)).Nodup
  refreshTokenUserFk : ∀ k ∈ t.refreshTokens, k.userId ∈ t.users.map (·.id)

instance (t : Tables) : Decidable t.Constraints :=
  decidable_of_iff
    (((t.users.map (·.id)).Nodup ∧ (t.users.map (·.email)).Nodup) ∧
      ((t.restaurants.map (·.id)).Nodup ∧ (t.restaurants.map (·.ownerUserId)).Nodup ∧
        (t.restaurants.map (·.slug)).Nodup ∧
        ∀ r ∈ t.restaurants, r.ownerUserId ∈ t.users.map (·.id)) ∧
      ((t.categories.map (·.id)).Nodup ∧
        ∀ c ∈ t.categories, c.restaurantId ∈ t.restaurants.map (·.id)) ∧
      ((t.dishes.map (·.id)).Nodup ∧
        ∀ d ∈ t.dishes, d.categoryId ∈ t.categories.map (·.id)) ∧
      ((t.scanEvents.map (·.id)).Nodup ∧
        ∀ e ∈ t.scanEvents, e.restaurantId ∈ t.restaurants.map (·.id)) ∧
      ((t.refreshTokens.map (·.id)).Nodup ∧ (t.refreshTokens.map (·.tokenHash)).Nodup ∧
        ∀ k ∈ t.refreshTokens, k.userId ∈ t.users.map (·.id)))
    ⟨fun ⟨⟨a, b⟩, ⟨c, d, e, f⟩, ⟨g, h⟩, ⟨i, j⟩, ⟨k, l⟩, ⟨m, n, o⟩⟩ =>
        ⟨a, b, c, d, e, f, g, h, i, j, k, l, m, n, o⟩,
      fun ⟨a, b, c, d, e, f, g, h, i, j, k, l, m, n, o⟩ =>
        ⟨⟨a, b⟩, ⟨c, d, e, f⟩, ⟨g, h⟩, ⟨i, j⟩, ⟨k, l⟩, ⟨m, n, o⟩⟩⟩

/-- Tables that satisfy the constraints of the schema. -/
structure Database extends Tables where
  valid : toTables.Constraints
  deriving DecidableEq

def Database.empty : Database where
  users := []
  restaurants := []
  categories := []
  dishes := []
  scanEvents := []
  refreshTokens := []
  valid := by decide

/-- Commit new contents, if they satisfy the constraints. -/
def Database.write (t : Tables) : Except DbError Database :=
  if h : t.Constraints then .ok ⟨t, h⟩ else .error .integrity

lemma Database.write_ok {t : Tables} {db : Database} (h : Database.write t = .ok db) :
    db.toTables = t := by
  rw [Database.write] at h
  split_ifs at h
  cases h
  rfl

lemma Database.write_of {t : Tables} (h : t.Constraints) :
    Database.write t = .ok ⟨t, h⟩ := dif_pos h

namespace Tables

/-! ### Statements -/

/-- `DELETE FROM restaurants WHERE id = rid`, with its cascade. -/
def deleteRestaurant (t : Tables) (rid : Uuid) : Tables :=
  let gone := (t.categories.filter fun c => c.restaurantId = rid).map (·.id)
  { t with
    restaurants := t.restaurants.filter fun r => r.id ≠ rid
    categories := t.categories.filter fun c => c.restaurantId ≠ rid
    dishes := t.dishes.filter fun d => d.categoryId ∉ gone
    scanEvents := t.scanEvents.filter fun e => e.restaurantId ≠ rid }

/-- `DELETE FROM dishes WHERE id = id'`, for each of the ids. -/
def deleteDishes (t : Tables) (ids : List Uuid) : Tables :=
  { t with dishes := t.dishes.filter fun d => d.id ∉ ids }

/-- `DELETE FROM categories WHERE id = cid`, with its cascade. -/
def deleteCategory (t : Tables) (cid : Uuid) : Tables :=
  { t with
    categories := t.categories.filter fun c => c.id ≠ cid
    dishes := t.dishes.filter fun d => d.categoryId ≠ cid }

end Tables

/-! ### Flushing a changed instance

The session compares the attributes of an instance with those it loaded. If none differs it
sends no statement, else an UPDATE of the changed columns and of `updated_at`. -/

/-- The value a column has after the UPDATE: `old` was loaded, `new` was set, `cur` is stored. -/
def flushColumn {α : Type} [DecidableEq α] (old new cur : α) : α := if new = old then cur else new

@[simp] lemma flushColumn_self {α : Type} [DecidableEq α] (old new : α) :
    flushColumn old new old = new := by
  rw [flushColumn]
  split_ifs with h
  · exact h.symm
  · rfl

def Restaurant.flush (old new : Restaurant) (now : Time) (cur : Restaurant) : Restaurant :=
  { cur with
    name := flushColumn old.name new.name cur.name
    slug := flushColumn old.slug new.slug cur.slug
    description := flushColumn old.description new.description cur.description
    logoUrl := flushColumn old.logoUrl new.logoUrl cur.logoUrl
    phone := flushColumn old.phone new.phone cur.phone
    address := flushColumn old.address new.address cur.address
    hours := flushColumn old.hours new.hours cur.hours
    updatedAt := now }

def Category.flush (old new : Category) (now : Time) (cur : Category) : Category :=
  { cur with
    name := flushColumn old.name new.name cur.name
    description := flushColumn old.description new.description cur.description
    position := flushColumn old.position new.position cur.position
    active := flushColumn old.active new.active cur.active
    updatedAt := now }

def Dish.flush (old new : Dish) (now : Time) (cur : Dish) : Dish :=
  { cur with
    categoryId := flushColumn old.categoryId new.categoryId cur.categoryId
    name := flushColumn old.name new.name cur.name
    description := flushColumn old.description new.description cur.description
    price := flushColumn old.price new.price cur.price
    salePrice := flushColumn old.salePrice new.salePrice cur.salePrice
    imageUrl := flushColumn old.imageUrl new.imageUrl cur.imageUrl
    available := flushColumn old.available new.available cur.available
    featured := flushColumn old.featured new.featured cur.featured
    tags := flushColumn old.tags new.tags cur.tags
    position := flushColumn old.position new.position cur.position
    deletedAt := flushColumn old.deletedAt new.deletedAt cur.deletedAt
    updatedAt := now }

def RefreshToken.flush (old new : RefreshToken) (cur : RefreshToken) : RefreshToken :=
  { cur with revokedAt := flushColumn old.revokedAt new.revokedAt cur.revokedAt }

namespace Database

/-- Commit a changed restaurant. -/
def updateRestaurant (db : Database) (old new : Restaurant) (now : Time) :
    Except DbError Database :=
  if new = old then .ok db
  else if (Rows.get (·.id) old.id db.restaurants).isNone then .error .stale
  else write { db.toTables with
    restaurants := Rows.modify (·.id) old.id (Restaurant.flush old new now) db.restaurants }

/-- Commit a changed category. -/
def updateCategory (db : Database) (old new : Category) (now : Time) : Except DbError Database :=
  if new = old then .ok db
  else if (Rows.get (·.id) old.id db.categories).isNone then .error .stale
  else write { db.toTables with
    categories := Rows.modify (·.id) old.id (Category.flush old new now) db.categories }

/-- Commit a changed dish. -/
def updateDish (db : Database) (old new : Dish) (now : Time) : Except DbError Database :=
  if new = old then .ok db
  else if (Rows.get (·.id) old.id db.dishes).isNone then .error .stale
  else write { db.toTables with
    dishes := Rows.modify (·.id) old.id (Dish.flush old new now) db.dishes }

/-- Commit changed refresh tokens, given with the values that were loaded. -/
def updateRefreshTokens (db : Database) (changes : List (RefreshToken × RefreshToken)) :
    Except DbError Database :=
  if changes.any fun c => c.2 ≠ c.1 ∧ (Rows.get (·.id) c.1.id db.refreshTokens).isNone then
    .error .stale
  else write { db.toTables with
    refreshTokens := changes.foldl
      (fun rows c => Rows.modify (·.id) c.1.id (RefreshToken.flush c.1 c.2) rows)
      db.refreshTokens }

end Database

end LiveMenu
