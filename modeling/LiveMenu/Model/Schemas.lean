import LiveMenu.Model.Values

/-!
# Request bodies and responses

A body that pydantic accepted is a value of its schema: the field constraints are part of the
types. An update body distinguishes an absent field from an explicit `null`, as
`model_dump(exclude_unset=True)` does.
-/

namespace LiveMenu

/-- `Field(min_length=lo, max_length=hi)` of a `str`. -/
structure BoundedStr (lo hi : ℕ) where
  val : String
  bounds : lo ≤ val.length ∧ val.length ≤ hi
  deriving DecidableEq

/-- `Field(gt=0, decimal_places=2)` of a `Decimal`: more than two places are refused if they are
also there after `normalize()`. -/
structure Price where
  val : Decimal
  bounds : 0 < val.coefficient ∧ (val.places ≤ 2 ∨ val.NormalizedWithin 2)
  deriving DecidableEq

/-- A field of an update body. -/
inductive Patch (α : Type) where
  | unset
  | null
  | set (a : α)
  deriving DecidableEq

/-- The values `setattr` is called with: none if the field is absent, else the value or `None`. -/
def Patch.value {α : Type} : Patch α → Option (Option α)
  | .unset  => none
  | .null   => some none
  | .set a  => some (some a)

structure RestaurantCreate where
  name : BoundedStr 1 100
  description : Option (BoundedStr 0 500) := none
  logoUrl : Option PyStr := none
  phone : Option (BoundedStr 0 50) := none
  address : Option PyStr := none
  hours : Option JsonObject := none

structure RestaurantUpdate where
  name : Patch (BoundedStr 1 100) := .unset
  description : Patch (BoundedStr 0 500) := .unset
  logoUrl : Patch PyStr := .unset
  phone : Patch (BoundedStr 0 50) := .unset
  address : Patch PyStr := .unset
  hours : Patch JsonObject := .unset

structure CategoryCreate where
  name : BoundedStr 1 50
  description : Option PyStr := none
  active : Bool := true

structure CategoryUpdate where
  name : Patch (BoundedStr 1 50) := .unset
  description : Patch PyStr := .unset
  active : Patch Bool := .unset
  position : Patch ℤ := .unset

structure DishCreate where
  categoryId : Uuid
  name : BoundedStr 1 100
  description : Option (BoundedStr 0 300) := none
  price : Price
  salePrice : Option Price := none
  imageUrl : Option PyStr := none
  available : Bool := true
  featured : Bool := false
  tags : Option (List PyStr) := none

structure DishUpdate where
  categoryId : Patch Uuid := .unset
  name : Patch (BoundedStr 1 100) := .unset
  description : Patch (BoundedStr 0 300) := .unset
  price : Patch Price := .unset
  salePrice : Patch Price := .unset
  imageUrl : Patch PyStr := .unset
  available : Patch Bool := .unset
  featured : Patch Bool := .unset
  tags : Patch (List PyStr) := .unset
  position : Patch ℤ := .unset

/-! ### The public menu -/

structure MenuDishResponse where
  id : Uuid
  name : String
  description : Option String
  price : ℚ
  salePrice : Option ℚ
  imageUrl : Option String
  tags : Option (List String)
  featured : Bool
  position : ℤ
  deriving DecidableEq

structure MenuCategoryResponse where
  id : Uuid
  name : String
  description : Option String
  position : ℤ
  dishes : List MenuDishResponse
  deriving DecidableEq

structure MenuResponse where
  restaurantId : Uuid
  restaurantName : String
  restaurantSlug : String
  description : Option String
  logoUrl : Option String
  phone : Option String
  address : Option String
  hours : Option JsonObject
  categories : List MenuCategoryResponse
  deriving DecidableEq

end LiveMenu
