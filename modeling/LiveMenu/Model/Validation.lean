import LiveMenu.Model.Errors
import LiveMenu.Model.RateLimit

/-!
# Request validation

The parameters and bodies that the endpoints declare, and the errors that FastAPI and pydantic
collect for a request. An accepted body is a value of `Model/Schemas.lean`; here are the constraints
that a refused one fails, with the place, the offending value and the context of each error.
-/

namespace LiveMenu

/-! ### Texts -/

/-- The zeros of Unicode: each begins a run of ten decimal digits. -/
def digitZeros : List ℕ :=
  [0x30, 0x660, 0x6F0, 0x7C0, 0x966, 0x9E6, 0xA66, 0xAE6, 0xB66, 0xBE6, 0xC66, 0xCE6, 0xD66, 0xDE6,
    0xE50, 0xED0, 0xF20, 0x1040, 0x1090, 0x17E0, 0x1810, 0x1946, 0x19D0, 0x1A80, 0x1A90, 0x1B50,
    0x1BB0, 0x1C40, 0x1C50, 0xA620, 0xA8D0, 0xA900, 0xA9D0, 0xA9F0, 0xAA50, 0xABF0, 0xFF10, 0x104A0,
    0x10D30, 0x11066, 0x110F0, 0x11136, 0x111D0, 0x112F0, 0x11450, 0x114D0, 0x11650, 0x116C0,
    0x11730, 0x118E0, 0x11950, 0x11C50, 0x11D50, 0x11DA0, 0x16A60, 0x16AC0, 0x16B50, 0x1D7CE,
    0x1D7D8, 0x1D7E2, 0x1D7EC, 0x1D7F6, 0x1E140, 0x1E2F0, 0x1E950, 0x1FBF0]

/-- `[a-zA-Z]`. -/
def PyChar.isAsciiLetter : PyChar → Bool
  | .scalar c     => ('a' ≤ c && c ≤ 'z') || ('A' ≤ c && c ≤ 'Z')
  | .surrogate _  => false

/-- `\d`. -/
def PyChar.isDigit : PyChar → Bool
  | .scalar c     => digitZeros.any fun d => d ≤ c.toNat && c.toNat < d + 10
  | .surrogate _  => false

/-- The plural of a message. -/
def counted (n : ℕ) (noun : String) : String :=
  toString n ++ " " ++ noun ++ if n = 1 then "" else "s"

/-! ### What a refusal says -/

/-- Why a value is refused. -/
structure Failure where
  type : String
  msg : String
  ctx : List (String × PyValue) := []

/-- Why a text or a number cannot be read: the context holds texts only. -/
structure ReadFailure where
  type : String
  msg : String
  ctx : List (String × String) := []

def ReadFailure.failure (f : ReadFailure) : Failure where
  type := f.type
  msg := f.msg
  ctx := f.ctx.map fun kv => (kv.1, PyValue.str kv.2)

inductive PyDecimal where
  | finite (q : ℚ)
  | nonFinite

/-- The readers of pydantic. -/
structure Readers where
  /-- The reason of `email_validator` to refuse a text. -/
  email : PyStr → Option String
  uuid : Json → Option ReadFailure
  datetime : Json → Option ReadFailure
  bool : Json → Option ReadFailure
  int : Json → Except ReadFailure ℤ
  decimal : Json → Except ReadFailure PyDecimal
  /-- The digits after the point that `Decimal.normalize` leaves. -/
  decimalPlaces : ℚ → ℕ

/-! ### Constraints -/

/-- `Field(min_length=…, max_length=…)` and `Query(pattern="^(…|…)$")` of a `str`. -/
structure StrField where
  minLength : Option ℕ := none
  maxLength : Option ℕ := none
  choices : Option (List String) := none

/-- `Query(ge=…, le=…)` of an `int`. -/
structure IntField where
  ge : Option ℤ := none
  le : Option ℤ := none

/-- `Field(gt=…, decimal_places=…)` and `Query(ge=…)` of a `Decimal`. -/
structure DecimalField where
  gt : Option ℤ := none
  ge : Option ℤ := none
  decimalPlaces : Option ℕ := none

def stringType : Failure := { type := "string_type", msg := "Input should be a valid string" }

namespace StrField

/-- Without a constraint the text is not looked at. -/
def constrained (c : StrField) : Bool :=
  c.minLength.isSome || c.maxLength.isSome || c.choices.isSome

def tooShort (n : ℕ) : Failure where
  type := "string_too_short"
  msg := "String should have at least " ++ counted n "character"
  ctx := [("min_length", .json (.number n))]

def tooLong (n : ℕ) : Failure where
  type := "string_too_long"
  msg := "String should have at most " ++ counted n "character"
  ctx := [("max_length", .json (.number n))]

def mismatch (choices : List String) : Failure :=
  let pattern := "^(" ++ "|".intercalate choices ++ ")$"
  { type := "string_pattern_mismatch"
    msg := "String should match pattern '" ++ pattern ++ "'"
    ctx := [("pattern", PyValue.str pattern)] }

def notUnicode : Failure where
  type := "string_unicode"
  msg := "Input should be a valid string, unable to parse raw data as a unicode string"

/-- The first constraint that the text fails. -/
def failure (c : StrField) (s : PyStr) : Option Failure :=
  if !c.constrained then none else
    match s.encode with
    | none    => some notUnicode
    | some cs =>
      (c.minLength.filter (cs.length < ·)).map tooShort <|>
      (c.maxLength.filter (· < cs.length)).map tooLong <|>
      (c.choices.filter (String.ofList cs ∉ ·)).map mismatch

end StrField

namespace IntField

def tooLow (ge : ℤ) : Failure where
  type := "greater_than_equal"
  msg := "Input should be greater than or equal to " ++ toString ge
  ctx := [("ge", .json (.number ge))]

def tooHigh (le : ℤ) : Failure where
  type := "less_than_equal"
  msg := "Input should be less than or equal to " ++ toString le
  ctx := [("le", .json (.number le))]

def failure (c : IntField) (n : ℤ) : Option Failure :=
  (c.le.filter (· < n)).map tooHigh <|> (c.ge.filter (n < ·)).map tooLow

end IntField

namespace DecimalField

def notFinite : Failure where
  type := "finite_number"
  msg := "Input should be a finite number"

def tooManyPlaces (n : ℕ) : Failure where
  type := "decimal_max_places"
  msg := "Decimal input should have no more than " ++ counted n "decimal place"
  ctx := [("decimal_places", .json (.number n))]

-- the bound was made a `Decimal` when the schema was built
def tooLow (ge : ℤ) : Failure where
  type := "greater_than_equal"
  msg := "Input should be greater than or equal to " ++ toString ge
  ctx := [("ge", .decimal ge)]

def notAbove (gt : ℤ) : Failure where
  type := "greater_than"
  msg := "Input should be greater than " ++ toString gt
  ctx := [("gt", .decimal gt)]

/-- The value has more decimal places than the field allows. -/
def placesFailure (c : DecimalField) (R : Readers) (q : ℚ) : Option Failure :=
  (c.decimalPlaces.filter (· < R.decimalPlaces q)).map tooManyPlaces

def boundFailure (c : DecimalField) (q : ℚ) : Option Failure :=
  (c.ge.filter fun b : ℤ => q < b).map tooLow <|> (c.gt.filter fun b : ℤ => q ≤ b).map notAbove

def failure (c : DecimalField) (R : Readers) : PyDecimal → Option Failure
  | .nonFinite  => some notFinite
  | .finite q   => c.placesFailure R q <|> c.boundFailure q

end DecimalField

/-! ### Types -/

/-- A type whose values are refused with one error. -/
inductive Scalar where
  | str (c : StrField)
  | email
  | uuid
  | datetime
  | bool
  | int (c : IntField)
  | decimal (c : DecimalField)
  /-- `dict[str, Any]`. -/
  | dict
  /-- A `field_validator` on a type of texts: the text of the `ValueError` it raises, if any. -/
  | validated (s : Scalar) (validator : PyStr → Option String)

inductive FieldType where
  | scalar (s : Scalar)
  | list (item : Scalar) (minLength : ℕ)
  /-- `T | None`. -/
  | optional (t : FieldType)

/-- The error of a validator that raised. -/
def validatorRaised (text : String) : Failure where
  type := "value_error"
  msg := "Value error, " ++ text
  ctx := [("error", .valueError text)]

def invalidEmail (reason : String) : Failure where
  type := "value_error"
  msg := "value is not a valid email address: " ++ reason
  ctx := [("reason", PyValue.str reason)]

def Scalar.failure (R : Readers) : Scalar → Json → Option Failure
  | .str c, .str s      => c.failure s
  | .str _, _           => some stringType
  | .email, .str s      => (R.email s).map invalidEmail
  | .email, _           => some stringType
  | .uuid, j            => (R.uuid j).map ReadFailure.failure
  | .datetime, j        => (R.datetime j).map ReadFailure.failure
  | .bool, j            => (R.bool j).map ReadFailure.failure
  | .int c, j           =>
    match R.int j with
    | .error f  => some f.failure
    | .ok n     => c.failure n
  | .decimal c, j       =>
    match R.decimal j with
    | .error f  => some f.failure
    | .ok d     => c.failure R d
  | .dict, .obj _       => none
  | .dict, _            => some { type := "dict_type", msg := "Input should be a valid dictionary" }
  | .validated s validator, j =>
    match s.failure R j, j with
    | some f, _       => some f
    | none, .str text => (validator text).map validatorRaised
    | none, _         => none

def Failure.error (f : Failure) (loc : List LocItem) (input : PyValue) : ErrorDetails where
  type := f.type
  loc := loc
  msg := f.msg
  input := input
  ctx := f.ctx

def Scalar.errors (R : Readers) (s : Scalar) (loc : List LocItem) (j : Json) : List ErrorDetails :=
  ((s.failure R j).map fun f => f.error loc (.json j)).toList

def listType : Failure := { type := "list_type", msg := "Input should be a valid list" }

def listTooShort (minLength actual : ℕ) : Failure where
  type := "too_short"
  msg := "List should have at least " ++ counted minLength "item" ++ " after validation, not " ++
    toString actual
  ctx := [("field_type", PyValue.str "List"), ("min_length", .json (.number minLength)),
    ("actual_length", .json (.number actual))]

def elementErrors (R : Readers) (item : Scalar) (loc : List LocItem) (xs : JsonArray) :
    List ErrorDetails :=
  xs.toList.zipIdx.flatMap fun x => item.errors R (loc ++ [.index x.2]) x.1

/-- The length is checked if no element is refused. -/
def listErrors (R : Readers) (item : Scalar) (minLength : ℕ) (loc : List LocItem) (xs : JsonArray) :
    List ErrorDetails :=
  let errors := elementErrors R item loc xs
  if errors.isEmpty && decide (xs.toList.length < minLength) then
    [(listTooShort minLength xs.toList.length).error loc (.json (.arr xs))]
  else errors

def FieldType.errors (R : Readers) : FieldType → List LocItem → Json → List ErrorDetails
  | .scalar s, loc, j               => s.errors R loc j
  | .list item minLength, loc, j    =>
    match j with
    | .arr xs => listErrors R item minLength loc xs
    | j       => [listType.error loc (.json j)]
  | .optional t, loc, j             =>
    match j with
    | .null => []
    | j     => t.errors R loc j

/-! ### The schemas -/

structure Field where
  name : String
  type : FieldType
  required : Bool

/-- `RegisterRequest.validate_password`. -/
def RegisterRequest.validatePassword (v : PyStr) : Option String :=
  if !v.any PyChar.isAsciiLetter then some "Password must contain at least one letter"
  else if !v.any PyChar.isDigit then some "Password must contain at least one number"
  else none

/-- `str` with constraints. -/
def strOf (c : StrField) : FieldType := .scalar (.str c)

/-- `str | None`, with constraints or without. -/
def optStr (c : StrField := {}) : FieldType := .optional (strOf c)

/-- `Decimal = Field(gt=0, decimal_places=2)`. -/
def priceType : FieldType := .scalar (.decimal { gt := some 0, decimalPlaces := some 2 })

def RegisterRequest.fields : List Field := [
  ⟨"email", .scalar .email, true⟩,
  ⟨"password", .scalar (.validated (.str { minLength := some 8 }) RegisterRequest.validatePassword),
    true⟩]

def LoginRequest.fields : List Field := [
  ⟨"email", .scalar .email, true⟩,
  ⟨"password", strOf {}, true⟩]

def RefreshRequest.fields : List Field := [⟨"refresh_token", strOf {}, true⟩]

def CategoryCreate.fields : List Field := [
  ⟨"name", strOf { minLength := some 1, maxLength := some 50 }, true⟩,
  ⟨"description", optStr, false⟩,
  ⟨"active", .scalar .bool, false⟩]

def CategoryUpdate.fields : List Field := [
  ⟨"name", optStr { minLength := some 1, maxLength := some 50 }, false⟩,
  ⟨"description", optStr, false⟩,
  ⟨"active", .optional (.scalar .bool), false⟩,
  ⟨"position", .optional (.scalar (.int {})), false⟩]

def CategoryReorderRequest.fields : List Field := [⟨"ordered_ids", .list .uuid 1, true⟩]

def DishCreate.fields : List Field := [
  ⟨"category_id", .scalar .uuid, true⟩,
  ⟨"name", strOf { minLength := some 1, maxLength := some 100 }, true⟩,
  ⟨"description", optStr { maxLength := some 300 }, false⟩,
  ⟨"price", priceType, true⟩,
  ⟨"sale_price", .optional priceType, false⟩,
  ⟨"image_url", optStr, false⟩,
  ⟨"available", .scalar .bool, false⟩,
  ⟨"featured", .scalar .bool, false⟩,
  ⟨"tags", .optional (.list (.str {}) 0), false⟩]

def DishUpdate.fields : List Field := [
  ⟨"category_id", .optional (.scalar .uuid), false⟩,
  ⟨"name", optStr { minLength := some 1, maxLength := some 100 }, false⟩,
  ⟨"description", optStr { maxLength := some 300 }, false⟩,
  ⟨"price", .optional priceType, false⟩,
  ⟨"sale_price", .optional priceType, false⟩,
  ⟨"image_url", optStr, false⟩,
  ⟨"available", .optional (.scalar .bool), false⟩,
  ⟨"featured", .optional (.scalar .bool), false⟩,
  ⟨"tags", .optional (.list (.str {}) 0), false⟩,
  ⟨"position", .optional (.scalar (.int {})), false⟩]

def RestaurantCreate.fields : List Field := [
  ⟨"name", strOf { minLength := some 1, maxLength := some 100 }, true⟩,
  ⟨"description", optStr { maxLength := some 500 }, false⟩,
  ⟨"logo_url", optStr, false⟩,
  ⟨"phone", optStr { maxLength := some 50 }, false⟩,
  ⟨"address", optStr, false⟩,
  ⟨"hours", .optional (.scalar .dict), false⟩]

def RestaurantUpdate.fields : List Field := [
  ⟨"name", optStr { minLength := some 1, maxLength := some 100 }, false⟩,
  ⟨"description", optStr { maxLength := some 500 }, false⟩,
  ⟨"logo_url", optStr, false⟩,
  ⟨"phone", optStr { maxLength := some 50 }, false⟩,
  ⟨"address", optStr, false⟩,
  ⟨"hours", .optional (.scalar .dict), false⟩]

/-! ### Endpoints -/

inductive ParamKind where
  | path
  | query

def ParamKind.loc : ParamKind → String
  | .path   => "path"
  | .query  => "query"

/-- A path parameter, or a query parameter with its alias. Every query parameter has a default. -/
structure Param where
  kind : ParamKind
  name : String
  type : FieldType

/-- The body parameter of an endpoint. -/
inductive BodyParam where
  | none
  | schema (fields : List Field)
  /-- `UploadFile`. -/
  | file (name : String)

/-- What an endpoint asks of a request. -/
structure Signature where
  params : List Param := []
  body : BodyParam := .none

inductive Endpoint where
  | renderMenu
  | healthCheck
  | register
  | login
  | refreshToken
  | logout
  | getRestaurant
  | createRestaurant
  | updateRestaurant
  | deleteRestaurant
  | listCategories
  | createCategory
  | updateCategory
  | deleteCategory
  | reorderCategories
  | listDishes
  | getDish
  | createDish
  | updateDish
  | deleteDish
  | toggleDishAvailability
  | getAnalytics
  | exportAnalytics
  | getMenu
  | uploadImage
  | deleteUploadedImage
  | getQrCode
  deriving DecidableEq

namespace Endpoint

/-- `id: uuid.UUID`. -/
def idParam : Param := ⟨.path, "id", .scalar .uuid⟩

/-- The signatures of the route functions. -/
def signature : Endpoint → Signature
  | renderMenu              => { params := [⟨.path, "slug", strOf {}⟩] }
  | healthCheck             => {}
  | register                => { body := .schema RegisterRequest.fields }
  | login                   => { body := .schema LoginRequest.fields }
  | refreshToken            => { body := .schema RefreshRequest.fields }
  | logout                  => {}
  | getRestaurant           => {}
  | createRestaurant        => { body := .schema RestaurantCreate.fields }
  | updateRestaurant        => { body := .schema RestaurantUpdate.fields }
  | deleteRestaurant        => {}
  | listCategories          => {}
  | createCategory          => { body := .schema CategoryCreate.fields }
  | updateCategory          => { params := [idParam], body := .schema CategoryUpdate.fields }
  | deleteCategory          => { params := [idParam] }
  | reorderCategories       => { body := .schema CategoryReorderRequest.fields }
  | listDishes              => { params := [
      ⟨.query, "category_id", .optional (.scalar .uuid)⟩,
      ⟨.query, "available", .optional (.scalar .bool)⟩,
      ⟨.query, "featured", .optional (.scalar .bool)⟩,
      ⟨.query, "q", optStr⟩,
      ⟨.query, "tag", optStr⟩,
      ⟨.query, "min_price", .optional (.scalar (.decimal { ge := some 0 }))⟩,
      ⟨.query, "max_price", .optional (.scalar (.decimal { ge := some 0 }))⟩,
      ⟨.query, "limit", .scalar (.int { ge := some 1, le := some 100 })⟩,
      ⟨.query, "offset", .scalar (.int { ge := some 0 })⟩] }
  | getDish                 => { params := [idParam] }
  | createDish              => { body := .schema DishCreate.fields }
  | updateDish              => { params := [idParam], body := .schema DishUpdate.fields }
  | deleteDish              => { params := [idParam] }
  | toggleDishAvailability  => { params := [idParam] }
  | getAnalytics            => { params := [
      ⟨.query, "granularity", strOf { choices := some ["day", "week", "month"] }⟩,
      ⟨.query, "from", .optional (.scalar .datetime)⟩,
      ⟨.query, "to", .optional (.scalar .datetime)⟩] }
  | exportAnalytics         => { params := [
      ⟨.query, "from", .optional (.scalar .datetime)⟩,
      ⟨.query, "to", .optional (.scalar .datetime)⟩] }
  | getMenu                 => { params := [⟨.path, "slug", strOf {}⟩] }
  | uploadImage             => {
      params := [⟨.query, "prefix", strOf { choices := some ["logos", "dishes"] }⟩]
      body := .file "file" }
  | deleteUploadedImage     => { params := [⟨.path, "filename", strOf {}⟩] }
  | getQrCode               => { params := [
      ⟨.query, "format", strOf { choices := some ["png", "svg"] }⟩,
      ⟨.query, "size", strOf { choices := some ["S", "M", "L", "XL"] }⟩,
      ⟨.query, "fill_color", strOf { maxLength := some 20 }⟩,
      ⟨.query, "back_color", strOf { maxLength := some 20 }⟩] }

/-- The route that is decorated on the endpoint. -/
def route : Endpoint → Route
  | renderMenu              => ⟨"GET", "/m/{slug}", false⟩
  | healthCheck             => ⟨"GET", "/api/v1/auth/health", false⟩
  | register                => ⟨"POST", "/api/v1/auth/register", false⟩
  | login                   => ⟨"POST", "/api/v1/auth/login", false⟩
  | refreshToken            => ⟨"POST", "/api/v1/auth/refresh", false⟩
  | logout                  => ⟨"POST", "/api/v1/auth/logout", false⟩
  | getRestaurant           => ⟨"GET", "/api/v1/admin/restaurant", false⟩
  | createRestaurant        => ⟨"POST", "/api/v1/admin/restaurant", false⟩
  | updateRestaurant        => ⟨"PUT", "/api/v1/admin/restaurant", false⟩
  | deleteRestaurant        => ⟨"DELETE", "/api/v1/admin/restaurant", false⟩
  | listCategories          => ⟨"GET", "/api/v1/admin/categories", false⟩
  | createCategory          => ⟨"POST", "/api/v1/admin/categories", false⟩
  | updateCategory          => ⟨"PUT", "/api/v1/admin/categories/{id}", false⟩
  | deleteCategory          => ⟨"DELETE", "/api/v1/admin/categories/{id}", false⟩
  | reorderCategories       => ⟨"PATCH", "/api/v1/admin/categories/reorder", false⟩
  | listDishes              => ⟨"GET", "/api/v1/admin/dishes", false⟩
  | getDish                 => ⟨"GET", "/api/v1/admin/dishes/{id}", false⟩
  | createDish              => ⟨"POST", "/api/v1/admin/dishes", false⟩
  | updateDish              => ⟨"PUT", "/api/v1/admin/dishes/{id}", false⟩
  | deleteDish              => ⟨"DELETE", "/api/v1/admin/dishes/{id}", false⟩
  | toggleDishAvailability  => ⟨"PATCH", "/api/v1/admin/dishes/{id}/availability", false⟩
  | getAnalytics            => ⟨"GET", "/api/v1/admin/analytics", false⟩
  | exportAnalytics         => ⟨"GET", "/api/v1/admin/analytics/export", false⟩
  | getMenu                 => ⟨"GET", "/api/v1/menu/{slug}", false⟩
  | uploadImage             => ⟨"POST", "/api/v1/admin/upload", false⟩
  | deleteUploadedImage     => ⟨"DELETE", "/api/v1/admin/upload/{filename:path}", false⟩
  | getQrCode               => ⟨"GET", "/api/v1/admin/qr", false⟩

/-- The endpoints of each router, in the order of its routes. -/
def all : List Endpoint := [
  renderMenu,
  healthCheck, register, login, refreshToken, logout,
  getRestaurant, createRestaurant, updateRestaurant, deleteRestaurant,
  listCategories, createCategory, updateCategory, deleteCategory, reorderCategories,
  listDishes, getDish, createDish, updateDish, deleteDish, toggleDishAvailability,
  getAnalytics, exportAnalytics,
  getMenu,
  uploadImage, deleteUploadedImage,
  getQrCode]

/-- The endpoints are those of the application. -/
lemma routes_eq : app.routes = all.map route := by decide

end Endpoint

/-! ### Requests -/

/-- How FastAPI reads the body for a schema. -/
inductive RequestBody where
  | empty
  /-- `json.loads` refuses the body: the position and the message of its `JSONDecodeError`. -/
  | malformed (pos : ℕ) (msg : String)
  | json (j : Json)
  /-- A body that was not sent as JSON stays as it is. -/
  | raw (b : List UInt8) (nonempty : b ≠ [])

/-- What a form has under the name of a file parameter. -/
inductive FormValue where
  | absent
  | text (s : PyStr)
  | upload

/-- What a request supplies. The server has decoded path and query; a route matches only a path with
all its parameters. -/
structure RequestData where
  path : String → String := fun _ => ""
  query : String → Option String := fun _ => none
  body : RequestBody := .empty
  form : String → FormValue := fun _ => .absent
  requestId : Option String := none

def missing : Failure := { type := "missing", msg := "Field required" }

def modelAttributesType : Failure where
  type := "model_attributes_type"
  msg := "Input should be a valid dictionary or object to extract fields from"

/-- `Expected UploadFile, received: <class 'str'>`, raised by `UploadFile`. -/
def notUploaded : Failure := validatorRaised "Expected UploadFile, received: <class 'str'>"

def jsonInvalid (pos : ℕ) (msg : String) : ErrorDetails where
  type := "json_invalid"
  loc := [.key "body", .index pos]
  msg := "JSON decode error"
  input := .dict []
  ctx := [("error", PyValue.str msg)]

/-- The text of a parameter as a Python value. -/
def paramValue (text : String) : Json := .str (PyStr.ofString text)

/-- The text a request has for a parameter. -/
def Param.text (p : Param) (r : RequestData) : Option String :=
  match p.kind with
  | .path   => some (r.path p.name)
  | .query  => r.query p.name

def Param.errors (R : Readers) (p : Param) (r : RequestData) : List ErrorDetails :=
  match p.text r with
  | none      => []
  | some text => p.type.errors R [.key p.kind.loc, .key p.name] (paramValue text)

def Field.errors (R : Readers) (f : Field) (kvs : JsonObject) : List ErrorDetails :=
  let loc : List LocItem := [.key "body", .key f.name]
  match kvs.get f.name with
  | some j  => f.type.errors R loc j
  | none    => if f.required then [missing.error loc (.json (.obj kvs))] else []

def schemaErrors (R : Readers) (fields : List Field) : RequestBody → List ErrorDetails
  | .empty              => [missing.error [.key "body"] (.json .null)]
  | .malformed pos msg  => [jsonInvalid pos msg]
  | .raw b _            => [modelAttributesType.error [.key "body"] (.bytes b)]
  | .json .null         => [missing.error [.key "body"] (.json .null)]
  | .json (.obj kvs)    => fields.flatMap fun f => f.errors R kvs
  | .json j             => [modelAttributesType.error [.key "body"] (.json j)]

def fileErrors (name : String) : FormValue → List ErrorDetails
  | .upload => []
  | .absent => [missing.error [.key "body", .key name] (.json .null)]
  | .text s =>
    -- an empty text counts as a missing file
    if s.isEmpty then [missing.error [.key "body", .key name] (.json .null)]
    else [notUploaded.error [.key "body", .key name] (.json (.str s))]

def BodyParam.errors (R : Readers) (r : RequestData) : BodyParam → List ErrorDetails
  | .none           => []
  | .schema fields  => schemaErrors R fields r.body
  | .file name      => fileErrors name (r.form name)

/-- The body is to be read as JSON and is not. -/
def Signature.malformed (s : Signature) (r : RequestData) : Option ErrorDetails :=
  match s.body, r.body with
  | .schema _, .malformed pos msg => some (jsonInvalid pos msg)
  | _, _                          => none

/-- The `errors()` of the `RequestValidationError` that the request ends with, once its caller is
authenticated. A body that is not JSON is reported alone. -/
def Endpoint.errors (R : Readers) (e : Endpoint) (r : RequestData) : List ErrorDetails :=
  match e.signature.malformed r with
  | some error  => [error]
  | none        =>
    (e.signature.params.flatMap fun p => p.errors R r) ++ e.signature.body.errors R r

/-- The request is rejected. -/
def Endpoint.Rejects (R : Readers) (e : Endpoint) (r : RequestData) : Prop := e.errors R r ≠ []

/-- The answer to a rejected request. -/
def Endpoint.answer (R : Readers) (e : Endpoint) (r : RequestData) :
    Except RenderError JSONResponse :=
  validationExceptionHandler r.requestId (e.errors R r)

end LiveMenu
