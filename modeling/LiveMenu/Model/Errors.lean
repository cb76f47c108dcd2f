import LiveMenu.Lib.Program
import LiveMenu.Model.Values

/-!
# Error responses

The Python values an error response is made of, what `JSONResponse` makes of them, and the handler
of `core/middleware/errors.py` that answers a `RequestValidationError`.
-/

namespace LiveMenu

/-! ### What JSON can carry -/

/-- UTF-8 can encode the text. -/
def PyStr.encodable (s : PyStr) : Bool := s.encode.isSome

mutual

/-- No number of the value is `NaN` or an infinity. -/
def Json.finite : Json → Bool
  | .nonFinite  => false
  | .arr xs     => xs.finite
  | .obj kvs    => kvs.finite
  | _           => true

def JsonArray.finite : JsonArray → Bool
  | .nil        => true
  | .cons x xs  => x.finite && xs.finite

def JsonObject.finite : JsonObject → Bool
  | .nil          => true
  | .cons _ x kvs => x.finite && kvs.finite

end

mutual

/-- UTF-8 can encode every text of the value. -/
def Json.encodable : Json → Bool
  | .str s    => PyStr.encodable s
  | .arr xs   => xs.encodable
  | .obj kvs  => kvs.encodable
  | _         => true

def JsonArray.encodable : JsonArray → Bool
  | .nil        => true
  | .cons x xs  => x.encodable && xs.encodable

def JsonObject.encodable : JsonObject → Bool
  | .nil          => true
  | .cons k x kvs => PyStr.encodable k && x.encodable && kvs.encodable

end

def JsonArray.ofList : List Json → JsonArray
  | []      => .nil
  | x :: xs => .cons x (JsonArray.ofList xs)

def JsonArray.toList : JsonArray → List Json
  | .nil        => []
  | .cons x xs  => x :: xs.toList

def JsonObject.ofList : List (String × Json) → JsonObject
  | []            => .nil
  | (k, x) :: kvs => .cons (PyStr.ofString k) x (JsonObject.ofList kvs)

/-- `d.get(key)`. -/
def JsonObject.get (key : String) : JsonObject → Option Json
  | .nil          => none
  | .cons k x kvs => if k = PyStr.ofString key then some x else kvs.get key

/-! ### Python values -/

/-- A value that an error can hold. -/
inductive PyValue where
  /-- What `json.loads` makes: `None`, numbers, texts, lists and dicts of these. -/
  | json (j : Json)
  | bytes (b : List UInt8)
  | decimal (q : ℚ)
  /-- A `ValueError`. -/
  | valueError (text : String)
  /-- A list or a tuple. -/
  | list (xs : List PyValue)
  | dict (kvs : List (String × PyValue))

def PyValue.str (s : String) : PyValue := .json (.str (PyStr.ofString s))

/-- What `JSONResponse` raises. -/
inductive RenderError where
  /-- The value, or a part of it, is of a type that JSON does not have. -/
  | typeError
  /-- `Out of range float values are not JSON compliant`. -/
  | valueError
  | unicodeEncodeError
  deriving DecidableEq

namespace PyValue

mutual

/-- `json.dumps(value, ensure_ascii=False, allow_nan=False)`: the value the text denotes. -/
def dumps : PyValue → Except RenderError Json
  | .json j       => if j.finite then .ok j else .error .valueError
  | .bytes _      => .error .typeError
  | .decimal _    => .error .typeError
  | .valueError _ => .error .typeError
  | .list xs      => do
    let js ← dumpsList xs
    return .arr (JsonArray.ofList js)
  | .dict kvs     => do
    let js ← dumpsDict kvs
    return .obj (JsonObject.ofList js)

def dumpsList : List PyValue → Except RenderError (List Json)
  | []      => .ok []
  | x :: xs => do
    let j ← dumps x
    let js ← dumpsList xs
    return j :: js

def dumpsDict : List (String × PyValue) → Except RenderError (List (String × Json))
  | []            => .ok []
  | (k, x) :: kvs => do
    let j ← dumps x
    let js ← dumpsDict kvs
    return (k, j) :: js

end

/-- `JSONResponse.render`: the value as JSON, then as UTF-8. -/
def render (value : PyValue) : Except RenderError Json := do
  let j ← value.dumps
  if j.encodable then return j else .error .unicodeEncodeError

end PyValue

/-! ### The handler -/

/-- A key or an index of the place an error is about. -/
inductive LocItem where
  | key (name : String)
  | index (i : ℕ)

def LocItem.toPy : LocItem → PyValue
  | .key name => PyValue.str name
  | .index i  => .json (.number i)

/-- An element of `errors()`. -/
structure ErrorDetails where
  type : String
  loc : List LocItem
  msg : String
  input : PyValue
  /-- There is no `ctx` if the error has no context. -/
  ctx : List (String × PyValue) := []

def ErrorDetails.toPy (e : ErrorDetails) : PyValue :=
  .dict <| [
    ("type", PyValue.str e.type),
    ("loc", .list (e.loc.map LocItem.toPy)),
    ("msg", PyValue.str e.msg),
    ("input", e.input)] ++ if e.ctx.isEmpty then [] else [("ctx", .dict e.ctx)]

/-- A response that has been built: its status, and its body as the value the JSON text denotes. -/
structure JSONResponse where
  statusCode : ℕ
  body : Json

def JSONResponse.create (statusCode : ℕ) (content : PyValue) : Except RenderError JSONResponse := do
  let body ← content.render
  return { statusCode, body }

/-- `validation_exception_handler`, with `request.state.request_id` if it is set. -/
def validationExceptionHandler (requestId : Option String) (errors : List ErrorDetails) :
    Except RenderError JSONResponse :=
  JSONResponse.create 422 <| .dict [
    ("detail", PyValue.str "validation_error"),
    ("message", PyValue.str "Request validation failed"),
    ("errors", .list (errors.map ErrorDetails.toPy)),
    ("request_id", PyValue.str (requestId.getD "unknown"))]

end LiveMenu
