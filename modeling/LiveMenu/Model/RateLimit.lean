import LiveMenu.Lib.FixedWindow
import LiveMenu.Model.Values

/-!
# The application and its rate limiter

The wiring of `main.py`: middlewares, exception handlers and the nine routers with their routes. The
limiter applies its default limits to the routes it decorates, or to all routes if its middleware
is installed.
-/

namespace LiveMenu

/-! ### The client of a request -/

/-- What `str.strip` removes. -/
def isPySpace (c : Char) : Bool :=
  (9 ≤ c.toNat ∧ c.toNat ≤ 13) || (28 ≤ c.toNat ∧ c.toNat ≤ 32) || (c.toNat = 0x85) ||
    (c.toNat = 0xA0) || (c.toNat = 0x1680) || (0x2000 ≤ c.toNat ∧ c.toNat ≤ 0x200A) ||
    (c.toNat = 0x2028) || (c.toNat = 0x2029) || (c.toNat = 0x202F) || (c.toNat = 0x205F) ||
    (c.toNat = 0x3000)

/-- `s.strip()`. -/
def strip (s : List Char) : List Char :=
  ((s.dropWhile isPySpace).reverse.dropWhile isPySpace).reverse

/-- `s.split(",")`. -/
def splitCommas (s : List Char) : List (List Char) := s.splitOn ','

/-- What a request tells about where it came from: `request.headers`, with names in lower case, and
the host of `request.client`. -/
structure HttpRequest where
  headers : List (String × String)
  clientHost : Option String

namespace HttpRequest

/-- `request.headers.get(name)`: the first value. -/
def header (r : HttpRequest) (name : String) : Option String :=
  (r.headers.find? fun h => h.1 = name).map Prod.snd

/-- `get_remote_address`. -/
def remoteAddress (r : HttpRequest) : String :=
  (r.clientHost.filter (· ≠ "")).getD "127.0.0.1"

/-- The stripped entries of `X-Forwarded-For` that are not empty. -/
def forwardedParts (xff : String) : List String :=
  (((splitCommas xff.toList).map strip).filter (· ≠ [])).map String.ofList

/-- `_client_ip`. -/
def clientIp (trustedProxies : ℤ) (r : HttpRequest) : String :=
  if trustedProxies > 0 then
    match r.header "x-forwarded-for" with
    | none     => r.remoteAddress
    | some xff =>
      let parts := forwardedParts xff
      -- an index within the list, as at least one proxy is trusted
      let idx := (max 0 (parts.length - trustedProxies)).toNat
      (parts[idx]?).getD r.remoteAddress
  else r.remoteAddress

end HttpRequest

/-! ### Wiring -/

inductive Middleware where
  | requestId
  | cors
  /-- `SlowAPIMiddleware`. -/
  | slowApi
  deriving DecidableEq

structure Route where
  method : String
  path : String
  /-- The endpoint is decorated with the limiter. -/
  limited : Bool := false
  deriving DecidableEq

structure Router where
  pathPrefix : String
  routes : List Route

structure App where
  middleware : List Middleware
  routers : List Router

namespace Routers

def menuPublic : Router := ⟨"", [⟨"GET", "/m/{slug}", false⟩]⟩

def auth : Router := ⟨"/api/v1/auth", [⟨"GET", "/health", false⟩, ⟨"POST", "/register", false⟩,
  ⟨"POST", "/login", false⟩, ⟨"POST", "/refresh", false⟩, ⟨"POST", "/logout", false⟩]⟩

def restaurant : Router := ⟨"/api/v1/admin/restaurant", [⟨"GET", "", false⟩, ⟨"POST", "", false⟩,
  ⟨"PUT", "", false⟩, ⟨"DELETE", "", false⟩]⟩

def categories : Router := ⟨"/api/v1/admin/categories", [⟨"GET", "", false⟩, ⟨"POST", "", false⟩,
  ⟨"PUT", "/{id}", false⟩, ⟨"DELETE", "/{id}", false⟩, ⟨"PATCH", "/reorder", false⟩]⟩

def dishes : Router := ⟨"/api/v1/admin/dishes", [⟨"GET", "", false⟩, ⟨"GET", "/{id}", false⟩,
  ⟨"POST", "", false⟩, ⟨"PUT", "/{id}", false⟩, ⟨"DELETE", "/{id}", false⟩,
  ⟨"PATCH", "/{id}/availability", false⟩]⟩

def analytics : Router := ⟨"/api/v1/admin/analytics", [⟨"GET", "", false⟩,
  ⟨"GET", "/export", false⟩]⟩

def menu : Router := ⟨"/api/v1/menu", [⟨"GET", "/{slug}", false⟩]⟩

def upload : Router := ⟨"/api/v1/admin/upload", [⟨"POST", "", false⟩,
  ⟨"DELETE", "/{filename:path}", false⟩]⟩

def qr : Router := ⟨"/api/v1/admin/qr", [⟨"GET", "", false⟩]⟩

end Routers

/-- `app` of `main.py`. The middleware that was added last is the outermost. -/
def app : App where
  middleware := [.cors, .requestId]
  routers := [Routers.menuPublic, Routers.auth, Routers.restaurant, Routers.categories,
    Routers.dishes, Routers.analytics, Routers.menu, Routers.upload, Routers.qr]

namespace App

/-- `include_router`: the routes under the paths of their routers. -/
def routes (A : App) : List Route :=
  A.routers.flatMap fun router => router.routes.map fun route =>
    { route with path := router.pathPrefix ++ route.path }

/-- The default limits apply to the route. -/
def limits (A : App) (route : Route) : Bool :=
  route.limited || decide (Middleware.slowApi ∈ A.middleware)

end App

/-! ### Answers -/

/-- The status codes that the endpoints and their dependencies set. -/
def endpointStatuses : List ℕ := [200, 201, 204, 400, 401, 403, 404, 409, 500]

/-- How an endpoint ends. -/
inductive EndpointResult where
  /-- It returns, or it raises an `HTTPException`. -/
  | status (code : ℕ) (listed : code ∈ endpointStatuses)
  /-- A `RequestValidationError` that its handler renders. -/
  | invalid
  /-- Any other exception, also one that a handler raises. -/
  | raised

/-- The status of the answer: `http_exception_handler`, `validation_exception_handler` and
`general_exception_handler`. -/
def EndpointResult.answer : EndpointResult → ℕ
  | .status code _  => code
  | .invalid        => 422
  | .raised         => 500

/-- A request that has reached the application at an instant for a route of it, and how its endpoint
would end. -/
structure TimedRequest (A : App) where
  time : Time
  request : HttpRequest
  route : { route // route ∈ A.routes }
  result : EndpointResult

/-- The settings of the limiter. -/
structure LimiterSettings where
  rateLimitPerMinute : ℕ := 100
  trustedProxies : ℤ := 0

namespace App

variable (A : App) (settings : LimiterSettings)

/-- `key_func`. -/
def key (r : TimedRequest A) : String := r.request.clientIp settings.trustedProxies

/-- The answers of the application to a series of requests, with the windows of the limiter. A
limited route counts the hits of a key by itself, and `rate_limit_exception_handler` answers what
exceeds the limit. -/
def answers (ws : FixedWindow.Windows (String × { route // route ∈ A.routes })) :
    List (TimedRequest A) → List (TimedRequest A × ℕ)
  | [] => []
  | r :: rs =>
    if A.limits r.route then
      let k := (A.key settings r, r.route)
      let w := FixedWindow.hit (Time.minutes 1) (ws k) r.time
      (r, if w.admits settings.rateLimitPerMinute then r.result.answer else 429) ::
        answers (Function.update ws k (some w)) rs
    else (r, r.result.answer) :: answers ws rs

end App

end LiveMenu
