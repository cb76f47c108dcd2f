import LiveMenu.Model.Repositories

/-!
# Tokens and authentication

JWT creation and verification, and the authentication service. The token identifiers (`jti`),
primary keys and salts a call draws are arguments.
-/

namespace LiveMenu

section Jwt

variable (P : Platform)

/-- Whole seconds of an instant, as the JWT library writes and compares them. -/
def wholeSeconds (t : Time) : ℤ := t / 1000000

/-- `create_access_token`. -/
def createAccessToken (userId : Uuid) (email : String) (jti : Uuid) : Async String := do
  let now ← Async.clock
  return P.jwtEncode {
    sub := userId
    email := email
    type := "access"
    iat := wholeSeconds now
    nbf := wholeSeconds now
    exp := wholeSeconds (now + Time.minutes P.jwtAccessTtlMin)
    jti := jti }

/-- `create_refresh_token`. -/
def createRefreshToken (userId : Uuid) (email : String) (jti : Uuid) : Async String := do
  let now ← Async.clock
  return P.jwtEncode {
    sub := userId
    email := email
    type := "refresh"
    iat := wholeSeconds now
    nbf := wholeSeconds now
    exp := wholeSeconds (now + Time.days P.jwtRefreshTtlDays)
    jti := jti }

/-- `decode_token`: the library checks the signature, then `nbf` and `exp` against the clock. -/
def decodeToken (token : String) : Async Claims :=
  match P.jwtDecode token with
  | none => Prog.raise .jwt
  | some payload => do
    let now ← Async.clock
    if wholeSeconds now < payload.nbf ∨ payload.exp < wholeSeconds now then
      Prog.raise .jwt
    else
      pure payload

/-- `verify_access_token`. -/
def verifyAccessToken (token : String) : Async Claims := do
  let payload ← decodeToken P token
  if payload.type ≠ "access" then Prog.raise .jwt else pure payload

/-- `verify_refresh_token`. -/
def verifyRefreshToken (token : String) : Async Claims := do
  let payload ← decodeToken P token
  if payload.type ≠ "refresh" then Prog.raise .jwt else pure payload

/-- `get_current_user_id`. -/
def getCurrentUserId (token : String) : Async Uuid :=
  (do let payload ← verifyAccessToken P token; return payload.sub).handle fun e =>
    match e with
    | .jwt => Async.http 401 "token_expired"
    | _    => Async.http 401 "Invalid authentication credentials"

end Jwt

/-! ### Passwords -/

/-- `verify_password`: the library encodes a `str` before it looks at it. -/
def verifyPassword (P : Platform) (password : PyStr) (hash : String) : Except Exc Bool :=
  match password.encode with
  | none    => .error .password
  | some cs => P.verifyPassword (String.ofList cs) hash

lemma verifyPassword_ofString (P : Platform) (password hash : String) :
    verifyPassword P (PyStr.ofString password) hash = P.verifyPassword password hash := by
  rw [verifyPassword, PyStr.encode_ofString]
  exact congrArg (P.verifyPassword · hash) String.ofList_toList

/-! ### The service -/

/-- The random values one call of the service draws. -/
structure Draws where
  userId : Uuid
  salt : String
  accessJti : Uuid
  refreshJti : Uuid
  tokenId : Uuid

/-- The tokens a call of the service returns, with the user for `register` and `login`. -/
structure AuthResult where
  user : Option User
  accessToken : String
  refreshToken : String
  deriving DecidableEq

namespace AuthService

variable (P : Platform)

/-- Create both tokens and store the refresh token. -/
def issueTokens (user : Option User) (userId : Uuid) (email : String) (draws : Draws) :
    Async AuthResult := do
  let accessToken ← createAccessToken P userId email draws.accessJti
  let refreshToken ← createRefreshToken P userId email draws.refreshJti
  let _ ← RefreshTokenRepository.create P userId refreshToken P.jwtRefreshTtlDays draws.tokenId
  return ⟨user, accessToken, refreshToken⟩

def register (email password : String) (draws : Draws) : Async AuthResult := do
  let taken ← UserRepository.existsByEmail P email
  if taken then
    Async.http 409 "Email already registered"
  else
    match P.hashPassword draws.salt password with
    | .error e => Prog.raise e
    | .ok passwordHash => do
      let user ← UserRepository.create P email passwordHash draws.userId
      issueTokens P (some user) user.id user.email.val draws

/-- `login`, by what is said of the stored hash. -/
def loginBy (verify : String → Except Exc Bool) (email : String) (draws : Draws) :
    Async AuthResult := do
  match ← UserRepository.getByEmail P email with
  | none => Async.http 401 "Invalid credentials"
  | some user =>
    match verify user.passwordHash.val with
    | .error e   => Prog.raise e
    | .ok false  => Async.http 401 "Invalid credentials"
    | .ok true   => issueTokens P (some user) user.id user.email.val draws

/-- `login` with the `str` that `LoginRequest` lets through, which no length constraint has
checked. -/
def loginRequest (email : String) (password : PyStr) (draws : Draws) : Async AuthResult :=
  loginBy P (verifyPassword P password) email draws

/-- `login` with a `str` that has no lone surrogate. -/
def login (email password : String) (draws : Draws) : Async AuthResult :=
  loginRequest P email (PyStr.ofString password) draws

lemma login_eq (email password : String) (draws : Draws) :
    login P email password draws = loginBy P (P.verifyPassword password) email draws :=
  congrArg (loginBy P · email draws) (funext (verifyPassword_ofString P password))

/-- What `refresh` does once the token has passed both checks: revoke it and issue a new pair. -/
def rotate (token : String) (payload : Claims) (draws : Draws) : Async AuthResult := do
  RefreshTokenRepository.revoke P token
  issueTokens P none payload.sub payload.email draws

/-- Every exception other than an `HTTPException` becomes a 401. -/
def unauthorized : Exc → Async AuthResult
  | .http status detail => Async.http status detail
  | _                   => Async.http 401 "Invalid or expired refresh token"

def refresh (token : String) (draws : Draws) : Async AuthResult :=
  (do
    let payload ← verifyRefreshToken P token
    let valid ← RefreshTokenRepository.isValid P token
    if !valid then
      Async.http 401 "Invalid or expired refresh token"
    else
      rotate P token payload draws).handle unauthorized

def logout (userId : Uuid) : Async Unit := RefreshTokenRepository.revokeAllForUser userId

end AuthService

end LiveMenu
