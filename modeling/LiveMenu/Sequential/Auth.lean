import LiveMenu.Sequential.Services

/-!
# Authentication, one call at a time

What `register`, `login` and `refresh` do to the users and the token rows, and exactly when a
refresh token passes both of its checks.
-/

namespace LiveMenu

variable (P : Platform) (w : World)

/-! ### Tokens -/

/-- The payload of an access token created at `now`. -/
def accessClaims (userId : Uuid) (email : String) (jti : Uuid) (now : Time) : Claims where
  sub := userId
  email := email
  type := "access"
  iat := wholeSeconds now
  nbf := wholeSeconds now
  exp := wholeSeconds (now + Time.minutes P.jwtAccessTtlMin)
  jti := jti

/-- The payload of a refresh token created at `now`. -/
def refreshClaims (userId : Uuid) (email : String) (jti : Uuid) (now : Time) : Claims where
  sub := userId
  email := email
  type := "refresh"
  iat := wholeSeconds now
  nbf := wholeSeconds now
  exp := wholeSeconds (now + Time.days P.jwtRefreshTtlDays)
  jti := jti

/-- The library accepts the times of the payload. -/
def Claims.InTime (c : Claims) (now : Time) : Prop :=
  c.nbf ≤ wholeSeconds now ∧ wholeSeconds now ≤ c.exp

lemma exec_decodeToken (token : String) :
    (∃ c, P.jwtDecode token = some c ∧ c.InTime w.now ∧
        (decodeToken P token).exec w = (.ok c, w)) ∨
      (¬ ∃ c, P.jwtDecode token = some c ∧ c.InTime w.now) ∧
        (decodeToken P token).exec w = (.error .jwt, w) := by
  rw [decodeToken]
  cases P.jwtDecode token with
  | none => exact .inr ⟨by simp, rfl⟩
  | some c =>
    simp only [Async.exec_clock_bind, Option.some.injEq]
    by_cases h : wholeSeconds w.now < c.nbf ∨ c.exp < wholeSeconds w.now
    · rw [if_pos h]
      refine .inr ⟨?_, rfl⟩
      rintro ⟨c', rfl, hlo, hhi⟩
      rcases h with h | h
      · exact absurd hlo (not_le.mpr h)
      · exact absurd hhi (not_le.mpr h)
    · rw [if_neg h]
      rw [not_or, not_lt, not_lt] at h
      exact .inl ⟨c, rfl, h, rfl⟩

/-- The check both kinds of token go through, for the type they expect. -/
lemma exec_verify (token type : String) :
    (∃ c, P.jwtDecode token = some c ∧ c.InTime w.now ∧ c.type = type ∧
        (do
          let payload ← decodeToken P token
          if payload.type ≠ type then Prog.raise .jwt else pure payload : Async Claims).exec w
          = (.ok c, w)) ∨
      (¬ ∃ c, P.jwtDecode token = some c ∧ c.InTime w.now ∧ c.type = type) ∧
        (do
          let payload ← decodeToken P token
          if payload.type ≠ type then Prog.raise .jwt else pure payload : Async Claims).exec w
          = (.error .jwt, w) := by
  rcases exec_decodeToken P w token with ⟨c, hc, htime, h⟩ | ⟨hnone, h⟩
  · simp only [Prog.exec_bind_ok h, hc, Option.some.injEq]
    by_cases htype : c.type = type
    · rw [if_neg (not_not.mpr htype)]
      exact .inl ⟨c, rfl, htime, htype, rfl⟩
    · rw [if_pos htype]
      refine .inr ⟨?_, rfl⟩
      rintro ⟨c', rfl, -, h'⟩
      exact htype h'
  · refine .inr ⟨?_, Prog.exec_bind_error h⟩
    rintro ⟨c, hc, htime, -⟩
    exact hnone ⟨c, hc, htime⟩

lemma exec_verifyRefreshToken (token : String) :
    (∃ c, P.jwtDecode token = some c ∧ c.InTime w.now ∧ c.type = "refresh" ∧
        (verifyRefreshToken P token).exec w = (.ok c, w)) ∨
      (¬ ∃ c, P.jwtDecode token = some c ∧ c.InTime w.now ∧ c.type = "refresh") ∧
        (verifyRefreshToken P token).exec w = (.error .jwt, w) := exec_verify P w token "refresh"

lemma exec_verifyAccessToken (token : String) :
    (∃ c, P.jwtDecode token = some c ∧ c.InTime w.now ∧ c.type = "access" ∧
        (verifyAccessToken P token).exec w = (.ok c, w)) ∨
      (¬ ∃ c, P.jwtDecode token = some c ∧ c.InTime w.now ∧ c.type = "access") ∧
        (verifyAccessToken P token).exec w = (.error .jwt, w) := exec_verify P w token "access"

namespace AuthService

/-! ### Issuing -/

/-- The row of a refresh token issued at `now`. -/
def issuedRow (userId : Uuid) (email : String) (draws : Draws) (now : Time) : RefreshToken where
  id := draws.tokenId
  userId := userId
  tokenHash := P.sha256 (P.jwtEncode (refreshClaims P userId email draws.refreshJti now))
  revokedAt := none
  expiresAt := now + Time.days P.jwtRefreshTtlDays
  createdAt := now

/-- The tokens issued at `now`. -/
def issued (user : Option User) (userId : Uuid) (email : String) (draws : Draws) (now : Time) :
    AuthResult where
  user := user
  accessToken := P.jwtEncode (accessClaims P userId email draws.accessJti now)
  refreshToken := P.jwtEncode (refreshClaims P userId email draws.refreshJti now)

lemma issueTokens_cases (user : Option User) (userId : Uuid) (email : String) (draws : Draws) :
    (∃ e, (issueTokens P user userId email draws).exec w = (.error (.db e), w)) ∨
      ∃ db, db.toTables = { w.db.toTables with
          refreshTokens := w.db.refreshTokens ++ [issuedRow P userId email draws w.now] } ∧
        (issueTokens P user userId email draws).exec w
          = (.ok (issued P user userId email draws w.now), { w with db := db }) := by
  simp only [issueTokens, createAccessToken, createRefreshToken, Prog.bind_assoc,
    Async.exec_clock_bind, Prog.exec_pure_bind]
  rcases RefreshTokenRepository.create_cases w P userId
      (P.jwtEncode (refreshClaims P userId email draws.refreshJti w.now)) P.jwtRefreshTtlDays
      draws.tokenId with ⟨e, h⟩ | ⟨k, db, rfl, ht, h⟩
  · exact .inl ⟨e, Prog.exec_bind_error h⟩
  · exact .inr ⟨db, ht, Prog.exec_bind_ok h⟩

/-- Nothing keeps a new token of an existing user from being stored. -/
lemma issueTokens_of_fresh {user : Option User} {userId : Uuid} {email : String} {draws : Draws}
    (hid : draws.tokenId ∉ w.db.refreshTokens.map (·.id))
    (hhash : P.sha256 (P.jwtEncode (refreshClaims P userId email draws.refreshJti w.now))
      ∉ w.db.refreshTokens.map (·.tokenHash))
    (huser : userId ∈ w.db.users.map (·.id)) :
    ∃ r w', (issueTokens P user userId email draws).exec w = (.ok r, w') := by
  obtain ⟨k, db, h⟩ :=
    RefreshTokenRepository.create_of_fresh w P P.jwtRefreshTtlDays hid hhash huser
  simp only [issueTokens, createAccessToken, createRefreshToken, Prog.bind_assoc,
    Async.exec_clock_bind, Prog.exec_pure_bind]
  exact ⟨_, _, Prog.exec_bind_ok h⟩

/-! ### Registration and login -/

lemma register_cases (email password : String) (draws : Draws) :
    Failed (register P email password draws) w ∨
      ∃ user db, db.toTables = { w.db.toTables with users := w.db.users ++ [user] } ∧
        ((∃ e, (register P email password draws).exec w = (.error e, { w with db := db })) ∨
          ∃ db', db'.toTables = { db.toTables with refreshTokens :=
              db.refreshTokens ++ [issuedRow P user.id user.email.val draws w.now] } ∧
            (register P email password draws).exec w
              = (.ok (issued P (some user) user.id user.email.val draws w.now),
                { w with db := db' })) := by
  simp only [register, UserRepository.existsByEmail, UserRepository.getByEmail, Prog.bind_assoc,
    Failed, Async.exec_select_bind, Prog.exec_pure_bind]
  split_ifs with htaken
  · exact .inl ⟨_, rfl⟩
  · cases P.hashPassword draws.salt password with
    | error e => exact .inl ⟨e, rfl⟩
    | ok passwordHash =>
      rcases UserRepository.create_cases w P email passwordHash draws.userId with
        ⟨e, h⟩ | ⟨user, db, -, ht, h⟩
      · exact .inl ⟨_, Prog.exec_bind_error h⟩
      · refine .inr ⟨user, db, ht, ?_⟩
        rw [Prog.exec_bind_ok h]
        rcases issueTokens_cases P { w with db := db } (some user) user.id user.email.val draws with
          ⟨e, h⟩ | ⟨db', ht', h⟩
        · exact .inl ⟨_, h⟩
        · exact .inr ⟨db', ht', h⟩

lemma login_cases (email password : String) (draws : Draws) :
    Failed (login P email password draws) w ∨
      ∃ user db, user ∈ w.db.users ∧ user.email.val = P.strLower email ∧
        db.toTables = { w.db.toTables with refreshTokens :=
          w.db.refreshTokens ++ [issuedRow P user.id user.email.val draws w.now] } ∧
        (login P email password draws).exec w
          = (.ok (issued P (some user) user.id user.email.val draws w.now),
            { w with db := db }) := by
  simp only [login_eq, loginBy, UserRepository.getByEmail, Failed, Async.exec_select_bind]
  cases hget : w.db.users.find? fun u => u.email.val = P.strLower email with
  | none => exact .inl ⟨_, rfl⟩
  | some user =>
    simp only
    cases P.verifyPassword password user.passwordHash.val with
    | error e => exact .inl ⟨e, rfl⟩
    | ok b =>
      cases b with
      | false => exact .inl ⟨_, rfl⟩
      | true =>
        rcases issueTokens_cases P w (some user) user.id user.email.val draws with
          ⟨e, h⟩ | ⟨db, ht, h⟩
        · exact .inl ⟨_, h⟩
        · exact .inr ⟨user, db, List.mem_of_find?_eq_some hget, by
            simpa using List.find?_some hget, ht, h⟩

/-! ### Refreshing -/

/-- The token passes the check of its signature and times and the check of its row. -/
def Accepted (token : String) (c : Claims) (k : RefreshToken) : Prop :=
  P.jwtDecode token = some c ∧ c.InTime w.now ∧ c.type = "refresh" ∧
    Rows.get (·.tokenHash) (P.sha256 token) w.db.refreshTokens = some k ∧
    k.revokedAt = none ∧ w.now ≤ k.expiresAt

/-- `refresh` before its exceptions are turned into answers. -/
def redeem (token : String) (draws : Draws) : Async AuthResult := do
  let payload ← verifyRefreshToken P token
  let valid ← RefreshTokenRepository.isValid P token
  if !valid then
    Async.http 401 "Invalid or expired refresh token"
  else
    rotate P token payload draws

lemma refresh_eq (token : String) (draws : Draws) :
    refresh P token draws = (redeem P token draws).handle unauthorized := rfl

/-- Both checks come before anything is written. -/
lemma redeem_cases (token : String) (draws : Draws) :
    ((¬ ∃ c k, Accepted P w token c k) ∧ ((redeem P token draws).exec w = (.error .jwt, w) ∨
        (redeem P token draws).exec w
          = (.error (.http 401 "Invalid or expired refresh token"), w))) ∨
      ∃ c k, Accepted P w token c k ∧
        (redeem P token draws).exec w = (rotate P token c draws).exec w := by
  rcases exec_verifyRefreshToken P w token with ⟨c, hc, htime, htype, h⟩ | ⟨hnone, h⟩
  · obtain ⟨valid, hrun, hvalid⟩ := RefreshTokenRepository.exec_isValid w P token
    rw [redeem, Prog.exec_bind_ok h, Prog.exec_bind_ok hrun]
    cases valid with
    | true =>
      obtain ⟨k, hget, hrevoked, htime'⟩ := hvalid.mp rfl
      exact .inr ⟨c, k, ⟨hc, htime, htype, hget, hrevoked, htime'⟩, rfl⟩
    | false =>
      refine .inl ⟨?_, .inr rfl⟩
      rintro ⟨c', k, -, -, -, hlive⟩
      exact Bool.noConfusion (hvalid.mpr ⟨k, hlive⟩)
  · refine .inl ⟨?_, .inl (Prog.exec_bind_error h)⟩
    rintro ⟨c, k, hc, htime, htype, -⟩
    exact hnone ⟨c, hc, htime, htype⟩

/-- A refresh is rejected, with nothing changed, unless its token is accepted. Then the row is
revoked first, and only a failure to store the new row can keep the new pair from the caller. -/
lemma refresh_cases (token : String) (draws : Draws) :
    ((¬ ∃ c k, Accepted P w token c k) ∧ Rejected (refresh P token draws) w) ∨
      ∃ c k db, Accepted P w token c k ∧
        db.toTables = { w.db.toTables with
          refreshTokens := Rows.modify (·.id) k.id (fun _ => { k with revokedAt := some w.now })
            w.db.refreshTokens } ∧
        (((∃ e, (issueTokens P none c.sub c.email draws).exec { w with db := db }
              = (.error (.db e), { w with db := db })) ∧
            (refresh P token draws).exec w
              = (.error (.http 401 "Invalid or expired refresh token"), { w with db := db })) ∨
          ∃ db', db'.toTables = { db.toTables with refreshTokens :=
              db.refreshTokens ++ [issuedRow P c.sub c.email draws w.now] } ∧
            (refresh P token draws).exec w
              = (.ok (issued P none c.sub c.email draws w.now), { w with db := db' })) := by
  rw [refresh_eq, Rejected, Prog.exec_handle]
  rcases redeem_cases P w token draws with ⟨hnone, h⟩ | ⟨c, k, hacc, h⟩
  · refine .inl ⟨hnone, 401, "Invalid or expired refresh token", by decide, by decide, ?_⟩
    rcases h with h | h <;> rw [h] <;> rfl
  · have hget := hacc.2.2.2.1
    rcases RefreshTokenRepository.revoke_cases w P token with ⟨hn, -⟩ | ⟨k', db, hk', ht, hrev⟩
    · rw [RefreshTokenRepository.hashToken, hget] at hn
      cases hn
    · rw [RefreshTokenRepository.hashToken, hget] at hk'
      cases hk'
      refine .inr ⟨c, k, db, hacc, ht, ?_⟩
      have hrotate : (rotate P token c draws).exec w
          = (issueTokens P none c.sub c.email draws).exec { w with db := db } :=
        Prog.exec_bind_ok hrev
      rw [h, hrotate]
      rcases issueTokens_cases P { w with db := db } none c.sub c.email draws with
        ⟨e, hi⟩ | ⟨db', ht', hi⟩
      · rw [hi]
        exact .inl ⟨⟨e, rfl⟩, rfl⟩
      · rw [hi]
        exact .inr ⟨db', ht', rfl⟩

end AuthService

/-! ### The first user -/

/-- The process after Ana registered. -/
def anaRegistered : World := runEvents Platform.plain ⟨Database.empty, [], 0⟩ [registerAna]

/-- The refresh token of her registration. -/
def anasToken : String :=
  Claims.encode (refreshClaims Platform.plain 1 "ana@example.com" 101 0)

end LiveMenu
