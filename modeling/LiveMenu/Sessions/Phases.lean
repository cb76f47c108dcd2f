import LiveMenu.Concurrent.Steps
import LiveMenu.Sequential.Auth
import LiveMenu.Model.Requests

/-!
# Calls of the authentication service, step by step

How far a call is between its database steps, and what each of its steps may do to the token
table. Rows are never deleted and a revocation is never undone, so what a call has seen of a row
stays true up to its being revoked.
-/

namespace LiveMenu

/-! ### Token rows over time -/

/-- The row may have been revoked meanwhile, and is the same otherwise. -/
structure RefreshToken.Later (k k' : RefreshToken) : Prop where
  id : k'.id = k.id
  userId : k'.userId = k.userId
  tokenHash : k'.tokenHash = k.tokenHash
  revoked : k.revokedAt ≠ none → k'.revokedAt ≠ none

namespace RefreshToken

lemma Later.refl (k : RefreshToken) : k.Later k := ⟨rfl, rfl, rfl, fun h => h⟩

lemma Later.trans {k k' k'' : RefreshToken} (h : k.Later k') (h' : k'.Later k'') : k.Later k'' :=
  ⟨h'.id.trans h.id, h'.userId.trans h.userId, h'.tokenHash.trans h.tokenHash,
    h'.revoked ∘ h.revoked⟩

lemma later_flushAll (tokens : List RefreshToken) (now : Time) (k : RefreshToken) :
    k.Later (flushAll (revocations tokens now) k) := by
  obtain ⟨r, hr, hs⟩ := flushAll_revocations tokens now k
  rw [hr]
  exact ⟨rfl, rfl, rfl, fun h => Option.isSome_iff_ne_none.mp
    (hs (Option.isSome_iff_ne_none.mpr h))⟩

end RefreshToken

/-- The rows are the same ones, up to revocations. -/
def Revised (rows rows' : List RefreshToken) : Prop :=
  ∃ f : RefreshToken → RefreshToken, (∀ k, RefreshToken.Later k (f k)) ∧ rows' = rows.map f

lemma Revised.refl (rows : List RefreshToken) : Revised rows rows :=
  ⟨fun k => k, fun k => RefreshToken.Later.refl k, (List.map_id' rows).symm⟩

/-- The rows are there later, with others perhaps. -/
def LaterRows (rows rows' : List RefreshToken) : Prop :=
  ∀ k ∈ rows, ∃ k' ∈ rows', RefreshToken.Later k k'

lemma LaterRows.refl (rows : List RefreshToken) : LaterRows rows rows :=
  fun k hk => ⟨k, hk, .refl k⟩

lemma Revised.laterRows {rows rows' : List RefreshToken} (h : Revised rows rows') :
    LaterRows rows rows' := by
  obtain ⟨f, hf, rfl⟩ := h
  exact fun k hk => ⟨f k, List.mem_map_of_mem hk, hf k⟩

lemma laterRows_append (rows rows' : List RefreshToken) : LaterRows rows (rows ++ rows') :=
  fun k hk => ⟨k, List.mem_append_left _ hk, .refl k⟩

/-! ### Calls -/

/-- A call of the authentication service. -/
inductive AuthCall where
  | register (email password : String) (draws : Draws)
  | login (email password : String) (draws : Draws)
  | refresh (token : String) (draws : Draws)
  | logout (userId : Uuid)

def AuthCall.request : AuthCall → Request
  | .register email password draws => .register email password draws
  | .login email password draws    => .login email password draws
  | .refresh token draws           => .refresh token draws
  | .logout userId                 => .admin userId .logout

/-- How far a call is. -/
inductive AuthPhase where
  /-- Nothing was read that matters later. -/
  | start
  /-- `is_valid` has read the unrevoked row `k`. -/
  | checked (k : RefreshToken)
  /-- The token has passed its checks. -/
  | passed
  /-- `revoke` has read the row `k`. -/
  | loaded (k : RefreshToken)
  /-- The token is revoked and its successor is not stored yet. -/
  | issuing
  /-- The successor is stored. -/
  | stored
  /-- `revoke_all_for_user` has read the rows `ks`. -/
  | selected (ks : List RefreshToken)
  /-- `revoke_all_for_user` has committed. -/
  | ended
  /-- The call was rejected or has failed. -/
  | failed
  /-- A row that was read is gone. -/
  | lost
  deriving DecidableEq

/-- How a step moves the phase. -/
def AuthCall.next (P : Platform) (call : AuthCall) (φ : AuthPhase) (l : Label) (w w' : World) :
    AuthPhase :=
  match call, φ, l with
  | .refresh token _, .start, .select .refreshTokens =>
    match Rows.get (·.tokenHash) (P.sha256 token) w.db.refreshTokens with
    | some k => if k.revokedAt = none then .checked k else .failed
    | none   => .failed
  | .refresh _ _, .checked k, .clock => if k.expiresAt < w.now then .failed else .passed
  | .refresh token _, .passed, .select .refreshTokens =>
    match Rows.get (·.tokenHash) (P.sha256 token) w.db.refreshTokens with
    | some k => .loaded k
    | none   => .lost
  | .refresh _ _, .loaded k, .commit .refreshTokens =>
    if k.id ∈ w.db.refreshTokens.map (·.id) then .issuing else .lost
  | .refresh _ _, .issuing, .commit .refreshTokens =>
    if w'.db.refreshTokens = w.db.refreshTokens then .failed else .stored
  | .logout u, .start, .select .refreshTokens =>
    .selected (w.db.refreshTokens.filter fun k => k.userId = u ∧ k.revokedAt.isNone)
  | .logout _, .selected ks, .commit .refreshTokens =>
    if ∀ k ∈ ks, k.id ∈ w.db.refreshTokens.map (·.id) then .ended else .lost
  | _, φ, _ => φ

/-- What a step may do to the token table. -/
def AuthCall.allows (P : Platform) (call : AuthCall) (φ : AuthPhase) (l : Label) (w w' : World) :
    Prop :=
  match call, φ, l with
  | .refresh _ _, .loaded k, .commit .refreshTokens =>
    Revised w.db.refreshTokens w'.db.refreshTokens ∧
      (k.revokedAt = none → ∀ k' ∈ w'.db.refreshTokens, k'.id = k.id → k'.revokedAt ≠ none)
  | .refresh token _, .issuing, .commit .refreshTokens =>
    w'.db.refreshTokens = w.db.refreshTokens ∨ ∃ c k, P.jwtDecode token = some c ∧
      k.userId = c.sub ∧ w'.db.refreshTokens = w.db.refreshTokens ++ [k]
  | .logout _, .selected ks, .commit .refreshTokens =>
    Revised w.db.refreshTokens w'.db.refreshTokens ∧
      ((∀ k ∈ ks, k.id ∈ w.db.refreshTokens.map (·.id)) →
        ∀ k ∈ ks, ∀ k' ∈ w'.db.refreshTokens, k'.id = k.id → k'.revokedAt ≠ none)
  | .refresh _ _, .lost, .commit .refreshTokens | .register .., _, .commit .refreshTokens
  | .login .., _, .commit .refreshTokens =>
    w'.db.refreshTokens = w.db.refreshTokens ∨
      ∃ k, w'.db.refreshTokens = w.db.refreshTokens ++ [k]
  | _, _, _ => w'.db.refreshTokens = w.db.refreshTokens

/-- The phases in which a call can return without an exception. -/
def AuthCall.mayReturn : AuthCall → AuthPhase → Prop
  | .refresh _ _, φ => φ = .stored ∨ φ = .lost
  | .logout _, φ    => φ = .ended ∨ φ = .lost
  | _, _            => True

def AuthCall.monitor (P : Platform) (call : AuthCall) : Monitor World Label AuthPhase where
  next := call.next P
  allows := call.allows P

/-- Every step leaves the rows there. -/
lemma AuthCall.allows_laterRows {P : Platform} {call : AuthCall} {φ : AuthPhase} {l : Label}
    {w w' : World} (h : call.allows P φ l w w') :
    LaterRows w.db.refreshTokens w'.db.refreshTokens := by
  simp only [allows] at h
  split at h
  · exact h.1.laterRows
  · rcases h with h | ⟨c, k, -, -, h⟩ <;> rw [h]
    · exact .refl _
    · exact laterRows_append _ _
  · exact h.1.laterRows
  iterate 3
    rcases h with h | ⟨k, h⟩ <;> rw [h]
    · exact .refl _
    · exact laterRows_append _ _
  · rw [h]
    exact .refl _

/-! ### The code follows the phases -/

section

variable {P : Platform} {M : Monitor World Label AuthPhase} {φ φ' : AuthPhase}
  {Q : AuthPhase → Except Exc AuthResult → Prop}

/-- Storing a row: the phase `φ` before, `φ'` after. -/
lemma accepts_issueTokens {user : Option User} {userId : Uuid} {email : String} {draws : Draws}
    (hclock : ∀ w, M.allows φ .clock w w ∧ M.next φ .clock w w = φ)
    (hstore : ∀ (w : World) (db : Database) (k : RefreshToken), k.userId = userId →
      db.refreshTokens = w.db.refreshTokens ++ [k] →
        M.allows φ (.commit .refreshTokens) w { w with db := db } ∧
          M.next φ (.commit .refreshTokens) w { w with db := db } = φ')
    (hfail : ∀ w, M.allows φ (.commit .refreshTokens) w w)
    (hread : ∀ w, M.allows φ' (.refresh .refreshTokens) w w ∧
      M.next φ' (.refresh .refreshTokens) w w = φ')
    (hok : ∀ a, Q φ' (.ok a)) (herr : ∀ ψ e, Q ψ (.error e)) :
    M.Accepts Q (AuthService.issueTokens P user userId email draws) φ := by
  have hclock' : ∀ {α : Type} {k : Time → Async α} {R : AuthPhase → Except Exc α → Prop},
      (∀ t, M.Accepts R (k t) φ) → M.Accepts R (Async.clock >>= k) φ := by
    intro α k R h
    refine Async.accepts_clock_bind fun w => ⟨(hclock w).1, ?_⟩
    rw [(hclock w).2]
    exact h w.now
  simp only [AuthService.issueTokens, createAccessToken, createRefreshToken,
    RefreshTokenRepository.create, Async.insert, Prog.bind_assoc]
  refine hclock' fun t => Monitor.accepts_bind ?_
  refine hclock' fun t' => Monitor.accepts_bind ?_
  refine hclock' fun t'' => Async.accepts_commit_bind ?_ ?_
  · intro w k db hw
    obtain ⟨k, hk, hw⟩ := Except.bind_eq_ok_iff.mp hw
    cases hk
    obtain ⟨db', hdb, hpair⟩ := Except.bind_eq_ok_iff.mp hw
    cases hpair
    obtain ⟨hallow, hnext⟩ := hstore w db _ rfl (by rw [Database.write_ok hdb])
    refine ⟨hallow, ?_⟩
    rw [hnext]
    refine Monitor.accepts_bind (Async.accepts_refresh fun w => ⟨(hread w).1, ?_, ?_⟩)
    · intro k' _
      rw [(hread w).2]
      exact hok _
    · intro _
      exact herr _ _
  · exact fun w e _ => ⟨hfail w, herr _ _⟩

end

/-- A call that returns without an exception is in a phase where it may. -/
def AuthCall.Ends {α : Type} (call : AuthCall) (φ : AuthPhase) (r : Except Exc α) : Prop :=
  ∀ a, r = .ok a → call.mayReturn φ

lemma AuthCall.ends_error {α : Type} (call : AuthCall) (φ : AuthPhase) (e : Exc) :
    call.Ends φ (.error e : Except Exc α) := by
  rintro a ⟨⟩

section Refresh

variable {P : Platform} {token : String} {draws : Draws}

lemma accepts_verifyRefreshToken {R : AuthPhase → Except Exc Claims → Prop}
    (hok : ∀ c, P.jwtDecode token = some c → R .start (.ok c)) (herr : ∀ e, R .start (.error e)) :
    ((AuthCall.refresh token draws).monitor P).Accepts R (verifyRefreshToken P token) .start := by
  apply Monitor.accepts_bind
  rw [decodeToken]
  cases hc : P.jwtDecode token with
  | none => exact Monitor.accepts_raise (herr _)
  | some c =>
    refine Async.accepts_clock_bind fun w => ⟨rfl, ?_⟩
    split_ifs
    · exact Monitor.accepts_raise (herr _)
    · apply Monitor.accepts_pure
      dsimp only
      split_ifs
      · exact Monitor.accepts_raise (herr _)
      · exact Monitor.accepts_pure (hok c hc)

lemma accepts_isValid {R : AuthPhase → Except Exc Bool → Prop} (hpassed : R .passed (.ok true))
    (hfailed : R .failed (.ok false)) :
    ((AuthCall.refresh token draws).monitor P).Accepts R
      (RefreshTokenRepository.isValid P token) .start := by
  refine Async.accepts_select_bind fun w => ⟨rfl, ?_⟩
  simp only [AuthCall.monitor, AuthCall.next, RefreshTokenRepository.hashToken]
  cases Rows.get (·.tokenHash) (P.sha256 token) w.db.refreshTokens with
  | none => exact Monitor.accepts_pure hfailed
  | some k =>
    cases hr : k.revokedAt with
    | some r =>
      simp only [hr, Option.isSome_some, if_true, reduceCtorEq, if_false]
      exact Monitor.accepts_pure hfailed
    | none =>
      simp only [hr, Option.isSome_none, Bool.false_eq_true, if_false, if_true]
      refine Async.accepts_clock_bind fun w => ⟨rfl, ?_⟩
      simp only [AuthCall.next]
      by_cases he : k.expiresAt < w.now
      · rw [if_pos he, decide_eq_true he]
        exact Monitor.accepts_pure hfailed
      · rw [if_neg he, decide_eq_false he]
        exact Monitor.accepts_pure hpassed

/-- Revocations of rows that are there are committed. -/
lemma updateRefreshTokens_missing {db : Database} {tokens : List RefreshToken} {now : Time}
    {e : DbError} (h : db.updateRefreshTokens (RefreshToken.revocations tokens now) = .error e) :
    ¬ ∀ k ∈ tokens, k.id ∈ db.refreshTokens.map (·.id) := by
  intro hmem
  obtain ⟨db', hdb, -⟩ := db.exists_updateRefreshTokens tokens hmem now
  rw [hdb] at h
  cases h

/-- What the commit of revocations does to the rows. -/
lemma updateRefreshTokens_revised {db db' : Database} {tokens : List RefreshToken} {now : Time}
    (h : db.updateRefreshTokens (RefreshToken.revocations tokens now) = .ok db') :
    Revised db.refreshTokens db'.refreshTokens ∧ ((∀ k ∈ tokens, k.revokedAt = none) →
      ∀ k ∈ tokens, ∀ k' ∈ db'.refreshTokens, k'.id = k.id → k'.revokedAt ≠ none) := by
  have hrows : db'.refreshTokens
      = db.refreshTokens.map (RefreshToken.flushAll (RefreshToken.revocations tokens now)) := by
    rw [Database.updateRefreshTokens_ok h]
  refine ⟨⟨_, RefreshToken.later_flushAll tokens now, hrows⟩, fun hnone k hk k' hk' hid => ?_⟩
  rw [hrows] at hk'
  obtain ⟨r, -, rfl⟩ := List.mem_map.mp hk'
  rw [RefreshToken.flushAll_id] at hid
  rw [RefreshToken.flushAll_of_mem hnone hk hid]
  simp

lemma accepts_revoke {R : AuthPhase → Except Exc Unit → Prop} (hissuing : R .issuing (.ok ()))
    (hlost : ∀ r, R .lost r) :
    ((AuthCall.refresh token draws).monitor P).Accepts R
      (RefreshTokenRepository.revoke P token) .passed := by
  refine Async.accepts_select_bind fun w => ⟨rfl, ?_⟩
  simp only [AuthCall.monitor, AuthCall.next, RefreshTokenRepository.hashToken]
  cases Rows.get (·.tokenHash) (P.sha256 token) w.db.refreshTokens with
  | none => exact Monitor.accepts_pure (hlost _)
  | some k =>
    refine Async.accepts_clock_bind fun w₁ => ⟨rfl, Async.accepts_commit ?_ ?_⟩
    · intro w u db hw
      obtain ⟨db', hdb, hpair⟩ := Except.bind_eq_ok_iff.mp hw
      cases hpair
      have hdb : w.db.updateRefreshTokens (RefreshToken.revocations [k] w₁.now) = .ok db := hdb
      obtain ⟨hrevised, hrevoked⟩ := updateRefreshTokens_revised hdb
      refine ⟨⟨hrevised, fun hnone => ?_⟩, ?_⟩
      · exact hrevoked (by simpa using hnone) k (.head _)
      · simp only [AuthCall.next]
        split_ifs
        · exact hissuing
        · exact hlost _
    · intro w e hw
      have herr : w.db.updateRefreshTokens (RefreshToken.revocations [k] w₁.now) = .error e :=
        Except.eq_error_of_bind_pure hw
      have hmissing : k.id ∉ w.db.refreshTokens.map (·.id) := by
        simpa using updateRefreshTokens_missing herr
      refine ⟨⟨.refl _, fun _ k' hk' hid => ?_⟩, ?_⟩
      · exact absurd (hid ▸ List.mem_map_of_mem hk') hmissing
      · simp only [AuthCall.next, if_neg hmissing]
        exact hlost _

lemma accepts_issueTokens_lost {Q : AuthPhase → Except Exc AuthResult → Prop} {userId : Uuid}
    {email : String} (hok : ∀ a, Q .lost (.ok a)) (herr : ∀ φ e, Q φ (.error e)) :
    ((AuthCall.refresh token draws).monitor P).Accepts Q
      (AuthService.issueTokens P none userId email draws) .lost := by
  refine accepts_issueTokens (fun _ => ⟨rfl, rfl⟩) ?_ (fun _ => .inl rfl) ?_ hok herr
  · exact fun _ _ k _ h => ⟨.inr ⟨k, h⟩, rfl⟩
  · exact fun _ => ⟨rfl, rfl⟩

lemma accepts_issueTokens_issuing {Q : AuthPhase → Except Exc AuthResult → Prop} {c : Claims}
    {email : String} (hc : P.jwtDecode token = some c) (hok : ∀ a, Q .stored (.ok a))
    (herr : ∀ φ e, Q φ (.error e)) :
    ((AuthCall.refresh token draws).monitor P).Accepts Q
      (AuthService.issueTokens P none c.sub email draws) .issuing := by
  refine accepts_issueTokens (fun _ => ⟨rfl, rfl⟩) ?_ (fun _ => .inl rfl) ?_ hok herr
  · intro w db k hk h
    have hne : db.refreshTokens ≠ w.db.refreshTokens := by
      rw [h]
      simp
    exact ⟨.inr ⟨c, k, hc, hk, h⟩, if_neg hne⟩
  · exact fun _ => ⟨rfl, rfl⟩

lemma accepts_rotate {Q : AuthPhase → Except Exc AuthResult → Prop} {c : Claims}
    (hc : P.jwtDecode token = some c) (hstored : ∀ a, Q .stored (.ok a))
    (hlost : ∀ a, Q .lost (.ok a)) (herr : ∀ φ e, Q φ (.error e)) :
    ((AuthCall.refresh token draws).monitor P).Accepts Q
      (AuthService.rotate P token c draws) .passed := by
  refine Monitor.accepts_bind (accepts_revoke ?_ ?_)
  · exact accepts_issueTokens_issuing hc hstored herr
  · intro r
    cases r with
    | ok _ => exact accepts_issueTokens_lost hlost herr
    | error e => exact herr _ e

lemma accepts_refresh :
    ((AuthCall.refresh token draws).monitor P).Accepts (AuthCall.Ends (.refresh token draws))
      (AuthService.refresh P token draws) .start := by
  have hraise : ∀ φ e, ((AuthCall.refresh token draws).monitor P).Accepts
      (AuthCall.Ends (.refresh token draws)) (AuthService.unauthorized e) φ := by
    intro φ e
    cases e <;> exact AuthCall.ends_error _ _ _
  refine Monitor.accepts_handle (Monitor.accepts_bind (accepts_verifyRefreshToken ?_ ?_))
  · intro c hc
    refine Monitor.accepts_bind (accepts_isValid ?_ ?_)
    · refine accepts_rotate hc ?_ ?_ ?_
      · exact fun a _ _ => .inl rfl
      · exact fun a _ _ => .inr rfl
      · exact fun φ e => hraise φ e
    · exact Monitor.accepts_raise (hraise _ _)
  · exact fun e => hraise _ e

end Refresh

section

variable {P : Platform}

lemma accepts_logout (u : Uuid) :
    ((AuthCall.logout u).monitor P).Accepts (AuthCall.Ends (.logout u)) (AuthService.logout u)
      .start := by
  refine Async.accepts_select_bind fun w => ⟨rfl, ?_⟩
  refine Async.accepts_clock_bind fun w₁ => ⟨rfl, Async.accepts_commit ?_ ?_⟩
  · intro w' _ db hw
    obtain ⟨db', hdb, hpair⟩ := Except.bind_eq_ok_iff.mp hw
    cases hpair
    obtain ⟨hrevised, hrevoked⟩ := updateRefreshTokens_revised hdb
    refine ⟨⟨hrevised, fun _ => hrevoked fun k hk => ?_⟩, ?_⟩
    · simpa using (of_decide_eq_true (List.mem_filter.mp hk).2).2
    · intro _ _
      simp only [AuthCall.monitor, AuthCall.next]
      split_ifs
      · exact .inl rfl
      · exact .inr rfl
  · intro w' e hw
    have hmissing : ¬ ∀ k ∈ w.db.refreshTokens.filter fun k => k.userId = u ∧ k.revokedAt.isNone,
        k.id ∈ w'.db.refreshTokens.map (·.id) :=
      updateRefreshTokens_missing (Except.eq_error_of_bind_pure hw)
    exact ⟨⟨.refl _, fun hmem => absurd hmem hmissing⟩, AuthCall.ends_error _ _ _⟩

lemma accepts_register (email password : String) (draws : Draws) :
    ((AuthCall.register email password draws).monitor P).Accepts
      (AuthCall.Ends (.register email password draws))
      (AuthService.register P email password draws) .start := by
  simp only [AuthService.register, UserRepository.existsByEmail, UserRepository.getByEmail,
    UserRepository.create, Async.insert, Prog.bind_assoc]
  refine Async.accepts_select_bind fun w => ⟨rfl, Monitor.accepts_bind (Monitor.accepts_pure ?_)⟩
  dsimp only
  split_ifs
  · exact Async.accepts_http (AuthCall.ends_error _ _ _)
  cases P.hashPassword draws.salt password with
  | error e => exact Monitor.accepts_raise (AuthCall.ends_error _ _ _)
  | ok passwordHash =>
    refine Async.accepts_commit_bind ?_ fun w e _ => ⟨rfl, AuthCall.ends_error _ _ _⟩
    intro w user db hw
    obtain ⟨user', -, hw⟩ := Except.bind_eq_ok_iff.mp hw
    obtain ⟨db', hdb, hpair⟩ := Except.bind_eq_ok_iff.mp hw
    cases hpair
    have hrows : db.refreshTokens = w.db.refreshTokens := by rw [Database.write_ok hdb]
    refine ⟨hrows, ?_⟩
    refine Monitor.accepts_bind (Async.accepts_refresh fun w =>
      ⟨rfl, fun user _ => ?_, fun _ => ?_⟩)
    · exact accepts_issueTokens (fun _ => ⟨rfl, rfl⟩) (fun _ _ k _ h => ⟨.inr ⟨k, h⟩, rfl⟩)
        (fun _ => .inl rfl) (fun _ => ⟨rfl, rfl⟩) (fun _ _ _ => trivial)
        fun _ _ => AuthCall.ends_error _ _ _
    · exact AuthCall.ends_error _ _ _

lemma accepts_login (email password : String) (draws : Draws) :
    ((AuthCall.login email password draws).monitor P).Accepts
      (AuthCall.Ends (.login email password draws))
      (AuthService.login P email password draws) .start := by
  rw [AuthService.login_eq]
  refine Async.accepts_select_bind fun w => ⟨rfl, ?_⟩
  cases w.db.users.find? fun u => u.email.val = P.strLower email with
  | none => exact Async.accepts_http (AuthCall.ends_error _ _ _)
  | some user =>
    cases hverify : P.verifyPassword password user.passwordHash.val with
    | error e =>
      simp only [hverify]
      exact Monitor.accepts_raise (AuthCall.ends_error _ _ _)
    | ok b =>
      simp only [hverify]
      cases b with
      | false => exact Async.accepts_http (AuthCall.ends_error _ _ _)
      | true =>
        exact accepts_issueTokens (fun _ => ⟨rfl, rfl⟩) (fun _ _ k _ h => ⟨.inr ⟨k, h⟩, rfl⟩)
          (fun _ => .inl rfl) (fun _ => ⟨rfl, rfl⟩) (fun _ _ _ => trivial)
          fun _ _ => AuthCall.ends_error _ _ _

lemma AuthCall.ends_map {α β : Type} {call : AuthCall} {f : α → β} {φ : AuthPhase}
    {r : Except Exc α} (h : call.Ends φ r) : call.Ends φ (r.map f) := by
  cases r with
  | ok a => exact fun _ _ => h a rfl
  | error e => exact AuthCall.ends_error _ _ _

/-- The code of every call follows its phases. -/
theorem AuthCall.accepts (call : AuthCall) :
    (call.monitor P).Accepts call.Ends (call.request.code P) .start := by
  cases call with
  | register email password draws =>
    exact Monitor.accepts_map ((accepts_register email password draws).mono fun _ _ => ends_map)
  | login email password draws =>
    exact Monitor.accepts_map ((accepts_login email password draws).mono fun _ _ => ends_map)
  | refresh token draws =>
    exact Monitor.accepts_map (accepts_refresh.mono fun _ _ => ends_map)
  | logout u => exact Monitor.accepts_map ((accepts_logout u).mono fun _ _ => ends_map)

end

end LiveMenu
