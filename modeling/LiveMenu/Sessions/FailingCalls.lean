import LiveMenu.Lib.Failures
import LiveMenu.Model.Requests
import LiveMenu.Sequential.Auth

/-!
# Registrations and refreshes with a failing database call

`register` and `refresh` commit twice each, so a database call that raises after the first commit
leaves its row behind: the email of a failed registration is taken, the token of a failed refresh
is revoked. Before it they leave no trace.
-/

namespace LiveMenu

/-- The awaited database calls. -/
def Label.awaited : Label → Bool
  | .select _ | .commit _ | .refresh _ => true
  | _                                  => false

/-- A call that raises leaves the users and the refresh tokens as they were. -/
def LeavesNoTrace {α : Type} (p : Async α) (w : World) : Prop :=
  ∀ e w', p.exec w = (.error e, w') →
    w'.db.users = w.db.users ∧ w'.db.refreshTokens = w.db.refreshTokens

lemma LeavesNoTrace.of_ok {α : Type} {p : Async α} {w w' : World} {a : α}
    (h : p.exec w = (.ok a, w')) : LeavesNoTrace p w := by
  intro e w'' he
  rw [h] at he
  cases he

lemma LeavesNoTrace.of_error {α : Type} {p : Async α} {w : World} {x : Exc}
    (h : p.exec w = (.error x, w)) : LeavesNoTrace p w := by
  intro e w' he
  rw [h] at he
  cases he
  exact ⟨rfl, rfl⟩

namespace AuthService

/-- `register` where the awaited call number `n` raises. -/
def registerFailing (P : Platform) (email password : String) (draws : Draws) (n : ℕ)
    (e : DbError) : Async AuthResult :=
  (register P email password draws).failAt Label.awaited (.db e) n

/-- `refresh` where the awaited call number `n` raises: the calls are inside its `try`. -/
def refreshFailing (P : Platform) (token : String) (draws : Draws) (n : ℕ) (e : DbError) :
    Async AuthResult :=
  ((redeem P token draws).failAt Label.awaited (.db e) n).handle unauthorized

end AuthService

/-! ### The parts of the calls -/

section

variable {ρ α : Type} {w : World} {t : Table} {e : DbError}

lemma exec_failAt_select_bind (query : Database → ρ) (k : ρ → Async α) (n : ℕ) :
    ((Async.select t query >>= k).failAt Label.awaited (.db e) 0).exec w = (.error (.db e), w) ∧
      ((Async.select t query >>= k).failAt Label.awaited (.db e) (n + 1)).exec w
        = ((k (query w.db)).failAt Label.awaited (.db e) n).exec w := ⟨rfl, rfl⟩

lemma exec_failAt_clock_bind (k : Time → Async α) (n : ℕ) :
    ((Async.clock >>= k).failAt Label.awaited (.db e) n).exec w
      = ((k w.now).failAt Label.awaited (.db e) n).exec w :=
  Prog.exec_failAt_bind_ok (Nat.zero_le n) rfl

lemma calls_clock_bind (k : Time → Async α) :
    (Async.clock >>= k).calls Label.awaited w = (k w.now).calls Label.awaited w := by
  rw [Prog.calls_bind]
  exact Nat.zero_add _

lemma exec_failAt_commit_bind (write : Time → Database → Except DbError (ρ × Database))
    (k : ρ → Async α) (n : ℕ) :
    ((Async.commit t write >>= k).failAt Label.awaited (.db e) (n + 1)).exec w
      = match write w.now w.db with
        | .ok (a, db) => ((k a).failAt Label.awaited (.db e) n).exec { w with db := db }
        | .error x    => (.error (.db x), w) := by
  have hcalls : (Async.commit t write).calls Label.awaited w = 1 := rfl
  rw [Prog.exec_failAt_bind, Prog.failAt_of_le (hcalls ▸ Nat.le_add_left 1 n), hcalls,
    Nat.add_sub_cancel, Async.exec_commit]
  cases write w.now w.db <;> rfl

variable {row : Time → Except DbError ρ} {tables : Tables → ρ → Tables}
  {find : Uuid → Tables → Option ρ} {id : Uuid}

/-- A row that cannot be stored fails its commit, if not before. -/
lemma exec_failAt_insert_error
    (hno : ∀ r, row w.now = .ok r → ¬ (tables w.db.toTables r).Constraints) (n : ℕ) :
    ∃ x, ((Async.insert t row tables find id).failAt Label.awaited (.db e) n).exec w
      = (.error (.db x), w) := by
  cases n with
  | zero => exact ⟨e, rfl⟩
  | succ n =>
    rw [Async.insert, exec_failAt_commit_bind]
    cases hrow : row w.now with
    | error x => exact ⟨x, rfl⟩
    | ok r =>
      have hwrite : Database.write (tables w.db.toTables r) = .error .integrity :=
        dif_neg (hno r hrow)
      exact ⟨.integrity, by simp only [bind, Except.bind, hwrite]⟩

/-- A row that can be stored is there after its commit. -/
lemma exec_failAt_insert_ok {r : ρ} (hrow : row w.now = .ok r)
    (hvalid : (tables w.db.toTables r).Constraints)
    (hfind : find id (tables w.db.toTables r) = some r) (n : ℕ) :
    ((Async.insert t row tables find id).failAt Label.awaited (.db e) 0).exec w
        = (.error (.db e), w) ∧
      ((Async.insert t row tables find id).failAt Label.awaited (.db e) 1).exec w
        = (.error (.db e), { w with db := ⟨_, hvalid⟩ }) ∧
      ((Async.insert t row tables find id).failAt Label.awaited (.db e) (n + 2)).exec w
        = (.ok r, { w with db := ⟨_, hvalid⟩ }) ∧
      (Async.insert t row tables find id).calls Label.awaited w = 2 := by
  have hwrite : (do
      let r ← row w.now
      let db ← Database.write (tables w.db.toTables r)
      return (r, db) : Except DbError (ρ × Database)) = .ok (r, ⟨_, hvalid⟩) := by
    simp only [bind, Except.bind, hrow, Database.write_of hvalid, pure, Except.pure]
  have hread : (Async.refresh t fun db => find id db.toTables).exec
      { w with db := ⟨tables w.db.toTables r, hvalid⟩ }
        = (.ok r, { w with db := ⟨tables w.db.toTables r, hvalid⟩ }) := by
    rw [Async.exec_refresh]
    dsimp only
    rw [hfind]
  have hcalls : (Async.refresh t fun db => find id db.toTables).calls Label.awaited
      { w with db := ⟨tables w.db.toTables r, hvalid⟩ } = 1 := by
    rw [Async.refresh, Prog.calls_bind, Prog.exec_read]
    dsimp only
    rw [hfind]
    rfl
  refine ⟨rfl, ?_, ?_, ?_⟩
  · rw [Async.insert, exec_failAt_commit_bind, hwrite]
    rfl
  · rw [Async.insert, exec_failAt_commit_bind, hwrite]
    exact (Prog.failAt_of_le (hcalls ▸ Nat.le_add_left 1 n)).trans hread
  · rw [Async.insert, Prog.calls_bind, Async.exec_commit, hwrite]
    exact congrArg (1 + ·) hcalls

end

namespace AuthService

section

variable {P : Platform} {w : World} {e : DbError} {draws : Draws}

/-- The tables with a new refresh token. -/
def withToken (P : Platform) (t : Tables) (userId : Uuid) (email : String) (draws : Draws)
    (now : Time) : Tables :=
  { t with refreshTokens := t.refreshTokens ++ [issuedRow P userId email draws now] }

/-- The insertion of the row of a refresh token created at `issuedAt`. -/
def insertToken (P : Platform) (userId : Uuid) (email : String) (draws : Draws)
    (issuedAt : Time) : Async RefreshToken :=
  Async.insert .refreshTokens
    (fun now => .ok { issuedRow P userId email draws issuedAt with createdAt := now })
    (fun t k => { t with refreshTokens := t.refreshTokens ++ [k] })
    (fun id t => Rows.get (·.id) id t.refreshTokens) draws.tokenId

lemma exec_failAt_issueTokens (user : Option User) (userId : Uuid) (email : String) (n : ℕ) :
    ((issueTokens P user userId email draws).failAt Label.awaited (.db e) n).exec w
      = ((insertToken P userId email draws w.now >>= fun _ =>
          pure (issued P user userId email draws w.now)).failAt
            Label.awaited (.db e) n).exec w := by
  simp only [issueTokens, createAccessToken, createRefreshToken, RefreshTokenRepository.create,
    Prog.bind_assoc, exec_failAt_clock_bind, Prog.pure_bind]
  rfl

lemma exec_failAt_issueTokens_error {userId : Uuid} {email : String}
    (hno : ¬ (withToken P w.db.toTables userId email draws w.now).Constraints)
    (user : Option User) (n : ℕ) :
    ∃ x, ((issueTokens P user userId email draws).failAt Label.awaited (.db e) n).exec w
      = (.error (.db x), w) := by
  rw [exec_failAt_issueTokens]
  refine Exists.imp (fun x h => Prog.exec_failAt_bind_error h) (exec_failAt_insert_error ?_ n)
  rintro _ ⟨rfl⟩
  exact hno

lemma exec_failAt_issueTokens_ok {userId : Uuid} {email : String}
    (hvalid : (withToken P w.db.toTables userId email draws w.now).Constraints)
    (user : Option User) (n : ℕ) :
    ((issueTokens P user userId email draws).failAt Label.awaited (.db e) 0).exec w
        = (.error (.db e), w) ∧
      ((issueTokens P user userId email draws).failAt Label.awaited (.db e) 1).exec w
        = (.error (.db e), { w with db := ⟨_, hvalid⟩ }) ∧
      ((issueTokens P user userId email draws).failAt Label.awaited (.db e) (n + 2)).exec w
        = (.ok (issued P user userId email draws w.now), { w with db := ⟨_, hvalid⟩ }) := by
  have hfind : Rows.get (·.id) draws.tokenId
      (w.db.refreshTokens ++ [issuedRow P userId email draws w.now])
        = some (issuedRow P userId email draws w.now) :=
    Rows.get_of_mem hvalid.refreshTokenId (List.mem_append_right _ (.head _))
  obtain ⟨hfirst, hsecond, hrest, -⟩ := @exec_failAt_insert_ok RefreshToken w .refreshTokens e
    (fun now => .ok { issuedRow P userId email draws w.now with createdAt := now })
    (fun t k => { t with refreshTokens := t.refreshTokens ++ [k] })
    (fun id t => Rows.get (·.id) id t.refreshTokens) draws.tokenId
    (issuedRow P userId email draws w.now) rfl hvalid hfind n
  rw [exec_failAt_issueTokens, exec_failAt_issueTokens, exec_failAt_issueTokens]
  refine ⟨Prog.exec_failAt_bind_error hfirst, Prog.exec_failAt_bind_error hsecond, ?_⟩
  rw [Prog.exec_failAt_bind, show ((insertToken P userId email draws w.now).failAt Label.awaited
    (.db e) (n + 2)).exec w = _ from hrest]
  rfl

/-- The tokens are issued if no call fails and the row can be stored. Otherwise they raise, and
leave the row behind at most. -/
lemma exec_failAt_issueTokens_cases (P : Platform) (w : World) (e : DbError) (draws : Draws)
    (user : Option User) (userId : Uuid) (email : String) (n : ℕ) :
    (2 ≤ n ∧ (withToken P w.db.toTables userId email draws w.now).Constraints ∧
      ∃ r w', ((issueTokens P user userId email draws).failAt Label.awaited (.db e) n).exec w
        = (.ok r, w')) ∨
    ¬ (2 ≤ n ∧ (withToken P w.db.toTables userId email draws w.now).Constraints) ∧
      ∃ x w', ((issueTokens P user userId email draws).failAt Label.awaited (.db e) n).exec w
          = (.error (.db x), w') ∧
        w'.db.users = w.db.users ∧ w.db.refreshTokens <+: w'.db.refreshTokens := by
  by_cases hvalid : (withToken P w.db.toTables userId email draws w.now).Constraints
  · obtain ⟨hfirst, hsecond, hrest⟩ := exec_failAt_issueTokens_ok (e := e) hvalid user (n - 2)
    rcases Nat.lt_or_ge n 2 with hn | hn
    · refine .inr ⟨fun h => absurd h.1 (by omega), ?_⟩
      obtain rfl | rfl : n = 0 ∨ n = 1 := by omega
      · exact ⟨_, _, hfirst, rfl, List.prefix_rfl⟩
      · exact ⟨_, _, hsecond, rfl, List.prefix_append ..⟩
    · rw [Nat.sub_add_cancel hn] at hrest
      exact .inl ⟨hn, hvalid, _, _, hrest⟩
  · obtain ⟨x, h⟩ := exec_failAt_issueTokens_error (e := e) hvalid user n
    exact .inr ⟨fun h => hvalid h.2, x, w, h, rfl, List.prefix_rfl⟩

/-! ### Registration -/

/-- The row that a registration stores: the password has a hash, the row fits its columns, and
no user has its identifier or its email. -/
def NewUser (P : Platform) (w : World) (email password : String) (draws : Draws) (user : User) :
    Prop :=
  ∃ hash, P.hashPassword draws.salt password = .ok hash ∧
    User.ofCreate P email hash draws.userId w.now = .ok user ∧
    Tables.Constraints { w.db.toTables with users := w.db.users ++ [user] }

/-- A stored email is that of no user yet. -/
lemma NewUser.email_free {email password : String} {user : User}
    (h : NewUser P w email password draws user) :
    (w.db.users.find? fun u => u.email.val = P.strLower email) = none := by
  obtain ⟨hash, -, hrow, hvalid⟩ := h
  obtain ⟨-, hemail, -⟩ := User.ofCreate_ok hrow
  have hnd := hvalid.userEmail
  rw [List.map_append, List.nodup_append] at hnd
  apply List.find?_eq_none.mpr
  intro u hu hsame
  have hval : ∀ v v' : Varchar 255, v.val = v'.val → v = v' := by
    rintro ⟨v, hv⟩ ⟨v', hv'⟩ rfl
    rfl
  exact hnd.2.2 u.email (List.mem_map_of_mem hu) user.email (.head _)
    (hval _ _ ((of_decide_eq_true hsame).trans hemail.symm))

/-- A registration after its first call, which reads that the email is free. -/
lemma exec_registerFailing_succ (email password : String) (n : ℕ) :
    (registerFailing P email password draws (n + 1) e).exec w
      = if (w.db.users.find? fun u => u.email.val = P.strLower email).isSome then
          (.error (.http 409 "Email already registered"), w)
        else match P.hashPassword draws.salt password with
          | .error x => (.error x, w)
          | .ok hash => ((UserRepository.create P email hash draws.userId >>= fun user =>
              issueTokens P (some user) user.id user.email.val draws).failAt Label.awaited
                (.db e) n).exec w := by
  simp only [registerFailing, register, UserRepository.existsByEmail, UserRepository.getByEmail,
    Prog.bind_assoc, (exec_failAt_select_bind _ _ n).2, Prog.pure_bind]
  split_ifs
  · rfl
  · cases P.hashPassword draws.salt password <;> rfl

/-- A registration that stores no user raises before any write. -/
lemma exec_registerFailing_error {email password : String}
    (hno : ¬ ∃ user, NewUser P w email password draws user) (n : ℕ) :
    ∃ x, (registerFailing P email password draws n e).exec w = (.error x, w) := by
  cases n with
  | zero => exact ⟨.db e, rfl⟩
  | succ n =>
    rw [exec_registerFailing_succ]
    split_ifs with htaken
    · exact ⟨_, rfl⟩
    · cases hhash : P.hashPassword draws.salt password with
      | error x => exact ⟨x, rfl⟩
      | ok hash =>
        obtain ⟨x, h⟩ := @exec_failAt_insert_error User w .users e
          (User.ofCreate P email hash draws.userId) (fun t u => { t with users := t.users ++ [u] })
          (fun id t => Rows.get (·.id) id t.users) draws.userId
          (fun user hrow hvalid => hno ⟨user, hash, hhash, hrow, hvalid⟩) n
        exact ⟨.db x, Prog.exec_failAt_bind_error h⟩

lemma exec_registerFailing_ok {email password : String} {user : User}
    (h : NewUser P w email password draws user) (n : ℕ) :
    ∃ hvalid : Tables.Constraints { w.db.toTables with users := w.db.users ++ [user] },
      (registerFailing P email password draws 0 e).exec w = (.error (.db e), w) ∧
      (registerFailing P email password draws 1 e).exec w = (.error (.db e), w) ∧
      (registerFailing P email password draws 2 e).exec w
        = (.error (.db e), { w with db := ⟨_, hvalid⟩ }) ∧
      (registerFailing P email password draws (n + 3) e).exec w
        = ((issueTokens P (some user) user.id user.email.val draws).failAt Label.awaited (.db e)
            n).exec { w with db := ⟨_, hvalid⟩ } := by
  have hfree := h.email_free
  obtain ⟨hash, hhash, hrow, hvalid⟩ := h
  have hsucc : ∀ m, (registerFailing P email password draws (m + 1) e).exec w
      = ((UserRepository.create P email hash draws.userId >>= fun user =>
          issueTokens P (some user) user.id user.email.val draws).failAt Label.awaited
            (.db e) m).exec w := by
    intro m
    rw [exec_registerFailing_succ, hfree, hhash]
    rfl
  have hfind : Rows.get (·.id) draws.userId (w.db.users ++ [user]) = some user := by
    rw [← (User.ofCreate_ok hrow).1]
    exact Rows.get_of_mem hvalid.userId (List.mem_append_right _ (.head _))
  obtain ⟨hfirst, hsecond, hrest, hcalls⟩ := @exec_failAt_insert_ok User w .users e
    (User.ofCreate P email hash draws.userId) (fun t u => { t with users := t.users ++ [u] })
    (fun id t => Rows.get (·.id) id t.users) draws.userId user hrow hvalid hfind n
  refine ⟨hvalid, rfl, ?_, ?_, ?_⟩
  · rw [hsucc 0]
    exact Prog.exec_failAt_bind_error hfirst
  · rw [hsucc 1]
    exact Prog.exec_failAt_bind_error hsecond
  · rw [hsucc (n + 2), Prog.exec_failAt_bind, UserRepository.create, hrest, hcalls]
    rfl

/-! ### Refreshing -/

/-- The tables after the revocation of a token. -/
def revoked (w : World) (k : RefreshToken) : Tables :=
  { w.db.toTables with
    refreshTokens := Rows.modify (·.id) k.id (fun _ => { k with revokedAt := some w.now })
      w.db.refreshTokens }

lemma calls_verifyRefreshToken (P : Platform) (w : World) (token : String) :
    (verifyRefreshToken P token).calls Label.awaited w = 0 := by
  rw [verifyRefreshToken, decodeToken]
  cases P.jwtDecode token with
  | none => rfl
  | some c =>
    rw [Prog.bind_assoc, calls_clock_bind]
    split_ifs with htime
    · rfl
    · rw [Prog.pure_bind]
      split_ifs <;> rfl

lemma calls_isValid (P : Platform) (w : World) (token : String) :
    (RefreshTokenRepository.isValid P token).calls Label.awaited w = 1 := by
  rw [RefreshTokenRepository.isValid, RefreshTokenRepository.getByToken, Prog.calls_bind,
    Async.exec_select]
  dsimp only
  cases Rows.get (·.tokenHash) (RefreshTokenRepository.hashToken P token) w.db.refreshTokens with
  | none => rfl
  | some k =>
    dsimp only
    split_ifs <;> rfl

lemma exec_unauthorized (x : Exc) (w : World) :
    ∃ y, (unauthorized x).exec w = (.error y, w) := by
  cases x <;> exact ⟨_, rfl⟩

/-- An exception before the revocation becomes an answer and leaves the world alone. -/
lemma exec_refreshFailing_of_error {token : String} {n : ℕ} {x : Exc}
    (h : ((redeem P token draws).failAt Label.awaited (.db e) n).exec w = (.error x, w)) :
    ∃ y, (refreshFailing P token draws n e).exec w = (.error y, w) := by
  rw [refreshFailing, Prog.exec_handle, h]
  exact exec_unauthorized x w

/-- The two calls of a revocation. -/
lemma exec_failAt_revoke {token : String} {k : RefreshToken}
    (hget : Rows.get (·.tokenHash) (P.sha256 token) w.db.refreshTokens = some k) :
    ∃ db : Database, db.toTables = revoked w k ∧
      ((RefreshTokenRepository.revoke P token).failAt Label.awaited (.db e) 0).exec w
        = (.error (.db e), w) ∧
      ((RefreshTokenRepository.revoke P token).failAt Label.awaited (.db e) 1).exec w
        = (.error (.db e), w) ∧
      (RefreshTokenRepository.revoke P token).exec w = (.ok (), { w with db := db }) ∧
      (RefreshTokenRepository.revoke P token).calls Label.awaited w = 2 := by
  rcases RefreshTokenRepository.revoke_cases w P token with ⟨hnone, -⟩ | ⟨k', db, hk', ht, h⟩
  · rw [RefreshTokenRepository.hashToken, hget] at hnone
    cases hnone
  · rw [RefreshTokenRepository.hashToken, hget] at hk'
    cases hk'
    refine ⟨db, ht, rfl, ?_, h, ?_⟩
    · rw [RefreshTokenRepository.revoke, RefreshTokenRepository.getByToken,
        (exec_failAt_select_bind _ _ 0).2, RefreshTokenRepository.hashToken, hget]
      rfl
    · rw [RefreshTokenRepository.revoke, RefreshTokenRepository.getByToken, Prog.calls_bind,
        Async.exec_select, RefreshTokenRepository.hashToken]
      dsimp only
      rw [hget]
      rfl

/-- The check of the signature makes no database call, the check of the row makes one. -/
lemma exec_failAt_redeem {token : String} {c : Claims}
    (h : (verifyRefreshToken P token).exec w = (.ok c, w)) {valid : Bool}
    (hvalid : (RefreshTokenRepository.isValid P token).exec w = (.ok valid, w)) (n : ℕ) :
    ((redeem P token draws).failAt Label.awaited (.db e) 0).exec w = (.error (.db e), w) ∧
      ((redeem P token draws).failAt Label.awaited (.db e) (n + 1)).exec w
        = if valid then ((rotate P token c draws).failAt Label.awaited (.db e) n).exec w
          else (.error (.http 401 "Invalid or expired refresh token"), w) := by
  have hcalls := calls_verifyRefreshToken P w token
  have hcalls' := calls_isValid P w token
  constructor
  · rw [redeem, Prog.exec_failAt_bind_ok hcalls.le h, hcalls]
    rfl
  · rw [redeem, Prog.exec_failAt_bind_ok (hcalls ▸ Nat.zero_le (n + 1)) h, hcalls, Nat.sub_zero,
      Prog.exec_failAt_bind_ok (hcalls' ▸ Nat.le_add_left 1 n) hvalid, hcalls', Nat.add_sub_cancel]
    cases valid <;> rfl

/-- A refresh whose token is not accepted changes nothing. -/
lemma exec_refreshFailing_error {token : String}
    (hno : ¬ ∃ c k, Accepted P w token c k) (n : ℕ) :
    ∃ x, (refreshFailing P token draws n e).exec w = (.error x, w) := by
  rcases exec_verifyRefreshToken P w token with ⟨c, hc, htime, htype, h⟩ | ⟨-, h⟩
  · obtain ⟨valid, hrun, hvalid⟩ := RefreshTokenRepository.exec_isValid w P token
    cases valid with
    | true =>
      obtain ⟨k, hget, hrevoked, htime'⟩ := hvalid.mp rfl
      exact absurd ⟨c, k, hc, htime, htype, hget, hrevoked, htime'⟩ hno
    | false =>
      cases n with
      | zero => exact exec_refreshFailing_of_error (exec_failAt_redeem h hrun 0).1
      | succ n => exact exec_refreshFailing_of_error (exec_failAt_redeem h hrun n).2
  · have hverify : ((verifyRefreshToken P token).failAt Label.awaited (.db e) n).exec w
        = (.error .jwt, w) :=
      (Prog.failAt_of_le (calls_verifyRefreshToken P w token ▸ Nat.zero_le n)).trans h
    exact exec_refreshFailing_of_error (Prog.exec_failAt_bind_error hverify)

/-- An accepted token is revoked by the third call. -/
lemma exec_refreshFailing_ok {token : String} {c : Claims} {k : RefreshToken}
    (h : Accepted P w token c k) (n : ℕ) :
    ∃ db : Database, db.toTables = revoked w k ∧
      (∀ m ≤ 2, ∃ x, (refreshFailing P token draws m e).exec w = (.error x, w)) ∧
      (refreshFailing P token draws (n + 3) e).exec w
        = (((issueTokens P none c.sub c.email draws).failAt Label.awaited (.db e) n).handle
            unauthorized).exec { w with db := db } := by
  obtain ⟨hc, htime, htype, hget, hlive⟩ := h
  obtain ⟨valid, hrun, hvalid⟩ := RefreshTokenRepository.exec_isValid w P token
  obtain rfl := hvalid.mpr ⟨k, hget, hlive⟩
  have hverify : (verifyRefreshToken P token).exec w = (.ok c, w) := by
    rcases exec_verifyRefreshToken P w token with ⟨c', hc', -, -, h⟩ | ⟨hno, -⟩
    · rw [hc] at hc'
      cases hc'
      exact h
    · exact absurd ⟨c, hc, htime, htype⟩ hno
  obtain ⟨db, ht, hfirst, hsecond, hrevoke, hcalls⟩ := exec_failAt_revoke (e := e) hget
  have hredeem : ∀ m, ((redeem P token draws).failAt Label.awaited (.db e) (m + 1)).exec w
      = ((rotate P token c draws).failAt Label.awaited (.db e) m).exec w := fun m =>
    (exec_failAt_redeem hverify hrun m).2
  refine ⟨db, ht, ?_, ?_⟩
  · intro m hm
    obtain rfl | rfl | rfl : m = 0 ∨ m = 1 ∨ m = 2 := by omega
    · exact exec_refreshFailing_of_error (exec_failAt_redeem hverify hrun 0).1
    · exact exec_refreshFailing_of_error
        ((hredeem 0).trans (Prog.exec_failAt_bind_error hfirst))
    · exact exec_refreshFailing_of_error
        ((hredeem 1).trans (Prog.exec_failAt_bind_error hsecond))
  · rw [refreshFailing, Prog.exec_handle, hredeem (n + 2), Prog.exec_handle, rotate,
      Prog.exec_failAt_bind_ok (hcalls ▸ Nat.le_add_left 2 n) hrevoke, hcalls, Nat.add_sub_cancel]

end

lemma NewUser.unique {P : Platform} {w : World} {email password : String} {draws : Draws}
    {user user' : User} (h : NewUser P w email password draws user)
    (h' : NewUser P w email password draws user') : user = user' := by
  obtain ⟨hash, hhash, hrow, -⟩ := h
  obtain ⟨hash', hhash', hrow', -⟩ := h'
  rw [hhash] at hhash'
  cases hhash'
  rw [hrow] at hrow'
  exact Except.ok.inj hrow'

lemma registerFailing_leavesNoTrace_iff (P : Platform) (w : World) (email password : String)
    (draws : Draws) (n : ℕ) (e : DbError) :
    LeavesNoTrace (registerFailing P email password draws n e) w ↔
      ∀ user, NewUser P w email password draws user → n ≤ 1 ∨ 5 ≤ n ∧
        (withToken P { w.db.toTables with users := w.db.users ++ [user] } user.id user.email.val
          draws w.now).Constraints := by
  by_cases hex : ∃ user, NewUser P w email password draws user
  · obtain ⟨user, huser⟩ := hex
    have hone : ∀ {Q : User → Prop}, (∀ user, NewUser P w email password draws user → Q user) ↔
        Q user := fun {Q} =>
      ⟨fun h => h user huser, fun h user' huser' => huser.unique huser' ▸ h⟩
    rw [hone]
    -- the user row is there from the second call on
    have hleft : w.db.users ++ [user] ≠ w.db.users := by simp
    obtain ⟨hvalid, hfirst, hsecond, hthird, hrest⟩ :=
      exec_registerFailing_ok (e := e) huser (n - 3)
    rcases Nat.lt_or_ge n 3 with hn | hn
    · obtain rfl | rfl | rfl : n = 0 ∨ n = 1 ∨ n = 2 := by omega
      · exact iff_of_true (.of_error hfirst) (.inl (Nat.zero_le 1))
      · exact iff_of_true (.of_error hsecond) (.inl le_rfl)
      · refine iff_of_false (fun h => hleft (h _ _ hthird).1) ?_
        rintro (h | ⟨h, -⟩) <;> omega
    · rw [Nat.sub_add_cancel hn] at hrest
      rcases exec_failAt_issueTokens_cases P { w with db := ⟨_, hvalid⟩ } e draws (some user)
        user.id user.email.val (n - 3) with ⟨hn', hvalid', r, w', h⟩ | ⟨hno, x, w', h, husers, -⟩
      · rw [h] at hrest
        exact iff_of_true (.of_ok hrest) (.inr ⟨by omega, hvalid'⟩)
      · rw [h] at hrest
        refine iff_of_false (fun h => hleft ?_) ?_
        · exact husers.symm.trans (h _ _ hrest).1
        · rintro (h | ⟨h, hvalid'⟩)
          · omega
          · exact hno ⟨by omega, hvalid'⟩
  · obtain ⟨x, hx⟩ := exec_registerFailing_error (e := e) hex n
    exact iff_of_true (.of_error hx) fun user huser => absurd ⟨user, huser⟩ hex

/-- A revoked token is not as it was. -/
lemma ne_of_revoked {w : World} {k : RefreshToken} {tokens : List RefreshToken}
    (hk : k ∈ w.db.refreshTokens) (hrevoked : k.revokedAt = none)
    (h : (revoked w k).refreshTokens <+: tokens) : tokens ≠ w.db.refreshTokens := by
  rintro rfl
  have hlength : (revoked w k).refreshTokens.length = w.db.refreshTokens.length :=
    List.length_map _
  have heq : (revoked w k).refreshTokens = w.db.refreshTokens := h.eq_of_length hlength
  have hsame := List.map_eq_map_iff.mp (heq.trans (List.map_id _).symm) k hk
  rw [if_pos rfl] at hsame
  have := congrArg RefreshToken.revokedAt hsame
  rw [id, hrevoked] at this
  cases this

lemma refreshFailing_leavesNoTrace_iff (P : Platform) (w : World) (token : String) (draws : Draws)
    (n : ℕ) (e : DbError) :
    LeavesNoTrace (refreshFailing P token draws n e) w ↔
      ∀ c k, Accepted P w token c k → n ≤ 2 ∨ 5 ≤ n ∧
        (withToken P (revoked w k) c.sub c.email draws w.now).Constraints := by
  by_cases hex : ∃ c k, Accepted P w token c k
  · obtain ⟨c, k, hacc⟩ := hex
    have hone : ∀ {Q : Claims → RefreshToken → Prop}, (∀ c k, Accepted P w token c k → Q c k) ↔
        Q c k := by
      intro Q
      constructor
      · intro h
        exact h c k hacc
      · rintro h c' k' ⟨hc', -, -, hk', -⟩
        obtain ⟨hc, -, -, hk, -⟩ := hacc
        rw [hc] at hc'
        rw [hk] at hk'
        cases hc'
        cases hk'
        exact h
    rw [hone]
    obtain ⟨-, -, -, hget, hrevoked, -⟩ := id hacc
    obtain ⟨db, ht, hearly, hrest⟩ :=
      @exec_refreshFailing_ok P w e draws token c k hacc (n - 3)
    rcases Nat.lt_or_ge n 3 with hn | hn
    · obtain ⟨x, hx⟩ := hearly n (by omega)
      exact iff_of_true (.of_error hx) (.inl (Nat.le_of_lt_succ hn))
    · rw [Nat.sub_add_cancel hn, Prog.exec_handle] at hrest
      rcases exec_failAt_issueTokens_cases P { w with db := db } e draws none c.sub c.email (n - 3)
        with ⟨hn', hvalid, r, w', h⟩ | ⟨hno, x, w', h, -, hprefix⟩
      · rw [h] at hrest
        rw [ht] at hvalid
        exact iff_of_true (.of_ok hrest) (.inr ⟨by omega, hvalid⟩)
      · rw [h] at hrest
        rw [ht] at hno hprefix
        refine iff_of_false ?_ ?_
        · intro h
          exact ne_of_revoked (Rows.get_mem hget) hrevoked hprefix (h _ _ hrest).2
        · rintro (h | ⟨h, hvalid⟩)
          · omega
          · exact hno ⟨by omega, hvalid⟩
  · obtain ⟨x, hx⟩ := @exec_refreshFailing_error P w e draws token hex n
    exact iff_of_true (.of_error hx) fun c k hacc => absurd ⟨c, k, hacc⟩ hex

/-- Both operations leave no trace when they raise, for every awaited call that fails (number `n`,
none from 5 on), exactly if the failure comes before the first commit, or there is none and the
new refresh token can be stored. A registration that stores no user and a refresh whose token is
not accepted leave no trace in any case. -/
theorem failing_calls_leave_no_trace_iff (P : Platform) (w : World) (email password token : String)
    (draws : Draws) (n : ℕ) (e : DbError) :
    (LeavesNoTrace (registerFailing P email password draws n e) w ↔
      ∀ user, NewUser P w email password draws user → n ≤ 1 ∨ 5 ≤ n ∧
        (withToken P { w.db.toTables with users := w.db.users ++ [user] } user.id user.email.val
          draws w.now).Constraints) ∧
    (LeavesNoTrace (refreshFailing P token draws n e) w ↔
      ∀ c k, Accepted P w token c k → n ≤ 2 ∨ 5 ≤ n ∧
        (withToken P (revoked w k) c.sub c.email draws w.now).Constraints) := by
  constructor
  · exact registerFailing_leavesNoTrace_iff P w email password draws n e
  · exact refreshFailing_leavesNoTrace_iff P w token draws n e

/-- The commit of the token raises. The registration of Ana fails and her email is taken; her
refresh answers 401 and her token is revoked. -/
theorem failing_commit_leaves_trace :
    ((registerFailing Platform.plain "ana@example.com" "secret" ⟨1, "salt", 100, 101, 102⟩ 3
        .integrity).exec ⟨Database.empty, [], 0⟩).1 = .error (.db .integrity) ∧
      ((registerFailing Platform.plain "ana@example.com" "secret" ⟨1, "salt", 100, 101, 102⟩ 3
        .integrity).exec ⟨Database.empty, [], 0⟩).2.db.users.map (·.email.val)
          = ["ana@example.com"] ∧
      anaRegistered.db.refreshTokens.map (·.revokedAt) = [none] ∧
      ((refreshFailing Platform.plain anasToken ⟨2, "salt", 200, 201, 202⟩ 3
        .integrity).exec anaRegistered).1
          = .error (.http 401 "Invalid or expired refresh token") ∧
      ((refreshFailing Platform.plain anasToken ⟨2, "salt", 200, 201, 202⟩ 3
        .integrity).exec anaRegistered).2.db.refreshTokens.map (·.revokedAt) = [some 0] := by
  decide +kernel

end AuthService

end LiveMenu
