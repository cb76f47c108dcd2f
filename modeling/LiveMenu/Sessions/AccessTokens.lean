import LiveMenu.Sessions.Accounts

/-!
# Access tokens

A bearer token is checked against the clock and against nothing that is stored. In every
interleaving of all requests, the user whom an access token makes its bearer act as is one who has
signed in with a password, at the start of a chain of refreshes; the token does so from the call
that has returned it on until it expires, and the refresh token next to it never does.
-/

namespace LiveMenu

variable {P : Platform}

/-! ### Checking a token -/

/-- An access token that was created at `issuedAt` is taken. -/
def TakenAt (P : Platform) (issuedAt now : Time) : Prop :=
  wholeSeconds issuedAt ≤ wholeSeconds now ∧
    wholeSeconds now ≤ wholeSeconds (issuedAt + Time.minutes P.jwtAccessTtlMin)

instance (issuedAt now : Time) : Decidable (TakenAt P issuedAt now) :=
  inferInstanceAs (Decidable (_ ∧ _))

section

variable (hjwt : ∀ c, P.jwtDecode (P.jwtEncode c) = some c) (w : World) (op : AdminOp)
include hjwt

/-- With an access token an operation is one of the user of the token. -/
lemma AdminOp.exec_authorized (u : Uuid) (email : String) (jti : Uuid) (t : Time) :
    (op.authorized P (P.jwtEncode (accessClaims P u email jti t))).exec w
      = if TakenAt P t w.now then (op.code P u).exec w
        else (.error (.http 401 "token_expired"), w) := by
  rw [authorized, getCurrentUserId, Prog.exec_bind, Prog.exec_handle, Prog.exec_bind]
  obtain ⟨c, hc, htime, -, hx⟩ | ⟨hnone, hx⟩ :=
    exec_verifyAccessToken P w (P.jwtEncode (accessClaims P u email jti t))
  · rw [hjwt, Option.some.injEq] at hc
    subst hc
    have htaken : TakenAt P t w.now := htime
    rw [hx, if_pos htaken]
    rfl
  · have hnot : ¬TakenAt P t w.now := fun htaken => hnone ⟨_, hjwt _, htaken, rfl⟩
    rw [hx, if_neg hnot]
    rfl

/-- With a refresh token no operation is. -/
lemma AdminOp.exec_authorized_refresh (u : Uuid) (email : String) (jti : Uuid) (t : Time) :
    (op.authorized P (P.jwtEncode (refreshClaims P u email jti t))).exec w
      = (.error (.http 401 "token_expired"), w) := by
  rw [authorized, getCurrentUserId, Prog.exec_bind, Prog.exec_handle, Prog.exec_bind]
  obtain ⟨c, hc, -, htype, -⟩ | ⟨-, hx⟩ :=
    exec_verifyAccessToken P w (P.jwtEncode (refreshClaims P u email jti t))
  · rw [hjwt, Option.some.injEq] at hc
    subst hc
    have htype : "refresh" = "access" := htype
    exact absurd htype (by decide)
  · rw [hx]
    rfl

end

/-! ### Pairs of tokens -/

/-- The tokens are for the user, and the access token was created at `t`. -/
def AuthResult.IsPair (P : Platform) (a : AuthResult) (u : Uuid) (t : Time) : Prop :=
  ∃ email jti jti' t', a.accessToken = P.jwtEncode (accessClaims P u email jti t) ∧
    a.refreshToken = P.jwtEncode (refreshClaims P u email jti' t')

/-- The tokens that the call `i` has returned. -/
def answeredAuth (cfg : ApiConfig) (i : ℕ) : Option (Request × AuthResult) :=
  match cfg.threads i with
  | some ⟨req, _, .done (.ok (.auth a))⟩ => some (req, a)
  | _                                    => none

lemma answeredAuth_eq_some {cfg : ApiConfig} {i : ℕ} {req : Request} {a : AuthResult} :
    answeredAuth cfg i = some (req, a) ↔ cfg.threads i = some ⟨req, (), .done (.ok (.auth a))⟩ := by
  rw [answeredAuth]
  constructor
  · intro h
    split at h
    · cases h
      assumption
    · cases h
  · intro h
    rw [h]

/-- The request has the email and the password of the user. -/
def Request.HasPassword (P : Platform) (user : User) : Request → Prop
  | .register email password draws => user.email.val = P.strLower email ∧
    P.hashPassword draws.salt password = .ok user.passwordHash.val
  | .login email password _        => user.email.val = P.strLower email ∧
    P.verifyPassword password user.passwordHash.val = .ok true
  | _                              => False

/-- A call with the password of the user has returned tokens. -/
def SignedIn (P : Platform) (cfg : ApiConfig) (u : Uuid) : Prop :=
  ∃ i req a, answeredAuth cfg i = some (req, a) ∧
    ∃ user ∈ cfg.state.db.users, user.id = u ∧ req.HasPassword P user

/-- Refresh tokens are not forged: one that verifies is of a user of `before`, or is only used when
a call has returned it. -/
def Genuine (P : Platform) (before : Set Uuid) :
    System.Guard Request Unit World Label Exc Response Unit := fun cfg _ th _ =>
  ∀ token draws c, th.call = .refresh token draws → P.jwtDecode token = some c →
    c.sub ∈ before ∨ ∃ j req a, answeredAuth cfg j = some (req, a) ∧ a.refreshToken = token

/-- The interleavings in which refresh tokens are not forged. -/
abbrev ServesGenuine (P : Platform) (before : Set Uuid) (cfg cfg' : ApiConfig) : Prop :=
  (apiSystem P).Reach (Genuine P before) cfg cfg'

section

variable {db : Database} {now : Time} {mid cfg : ApiConfig}

lemma Serves.still_answered (h : Serves P mid cfg) {i : ℕ} {req : Request} {a : AuthResult}
    (hi : answeredAuth mid i = some (req, a)) : answeredAuth cfg i = some (req, a) := by
  rw [answeredAuth_eq_some] at hi ⊢
  exact h.done_eq hi rfl

lemma Serves.signedIn (hmid : Serves P (apiStart db now) mid) (h : Serves P mid cfg) {u : Uuid}
    (hu : SignedIn P mid u) : SignedIn P cfg u := by
  obtain ⟨i, req, a, hi, user, hmem, hid, hpassword⟩ := hu
  exact ⟨i, req, a, h.still_answered hi, user, (Serves.outlives hmid h).users.subset hmem, hid,
    hpassword⟩

/-- The clock does not go back. -/
lemma Serves.now_le (hmid : Serves P (apiStart db now) mid) (h : Serves P mid cfg) :
    mid.state.now ≤ cfg.state.now := by
  obtain ⟨hkeep, hI⟩ := closed_nothing.serves hmid (fun _ _ _ => trivial)
    (guaranteed_start db now) (hold_nothing _)
  refine h.evolves (R := fun w w' => w.now ≤ w'.now)
    (fun _ req _ _ => Request.yields P {} req) (fun _ _ _ w' _ _ _ => hold_nothing w')
    (fun _ w' _ _ => hold_nothing w') Config.calls_any hkeep hI (fun _ => le_rfl)
    (fun _ _ _ => le_trans) (fun _ _ _ _ _ _ hs => ?_) fun _ _ hs => hs.2.2
  cases hs with
  | stays hdb hcache hnow => exact hnow.ge
  | commits h hcache hnow => exact hnow.ge
  | caches hslug hmenu hw => exact hw ▸ le_rfl

/-- The tokens of a call that has answered are for a user who has signed in. -/
lemma ServesGenuine.pair (hjwt : ∀ c, P.jwtDecode (P.jwtEncode c) = some c) {before : Set Uuid}
    (h : ServesGenuine P before (apiStart db now) cfg) :
    ∀ i req a, answeredAuth cfg i = some (req, a) →
      ∃ u t, a.IsPair P u t ∧ (u ∈ before ∨ SignedIn P cfg u) ∧
        ∀ user, a.user = some user → user.id = u := by
  induction h with
  | refl =>
    intro i req a hi
    cases answeredAuth_eq_some.mp hi
  | @tail mid last hreach hs ih =>
    have hmid : Serves P (apiStart db now) mid := System.Reach.always hreach
    have hlast : Serves P mid last := System.Reach.always (.single hs)
    intro i req a hi
    have hthread := answeredAuth_eq_some.mp hi
    have hsigned : ∀ {user : User}, user ∈ last.state.db.users → req.HasPassword P user →
        SignedIn P last user.id := fun hmem hpassword => ⟨i, req, a, hi, _, hmem, rfl, hpassword⟩
    cases (Serves.guaranteed_users (hmid.trans hlast)).result hthread rfl with
    | @register email password draws hash at' created user _ t t' hhash hrow hcreated huser hid
        ha =>
      obtain ⟨hcid, hemail, hpassword⟩ := User.ofCreate_ok hrow
      obtain rfl : user = created :=
        Rows.eq_of_key_eq last.state.db.valid.userId huser hcreated (hid.trans hcid.symm)
      subst ha
      have hu := hsigned huser ⟨hemail, hpassword ▸ hhash⟩
      refine ⟨user.id, t, ⟨_, _, _, t', rfl, rfl⟩, .inr hu, ?_⟩
      rintro _ ⟨⟩
      rfl
    | @login email password draws user _ t t' huser hemail hpassword ha =>
      subst ha
      refine ⟨user.id, t, ⟨_, _, _, t', rfl, rfl⟩, .inr (hsigned huser ⟨hemail, hpassword⟩), ?_⟩
      rintro _ ⟨⟩
      rfl
    | @refresh token draws payload _ t t' hpayload ha =>
      obtain hth | hfirst | ⟨th, l, hth, hcall, hgenuine⟩ := hs.thread_cases hthread
      · obtain ⟨u, t₀, hpair, hu, huser⟩ := ih i _ a (answeredAuth_eq_some.mpr hth)
        exact ⟨u, t₀, hpair, hu.imp_right (Serves.signedIn hmid hlast), huser⟩
      · -- a refresh whose token verifies does not end without a step
        have hstep : ∃ l eff next, (Request.refresh token draws).code P = .step l eff next := by
          simp only [Request.code, AuthService.refresh, verifyRefreshToken, decodeToken, hpayload]
          exact ⟨_, _, _, rfl⟩
        obtain ⟨l, eff, next, hcode⟩ := hstep
        have hfirst := hfirst.trans hcode
        cases hfirst
      · subst ha
        refine ⟨payload.sub, t, ⟨_, _, _, t', rfl, rfl⟩, ?_, by rintro _ ⟨⟩⟩
        obtain hbefore | ⟨j, req', a', hj, heq⟩ := hgenuine token draws payload hcall hpayload
        · exact .inl hbefore
        · -- the token is one of an earlier answer
          obtain ⟨u, t₀, ⟨email, jti, jti', t₁, -, hrefresh⟩, hu, -⟩ := ih j req' a' hj
          rw [← heq, hrefresh, hjwt, Option.some.injEq] at hpayload
          subst hpayload
          exact hu.imp_right (Serves.signedIn hmid hlast)

end

/-! ### When a token is created -/

section

variable {α β : Type} {lo hi : Time}

/-- A coroutine that runs while the clock shows times from `lo` to `hi` returns what meets `q`. -/
abbrev Async.ReturnsIn (lo hi : Time) (q : α → Prop) (p : Async α) : Prop :=
  p.Keeps (fun w => lo ≤ w.now ∧ w.now ≤ hi) (fun _ _ => True) (OnReturn q)

lemma Async.ReturnsIn.bind {q : α → Prop} {q' : β → Prop} {p : Async α} {k : α → Async β}
    (hp : p.ReturnsIn lo hi q) (hk : ∀ a, q a → (k a).ReturnsIn lo hi q') :
    (p >>= k).ReturnsIn lo hi q' :=
  Prog.Keeps.seq hp hk fun _ _ => trivial

/-- What comes first does not matter. -/
lemma Async.returnsIn_after {q : β → Prop} {p : Async α} {k : α → Async β}
    (hk : ∀ a, (k a).ReturnsIn lo hi q) : (p >>= k).ReturnsIn lo hi q := by
  refine Async.ReturnsIn.bind (q := fun _ => True) (Prog.keeps_any fun r => ?_) fun a _ => hk a
  cases r <;> trivial

lemma Async.returnsIn_stamped (f : Time → α) :
    (Async.clock >>= fun now => pure (f now)).ReturnsIn lo hi
      fun a => ∃ t, lo ≤ t ∧ t ≤ hi ∧ a = f t :=
  fun w hw => ⟨trivial, fun _ => ⟨w.now, hw.1, hw.2, rfl⟩⟩

/-- The tokens are for one user, and the access token was created in that time. -/
abbrev AuthResult.CreatedIn (P : Platform) (lo hi : Time) (a : AuthResult) : Prop :=
  ∃ u t, a.IsPair P u t ∧ lo ≤ t ∧ t ≤ hi

namespace AuthService

lemma returnsIn_issueTokens (user : Option User) (u : Uuid) (email : String) (draws : Draws) :
    (issueTokens P user u email draws).ReturnsIn lo hi (AuthResult.CreatedIn P lo hi) := by
  refine (Async.returnsIn_stamped _).bind ?_
  rintro _ ⟨t, hlo, hhi, rfl⟩
  refine (Async.returnsIn_stamped _).bind ?_
  rintro _ ⟨t', -, -, rfl⟩
  refine Async.returnsIn_after fun _ => ?_
  exact Prog.keeps_pure ⟨u, t, ⟨email, _, _, t', rfl, rfl⟩, hlo, hhi⟩

lemma returnsIn_register (email password : String) (draws : Draws) :
    (register P email password draws).ReturnsIn lo hi (AuthResult.CreatedIn P lo hi) := by
  refine Async.returnsIn_after fun taken => ?_
  split_ifs
  · exact Prog.keeps_raise trivial
  · cases P.hashPassword draws.salt password with
    | error e => exact Prog.keeps_raise trivial
    | ok hash => exact Async.returnsIn_after fun user => returnsIn_issueTokens _ _ _ _

lemma returnsIn_login (email password : String) (draws : Draws) :
    (login P email password draws).ReturnsIn lo hi (AuthResult.CreatedIn P lo hi) := by
  rw [login_eq]
  refine Async.returnsIn_after fun found => ?_
  cases found with
  | none => exact Prog.keeps_raise trivial
  | some user =>
    dsimp only
    cases P.verifyPassword password user.passwordHash.val with
    | error e => exact Prog.keeps_raise trivial
    | ok right =>
      cases right with
      | false => exact Prog.keeps_raise trivial
      | true => exact returnsIn_issueTokens _ _ _ _

lemma returnsIn_refresh (token : String) (draws : Draws) :
    (refresh P token draws).ReturnsIn lo hi (AuthResult.CreatedIn P lo hi) := by
  have hbody : Async.ReturnsIn lo hi (AuthResult.CreatedIn P lo hi) (do
      let payload ← verifyRefreshToken P token
      let valid ← RefreshTokenRepository.isValid P token
      if !valid then
        Async.http 401 "Invalid or expired refresh token"
      else
        rotate P token payload draws) := by
    refine Async.returnsIn_after fun payload => Async.returnsIn_after fun valid => ?_
    split_ifs
    · exact Prog.keeps_raise trivial
    · exact Async.returnsIn_after fun _ => returnsIn_issueTokens _ _ _ _
  refine Prog.Keeps.handle (Prog.Keeps.imp hbody fun r hr => ?_)
  cases r with
  | ok a => exact hr
  | error e => cases e <;> exact Prog.keeps_raise trivial

end AuthService

end

/-- The tokens of a call that begins after `first` are created from then on. -/
lemma Serves.createdIn {db : Database} {now : Time} {first cfg : ApiConfig}
    (hfirst : Serves P (apiStart db now) first) (h : Serves P first cfg) {i : ℕ} {req : Request}
    {a : AuthResult} (hidle : first.threads i = none) (hi : answeredAuth cfg i = some (req, a)) :
    a.CreatedIn P first.state.now cfg.state.now := by
  have hthread := answeredAuth_eq_some.mp hi
  have hclock : ∀ mid, Serves P first mid → Serves P mid cfg →
      first.state.now ≤ mid.state.now ∧ mid.state.now ≤ cfg.state.now :=
    fun mid hmid hrest => ⟨hfirst.now_le hmid, Serves.now_le (hfirst.trans hmid) hrest⟩
  have hcall : ∀ {p : Async AuthResult},
      p.ReturnsIn first.state.now cfg.state.now
        (AuthResult.CreatedIn P first.state.now cfg.state.now) →
      req.code P = Response.auth <$> p → a.CreatedIn P first.state.now cfg.state.now := by
    intro p hp hcode
    have hret : (req.code P).ReturnsIn first.state.now cfg.state.now
        fun r => ∀ a, r = .auth a → a.CreatedIn P first.state.now cfg.state.now := by
      rw [hcode]
      refine hp.bind fun a' ha' => Prog.keeps_pure ?_
      rintro _ ⟨⟩
      exact ha'
    exact h.result_of_later hclock hidle hthread rfl hret a rfl
  cases (Serves.guaranteed_users (hfirst.trans h)).result hthread rfl with
  | register => exact hcall (AuthService.returnsIn_register _ _ _) rfl
  | login => exact hcall (AuthService.returnsIn_login _ _ _) rfl
  | refresh => exact hcall (AuthService.returnsIn_refresh _ _) rfl

/-! ### Who acts -/

/-- In every interleaving of all requests in which no refresh token is forged: the tokens that a
call returns are for a user who has signed in with a password (or had a session before the process
began). From then on, until the lifetime of the access token is over, every operation called with it
is that user's, whatever is stored then; after that, and with the refresh token at any time, it is a
401 that changes nothing. -/
theorem access_tokens_need_a_password (P : Platform)
    (hjwt : ∀ c, P.jwtDecode (P.jwtEncode c) = some c) (db : Database) (now : Time)
    (before : Set Uuid) {first cfg : ApiConfig}
    (hfirst : ServesGenuine P before (apiStart db now) first)
    (h : ServesGenuine P before first cfg) {i : ℕ} {req : Request} {a : AuthResult}
    (hidle : first.threads i = none) (hi : answeredAuth cfg i = some (req, a)) :
    ∃ u issuedAt, (u ∈ before ∨ SignedIn P cfg u) ∧ (∀ user, a.user = some user → user.id = u) ∧
      first.state.now ≤ issuedAt ∧ issuedAt ≤ cfg.state.now ∧
      ∀ (op : AdminOp) w,
        (op.authorized P a.accessToken).exec w
          = (if TakenAt P issuedAt w.now then (op.code P u).exec w
            else (.error (.http 401 "token_expired"), w)) ∧
        (op.authorized P a.refreshToken).exec w = (.error (.http 401 "token_expired"), w) := by
  obtain ⟨u, t₀, hpair, hu, huser⟩ := ServesGenuine.pair hjwt (hfirst.trans h) i req a hi
  obtain ⟨u', t, ⟨email, jti, jti', t', haccess, hrefresh⟩, hlo, hhi⟩ :=
    Serves.createdIn hfirst.always h.always hidle hi
  -- both speak of the same token
  obtain rfl : u' = u := by
    obtain ⟨email', _, _, _, haccess', -⟩ := hpair
    have hclaims := congrArg P.jwtDecode (haccess'.symm.trans haccess)
    rw [hjwt, hjwt, Option.some.injEq] at hclaims
    exact (congrArg Claims.sub hclaims).symm
  refine ⟨u', t, hu, huser, hlo, hhi, fun op w => ⟨?_, ?_⟩⟩
  · rw [haccess]
    exact op.exec_authorized hjwt w u' email jti t
  · rw [hrefresh]
    exact op.exec_authorized_refresh hjwt w u' email jti' t'

/-- A refresh is only resumed when one of the first `n` calls has returned its token. -/
def returnedBelow (n : ℕ) (cfg : ApiConfig) (i : ℕ) : Bool :=
  match cfg.threads i with
  | some ⟨.refresh token _, _, _⟩ =>
    (List.range n).any fun j => (answeredAuth cfg j).any fun x => x.2.refreshToken = token
  | _                             => true

lemma genuine_of_returnedBelow {before : Set Uuid} {n : ℕ} {cfg : ApiConfig} {i : ℕ}
    {th : Thread Request Unit World Label Exc Response} {l : Label} (hi : cfg.threads i = some th)
    (h : returnedBelow n cfg i = true) : Genuine P before cfg i th l := by
  intro token draws c hcall _
  obtain ⟨call, phase, code⟩ := th
  obtain rfl : call = .refresh token draws := hcall
  rw [returnedBelow, hi] at h
  obtain ⟨j, -, hj⟩ := List.any_eq_true.mp h
  obtain ⟨x, hx, heq⟩ := (Option.any_eq_true _ _).mp hj
  exact .inr ⟨j, x.1, x.2, hx, of_decide_eq_true heq⟩

/-- Ana registers and refreshes; she acts with the new access token. -/
theorem access_tokens_need_a_password_ana :
    ∃ first cfg req a, ServesGenuine Platform.plain ∅ (apiStart Database.empty 0) first ∧
      ServesGenuine Platform.plain ∅ first cfg ∧ first.threads 1 = none ∧
      answeredAuth cfg 1 = some (req, a) ∧ a.user = none ∧ SignedIn Platform.plain cfg 1 ∧
      ∀ op : AdminOp, (op.authorized Platform.plain a.accessToken).exec cfg.state
        = (op.code Platform.plain 1).exec cfg.state := by
  have hrun : ((apiSystem Platform.plain).follow (returnedBelow 2)
      (.start 0 (.register "ana@example.com" "secret" ⟨1, "salt", 100, 101, 102⟩) ::
        List.replicate 8 (.run 0)) (apiStart Database.empty 0)).any (fun first =>
      ((first.threads 1).isNone && first.state.now = 0) &&
        (answeredAuth first 0).any fun x => ((apiSystem Platform.plain).follow (returnedBelow 2)
          (.start 1 (.refresh x.2.refreshToken ⟨0, "", 200, 201, 202⟩) ::
            List.replicate 11 (.run 1)) first).any fun cfg =>
              (cfg.state.now = 0 && cfg.state.db.users.map (·.id) = [1]) &&
                (answeredAuth cfg 1).any fun y => y.2.user.isNone) = true := by
    decide +kernel
  have hok : ∀ (cfg : ApiConfig) i th l, cfg.threads i = some th → returnedBelow 2 cfg i = true →
      Genuine Platform.plain ∅ cfg i th l := fun _ _ _ _ hi h => genuine_of_returnedBelow hi h
  obtain ⟨first, hfirst, hrest⟩ := System.exists_reach_of_checked hok hrun
  obtain ⟨hstart, hrest⟩ := Bool.and_eq_true_iff.mp hrest
  obtain ⟨x, -, hrest⟩ := (Option.any_eq_true _ _).mp hrest
  obtain ⟨cfg, h, hcfg⟩ := System.exists_reach_of_checked hok hrest
  simp only [Bool.and_eq_true, Option.any_eq_true, decide_eq_true_eq,
    Option.isNone_iff_eq_none] at hstart hcfg
  obtain ⟨hnone, hnow⟩ := hstart
  obtain ⟨⟨hnow', hids⟩, ⟨req, a⟩, hi, huser⟩ := hcfg
  obtain ⟨u, issuedAt, hu, -, hlo, hhi, hact⟩ := access_tokens_need_a_password Platform.plain
    Platform.plain_jwtDecode Database.empty 0 ∅ hfirst h hnone hi
  have hsigned : SignedIn Platform.plain cfg u := hu.resolve_left fun hu => hu.elim
  have hone : u = 1 := by
    obtain ⟨_, _, _, _, user, hmem, rfl, -⟩ := hsigned
    have hid := List.mem_map_of_mem (f := (·.id)) hmem
    rw [hids] at hid
    exact List.mem_singleton.mp hid
  subst hone
  refine ⟨first, cfg, req, a, hfirst, h, hnone, hi, huser, hsigned, fun op => ?_⟩
  rw [hnow] at hlo
  rw [hnow'] at hhi
  obtain rfl : issuedAt = 0 := le_antisymm hhi hlo
  rw [(hact op cfg.state).1, hnow', if_pos (by decide)]

end LiveMenu
