import LiveMenu.Concurrent.Api
import LiveMenu.Sessions.Phases

/-!
# Accounts last

In every interleaving of all requests users are only added, and token rows are only added and
revoked. A registration that was answered decides every later login with its email.
-/

namespace LiveMenu

/-- Users are only added, and token rows only added and revoked. -/
structure Outlives (t t' : Tables) : Prop where
  users : t.users <+: t'.users
  refreshTokens : LaterRows t.refreshTokens t'.refreshTokens

namespace Outlives

lemma refl (t : Tables) : Outlives t t := ⟨List.prefix_refl _, .refl _⟩

lemma trans {t t' t'' : Tables} (h : Outlives t t') (h' : Outlives t' t'') : Outlives t t'' := by
  refine ⟨h.users.trans h'.users, fun k hk => ?_⟩
  obtain ⟨k', hk', hlater⟩ := h.refreshTokens k hk
  obtain ⟨k'', hk'', hlater'⟩ := h'.refreshTokens k' hk'
  exact ⟨k'', hk'', hlater.trans hlater'⟩

lemma of_same {t t' : Tables} (hu : t'.users = t.users) (hk : t'.refreshTokens = t.refreshTokens) :
    Outlives t t' := ⟨hu ▸ List.prefix_refl _, hk ▸ .refl _⟩

lemma of_tokens {t t' : Tables} (hu : t'.users = t.users)
    (hk : LaterRows t.refreshTokens t'.refreshTokens) : Outlives t t' :=
  ⟨hu ▸ List.prefix_refl _, hk⟩

end Outlives

lemma laterRows_flushAll (ks : List RefreshToken) (at' : Time) (rows : List RefreshToken) :
    LaterRows rows (rows.map (RefreshToken.flushAll (RefreshToken.revocations ks at'))) :=
  Revised.laterRows ⟨_, RefreshToken.later_flushAll ks at', rfl⟩

variable {P : Platform} {F : Facts}

/-- Whatever a request writes, what was there of users and tokens stays. -/
lemma Request.Writes.outlives {now : Time} {t t' : Tables} {req : Request}
    (h : req.Writes P F now t t') : Outlives t t' := by
  cases h with
  | registerUser hhash hrow ht => exact ht ▸ ⟨List.prefix_append _ _, .refl _⟩
  | registerToken huser hid hk ht => exact ht ▸ .of_tokens rfl (laterRows_append _ _)
  | login huser hemail hpassword hk ht => exact ht ▸ .of_tokens rfl (laterRows_append _ _)
  | rotate hpayload hk ht => exact ht ▸ .of_tokens rfl (laterRows_append _ _)
  | logout hks ht => exact ht ▸ .of_tokens rfl (laterRows_flushAll _ _ _)
  | revoke hk hhash ht => exact ht ▸ .of_tokens rfl (laterRows_flushAll _ _ _)
  | restaurantCreate _ ht | categoryCreate _ _ ht | dishCreate _ _ ht | restaurantDelete _ ht
  | categoryDelete _ _ ht | categoryReorder _ _ _ ht | restaurantUpdate _ _ _ ht
  | categoryUpdate _ _ ht | dishUpdate _ _ _ ht | dishDelete _ ht | dishToggle _ ht
  | record _ _ _ _ ht => exact ht ▸ .of_same rfl rfl

lemma Request.Does.outlives {req : Request} {w w' : World} (h : req.Does P F w w') :
    Outlives w.db.toTables w'.db.toTables := by
  cases h with
  | stays hdb hcache hnow => exact hdb ▸ .refl _
  | commits h hcache hnow => exact h.outlives
  | caches hslug hmenu hw => exact hw ▸ .refl _

/-! ### Every interleaving -/

/-- From a process that serves no request on, users and tokens outlive every interleaving. -/
lemma Serves.outlives {db : Database} {now : Time} {mid cfg : ApiConfig}
    (hmid : Serves P (apiStart db now) mid) (h : Serves P mid cfg) :
    Outlives mid.state.db.toTables cfg.state.db.toTables := by
  obtain ⟨hkeep, hI⟩ := closed_nothing.serves hmid (fun _ _ _ => trivial)
    (guaranteed_start db now) (hold_nothing _)
  refine h.evolves (R := fun w w' => Outlives w.db.toTables w'.db.toTables)
    (fun _ req _ _ => Request.yields P {} req) (fun _ _ _ w' _ _ _ => hold_nothing w')
    (fun _ w' _ _ => hold_nothing w') Config.calls_any hkeep hI (fun w => .refl _)
    (fun _ _ _ => .trans) (fun _ _ _ _ _ _ hs => hs.outlives) fun w w' hs => ?_
  rw [hs.1]
  exact .refl _

/-- Users of a state on the way are users at the end. -/
def usersOf (cfg : ApiConfig) : Facts := { user := fun user => user ∈ cfg.state.db.users }

lemma Serves.guaranteed_users {db : Database} {now : Time} {cfg : ApiConfig}
    (h : Serves P (apiStart db now) cfg) : Guaranteed P (usersOf cfg).withMenus cfg := by
  have hrows : ∀ mid, Serves P (apiStart db now) mid → Serves P mid cfg →
      (usersOf cfg).rows.Hold mid.state := fun mid hmid hrest =>
    { hold_nothing mid.state with
      users := fun _ huser => (Serves.outlives hmid hrest).users.subset huser }
  exact (h.guaranteed hrows).1

/-! ### Logins after a registration -/

/-- What a login ends with, for the user whose email it names. -/
def LoginEnds (P : Platform) (user : User) (password : String) (r : Except Exc Response) : Prop :=
  match P.verifyPassword password user.passwordHash.val with
  | .ok true  => (∃ a, r = .ok (.auth a) ∧ a.user = some user) ∨ ∃ e, r = .error (.db e)
  | .ok false => r = .error (.http 401 "Invalid credentials")
  | .error e  => r = .error e

/-- A call that returns for the user, or fails in the database. -/
def ReturnsFor (user : User) (r : Except Exc AuthResult) : Prop :=
  (∃ a, r = .ok a ∧ a.user = some user) ∨ ∃ e, r = .error (.db e)

section

variable {I : World → Prop}

/-- An insertion only fails in the database. -/
lemma Async.keeps_insert {ρ : Type} (t : Table) (row : Time → Except DbError ρ)
    (tables : Tables → ρ → Tables) (find : Uuid → Tables → Option ρ) (id : Uuid) :
    (Async.insert t row tables find id).Keeps I (fun _ _ => True)
      fun r => ∀ e, r = .error e → ∃ e', e = .db e' := by
  refine Prog.Keeps.seq (Q := fun r => ∀ e, r = .error e → ∃ e', e = .db e')
    (Prog.keeps_attempt ?_ ?_) (fun _ _ => ?_) ?_
  · rintro w a w' - -
    exact ⟨trivial, fun _ => by rintro e ⟨⟩⟩
  · intro w e _ hw
    refine ⟨trivial, ?_⟩
    rintro _ ⟨⟩
    split at hw
    · cases hw
    · cases hw
      exact ⟨_, rfl⟩
  · refine Prog.Keeps.seq (Q := fun r => ∃ o, r = .ok o)
      (Prog.keeps_read (fun _ _ => trivial) fun _ _ => ⟨_, rfl⟩) (fun o _ => ?_) ?_
    · cases o with
      | some r => exact Prog.keeps_pure (by rintro e ⟨⟩)
      | none =>
        refine Prog.keeps_raise ?_
        rintro _ ⟨⟩
        exact ⟨_, rfl⟩
    · rintro e ⟨o, ⟨⟩⟩
  · rintro e he _ ⟨⟩
    exact he e rfl

lemma AuthService.keeps_issueTokens (user : User) (userId : Uuid) (email : String) (draws : Draws) :
    (issueTokens P (some user) userId email draws).Keeps I (fun _ _ => True) (ReturnsFor user) := by
  have hclock : ∀ {β : Type} (f : Time → β), (Async.clock >>= fun now => pure (f now)).Keeps I
      (fun _ _ => True) fun r : Except Exc β => ∃ b, r = .ok b :=
    fun f w _ => ⟨trivial, fun _ => ⟨_, rfl⟩⟩
  refine (hclock _).seq (fun accessToken _ => ?_) ?_
  · refine (hclock _).seq (fun refreshToken _ => ?_) ?_
    · refine Prog.Keeps.seq (Q := fun r => ∀ e, r = .error e → ∃ e', e = .db e') ?_
        (fun _ _ => Prog.keeps_pure (.inl ⟨_, rfl, rfl⟩)) ?_
      · refine Prog.Keeps.seq (Q := fun r => ∃ now, r = .ok now)
          (Prog.keeps_read (fun _ _ => trivial) fun _ _ => ⟨_, rfl⟩)
          (fun _ _ => Async.keeps_insert _ _ _ _ _) ?_
        rintro e ⟨now, ⟨⟩⟩
      · intro e he
        obtain ⟨e', rfl⟩ := he e rfl
        exact .inr ⟨e', rfl⟩
    · rintro e ⟨b, ⟨⟩⟩
  · rintro e ⟨b, ⟨⟩⟩

/-- While the email belongs to the user, a login with it is decided by the hash of the user. -/
lemma AuthService.keeps_login {user : User} {email : String} (password : String) (draws : Draws)
    (hI : ∀ w, I w → w.db.users.find? (fun x => x.email.val = P.strLower email) = some user) :
    (Request.code P (.login email password draws)).Keeps I (fun _ _ => True)
      (LoginEnds P user password) := by
  have hfind : (UserRepository.getByEmail P email).Keeps I (fun _ _ => True)
      fun r => r = .ok (some user) :=
    Prog.keeps_read (fun _ _ => trivial) fun w hw => congrArg Except.ok (hI w hw)
  have hlogin : (login P email password draws).Keeps I (fun _ _ => True)
      fun r => LoginEnds P user password (r.map .auth) := by
    rw [login_eq]
    refine hfind.seq ?_ (by rintro e ⟨⟩)
    rintro _ ⟨⟩
    simp only [LoginEnds]
    cases hverify : P.verifyPassword password user.passwordHash.val with
    | error e => exact Prog.keeps_raise rfl
    | ok right =>
      cases right with
      | false => exact Prog.keeps_raise rfl
      | true =>
        refine (keeps_issueTokens user _ _ draws).imp fun r hr => ?_
        obtain ⟨a, rfl, ha⟩ | ⟨e, rfl⟩ := hr
        · exact .inl ⟨a, rfl, ha⟩
        · exact .inr ⟨e, rfl⟩
  exact hlogin.seq (fun a ha => Prog.keeps_pure ha) fun e he => he

end

/-- The registration that call `i` has answered. -/
def registered (cfg : ApiConfig) (i : ℕ) : Option (String × String × Draws × AuthResult) :=
  match cfg.threads i with
  | some ⟨.register email password draws, _, .done (.ok (.auth a))⟩ =>
    some (email, password, draws, a)
  | _ => none

/-- The login that call `i` has ended. -/
def loggedIn (cfg : ApiConfig) (i : ℕ) : Option (String × String × Except Exc Response) :=
  match cfg.threads i with
  | some ⟨.login email password _, _, .done r⟩ => some (email, password, r)
  | _ => none

lemma registered_eq_some {cfg : ApiConfig} {i : ℕ} {email password : String} {draws : Draws}
    {a : AuthResult} (h : registered cfg i = some (email, password, draws, a)) :
    cfg.threads i = some ⟨.register email password draws, (), .done (.ok (.auth a))⟩ := by
  rw [registered] at h
  split at h
  · cases h
    assumption
  · cases h

lemma loggedIn_eq_some {cfg : ApiConfig} {i : ℕ} {email password : String}
    {r : Except Exc Response} (h : loggedIn cfg i = some (email, password, r)) :
    ∃ draws, cfg.threads i = some ⟨.login email password draws, (), .done r⟩ := by
  rw [loggedIn] at h
  split at h
  · cases h
    exact ⟨_, by assumption⟩
  · cases h

/-- What a registration has answered is stored, with the password's hash. -/
lemma Serves.registered_user {db : Database} {now : Time} {mid : ApiConfig}
    (h : Serves P (apiStart db now) mid) {i : ℕ} {email password : String} {draws : Draws}
    {a : AuthResult} (hi : registered mid i = some (email, password, draws, a)) :
    ∃ user, a.user = some user ∧ user ∈ mid.state.db.users ∧ user.email.val = P.strLower email ∧
      P.hashPassword draws.salt password = .ok user.passwordHash.val := by
  have hanswer := (Serves.guaranteed_users h).result (registered_eq_some hi) rfl
  cases hanswer with
  | @register _ _ _ hash at' created user _ t t' hhash hrow hcreated huser hid ha =>
    subst ha
    obtain ⟨hcid, hemail, hpassword⟩ := User.ofCreate_ok hrow
    have heq : user = created :=
      Rows.eq_of_key_eq mid.state.db.valid.userId huser hcreated (hid.trans hcid.symm)
    subst heq
    exact ⟨user, rfl, huser, hemail, hpassword ▸ hhash⟩

lemma Database.find_email {db : Database} {user : User} (h : user ∈ db.users) :
    db.users.find? (fun x => x.email.val = user.email.val) = some user := by
  have hget := Rows.get_of_mem db.valid.userEmail h
  rw [Rows.get] at hget
  rw [← hget]
  congr 1
  funext x
  exact decide_eq_decide.mpr ⟨Varchar.eq_of_val, congrArg Varchar.val⟩

/-- In every interleaving of all requests: users are only added and token rows only added and
revoked, and once a registration has answered, every login with its email that begins later is
decided by the hash of its password, and returns for the user it has created. -/
theorem registration_lasts (P : Platform) (db : Database) (now : Time) {mid cfg : ApiConfig}
    (hmid : Serves P (apiStart db now) mid) (h : Serves P mid cfg) :
    Outlives mid.state.db.toTables cfg.state.db.toTables ∧
      ∀ i email password draws a, registered mid i = some (email, password, draws, a) →
        ∃ user, a.user = some user ∧ user ∈ cfg.state.db.users ∧
          P.hashPassword draws.salt password = .ok user.passwordHash.val ∧
          ∀ j email' password' r, mid.threads j = none →
            P.strLower email' = P.strLower email →
            loggedIn cfg j = some (email', password', r) → LoginEnds P user password' r := by
  refine ⟨Serves.outlives hmid h, fun i email password draws a hi => ?_⟩
  obtain ⟨user, ha, hmem, hemail, hhash⟩ := Serves.registered_user hmid hi
  refine ⟨user, ha, (Serves.outlives hmid h).users.subset hmem, hhash, ?_⟩
  intro j email' password' r hj hsame hlogin
  obtain ⟨draws', hlogin⟩ := loggedIn_eq_some hlogin
  -- from `mid` on the row of the user is there, whatever the calls do
  refine h.result_of_later (J := fun w => user ∈ w.db.users)
    (fun c hc _ => (Serves.outlives hmid hc).users.subset hmem) hj hlogin rfl
    (AuthService.keeps_login password' draws' fun w hw => ?_)
  rw [hsame, ← hemail]
  exact Database.find_email hw

/-- Ana registers; then somebody logs in with a wrong password and she with hers, in capitals, while
somebody else registers. -/
theorem registration_lasts_ana :
    ∃ mid cfg user guess r, Serves Platform.plain (apiStart Database.empty 0) mid ∧
      Serves Platform.plain mid cfg ∧
      loggedIn cfg 1 = some ("ana@example.com", "guess", guess) ∧ guess.toBool = false ∧
      loggedIn cfg 2 = some ("ANA@example.com", "secret", r) ∧ r.toBool = true ∧
      user ∈ cfg.state.db.users ∧ LoginEnds Platform.plain user "guess" guess ∧
      LoginEnds Platform.plain user "secret" r := by
  have hrun : ((apiSystem Platform.plain).follow (fun _ _ => true)
      (.start 0 (.register "ana@example.com" "secret" ⟨1, "salt", 100, 101, 102⟩) ::
        List.replicate 8 (.run 0)) (apiStart Database.empty 0)).any (fun mid =>
      ((registered mid 0).any (fun r => r.1 = "ana@example.com") &&
        ((mid.threads 1).isNone && (mid.threads 2).isNone)) &&
      ((apiSystem Platform.plain).follow (fun _ _ => true)
        (.start 1 (.login "ana@example.com" "guess" ⟨0, "", 200, 201, 202⟩) ::
          .start 2 (.login "ANA@example.com" "secret" ⟨0, "", 300, 301, 302⟩) ::
          .start 3 (.register "luis@example.com" "other" ⟨2, "salt", 400, 401, 402⟩) ::
          [2, 3, 2, 3, 1, 2, 2, 3, 3, 2, 2].map .run) mid).any fun cfg =>
        (loggedIn cfg 1).any (fun l => l.1 = "ana@example.com" && l.2.1 = "guess" &&
            !l.2.2.toBool) &&
          (loggedIn cfg 2).any fun l => l.1 = "ANA@example.com" && l.2.1 = "secret" &&
            l.2.2.toBool) = true := by
    decide +kernel
  obtain ⟨mid, hmid, hfirst⟩ := System.exists_reach_of_follow hrun
  obtain ⟨hmid', hrest⟩ := Bool.and_eq_true_iff.mp hfirst
  simp only [Bool.and_eq_true, Option.any_eq_true] at hmid'
  obtain ⟨⟨⟨_, password, draws, a⟩, hreg, hemail⟩, hnone₁, hnone₂⟩ := hmid'
  obtain ⟨cfg, h, hlogins⟩ := System.exists_reach_of_follow hrest
  simp only [Bool.and_eq_true, Option.any_eq_true, Bool.not_eq_true', decide_eq_true_eq] at hlogins
  obtain ⟨⟨⟨_, _, guess⟩, h₁, ⟨rfl, rfl⟩, hbad⟩, ⟨_, _, r⟩, h₂, ⟨rfl, rfl⟩, hgood⟩ := hlogins
  have hlasts := (registration_lasts Platform.plain Database.empty 0 hmid h).2
  obtain ⟨user, -, hmem, -, hends⟩ := hlasts 0 _ _ _ _ hreg
  have hsame := (of_decide_eq_true hemail).symm
  have hcapitals : Platform.plain.strLower "ANA@example.com"
      = Platform.plain.strLower "ana@example.com" := by decide +kernel
  exact ⟨mid, cfg, user, guess, r, hmid, h, h₁, hbad, h₂, hgood, hmem,
    hends 1 _ _ _ (Option.isNone_iff_eq_none.mp hnone₁) (congrArg _ hsame) h₁,
    hends 2 _ _ _ (Option.isNone_iff_eq_none.mp hnone₂) (hcapitals.trans (congrArg _ hsame)) h₂⟩

end LiveMenu
