import LiveMenu.Sequential.Menu
import LiveMenu.Sequential.Auth

/-!
# The check of the password

The password library hashes the first 72 bytes of a password and raises on some. A login with
the email of a registered user, in any case, succeeds for the registered password alone exactly
where the library takes the password and tells it from the registered one.
-/

namespace LiveMenu

variable {P : Platform}

/-! ### The password library -/

/-- The bytes of a password that are hashed: the first 72 of its UTF-8 encoding. -/
def hashedBytes (password : String) : List UInt8 :=
  (password.toList.flatMap String.utf8EncodeChar).take 72

/-- `pwd_context` with the scheme bcrypt: it raises on some passwords, those with a NUL among
them, and compares the bytes that are hashed. -/
structure Platform.Bcrypt (P : Platform) (rejects : String → Prop) : Prop where
  nul : ∀ password, nul ∈ password.toList → rejects password
  hash_rejected : ∀ salt password, rejects password →
    P.hashPassword salt password = .error .password
  verify_rejected : ∀ password hash, rejects password →
    P.verifyPassword password hash = .error .password
  verify : ∀ salt password hash password', P.hashPassword salt password = .ok hash →
    ¬ rejects password' → P.verifyPassword password' hash
      = .ok (decide (hashedBytes password' = hashedBytes password))

/-! ### A login with the password of a request -/

lemma PyStr.eq_ofString {q : PyStr} {cs : List Char} (h : q.encode = some cs) :
    q = PyStr.ofString (String.ofList cs) := by
  rw [PyStr.ofString, String.toList_ofList]
  exact PyStr.encode_eq_some.mp h

lemma PyStr.ofString_inj {s t : String} : PyStr.ofString s = PyStr.ofString t ↔ s = t := by
  constructor
  · intro h
    have hs := PyStr.encode_ofString s
    rw [h, PyStr.encode_ofString] at hs
    exact (String.toList_inj.mp (Option.some.inj hs)).symm
  · rintro rfl
    rfl

namespace AuthService

/-! ### The registered user -/

/-- The user is stored under the lower case of the email, with a hash of the password. -/
def Registered (P : Platform) (w : World) (email password : String) (user : User) : Prop :=
  user ∈ w.db.users ∧ user.email.val = P.strLower email ∧
    ∃ salt, P.hashPassword salt password = .ok user.passwordHash.val

lemma registered_of_register {w w' : World} {email password : String} {draws : Draws}
    {r : AuthResult} (h : (register P email password draws).exec w = (.ok r, w')) :
    ∃ user, Registered P w' email password user := by
  simp only [register, UserRepository.existsByEmail, UserRepository.getByEmail, Prog.bind_assoc,
    Async.exec_select_bind, Prog.exec_pure_bind] at h
  split_ifs at h with htaken
  · cases h
  · cases hhash : P.hashPassword draws.salt password with
    | error e =>
      rw [hhash] at h
      cases h
    | ok hash =>
      rw [hhash] at h
      dsimp only at h
      rcases UserRepository.create_cases w P email hash draws.userId with
        ⟨e, hx⟩ | ⟨user, db, hrow, ht, hx⟩
      · rw [Prog.exec_bind_error hx] at h
        cases h
      · rw [Prog.exec_bind_ok hx] at h
        obtain ⟨-, hemail, hstored⟩ := User.ofCreate_ok hrow
        have husers : db.users = w.db.users ++ [user] := congrArg Tables.users ht
        have hmem : user ∈ db.users := by
          rw [husers]
          exact List.mem_append_right _ (.head _)
        rcases issueTokens_cases P { w with db := db } (some user) user.id user.email.val draws with
          ⟨e, hi⟩ | ⟨db', ht', hi⟩
        · rw [hi] at h
          cases h
        · rw [hi] at h
          cases h
          have husers' : db'.users = db.users := (congrArg Tables.users ht').trans rfl
          refine ⟨user, ?_, hemail, draws.salt, ?_⟩
          · show user ∈ db'.users
            rwa [husers']
          · rw [hstored, hhash]

/-- An owner changes no user. -/
lemma users_of_adminEffect {u : Uuid} {w w' : World} {op : AdminOp} {r : Response}
    (h : AdminEffect P u w op r w') : w'.db.users = w.db.users := by
  cases h with
  | restaurantGet | categoryList | dishList | dishGet | analyticsGet | analyticsExport => rfl
  | restaurantDelete _ hdb | categoryDelete _ _ hdb | logout hdb =>
    exact (congrArg Tables.users hdb).trans rfl
  | restaurantCreate _ _ _ hdb | categoryCreate _ _ hdb | dishCreate _ _ hdb =>
    exact (congrArg Tables.users hdb).trans rfl
  | restaurantUpdate _ _ _ hdb | categoryUpdate _ _ _ hdb | categoryReorder _ _ _ hdb =>
    exact (congrArg Tables.users hdb).trans rfl
  | dishUpdate _ _ _ hdb | dishDelete _ _ hdb | dishToggle _ _ hdb =>
    exact (congrArg Tables.users hdb).trans rfl

/-- Nothing removes or changes a user. -/
lemma users_subset (P : Platform) (w : World) (e : Event) :
    w.db.users ⊆ (e.run P w).db.users := by
  cases e with
  | tick delay => exact List.Subset.refl _
  | request r =>
    rw [Event.run]
    cases r with
    | menu scan slug =>
      rw [Request.code, Prog.exec_map, MenuService.getMenuBySlug_db]
      exact List.Subset.refl _
    | viewMenu scan slug client id =>
      rw [Request.code, Prog.exec_map]
      obtain ⟨events, ht⟩ := MenuRouter.getMenu_tables P w scan slug client id
      rw [ht]
      exact List.Subset.refl _
    | admin u op =>
      rw [Request.code]
      rcases AdminOp.cases P u op w with ⟨e, h⟩ | ⟨r, w', h, heffect⟩
      · rw [h]
        exact List.Subset.refl _
      · rw [h, users_of_adminEffect heffect]
        exact List.Subset.refl _
    | register email password draws =>
      rw [Request.code, Prog.exec_map]
      rcases register_cases P w email password draws with
        ⟨e, h⟩ | ⟨user, db, ht, ⟨e, h⟩ | ⟨db', ht', h⟩⟩ <;> rw [h]
      · exact List.Subset.refl _
      · rw [show db.users = _ from congrArg Tables.users ht]
        exact List.subset_append_left _ _
      · rw [show db'.users = _ from congrArg Tables.users ht', show db.users = _ from
          congrArg Tables.users ht]
        exact List.subset_append_left _ _
    | login email password draws =>
      rw [Request.code, Prog.exec_map]
      rcases login_cases P w email password draws with ⟨e, h⟩ | ⟨user, db, -, -, ht, h⟩ <;> rw [h]
      · exact List.Subset.refl _
      · rw [show db.users = _ from congrArg Tables.users ht]
        exact List.Subset.refl _
    | refresh token draws =>
      rw [Request.code, Prog.exec_map]
      rcases refresh_cases P w token draws with
        ⟨-, status, detail, -, -, h⟩ | ⟨c, k, db, -, ht, ⟨-, h⟩ | ⟨db', ht', h⟩⟩ <;> rw [h]
      · exact List.Subset.refl _
      · rw [show db.users = _ from congrArg Tables.users ht]
        exact List.Subset.refl _
      · rw [show db'.users = _ from congrArg Tables.users ht', show db.users = _ from
          congrArg Tables.users ht]
        exact List.Subset.refl _

/-- A registered user stays registered. -/
lemma registered_runEvents {w : World} {email password : String} {user : User}
    (h : Registered P w email password user) (events : List Event) :
    Registered P (runEvents P w events) email password user := by
  refine runEvents_invariant (I := fun w => Registered P w email password user) ?_ h events
  intro w e h
  exact ⟨users_subset P w e h.1, h.2⟩

/-! ### Logging in -/

/-- Nothing keeps the new refresh token of a user from being stored: its identifier and its hash
are not in the table. -/
structure FreshDraws (P : Platform) (w : World) (draws : Draws) : Prop where
  tokenId : draws.tokenId ∉ w.db.refreshTokens.map (·.id)
  token : ∀ user ∈ w.db.users, P.sha256 (P.jwtEncode
    (refreshClaims P user.id user.email.val draws.refreshJti w.now))
      ∉ w.db.refreshTokens.map (·.tokenHash)

/-- The registered user is found under the email in any case. -/
lemma find_registered {w : World} {email email' password : String} {user : User}
    (h : Registered P w email password user) (hemail : P.strLower email' = P.strLower email) :
    (w.db.users.find? fun u => u.email.val = P.strLower email') = some user := by
  have hnd : (w.db.users.map fun u => u.email.val).Nodup := by
    have hinj : Function.Injective fun v : Varchar 255 => v.val := by
      rintro ⟨v, hv⟩ ⟨v', hv'⟩ rfl
      rfl
    have := w.db.valid.userEmail.map hinj
    rwa [List.map_map] at this
  have hget := Rows.get_of_mem hnd h.1
  rw [h.2.1, ← hemail] at hget
  exact hget

/-- The check of the password decides how a login of a registered user ends. -/
lemma exec_loginRequest {w : World} {email email' password : String} {user : User}
    (h : Registered P w email password user) (hemail : P.strLower email' = P.strLower email)
    (q : PyStr) (draws : Draws) :
    (loginRequest P email' q draws).exec w =
      match verifyPassword P q user.passwordHash.val with
      | .error e  => (.error e, w)
      | .ok false => (.error (.http 401 "Invalid credentials"), w)
      | .ok true  => (issueTokens P (some user) user.id user.email.val draws).exec w := by
  rw [loginRequest, loginBy, UserRepository.getByEmail, Async.exec_select_bind,
    find_registered h hemail]
  dsimp only
  cases verifyPassword P q user.passwordHash.val with
  | error e => rfl
  | ok b => cases b <;> rfl

/-- The library raises on the password of the login. -/
lemma exec_loginRequest_rejected {rejects : String → Prop} (hP : P.Bcrypt rejects) {w : World}
    {email email' password : String} {user : User} (h : Registered P w email password user)
    (hemail : P.strLower email' = P.strLower email) {s : String} (hs : rejects s) (draws : Draws) :
    (loginRequest P email' (PyStr.ofString s) draws).exec w = (.error .password, w) := by
  rw [exec_loginRequest h hemail, verifyPassword_ofString, hP.verify_rejected _ _ hs]

/-- A password that agrees with the registered one in the hashed bytes logs in. -/
lemma exec_loginRequest_same {rejects : String → Prop} (hP : P.Bcrypt rejects) {w : World}
    {email email' password : String} {user : User} (h : Registered P w email password user)
    (hemail : P.strLower email' = P.strLower email) {s : String} (hs : ¬ rejects s)
    (hbytes : hashedBytes s = hashedBytes password) {draws : Draws}
    (hfresh : FreshDraws P w draws) :
    ∃ r w', (loginRequest P email' (PyStr.ofString s) draws).exec w = (.ok r, w') := by
  obtain ⟨salt, hhash⟩ := h.2.2
  rw [exec_loginRequest h hemail, verifyPassword_ofString, hP.verify salt password _ _ hhash hs,
    decide_eq_true hbytes]
  exact issueTokens_of_fresh P _ hfresh.tokenId (hfresh.token user h.1) (List.mem_map_of_mem h.1)

/-- A password that differs from it there is refused. -/
lemma exec_loginRequest_other {rejects : String → Prop} (hP : P.Bcrypt rejects) {w : World}
    {email email' password : String} {user : User} (h : Registered P w email password user)
    (hemail : P.strLower email' = P.strLower email) {s : String} (hs : ¬ rejects s)
    (hbytes : hashedBytes s ≠ hashedBytes password) (draws : Draws) :
    (loginRequest P email' (PyStr.ofString s) draws).exec w
      = (.error (.http 401 "Invalid credentials"), w) := by
  obtain ⟨salt, hhash⟩ := h.2.2
  rw [exec_loginRequest h hemail, verifyPassword_ofString, hP.verify salt password _ _ hhash hs,
    decide_eq_false hbytes]

/-- A login tells this password from every other: it succeeds for this one alone and answers 401
to any other. -/
structure ChecksPassword (P : Platform) (w : World) (email password : String) (q : PyStr)
    (draws : Draws) : Prop where
  ok_iff : (∃ r w', (loginRequest P email q draws).exec w = (.ok r, w')) ↔
    q = PyStr.ofString password
  unauthorized : q ≠ PyStr.ofString password →
    (loginRequest P email q draws).exec w = (.error (.http 401 "Invalid credentials"), w)

end AuthService

open AuthService

/-- After a registration with `password`, and whatever happened since, a login under the email in
any case succeeds exactly for `password` and answers 401 to any other, if and only if the library
takes the password of the login, and this is `password` or differs from it in the first 72 bytes
of UTF-8. -/
theorem AuthService.login_checks_password_iff {rejects : String → Prop} (hP : P.Bcrypt rejects)
    {w w' : World} {email email' password : String} {draws draws' : Draws} {r : AuthResult}
    (hregister : (register P email password draws).exec w = (.ok r, w')) (events : List Event)
    (hemail : P.strLower email' = P.strLower email)
    (hfresh : FreshDraws P (runEvents P w' events) draws') (q : PyStr) :
    ChecksPassword P (runEvents P w' events) email' password q draws' ↔
      ∃ s, q = PyStr.ofString s ∧ ¬ rejects s ∧
        (s = password ∨ hashedBytes s ≠ hashedBytes password) := by
  obtain ⟨user, hreg⟩ := registered_of_register hregister
  have hreg := registered_runEvents hreg events
  have hraises : (loginRequest P email' q draws').exec (runEvents P w' events)
      = (.error .password, runEvents P w' events) →
        ¬ ChecksPassword P (runEvents P w' events) email' password q draws' := by
    intro herror h
    by_cases hq : q = PyStr.ofString password
    · obtain ⟨r, w'', hok⟩ := h.ok_iff.mpr hq
      rw [herror] at hok
      cases hok
    · have hno := h.unauthorized hq
      rw [herror] at hno
      cases hno
  cases hencode : q.encode with
  | none =>
    -- no UTF-8: the library raises
    refine iff_of_false (hraises ?_) ?_
    · rw [exec_loginRequest hreg hemail, verifyPassword, hencode]
    · rintro ⟨s, rfl, -⟩
      rw [PyStr.encode_ofString] at hencode
      cases hencode
  | some cs =>
    obtain rfl := PyStr.eq_ofString hencode
    simp only [PyStr.ofString_inj, exists_eq_left']
    by_cases hreject : rejects (String.ofList cs)
    · exact iff_of_false (hraises (exec_loginRequest_rejected hP hreg hemail hreject draws'))
        fun h => h.1 hreject
    · by_cases hbytes : hashedBytes (String.ofList cs) = hashedBytes password
      · -- the bytes agree: the login goes through
        have hok := exec_loginRequest_same hP hreg hemail hreject hbytes hfresh
        constructor
        · intro h
          exact ⟨hreject, .inl (PyStr.ofString_inj.mp (h.ok_iff.mp hok))⟩
        · rintro ⟨-, hsame | hne⟩
          · exact ⟨iff_of_true hok (PyStr.ofString_inj.mpr hsame),
              fun hne => absurd (PyStr.ofString_inj.mpr hsame) hne⟩
          · exact absurd hbytes hne
      · -- the bytes differ: 401
        have hexec := exec_loginRequest_other hP hreg hemail hreject hbytes draws'
        refine iff_of_true ⟨iff_of_false ?_ ?_, fun _ => hexec⟩ ⟨hreject, .inr hbytes⟩
        · rintro ⟨r, w'', h⟩
          rw [hexec] at h
          cases h
        · intro h
          exact hbytes (congrArg hashedBytes (PyStr.ofString_inj.mp h))

/-! ### A run -/

/-- A password library that stores the hashed bytes, one character for each, and raises on a
NUL. -/
def Platform.truncating : Platform :=
  { Platform.plain with
    hashPassword := fun _ password =>
      if nul ∈ password.toList then .error .password
      else .ok (String.ofList ((hashedBytes password).map fun b => Char.ofNat b.toNat))
    verifyPassword := fun password hash =>
      if nul ∈ password.toList then .error .password
      else .ok (String.ofList ((hashedBytes password).map fun b => Char.ofNat b.toNat) == hash) }

lemma Platform.truncating_bcrypt :
    Platform.truncating.Bcrypt fun password => nul ∈ password.toList where
  nul := fun _ h => h
  hash_rejected := fun _ _ h => if_pos h
  verify_rejected := fun _ _ h => if_pos h
  verify := by
    intro salt password hash password' hhash hnul
    have hchar : Function.Injective fun b : UInt8 => Char.ofNat b.toNat := by
      intro a b h
      have hval : ∀ n : Fin 256, (Char.ofNat n).toNat = n := by decide +kernel
      have hab := congrArg Char.toNat h
      rw [hval ⟨a.toNat, a.toNat_lt⟩, hval ⟨b.toNat, b.toNat_lt⟩] at hab
      exact UInt8.toNat_inj.mp hab
    simp only [Platform.truncating] at hhash ⊢
    split_ifs at hhash
    rw [if_neg hnul, ← Except.ok.inj hhash]
    apply congrArg Except.ok
    rw [Bool.eq_iff_iff, beq_iff_eq, decide_eq_true_eq, String.ofList_inj,
      (List.map_injective_iff.mpr hchar).eq_iff]

/-- Eight times the same nine characters: 72 bytes. -/
def longPassword : String := String.ofList (List.replicate 8 "clave123.".toList).flatten

/-- The world after Ana registered with it. -/
def longRegistered : World :=
  ((AuthService.register Platform.truncating "ana@example.com" longPassword
    ⟨1, "salt", 100, 101, 102⟩).exec ⟨Database.empty, [], 0⟩).2

lemma longRegistered_run : ∃ r, (AuthService.register Platform.truncating "ana@example.com"
    longPassword ⟨1, "salt", 100, 101, 102⟩).exec ⟨Database.empty, [], 0⟩
      = (.ok r, longRegistered) := by
  have hok : ((AuthService.register Platform.truncating "ana@example.com" longPassword
      ⟨1, "salt", 100, 101, 102⟩).exec ⟨Database.empty, [], 0⟩).1.isOk = true := by
    decide +kernel
  rw [longRegistered]
  rcases hx : (AuthService.register Platform.truncating "ana@example.com" longPassword
    ⟨1, "salt", 100, 101, 102⟩).exec ⟨Database.empty, [], 0⟩ with ⟨r, w⟩
  rw [hx] at hok
  cases r with
  | error e => cases hok
  | ok r => exact ⟨r, rfl⟩

lemma longRegistered_fresh :
    FreshDraws Platform.truncating longRegistered ⟨2, "salt", 200, 201, 202⟩ :=
  ⟨by decide +kernel, by decide +kernel⟩

theorem AuthService.login_checks_password_other :
    ChecksPassword Platform.truncating longRegistered "Ana@Example.com" longPassword
      (PyStr.ofString "clave1234") ⟨2, "salt", 200, 201, 202⟩ := by
  obtain ⟨r, hr⟩ := longRegistered_run
  refine (login_checks_password_iff Platform.truncating_bcrypt hr [] (by decide +kernel)
    longRegistered_fresh (PyStr.ofString "clave1234")).mpr ?_
  exact ⟨"clave1234", rfl, by decide +kernel, .inr (by decide +kernel)⟩

/-- A longer password logs in, and a password with a NUL raises. -/
theorem AuthService.login_longer_password :
    ((register Platform.truncating "ana@example.com" longPassword
        ⟨1, "salt", 100, 101, 102⟩).exec ⟨Database.empty, [], 0⟩).1.isOk = true ∧
      longPassword ++ "x" ≠ longPassword ∧
      ((loginRequest Platform.truncating "ana@example.com" (PyStr.ofString (longPassword ++ "x"))
        ⟨2, "salt", 200, 201, 202⟩).exec longRegistered).1.isOk = true ∧
      ((loginRequest Platform.truncating "ana@example.com" [.scalar nul]
        ⟨2, "salt", 200, 201, 202⟩).exec longRegistered).1 = .error .password := by
  obtain ⟨r, hr⟩ := longRegistered_run
  obtain ⟨user, huser⟩ := registered_of_register hr
  refine ⟨by rw [hr]; rfl, by decide +kernel, ?_, ?_⟩
  · obtain ⟨r', w', hok⟩ := exec_loginRequest_same Platform.truncating_bcrypt huser rfl
      (s := longPassword ++ "x") (by decide +kernel) (by decide +kernel) longRegistered_fresh
    rw [hok]
    rfl
  · have hnul : nul ∈ (String.ofList [nul]).toList := by decide
    rw [show [PyChar.scalar nul] = PyStr.ofString (String.ofList [nul]) from rfl,
      exec_loginRequest_rejected Platform.truncating_bcrypt huser rfl hnul]

end LiveMenu
