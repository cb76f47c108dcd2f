import LiveMenu.Writes.RacePhases

/-!
# The code of racing calls

Every call follows its phases: it ends as its last phase says, and a commit is refused only when
something it writes was taken.
-/

namespace LiveMenu

namespace RaceCall

variable {P : Platform} {call : RaceCall} {φ : RacePhase} {t t' : Tables} {w w' : World} {l : Label}

section Search

lemma holds_ready {old : Option Restaurant} {counter : ℕ} (slug : Option String)
    (h : call.Holds P t (.searching old counter)) : call.Holds P t (.ready old slug) := by
  cases call <;> cases old <;> exact h

lemma holds_searching {old : Option Restaurant} {counter : ℕ} (counter' : ℕ)
    (h : call.Holds P t (.searching old counter)) : call.Holds P t (.searching old counter') := by
  cases call <;> cases old <;> exact h

lemma nul_not_mem_baseSlug (call : RaceCall) : nul ∉ call.baseSlug.toList := by
  cases call with
  | register email password draws => exact List.not_mem_nil
  | create fuel u data id => exact nul_not_mem_generateSlug _
  | update fuel u data =>
    rw [baseSlug]
    split
    · exact nul_not_mem_generateSlug _
    · exact List.not_mem_nil

/-- The lookup of one candidate. -/
lemma accepts_candidate {old : Option Restaurant} {counter : ℕ} {α : Type}
    {Q : RacePhase → Except Exc α → Prop} {k : Bool → Async α}
    (hfree : (call.monitor P).Accepts Q (k true)
      (.ready old (some (slugCandidate call.baseSlug counter))))
    (htaken : (call.monitor P).Accepts Q (k false) (.searching old (counter + 1))) :
    (call.monitor P).Accepts Q (do
      let existing ← RestaurantRepository.getBySlug (slugCandidate call.baseSlug counter)
      k (RestaurantService.slugIsFree existing (old.map (·.id)))) (.searching old counter) := by
  refine RestaurantService.accepts_getBySlug_bind (fun w => ⟨allows_look fun h => ?_, ?_⟩)
    fun h => absurd h (nul_not_mem_slugCandidate call.nul_not_mem_baseSlug counter)
  · simp only [next]
    split_ifs
    · exact holds_ready _ h
    · exact holds_searching _ h
  · simp only [RaceCall.monitor, next]
    cases RestaurantService.slugIsFree
        (Rows.get (·.slug.val) (slugCandidate call.baseSlug counter) w.db.restaurants)
        (old.map (·.id)) with
    | true => exact hfree
    | false => exact htaken

variable {old : Option Restaurant} {Q : RacePhase → Except Exc String → Prop} {fuel : ℕ}

lemma accepts_searchSlug {n counter : ℕ} (hn : counter + n = fuel)
    (hok : ∀ k ≤ fuel, Q (.ready old (some (slugCandidate call.baseSlug k)))
      (.ok (slugCandidate call.baseSlug k)))
    (herr : Q (.searching old (fuel + 1)) (.error .unfinished)) :
    (call.monitor P).Accepts Q
      (RestaurantService.searchSlug call.baseSlug (old.map (·.id)) n (counter + 1))
      (.searching old (counter + 1)) := by
  induction n generalizing counter with
  | zero =>
    obtain rfl : counter = fuel := hn
    exact Monitor.accepts_raise herr
  | succ n ih =>
    refine @accepts_candidate P call old (counter + 1) _ _ (fun free => if free then
      pure (suffixed call.baseSlug (counter + 1)) else
        RestaurantService.searchSlug call.baseSlug (old.map (·.id)) n (counter + 1 + 1)) ?_ ?_
    · exact Monitor.accepts_pure (hok (counter + 1) (by omega))
    · exact ih (by omega)

/-- The search ends with a candidate that its last lookup found free. -/
lemma accepts_ensureUniqueSlug
    (hok : ∀ k ≤ fuel, Q (.ready old (some (slugCandidate call.baseSlug k)))
      (.ok (slugCandidate call.baseSlug k)))
    (herr : Q (.searching old (fuel + 1)) (.error .unfinished)) :
    (call.monitor P).Accepts Q
      (RestaurantService.ensureUniqueSlug fuel call.baseSlug (old.map (·.id)))
      (.searching old 0) := by
  refine @accepts_candidate P call old 0 _ _ (fun free => if free then pure call.baseSlug else
    RestaurantService.searchSlug call.baseSlug (old.map (·.id)) fuel 1) ?_ ?_
  · exact Monitor.accepts_pure (hok 0 fuel.zero_le)
  · exact accepts_searchSlug (Nat.zero_add fuel) hok herr

end Search

/-! ### Registrations -/

section Register

variable {email password passwordHash : String} {draws : Draws}

/-- A free email and a fresh id are committed. -/
lemma write_user {now : Time} {e : DbError}
    (hstorable : Storable P (.register email password draws))
    (hhash : P.hashPassword draws.salt password = .ok passwordHash)
    (hfree : Unopposed P t (.register email password draws) (.ready none none))
    (hvalid : t.Constraints) :
    (do
      let u ← User.ofCreate P email passwordHash draws.userId now
      let db ← Database.write { t with users := t.users ++ [u] }
      return (u, db)) ≠ .error e := by
  obtain ⟨⟨hlength, hnul⟩, hash, hhash', hnul'⟩ := hstorable
  obtain ⟨hemail, hid⟩ := hfree
  cases hhash.symm.trans hhash'
  obtain ⟨u, hu⟩ : ∃ u, User.ofCreate P email passwordHash draws.userId now = .ok u := by
    refine (Except.exists_bind_eq_ok_iff fun _ _ => Except.exists_bind_eq_ok_iff fun _ _ =>
      Except.exists_pure_eq_ok _).mpr ⟨Varchar.ofString_isOk.mpr ⟨hlength, hnul⟩, ?_, trivial⟩
    exact PgText.ofString_isOk.mpr hnul'
  obtain ⟨huid, huemail, -⟩ := User.ofCreate_ok hu
  have hconstraints := hvalid.insertUser (u := u) (huid ▸ hid) fun h => by
    obtain ⟨u', hu', he⟩ := List.mem_map.mp h
    exact hemail u' hu' (by rw [he, huemail])
  simp [hu, Database.write_of hconstraints, bind, Except.bind, pure, Except.pure]

/-- A token with a fresh identifier is committed. -/
lemma write_refreshToken {c : Claims} {now expiresAt : Time} {e : DbError}
    (hc : c.jti = draws.refreshJti)
    (hfree : Unopposed P t (.register email password draws) (.written draws.userId))
    (hholds : Holds P t (.register email password draws) (.written draws.userId))
    (hvalid : t.Constraints) :
    (do
      let k ← (.ok ⟨draws.tokenId, draws.userId, P.sha256 (P.jwtEncode c), none, expiresAt, now⟩ :
        Except DbError RefreshToken)
      let db ← Database.write { t with refreshTokens := t.refreshTokens ++ [k] }
      return (k, db)) ≠ .error e := by
  obtain ⟨-, u, hu, huid, -⟩ := hholds
  have hconstraints := hvalid.insertRefreshToken
    (k := ⟨draws.tokenId, draws.userId, P.sha256 (P.jwtEncode c), none, expiresAt, now⟩) hfree.1
    (hfree.2 c hc) (List.mem_map.mpr ⟨u, hu, huid⟩)
  simp [Database.write_of hconstraints, bind, Except.bind, pure, Except.pure]

lemma accepts_issueTokens_written {user : User} (hid : user.id = draws.userId) :
    ((RaceCall.register email password draws).monitor P).Accepts
      (fun φ r => Ends P (.register email password draws) φ (r.map .auth))
      (AuthService.issueTokens P (some user) user.id user.email.val draws)
      (.written draws.userId) := by
  have hclock : ∀ {α : Type} {k : Time → Async α} {R : RacePhase → Except Exc α → Prop},
      (∀ t, ((RaceCall.register email password draws).monitor P).Accepts R (k t)
        (.written draws.userId)) →
      ((RaceCall.register email password draws).monitor P).Accepts R (Async.clock >>= k)
        (.written draws.userId) :=
    fun h => Async.accepts_clock_bind fun w => ⟨allows_look id, h w.now⟩
  simp only [AuthService.issueTokens, createAccessToken, createRefreshToken,
    RefreshTokenRepository.create, Async.insert, Prog.bind_assoc, hid]
  refine hclock fun _ => Monitor.accepts_bind (hclock fun t => Monitor.accepts_bind ?_)
  refine hclock fun _ => Async.accepts_commit_bind ?_ ?_
  · intro w k db hw
    obtain ⟨k, hk, hw⟩ := Except.bind_eq_ok_iff.mp hw
    cases hk
    obtain ⟨db, hdb, hpair⟩ := Except.bind_eq_ok_iff.mp hw
    cases hpair
    have ht := Database.write_ok hdb
    have hne : db.refreshTokens ≠ w.db.refreshTokens := by simp [ht]
    have hnext : next P (.register email password draws) (.written draws.userId)
        (.commit .refreshTokens) w { w with db := db } = .stored := if_neg hne
    refine ⟨⟨ht ▸ .insertRefreshToken _ _, .inl (by rw [ht]), fun _ _ hholds => ?_⟩, ?_⟩
    · rw [hnext]
      refine ⟨(hholds.mono (ht ▸ KeepsKeys.insertRefreshToken _ _)).2, ?_⟩
      show draws.tokenId ∈ db.refreshTokens.map (·.id)
      simp [ht]
    · simp only [RaceCall.monitor, hnext]
      refine Monitor.accepts_bind (Async.accepts_refresh fun w =>
        ⟨?_, fun _ _ => ?_, fun hnone => ?_⟩)
      · apply allows_look
        intro hholds
        have hsome := Rows.isSome_get.mpr (List.mem_map.mp hholds.2)
        simpa only [next, hsome, if_true] using hholds
      · simp only [next]
        split_ifs
        · exact fun _ _ => .inl ⟨rfl, _, rfl⟩
        · exact ends_conflict _
      · simp only [next, hnone, Option.isSome_none, Bool.false_eq_true, if_false]
        exact ends_conflict _
  · intro w e hw
    have hnext : next P (.register email password draws) (.written draws.userId)
        (.commit .refreshTokens) w w = .conflict := if_pos rfl
    refine ⟨⟨.refl _, .inl rfl, fun _ hfree hholds => ?_⟩, ?_⟩
    · exact absurd hw (write_refreshToken rfl (hfree ⟨_, rfl⟩) hholds w.db.valid)
    · simp only [RaceCall.monitor, hnext]
      exact ends_conflict _

lemma accepts_register (email password : String) (draws : Draws) :
    ((RaceCall.register email password draws).monitor P).Accepts
      (Ends P (.register email password draws)) ((RaceCall.register email password draws).code P)
      .start := by
  apply Monitor.accepts_map
  simp only [AuthService.register, UserRepository.existsByEmail, UserRepository.getByEmail,
    UserRepository.create, Async.insert, Prog.bind_assoc]
  refine Async.accepts_select_bind fun w => ⟨allows_look fun _ => ?_, ?_⟩
  · simp only [next, checked]
    split_ifs with htaken
    · obtain ⟨u, hu, hemail⟩ := List.any_eq_true.mp htaken
      exact ⟨u, hu, of_decide_eq_true hemail⟩
    · trivial
  refine Monitor.accepts_bind (Monitor.accepts_pure ?_)
  simp only [RaceCall.monitor, next, checked, List.find?_isSome, List.any_eq_true]
  split_ifs with htaken
  · exact Async.accepts_http fun _ _ => .inr ⟨rfl, rfl⟩
  cases hhash : P.hashPassword draws.salt password with
  | error e =>
    apply Monitor.accepts_raise
    rintro ⟨-, hash, hhash', -⟩
    cases hhash.symm.trans hhash'
  | ok passwordHash =>
    apply Async.accepts_commit_bind
    · intro w user db hw
      obtain ⟨user', huser, hw⟩ := Except.bind_eq_ok_iff.mp hw
      obtain ⟨db', hdb, hpair⟩ := Except.bind_eq_ok_iff.mp hw
      cases hpair
      have ht := Database.write_ok hdb
      obtain ⟨hid, hemail, -⟩ := User.ofCreate_ok huser
      have hne : db.users ≠ w.db.users := by simp [ht]
      have hnext : next P (.register email password draws) (.ready none none) (.commit .users) w
          { w with db := db } = .written draws.userId := if_neg hne
      refine ⟨⟨ht ▸ .insertUser _ _, .inl (by rw [ht]), fun _ _ _ => ?_⟩, ?_⟩
      · have hmem : user ∈ db.users := by simp [ht]
        rw [hnext]
        exact ⟨rfl, user, hmem, hid, hemail⟩
      · simp only [hnext]
        refine Monitor.accepts_bind (Async.accepts_refresh fun w => ⟨?_, ?_, ?_⟩)
        · apply allows_look
          intro hholds
          obtain ⟨-, u, hu, huid, -⟩ := id hholds
          have hsome := Rows.isSome_get.mpr ⟨u, hu, huid⟩
          simpa only [next, finds, hsome, if_true] using hholds
        · intro user hget
          have hid := Rows.get_key hget
          simp only [next, finds, hget, Option.isSome_some, if_true]
          exact accepts_issueTokens_written hid
        · intro hnone
          simp only [next, finds, hnone, Option.isSome_none, Bool.false_eq_true, if_false]
          exact ends_conflict _
    · intro w e hw
      have hnext : next P (.register email password draws) (.ready none none) (.commit .users) w w
          = .conflict := if_pos rfl
      refine ⟨⟨.refl _, .inl rfl, fun hstorable hfree _ => ?_⟩, ?_⟩
      · exact absurd hw (write_user hstorable hhash (hfree ⟨_, rfl⟩) w.db.valid)
      · simp only [hnext]
        exact ends_conflict _

end Register

/-! ### Restaurants -/

/-- Every candidate within the fuel fits the column. -/
lemma slugCandidate_fits (name : String) {fuel k : ℕ} (hfuel : fuel < 10 ^ 49) (hk : k ≤ fuel) :
    (slugCandidate (generateSlug name) k).length ≤ 150 ∧
      nul ∉ (slugCandidate (generateSlug name) k).toList := by
  refine ⟨?_, not_mem_slugCandidate (by decide) name k⟩
  have h1 := length_slugCandidate_le (generateSlug name) (e := 48) (hk.trans_lt hfuel)
  have h2 := length_generateSlug_le name 100
  omega

/-- The row is there, so the refresh finds it. -/
lemma finds_of_holds (hrestaurant : ∀ email password draws, call ≠ .register email password draws)
    {id : Uuid} (h : call.Holds P w.db.toTables (.written id)) : call.finds w.db id = true := by
  cases call with
  | register email password draws => exact absurd rfl (hrestaurant _ _ _)
  | create fuel u data id' =>
    obtain ⟨rfl, r, hr, hid, -⟩ := h
    exact Rows.isSome_get.mpr ⟨r, hr, hid⟩
  | update fuel u data =>
    obtain ⟨r, hr, hid, -⟩ := h
    exact Rows.isSome_get.mpr ⟨r, hr, hid⟩

/-- The refresh of a restaurant that was written. -/
lemma accepts_refreshRestaurant {id : Uuid} {Q : RacePhase → Except Exc Restaurant → Prop}
    (hrestaurant : ∀ email password draws, call ≠ .register email password draws)
    (hok : ∀ r, Q (.written id) (.ok r)) (hconflict : ∀ r, Q .conflict r) {φ : RacePhase}
    (hφ : φ = .written id ∨ φ = .conflict) :
    (call.monitor P).Accepts Q
      (Async.refresh .restaurants fun db => Rows.get (·.id) id db.restaurants) φ := by
  have hfinds : ∀ w : World, call.finds w.db id = (Rows.get (·.id) id w.db.restaurants).isSome := by
    intro w
    cases call with
    | register email password draws => exact absurd rfl (hrestaurant _ _ _)
    | _ => rfl
  rcases hφ with rfl | rfl
  · refine Async.accepts_refresh fun w => ⟨allows_look fun h => ?_, fun r hr => ?_, fun hnone => ?_⟩
    · simpa only [next, finds_of_holds hrestaurant h, if_true] using h
    · simp only [RaceCall.monitor, next, hfinds, hr, Option.isSome_some, if_true]
      exact hok r
    · simp only [RaceCall.monitor, next, hfinds, hnone, Option.isSome_none, Bool.false_eq_true,
        if_false]
      exact hconflict _
  · exact Async.accepts_refresh fun w =>
      ⟨allows_look fun h => h, fun r _ => hconflict _, fun _ => hconflict _⟩

section Create

variable {fuel k : ℕ} {u id : Uuid} {data : RestaurantCreate}

/-- A restaurant with a free owner, slug and id is committed. -/
lemma write_restaurant {now : Time} {e : DbError} (hstorable : Storable P (.create fuel u data id))
    (hk : k ≤ fuel) (hfree : Unopposed P t (.create fuel u data id)
      (.ready none (some (slugCandidate (generateSlug data.name.val) k))))
    (hvalid : t.Constraints) :
    (do
      let r ← Restaurant.ofCreate data u (slugCandidate (generateSlug data.name.val) k) id now
      let db ← Database.write { t with restaurants := t.restaurants ++ [r] }
      return (r, db)) ≠ .error e := by
  obtain ⟨howner, hslug, hid, huser⟩ := hfree
  obtain ⟨r, hr⟩ := (@Restaurant.ofCreate_isOk_iff data u id _ now
    (slugCandidate_fits data.name.val hstorable.1 hk)).mpr hstorable.2
  obtain ⟨hrid, hrowner, hrslug, -⟩ := Restaurant.ofCreate_ok hr
  have hconstraints := hvalid.insertRestaurant (r := r) (hrid ▸ hid) (fun h => by
      obtain ⟨r', hr', he⟩ := List.mem_map.mp h
      exact howner r' hr' (he.trans hrowner)) (fun h => by
      obtain ⟨r', hr', he⟩ := List.mem_map.mp h
      exact hslug _ rfl ⟨r', hr', by rw [he, hrslug], (Option.some_ne_none _).symm⟩)
    (hrowner ▸ huser)
  simp [hr, Database.write_of hconstraints, bind, Except.bind, pure, Except.pure]

lemma accepts_create (fuel : ℕ) (u : Uuid) (data : RestaurantCreate) (id : Uuid) :
    ((RaceCall.create fuel u data id).monitor P).Accepts (Ends P (.create fuel u data id))
      ((RaceCall.create fuel u data id).code P) .start := by
  refine Monitor.accepts_map (Async.accepts_select_bind fun w => ⟨allows_look fun _ => ?_, ?_⟩)
  · simp only [next, checked]
    cases hget : Rows.get (·.ownerUserId) u w.db.restaurants with
    | some r =>
      have howner := Rows.get_key hget
      exact ⟨r, Rows.get_mem hget, howner⟩
    | none => trivial
  simp only [RaceCall.monitor, next, checked]
  cases Rows.get (·.ownerUserId) u w.db.restaurants with
  | some r => exact Async.accepts_http fun _ _ => .inr (.inl ⟨rfl, rfl⟩)
  | none =>
    refine Monitor.accepts_bind
      (@accepts_ensureUniqueSlug _ (.create fuel u data id) none _ _ (fun k hk => ?_) ?_)
    · apply Async.accepts_commit_bind
      · intro w r db hw
        obtain ⟨r', hr, hw⟩ := Except.bind_eq_ok_iff.mp hw
        obtain ⟨db', hdb, hpair⟩ := Except.bind_eq_ok_iff.mp hw
        cases hpair
        have ht := Database.write_ok hdb
        obtain ⟨hid, howner, -, -⟩ := Restaurant.ofCreate_ok hr
        have hne : db.restaurants ≠ w.db.restaurants := by simp [ht]
        have hnext : next P (.create fuel u data id)
            (.ready none (some (slugCandidate (generateSlug data.name.val) k)))
            (.commit .restaurants) w { w with db := db } = .written id := if_neg hne
        have hpast : (next P (.create fuel u data id)
            (.ready none (some (slugCandidate (generateSlug data.name.val) k)))
            (.commit .restaurants) w { w with db := db }).Past := by
          rw [hnext]
          trivial
        refine ⟨⟨ht ▸ .insertRestaurant _ _, .inr ⟨fun h => h, hpast, ht ▸ .insert _ r⟩,
          fun _ _ _ => ?_⟩, ?_⟩
        · have hmem : r ∈ db.restaurants := by simp [ht]
          rw [baseSlug, hnext]
          exact ⟨rfl, r, hmem, hid, howner⟩
        · simp only [baseSlug, hnext]
          refine accepts_refreshRestaurant (fun _ _ _ => RaceCall.noConfusion) ?_ ?_ (.inl rfl)
          · exact fun r _ _ => .inl ⟨⟨_, rfl⟩, _, rfl⟩
          · exact fun r => ends_conflict _
      · intro w e hw
        have hnext : next P (.create fuel u data id)
            (.ready none (some (slugCandidate (generateSlug data.name.val) k)))
            (.commit .restaurants) w w = .conflict := if_pos rfl
        refine ⟨⟨.refl _, .inl rfl, fun hstorable hfree _ => ?_⟩, ?_⟩
        · exact absurd hw (write_restaurant hstorable hk (hfree ⟨_, rfl⟩) w.db.valid)
        · simp only [baseSlug, hnext]
          exact ends_conflict _
    · exact fun _ _ => .inr (.inr ⟨⟨_, rfl⟩, rfl⟩)

end Create

section Update

variable {fuel : ℕ} {u : Uuid} {data : RestaurantUpdate} {old : Restaurant} {slug : Option String}

/-- The changed columns of a restaurant that is there are committed if its new slug is free. -/
lemma updateRestaurant_isOk_of_not_collides {db : Database} {new : Restaurant} {now : Time}
    (hset : old.setattrs data slug = .ok new) (hmem : old.id ∈ db.restaurants.map (·.id))
    (hfree : slugCollides db.toTables old slug = false) :
    ∃ db', db.updateRestaurant old new now = .ok db' := by
  obtain ⟨cur, hcur, hid⟩ := List.mem_map.mp hmem
  have hget : Rows.get (·.id) old.id db.restaurants = some cur :=
    hid ▸ Rows.get_of_mem db.valid.restaurantId hcur
  refine Database.update_isOk (by simp [hget]) ?_
  rw [← hid, Rows.modify_eq_const db.valid.restaurantId hcur]
  refine db.valid.modifyRestaurant hcur rfl rfl ?_
  intro r hr hrid heq
  have hslug := (Restaurant.setattrs_ok hset).2.2
  -- only a slug that the update changes can be another restaurant's
  by_cases hsame : new.slug = old.slug
  · have hcurslug : r.slug = cur.slug := heq.trans (if_pos hsame)
    exact hrid (congrArg Restaurant.id (Rows.eq_of_key_eq db.valid.restaurantSlug hr hcur hcurslug))
  · have hnewslug : r.slug = new.slug := heq.trans (if_neg hsame)
    cases slug with
    | none => exact hsame hslug
    | some s =>
      have hcollides : slugCollides db.toTables old (some s) = true := by
        have hval : s ≠ old.slug.val := fun h => hsame (Varchar.eq_of_val (hslug.trans h))
        simp only [slugCollides, decide_eq_true_eq, List.any_eq_true]
        exact ⟨hval, r, hr, by rw [hnewslug, hslug], hid ▸ hrid⟩
      rw [hcollides] at hfree
      cases hfree

/-- The commit and what follows it. -/
lemma accepts_updateRestaurant
    (hslug : ∀ s ∈ slug, ∃ name, ∃ k ≤ fuel, s = slugCandidate (generateSlug name) k) :
    ((RaceCall.update fuel u data).monitor P).Accepts
      (fun φ r => Ends P (.update fuel u data) φ (r.map .restaurant))
      (do
        let restaurant ← RestaurantRepository.update old data slug
        Async.cacheInvalidatePrefix "menu:"
        return restaurant) (.ready (some old) slug) := by
  have hnext : ∀ w w', next P (.update fuel u data) (.ready (some old) slug)
      (.commit .restaurants) w w'
        = if old.id ∈ w.db.restaurants.map (·.id) ∧ slugCollides w.db.toTables old slug = false then
            .written old.id
          else .conflict := fun _ _ => rfl
  simp only [RestaurantRepository.update, Async.save, Prog.bind_assoc]
  apply Async.accepts_commit_bind
  · intro w _ db hw
    obtain ⟨db', hdb, hpair⟩ := Except.bind_eq_ok_iff.mp hw
    cases hpair
    obtain ⟨new, hset, hdb⟩ := Except.bind_eq_ok_iff.mp hdb
    have hkeeps : KeepsKeys w.db.toTables db.toTables := by
      rcases Database.updateRestaurant_writes hdb with rfl | ht
      · exact .refl _
      · exact ht ▸ .flushRestaurant _ _ _ _
    have hadds : AddsSlug w.db.toTables db.toTables := by
      rcases Database.updateRestaurant_writes hdb with rfl | ht
      · exact .refl _
      · exact ht ▸ .flush _ _ _ _
    have hpast : (next P (.update fuel u data) (.ready (some old) slug) (.commit .restaurants) w
        { w with db := db }).Past := by
      rw [hnext]
      split_ifs <;> trivial
    refine ⟨⟨hkeeps, .inr ⟨fun h => h, hpast, hadds⟩, fun _ hfree hholds => ?_⟩,
      Monitor.accepts_bind ?_⟩
    · have hmem : old.id ∈ w.db.restaurants.map (·.id) := by
        obtain ⟨r, hr, hid, -⟩ := hholds
        exact hid ▸ List.mem_map_of_mem hr
      rw [hnext, if_pos ⟨hmem, hfree ⟨_, rfl⟩⟩]
      exact @Holds.mono P _ (.written old.id) _ _ hkeeps hholds
    · refine @accepts_refreshRestaurant _ _ old.id _ (fun _ _ _ => RaceCall.noConfusion) ?_ ?_ _ ?_
      · refine fun r => Async.accepts_cacheInvalidatePrefix_bind fun w =>
          ⟨allows_flush fun h => h, ?_⟩
        exact fun _ _ => .inl ⟨⟨_, rfl⟩, _, rfl⟩
      · intro r
        cases r with
        | ok r =>
          refine Async.accepts_cacheInvalidatePrefix_bind fun w => ⟨allows_flush fun h => h, ?_⟩
          exact ends_conflict _
        | error e => exact ends_conflict _
      · simp only [RaceCall.monitor, hnext]
        split_ifs
        · exact .inl rfl
        · exact .inr rfl
  · intro w e hw
    have hfail := Except.eq_error_of_bind_pure hw
    by_cases hcan : old.id ∈ w.db.restaurants.map (·.id) ∧
        slugCollides w.db.toTables old slug = false
    · have hunstorable : ¬ Storable P (.update fuel u data) := by
        intro hstorable
        have hfits : ∀ s ∈ slug, s.length ≤ 150 ∧ nul ∉ s.toList := by
          intro s hs
          obtain ⟨name, k, hk, rfl⟩ := hslug s hs
          exact slugCandidate_fits name hstorable.1 hk
        obtain ⟨new, hset⟩ := (Restaurant.setattrs_isOk_iff (r := old) hfits).mpr hstorable.2
        obtain ⟨db, hdb⟩ :=
          @updateRestaurant_isOk_of_not_collides _ _ _ _ _ w.now hset hcan.1 hcan.2
        simp [hset, hdb, bind, Except.bind] at hfail
      exact ⟨⟨.refl _, .inl rfl, fun h => absurd h hunstorable⟩, fun h => absurd h hunstorable⟩
    · refine ⟨⟨.refl _, .inl rfl, fun _ hfree hholds => ?_⟩, ?_⟩
      · obtain ⟨r, hr, hid, -⟩ := hholds
        exact absurd ⟨hid ▸ List.mem_map_of_mem hr, hfree ⟨_, rfl⟩⟩ hcan
      · simp only [RaceCall.monitor, hnext, if_neg hcan]
        exact ends_conflict _

lemma accepts_update (fuel : ℕ) (u : Uuid) (data : RestaurantUpdate) :
    ((RaceCall.update fuel u data).monitor P).Accepts (Ends P (.update fuel u data))
      ((RaceCall.update fuel u data).code P) .start := by
  refine Monitor.accepts_map (Monitor.accepts_bind (Async.accepts_select_bind fun w => ⟨?_, ?_⟩))
  · apply allows_look
    intro _
    simp only [next, checked]
    cases hget : Rows.get (·.ownerUserId) u w.db.restaurants with
    | none => trivial
    | some r =>
      have howner := Rows.get_key hget
      cases data.name.value with
      | none => exact ⟨r, Rows.get_mem hget, rfl, howner⟩
      | some _ => exact ⟨r, Rows.get_mem hget, rfl, howner⟩
  simp only [RaceCall.monitor, next, checked]
  cases Rows.get (·.ownerUserId) u w.db.restaurants with
  | none => exact Async.accepts_http fun _ _ => .inr (.inl ⟨rfl, rfl⟩)
  | some r =>
    refine Monitor.accepts_pure (Monitor.accepts_bind ?_)
    simp only [RestaurantService.updatedSlug]
    cases hname : data.name with
    | unset => exact Monitor.accepts_pure (accepts_updateRestaurant (by simp))
    | null =>
      apply Monitor.accepts_raise
      intro hstorable
      have hnull := hstorable.2.name
      rw [hname] at hnull
      exact hnull.elim
    | set name =>
      have hbase : generateSlug name.val = baseSlug (.update fuel u data) := by
        rw [baseSlug, hname]
      simp only [Patch.value, hbase]
      refine Monitor.accepts_bind
        (@accepts_ensureUniqueSlug _ _ (some r) _ _ (fun k hk => ?_) ?_)
      · refine Monitor.accepts_pure (accepts_updateRestaurant fun s hs => ?_)
        exact ⟨name.val, k, hk, hbase ▸ (Option.some.inj hs).symm⟩
      · exact fun _ _ => .inr (.inr ⟨⟨_, rfl⟩, rfl⟩)

end Update

/-- The code of every call follows its phases. -/
theorem accepts (P : Platform) (call : RaceCall) :
    (call.monitor P).Accepts (call.Ends P) (call.code P) .start := by
  cases call with
  | register email password draws => exact accepts_register email password draws
  | create fuel u data id => exact accepts_create fuel u data id
  | update fuel u data => exact accepts_update fuel u data

end RaceCall

end LiveMenu
