import LiveMenu.Tenants.Unaware

/-!
# Requests that are blind to the menus of others

The operations on restaurants, analytics and accounts, and those of a user on own categories and
dishes, make the same steps and return the same whatever others have on their menus.
-/

namespace LiveMenu

open Async

variable {α : Type} {P : Platform} {ownerOf : Table → Uuid → Uuid} {u : Uuid}

/-! ### Restaurants -/

/-- A look for a restaurant. -/
lemma unaware_findRestaurant {κ : Type} [DecidableEq κ] {key : Restaurant → κ} {k : κ}
    {q : α → Prop} {f : Option Restaurant → Async α} (hnone : (f none).Unaware ownerOf u q)
    (hsome : ∀ r, ownerOf .restaurants r.id = r.ownerUserId → key r = k →
      (f (some r)).Unaware ownerOf u q) :
    (select .restaurants (fun db => Rows.get key k db.restaurants) >>= f).Unaware ownerOf u q := by
  refine unaware_find (fun w w' hw => hw.get_restaurant key k) hnone fun w r hw hr => ?_
  obtain ⟨hfact, hkey⟩ := hw.restaurant hr
  exact hsome r hfact hkey

namespace RestaurantService

lemma unaware_getByOwner (v : Uuid) : (getByOwner v).Unaware ownerOf u fun _ => True :=
  unaware_findRestaurant (unaware_http _ _) fun _ _ _ => unaware_pure trivial

lemma unaware_getBySlug (slug : String) :
    (RestaurantRepository.getBySlug slug).Unaware ownerOf u fun _ => True := by
  refine unaware_selectBound fun _ _ hw => congrArg (_ >>= ·) (funext fun slug => ?_)
  exact congrArg Except.ok (hw.get_restaurant _ _)

lemma unaware_searchSlug (baseSlug : String) (excludeId : Option Uuid) (fuel counter : ℕ) :
    (searchSlug baseSlug excludeId fuel counter).Unaware ownerOf u fun _ => True := by
  induction fuel generalizing counter with
  | zero => exact unaware_raise _
  | succ fuel ih =>
    refine (unaware_getBySlug _).bind fun existing _ => ?_
    split_ifs
    · exact unaware_pure trivial
    · exact ih (counter + 1)

lemma unaware_ensureUniqueSlug (fuel : ℕ) (baseSlug : String) (excludeId : Option Uuid) :
    (ensureUniqueSlug fuel baseSlug excludeId).Unaware ownerOf u fun _ => True := by
  refine (unaware_getBySlug _).bind fun existing _ => ?_
  split_ifs
  · exact unaware_pure trivial
  · exact unaware_searchSlug _ _ _ _

lemma unaware_updatedSlug (fuel : ℕ) (r : Restaurant) (name : Patch (BoundedStr 1 100)) :
    (updatedSlug fuel r name).Unaware ownerOf u fun _ => True := by
  rw [updatedSlug]
  split
  · exact unaware_pure trivial
  · exact unaware_raise _
  · exact (unaware_ensureUniqueSlug _ _ _).bind fun _ _ => unaware_pure trivial

lemma unaware_create (fuel : ℕ) (v : Uuid) (data : RestaurantCreate) (id : Uuid) :
    (create fuel v data id).Unaware ownerOf u fun _ => True := by
  refine unaware_findRestaurant ?_ fun _ _ _ => unaware_http _ _
  refine (unaware_ensureUniqueSlug _ _ _).bind fun slug _ => ?_
  refine unaware_insert (fun w w' r hw _ => ?_) fun w w' hw => hw.get_restaurant _ _
  refine hw.both_write (f := fun t => { t with restaurants := t.restaurants ++ [r] })
    (fun t => ⟨fun id hid => ?_, rfl, rfl⟩)
    fun t t' h => { h with restaurants := by rw [h.restaurants] }
  rw [List.map_append]
  exact List.mem_append_left _ hid

lemma unaware_update (fuel : ℕ) (v : Uuid) (data : RestaurantUpdate) :
    (update fuel v data).Unaware ownerOf u fun _ => True := by
  refine (unaware_getByOwner v).bind fun r _ => (unaware_updatedSlug _ _ _).bind fun slug _ => ?_
  refine (unaware_save (fun w w' hw => ?_) fun w w' hw => hw.get_restaurant _ _).invalidate _
  exact Except.both_bind fun new _ => hw.both_updateRestaurant r new w.now

lemma unaware_delete (v : Uuid) : (delete v).Unaware ownerOf u fun _ => True := by
  refine (unaware_getByOwner v).bind fun r _ => ?_
  refine Unaware.bind (unaware_load (unaware_write fun w w' hw => ?_))
    fun _ _ => unaware_cacheInvalidatePrefix _
  exact hw.both_deleteRestaurant r.id

end RestaurantService

/-! ### Categories -/

/-- A look for a category of the user. -/
lemma unaware_findCategory {q : α → Prop} {id : Uuid} {f : Option Category → Async α}
    (hid : ownerOf .categories id = u) (hnone : (f none).Unaware ownerOf u q)
    (hsome : ∀ c, c.id = id → (f (some c)).Unaware ownerOf u q) :
    (CategoryRepository.getById id >>= f).Unaware ownerOf u q := by
  refine unaware_find (fun w w' hw => hw.alike.db.get_category hid) hnone fun w c hw hc => ?_
  obtain ⟨-, hkey⟩ := hw.category hc
  exact hsome c hkey

namespace CategoryService

lemma unaware_verifyRestaurantOwnership (rid v : Uuid) :
    (verifyRestaurantOwnership rid v).Unaware ownerOf u fun _ => True := by
  refine unaware_findRestaurant (unaware_http _ _) fun r _ _ => ?_
  dsimp only
  split_ifs
  · exact unaware_http _ _
  · exact unaware_pure trivial

lemma unaware_listCategories (activeOnly : Bool) (scan : Scan Category) :
    (listCategories u activeOnly scan).Unaware ownerOf u fun _ => True := by
  refine unaware_findRestaurant (unaware_http _ _) fun r hr hown => ?_
  refine unaware_select fun w w' hw => ⟨?_, trivial⟩
  rw [hw.filter_categories fun c hq => ?_]
  rw [(of_decide_eq_true hq).1, hr, hown]

lemma unaware_create {id : Uuid} (hid : ownerOf .categories id = u) (data : CategoryCreate) :
    (create u data id).Unaware ownerOf u fun _ => True := by
  refine unaware_findRestaurant (unaware_http _ _) fun r hr hown => ?_
  refine Unaware.invalidate (q := fun _ => True) ?_ _
  refine Unaware.bind (q := fun _ => True) ?_ fun position _ => ?_
  · refine Unaware.bind (q := fun _ => True) (unaware_select fun w w' hw => ⟨?_, trivial⟩)
      fun _ _ => unaware_pure trivial
    rw [hw.filter_categories fun c hq => ?_]
    rw [of_decide_eq_true hq, hr, hown]
  · refine unaware_insert (fun w w' c hw hc => ?_) fun w w' hw => hw.alike.db.get_category hid
    obtain ⟨hcid, -⟩ := Category.ofCreate_ok hc
    exact hw.both_insertCategory (hcid ▸ hid)

lemma unaware_update {id : Uuid} (hid : ownerOf .categories id = u) (data : CategoryUpdate) :
    (update id u data).Unaware ownerOf u fun _ => True := by
  refine unaware_findCategory hid (unaware_http _ _) fun c hc => ?_
  subst hc
  refine (unaware_verifyRestaurantOwnership _ _).bind fun _ _ => ?_
  refine (unaware_save (fun w w' hw => ?_) fun w w' hw => hw.alike.db.get_category hid).invalidate _
  exact Except.both_bind fun new _ => hw.both_updateCategory hid new w.now

lemma unaware_delete {id : Uuid} (hid : ownerOf .categories id = u) :
    (delete id u).Unaware ownerOf u fun _ => True := by
  refine unaware_findCategory hid (unaware_http _ _) fun c hc => ?_
  subst hc
  refine (unaware_verifyRestaurantOwnership _ _).bind fun _ _ => ?_
  refine Unaware.bind (q := fun _ => True) ?_ fun active _ => ?_
  · refine Unaware.bind (q := fun _ => True) (unaware_select fun w w' hw => ⟨?_, trivial⟩)
      fun _ _ => unaware_pure trivial
    rw [hw.filter_dishes fun d hq => ?_]
    rw [(of_decide_eq_true hq).1, hid]
  · split_ifs
    · exact unaware_http _ _
    · refine Unaware.bind (q := fun _ => True) (Unaware.bind
        (q := fun ds => ∀ d ∈ ds, ownerOf .dishes d.id = u)
        (unaware_select fun w w' hw => ⟨?_, fun d hd => ?_⟩) fun ds hds => ?_)
        fun _ _ => unaware_cacheInvalidatePrefix _
      · exact hw.filter_dishes fun d hq => by rw [of_decide_eq_true hq, hid]
      · obtain ⟨hmem, hcat⟩ := List.mem_filter.mp hd
        rw [← hid, ← of_decide_eq_true hcat]
        exact (hw.hold.dishes d hmem).symm
      · exact unaware_write fun w w' hw =>
          hw.both_deleteCategory hid (List.forall_mem_map.mpr hds)

lemma unaware_verifyOrderedIds (rid : Uuid) {ids : List Uuid}
    (hids : ∀ id ∈ ids, ownerOf .categories id = u) :
    (verifyOrderedIds rid ids).Unaware ownerOf u fun _ => True := by
  induction ids with
  | nil => exact unaware_pure trivial
  | cons id ids ih =>
    refine unaware_findCategory (hids id (.head _)) (unaware_http _ _) fun c _ => ?_
    split_ifs
    · exact ih fun id hid => hids id (.tail _ hid)
    · exact unaware_http _ _

lemma unaware_reorder {ids : List Uuid} (hids : ∀ id ∈ ids, ownerOf .categories id = u) :
    (reorder u ids).Unaware ownerOf u fun _ => True := by
  refine unaware_findRestaurant (unaware_http _ _) fun r hr hown => ?_
  refine (unaware_verifyOrderedIds r.id hids).bind fun _ _ => ?_
  refine Unaware.bind (unaware_commit fun w w' hw => ?_)
    fun _ _ => unaware_cacheInvalidatePrefix _
  refine (both_reorderRows (hr.trans hown) w.now 0 ids (fun c hc => hw.hold.categories c hc)
    (fun c hc => hw.hold'.categories c hc) hw.alike.db.categories).bind ?_
  rintro rows rows' ⟨hrows, hforeign, hforeign'⟩
  refine Except.Both.bind (both_ownWrite hw.inPlace hw.inPlace' ?_ ?_ ?_)
    fun _ _ hdb => .ok ⟨rfl, hdb⟩
  · exact ⟨rfl, rfl, hforeign, rfl, rfl, rfl, hw.inPlace⟩
  · exact ⟨rfl, rfl, hforeign', rfl, rfl, rfl, hw.inPlace'⟩
  · exact { hw.alike.db with categories := hrows }

end CategoryService

/-! ### Dishes -/

namespace DishService

lemma unaware_verifyCategoryOwnership {categoryId : Option Uuid}
    (hid : ∀ id, categoryId = some id → ownerOf .categories id = u) (v : Uuid) :
    (verifyCategoryOwnership categoryId v).Unaware ownerOf u fun _ => True := by
  refine unaware_find (fun w w' hw => ?_) (unaware_http _ _) fun w c _ _ => ?_
  · cases categoryId with
    | none => rfl
    | some id => exact hw.alike.db.get_category (hid id rfl)
  · refine Unaware.bind (q := fun _ => True)
      (unaware_select fun w w' hw => ⟨hw.get_restaurant _ _, trivial⟩) fun r _ => ?_
    split_ifs
    · exact unaware_pure trivial
    · exact unaware_http _ _

/-- The dishes that a filter selects in the user's restaurant are the same in both. -/
lemma filter_matches {w w' : World} (hw : Twins ownerOf u w w') {rid : Uuid}
    (hrid : ownerOf .restaurants rid = u) (f : DishFilter) (hf : f.restaurantId = some rid) :
    w'.db.dishes.filter (f.matches P w'.db) = w.db.dishes.filter (f.matches P w.db) := by
  have hlisted : ∀ (x : World) d, (ownership ownerOf).Hold x → f.matches P x.db d = true →
      ownerOf .categories d.categoryId = u := by
    intro x d hx hd
    obtain ⟨c, hc, hcid, hcrid⟩ := DishFilter.category_of_matches hd hf
    have hfact : ownerOf .restaurants c.restaurantId = ownerOf .categories c.id :=
      hx.categories c hc
    rw [← hcid, ← hfact, hcrid, hrid]
  -- a category of the user is in both, or in neither
  have hsame : ∀ d, ownerOf .categories d.categoryId = u →
      f.matches P w'.db d = f.matches P w.db d := by
    intro d hd
    have hpart : ∀ rows : List Category,
        (rows.any fun c => c.id = d.categoryId ∧ c.restaurantId = rid)
          = (rows.filter fun c => isOwn ownerOf u .categories c.id).any
            fun c => c.id = d.categoryId ∧ c.restaurantId = rid := by
      refine fun rows => Rows.any_filter_part fun c hc => ?_
      rw [(of_decide_eq_true hc).1]
      exact decide_eq_true hd
    have hany := hpart w'.db.categories
    rw [hw.alike.db.categories, ← hpart] at hany
    simp only [DishFilter.matches, hf, Option.all_some, hany]
  rw [hw.filter_dishes fun d hd => hlisted w' d hw.hold' hd]
  refine List.filter_congr fun d _ => Bool.eq_iff_iff.mpr ⟨fun hd => ?_, fun hd => ?_⟩
  · rwa [← hsame d (hlisted w' d hw.hold' hd)]
  · rwa [hsame d (hlisted w d hw.hold hd)]

lemma rows_query {w w' : World} (hw : Twins ownerOf u w w') {rid : Uuid}
    (hrid : ownerOf .restaurants rid = u) (f : DishFilter) (hf : f.restaurantId = some rid) :
    (f.query P).rows w'.db = (f.query P).rows w.db := by
  by_cases hbinds : f.Binds
  · rw [DishFilter.rows_query hbinds, DishFilter.rows_query hbinds, filter_matches hw hrid f hf]
  · rw [DishFilter.rows_query_refused hbinds, DishFilter.rows_query_refused hbinds]

lemma unaware_listDishes {f : DishFilter}
    (hf : ∀ id, f.categoryId = some id → ownerOf .categories id = u) (limit offset : ℕ)
    (scan : Scan Dish) : (listDishes P u f limit offset scan).Unaware ownerOf u fun _ => True := by
  refine unaware_findRestaurant (unaware_http _ _) fun r hr hown => ?_
  refine (unaware_whenSome _ fun cid hcid => unaware_verifyCategoryOwnership ?_ u).bind
    fun _ _ => ?_
  · rintro _ ⟨⟩
    exact hf cid hcid
  · refine Unaware.bind (q := fun _ => True) ?_ fun _ _ => unaware_pure trivial
    have hrows : ∀ w w', Twins ownerOf u w w' → ((f.ofRestaurant r.id).query P).rows w'.db
        = ((f.ofRestaurant r.id).query P).rows w.db := fun w w' hw =>
      rows_query hw (hr.trans hown) _ rfl
    refine Unaware.bind (q := fun _ => True) (unaware_selectBound fun w w' hw => ?_)
      fun total _ => Unaware.bind (q := fun _ => True)
        (unaware_selectBound fun w w' hw => ?_) fun _ _ => unaware_pure trivial
    · exact congrArg (· >>= _) (hrows w w' hw)
    · exact congrArg (· >>= _) (hrows w w' hw)

/-- A dish of the user, in a category of the user. -/
structure IsOwnDish (ownerOf : Table → Uuid → Uuid) (u : Uuid) (d : Dish) : Prop where
  dish : ownerOf .dishes d.id = u
  category : ownerOf .categories d.categoryId = u

lemma unaware_getDish {id : Uuid} (hid : ownerOf .dishes id = u) :
    (getDish id u).Unaware ownerOf u (IsOwnDish ownerOf u) := by
  refine unaware_find (fun w w' hw => ?_) (unaware_http _ _) fun w d hw hd => ?_
  · rw [hw.alike.db.get_dish hid]
  · obtain ⟨hfact, rfl⟩ := hw.dish (Option.filter_eq_some_iff.mp hd).1
    have hcat : ownerOf .categories d.categoryId = ownerOf .dishes d.id := hfact
    refine Unaware.bind (unaware_verifyCategoryOwnership ?_ u)
      fun _ _ => unaware_pure ⟨hid, hcat.trans hid⟩
    rintro _ ⟨⟩
    exact hcat.trans hid

lemma unaware_create {id : Uuid} (hid : ownerOf .dishes id = u) {data : DishCreate}
    (hcat : ownerOf .categories data.categoryId = u) :
    (create u data id).Unaware ownerOf u fun _ => True := by
  refine Unaware.bind (unaware_verifyCategoryOwnership ?_ u) fun _ _ => ?_
  · rintro _ ⟨⟩
    exact hcat
  refine Unaware.invalidate (q := fun _ => True) ?_ _
  refine Unaware.bind (q := fun _ => True) ?_ fun position _ => ?_
  · refine Unaware.bind (q := fun _ => True) (unaware_select fun w w' hw => ⟨?_, trivial⟩)
      fun _ _ => unaware_pure trivial
    rw [hw.filter_dishes fun d hq => ?_]
    rw [(of_decide_eq_true hq).1, hcat]
  · refine unaware_insert (fun w w' d hw hd => ?_) fun w w' hw => hw.alike.db.get_dish hid
    obtain ⟨hdid, hdcat, -⟩ := Dish.ofCreate_ok hd
    exact hw.both_insertDish (hdid ▸ hid) (hdcat ▸ hcat)

/-- A write to a dish of the user that leaves it in a category of the user. -/
lemma unaware_save {d : Dish} {new : Except DbError Dish} (hd : IsOwnDish ownerOf u d)
    (hnew : ∀ n, new = .ok n → ownerOf .categories n.categoryId = u) :
    (DishRepository.save d new).Unaware ownerOf u fun _ => True := by
  refine Async.unaware_save (fun w w' hw => ?_) fun w w' hw => hw.alike.db.get_dish hd.dish
  exact Except.both_bind fun n hn => hw.both_updateDish hd.dish (hnew n hn) w.now

lemma unaware_update {id : Uuid} (hid : ownerOf .dishes id = u) {data : DishUpdate}
    (hcat : ∀ cid, data.categoryId.value = some (some cid) → ownerOf .categories cid = u) :
    (update id u data).Unaware ownerOf u fun _ => True := by
  refine (unaware_getDish hid).bind fun d hd => ?_
  refine (unaware_whenSome _ fun target htarget => unaware_verifyCategoryOwnership ?_ u).bind
    fun _ _ => (unaware_save hd fun n hn => ?_).invalidate _
  · rintro cid rfl
    exact hcat cid htarget
  · obtain ⟨-, -, -, hcid⟩ := Dish.setattrs_ok hn
    split at hcid
    · rw [hcid, hd.category]
    · subst hcid
      exact hcat _ ‹_›

lemma unaware_delete {id : Uuid} (hid : ownerOf .dishes id = u) :
    (delete id u).Unaware ownerOf u fun _ => True := by
  refine (unaware_getDish hid).bind fun d hd =>
    (unaware_clock.bind fun now _ => unaware_save hd ?_).invalidate _
  rintro _ ⟨⟩
  exact hd.category

lemma unaware_toggleAvailability {id : Uuid} (hid : ownerOf .dishes id = u) :
    (toggleAvailability id u).Unaware ownerOf u fun _ => True := by
  refine (unaware_getDish hid).bind fun d hd => (unaware_save hd ?_).invalidate _
  rintro _ ⟨⟩
  exact hd.category

end DishService

/-! ### Analytics -/

lemma AnalyticsRepository.unaware_query (rid : Uuid) (fromDate toDate : Option PyDateTime)
    (f : List ScanEvent → α) :
    (query rid fromDate toDate f).Unaware ownerOf u fun _ => True := by
  rw [query]
  split
  · exact unaware_raise _
  · refine unaware_select fun w w' hw => ⟨?_, trivial⟩
    rw [hw.alike.db.scanEvents]

namespace AnalyticsService

lemma unaware_getAnalytics (v : Uuid) (granularity : String) (fromDate toDate : Option PyDateTime)
    (scan : Scan (String × ℕ)) :
    (getAnalytics P v granularity fromDate toDate scan).Unaware ownerOf u fun _ => True := by
  refine unaware_findRestaurant (unaware_http _ _) fun r _ _ => ?_
  refine (AnalyticsRepository.unaware_query _ _ _ _).bind fun total _ => ?_
  refine (AnalyticsRepository.unaware_query _ _ _ _).bind fun byPeriod _ => ?_
  refine (AnalyticsRepository.unaware_query _ _ _ _).bind fun byHour _ => ?_
  exact (AnalyticsRepository.unaware_query _ _ _ _).bind fun top _ => unaware_pure trivial

lemma unaware_exportAnalytics (v : Uuid) (fromDate toDate : Option PyDateTime)
    (scan : Scan ScanEvent) :
    (exportAnalytics v fromDate toDate scan).Unaware ownerOf u fun _ => True :=
  unaware_findRestaurant (unaware_http _ _) fun _ _ _ =>
    (AnalyticsRepository.unaware_query _ _ _ _).bind fun _ _ => unaware_pure trivial

end AnalyticsService

/-! ### Accounts -/

namespace RefreshTokenRepository

lemma unaware_create (userId : Uuid) (token : String) (days : ℤ) (id : Uuid) :
    (create P userId token days id).Unaware ownerOf u fun _ => True := by
  refine unaware_clock.bind fun now _ => unaware_insert (fun w w' k hw _ => ?_) fun w w' hw => ?_
  · exact hw.both_write (f := fun t => { t with refreshTokens := t.refreshTokens ++ [k] })
      (fun _ => ⟨fun _ hid => hid, rfl, rfl⟩)
      fun t t' h => { h with refreshTokens := by rw [h.refreshTokens] }
  · rw [hw.alike.db.refreshTokens]

lemma unaware_getByToken (token : String) :
    (getByToken P token).Unaware ownerOf u fun _ => True :=
  unaware_select fun w w' hw => ⟨by rw [hw.alike.db.refreshTokens], trivial⟩

lemma unaware_isValid (token : String) : (isValid P token).Unaware ownerOf u fun _ => True := by
  refine (unaware_getByToken token).bind fun o _ => ?_
  split
  · exact unaware_pure trivial
  · split_ifs
    · exact unaware_pure trivial
    · exact unaware_clock.bind fun _ _ => unaware_pure trivial

lemma unaware_revoke (token : String) : (revoke P token).Unaware ownerOf u fun _ => True := by
  refine (unaware_getByToken token).bind fun o _ => ?_
  split
  · exact unaware_pure trivial
  · exact unaware_clock.bind fun _ _ =>
      unaware_write fun w w' hw => hw.both_updateRefreshTokens _

lemma unaware_revokeAllForUser (userId : Uuid) :
    (revokeAllForUser userId).Unaware ownerOf u fun _ => True := by
  refine Unaware.bind (q := fun _ => True) (unaware_select fun w w' hw => ⟨?_, trivial⟩)
    fun _ _ => unaware_clock.bind fun _ _ =>
      unaware_write fun w w' hw => hw.both_updateRefreshTokens _
  rw [hw.alike.db.refreshTokens]

end RefreshTokenRepository

lemma unaware_getByEmail (email : String) :
    (UserRepository.getByEmail P email).Unaware ownerOf u fun _ => True :=
  unaware_select fun w w' hw => ⟨by rw [hw.alike.db.users], trivial⟩

lemma unaware_verifyRefreshToken (token : String) :
    (verifyRefreshToken P token).Unaware ownerOf u fun _ => True := by
  refine Unaware.bind (q := fun _ => True) ?_ fun payload _ => ?_
  · rw [decodeToken]
    split
    · exact unaware_raise _
    · refine unaware_clock.bind fun _ _ => ?_
      split_ifs
      · exact unaware_raise _
      · exact unaware_pure trivial
  · split_ifs
    · exact unaware_raise _
    · exact unaware_pure trivial

namespace AuthService

lemma unaware_issueTokens (user : Option User) (userId : Uuid) (email : String) (draws : Draws) :
    (issueTokens P user userId email draws).Unaware ownerOf u fun _ => True := by
  refine Unaware.bind (unaware_clock.bind fun _ _ => unaware_pure trivial) fun _ (_ : True) => ?_
  refine Unaware.bind (unaware_clock.bind fun _ _ => unaware_pure trivial) fun _ (_ : True) => ?_
  exact (RefreshTokenRepository.unaware_create _ _ _ _).bind fun _ _ => unaware_pure trivial

lemma unaware_register (email password : String) (draws : Draws) :
    (register P email password draws).Unaware ownerOf u fun _ => True := by
  refine Unaware.bind ((unaware_getByEmail email).bind fun _ _ => unaware_pure trivial)
    fun taken (_ : True) => ?_
  split_ifs
  · exact unaware_http _ _
  split
  · exact unaware_raise _
  · refine Unaware.bind (unaware_insert (fun w w' k hw _ => ?_) fun w w' hw => ?_)
      fun user _ => unaware_issueTokens _ _ _ _
    · exact hw.both_write (f := fun t => { t with users := t.users ++ [k] })
        (fun _ => ⟨fun _ hid => hid, rfl, rfl⟩)
        fun t t' h => { h with users := by rw [h.users] }
    · rw [hw.alike.db.users]

lemma unaware_login (email password : String) (draws : Draws) :
    (login P email password draws).Unaware ownerOf u fun _ => True := by
  rw [login_eq]
  refine (unaware_getByEmail email).bind fun user _ => ?_
  split
  · exact unaware_http _ _
  split
  · exact unaware_raise _
  · exact unaware_http _ _
  · exact unaware_issueTokens _ _ _ _

lemma unaware_refresh (token : String) (draws : Draws) :
    (refresh P token draws).Unaware ownerOf u fun _ => True := by
  refine Prog.Blind.handle ?_ fun e => ?_
  · refine (unaware_verifyRefreshToken token).bind fun payload _ => ?_
    refine (RefreshTokenRepository.unaware_isValid token).bind fun valid _ => ?_
    split_ifs
    · exact unaware_http _ _
    · exact (RefreshTokenRepository.unaware_revoke token).bind fun _ _ =>
        unaware_issueTokens _ _ _ _
  · cases e <;> exact unaware_http _ _

end AuthService

/-! ### Operations of the users -/

/-- The operation is on categories or dishes. -/
def AdminOp.onCatalog : AdminOp → Bool
  | .categoryList _ _ | .categoryCreate _ _ | .categoryUpdate _ _ | .categoryDelete _
  | .categoryReorder _ | .dishList _ _ _ _ | .dishGet _ | .dishCreate _ _ | .dishUpdate _ _
  | .dishDelete _ | .dishToggle _ => true
  | _ => false

/-- The ids of stored rows that the operation names. -/
def AdminOp.named : AdminOp → List (Table × Uuid)
  | .categoryUpdate id _ | .categoryDelete id         => [(.categories, id)]
  | .categoryReorder ids                              => ids.map fun id => (.categories, id)
  | .dishList f _ _ _                                 =>
    f.categoryId.toList.map fun id => (.categories, id)
  | .dishCreate data _                                => [(.categories, data.categoryId)]
  | .dishUpdate id data                               =>
    (.dishes, id) :: data.categoryId.value.join.toList.map fun cid => (.categories, cid)
  | .dishGet id | .dishDelete id | .dishToggle id     => [(.dishes, id)]
  | _                                                 => []

/-- The operations on the other tables are on rows that all see. -/
lemma AdminOp.unaware_shared (P : Platform) (v : Uuid) {op : AdminOp} (hop : op.onCatalog = false) :
    (op.code P v).Unaware ownerOf u fun _ => True := by
  cases op with
  | restaurantGet => exact (RestaurantService.unaware_getByOwner v).map
  | restaurantCreate fuel data id => exact (RestaurantService.unaware_create fuel v data id).map
  | restaurantUpdate fuel data => exact (RestaurantService.unaware_update fuel v data).map
  | restaurantDelete => exact (RestaurantService.unaware_delete v).map
  | analyticsGet granularity fromDate toDate scan =>
    exact (AnalyticsService.unaware_getAnalytics v granularity fromDate toDate scan).map
  | analyticsExport fromDate toDate scan =>
    exact (AnalyticsService.unaware_exportAnalytics v fromDate toDate scan).map
  | logout => exact (RefreshTokenRepository.unaware_revokeAllForUser v).map
  | _ => cases hop

/-- The operations of the user on own rows. -/
lemma AdminOp.unaware_own (P : Platform) {op : AdminOp}
    (hdraws : (Request.admin u op).DrawsOwn ownerOf)
    (hnamed : ∀ x ∈ op.named, ownerOf x.1 x.2 = u) :
    (op.code P u).Unaware ownerOf u fun _ => True := by
  cases op with
  | categoryList activeOnly scan =>
    exact (CategoryService.unaware_listCategories activeOnly scan).map
  | categoryCreate data id => exact (CategoryService.unaware_create (hdraws _ _ _ rfl) data).map
  | categoryUpdate id data =>
    exact (CategoryService.unaware_update (hnamed (.categories, id) (.head _)) data).map
  | categoryDelete id =>
    exact (CategoryService.unaware_delete (hnamed (.categories, id) (.head _))).map
  | categoryReorder ids =>
    exact (CategoryService.unaware_reorder fun id hid =>
      hnamed (.categories, id) (List.mem_map_of_mem hid)).map
  | dishList f limit offset scan =>
    refine (DishService.unaware_listDishes (fun id hid => ?_) limit offset scan).map
    refine hnamed (.categories, id) (List.mem_map_of_mem ?_)
    rw [hid]
    exact .head _
  | dishGet id =>
    exact ((DishService.unaware_getDish (hnamed (.dishes, id) (.head _))).imp
      fun _ _ => trivial).map
  | dishCreate data id =>
    exact (DishService.unaware_create (hdraws _ _ _ rfl)
      (hnamed (.categories, data.categoryId) (.head _))).map
  | dishUpdate id data =>
    refine (DishService.unaware_update (hnamed (.dishes, id) (.head _)) fun cid hcid => ?_).map
    refine hnamed (.categories, cid) (.tail _ (List.mem_map_of_mem ?_))
    rw [hcid]
    exact .head _
  | dishDelete id => exact (DishService.unaware_delete (hnamed (.dishes, id) (.head _))).map
  | dishToggle id =>
    exact (DishService.unaware_toggleAvailability (hnamed (.dishes, id) (.head _))).map
  | _ => exact AdminOp.unaware_shared P u rfl

end LiveMenu
