import LiveMenu.Sequential.Services

/-!
# When a write keeps the constraints

Conditions under which the tables an operation commits satisfy the constraints of the schema, and
with them exact conditions for the repositories' writes to succeed.
-/

namespace LiveMenu

/-! ### Tables after an insertion or an update -/

namespace Tables.Constraints

variable {t : Tables} (h : t.Constraints)

include h

lemma insertUser {u : User} (hid : u.id ∉ t.users.map (·.id))
    (hemail : u.email ∉ t.users.map (·.email)) : { t with users := t.users ++ [u] }.Constraints :=
  { h with
    userId := Rows.nodup_map_append h.userId hid
    userEmail := Rows.nodup_map_append h.userEmail hemail
    restaurantOwnerFk := fun r hr => by
      rw [List.map_append]
      exact List.mem_append_left _ (h.restaurantOwnerFk r hr)
    refreshTokenUserFk := fun k hk => by
      rw [List.map_append]
      exact List.mem_append_left _ (h.refreshTokenUserFk k hk) }

lemma insertRefreshToken {k : RefreshToken} (hid : k.id ∉ t.refreshTokens.map (·.id))
    (hhash : k.tokenHash ∉ t.refreshTokens.map (·.tokenHash))
    (hfk : k.userId ∈ t.users.map (·.id)) :
    { t with refreshTokens := t.refreshTokens ++ [k] }.Constraints :=
  { h with
    refreshTokenId := Rows.nodup_map_append h.refreshTokenId hid
    refreshTokenHash := Rows.nodup_map_append h.refreshTokenHash hhash
    refreshTokenUserFk := fun k' hk' => (List.mem_append.mp hk').elim (h.refreshTokenUserFk k')
      fun hk' => List.mem_singleton.mp hk' ▸ hfk }

lemma insertRestaurant {r : Restaurant} (hid : r.id ∉ t.restaurants.map (·.id))
    (howner : r.ownerUserId ∉ t.restaurants.map (·.ownerUserId))
    (hslug : r.slug ∉ t.restaurants.map (·.slug)) (hfk : r.ownerUserId ∈ t.users.map (·.id)) :
    { t with restaurants := t.restaurants ++ [r] }.Constraints :=
  { h with
    restaurantId := Rows.nodup_map_append h.restaurantId hid
    restaurantOwner := Rows.nodup_map_append h.restaurantOwner howner
    restaurantSlug := Rows.nodup_map_append h.restaurantSlug hslug
    restaurantOwnerFk := fun r' hr' => (List.mem_append.mp hr').elim (h.restaurantOwnerFk r')
      fun hr' => List.mem_singleton.mp hr' ▸ hfk
    categoryRestaurantFk := fun c hc => by
      rw [List.map_append]
      exact List.mem_append_left _ (h.categoryRestaurantFk c hc)
    scanEventRestaurantFk := fun e he => by
      rw [List.map_append]
      exact List.mem_append_left _ (h.scanEventRestaurantFk e he) }

lemma insertCategory {c : Category} (hid : c.id ∉ t.categories.map (·.id))
    (hfk : c.restaurantId ∈ t.restaurants.map (·.id)) :
    { t with categories := t.categories ++ [c] }.Constraints :=
  { h with
    categoryId := Rows.nodup_map_append h.categoryId hid
    categoryRestaurantFk := fun c' hc' => (List.mem_append.mp hc').elim (h.categoryRestaurantFk c')
      fun hc' => List.mem_singleton.mp hc' ▸ hfk
    dishCategoryFk := fun d hd => by
      rw [List.map_append]
      exact List.mem_append_left _ (h.dishCategoryFk d hd) }

lemma insertDish {d : Dish} (hid : d.id ∉ t.dishes.map (·.id))
    (hfk : d.categoryId ∈ t.categories.map (·.id)) :
    { t with dishes := t.dishes ++ [d] }.Constraints :=
  { h with
    dishId := Rows.nodup_map_append h.dishId hid
    dishCategoryFk := fun d' hd' => (List.mem_append.mp hd').elim (h.dishCategoryFk d')
      fun hd' => List.mem_singleton.mp hd' ▸ hfk }

lemma insertScanEvent {e : ScanEvent} (hid : e.id ∉ t.scanEvents.map (·.id))
    (hfk : e.restaurantId ∈ t.restaurants.map (·.id)) :
    { t with scanEvents := t.scanEvents ++ [e] }.Constraints :=
  { h with
    scanEventId := Rows.nodup_map_append h.scanEventId hid
    scanEventRestaurantFk := fun e' he' =>
      (List.mem_append.mp he').elim (h.scanEventRestaurantFk e')
      fun he' => List.mem_singleton.mp he' ▸ hfk }

/-- A restaurant keeps its id and owner, and its slug is nobody else's. -/
lemma modifyRestaurant {r n : Restaurant} (hr : r ∈ t.restaurants) (hid : n.id = r.id)
    (howner : n.ownerUserId = r.ownerUserId)
    (hslug : ∀ r' ∈ t.restaurants, r'.id ≠ r.id → r'.slug ≠ n.slug) :
    { t with
      restaurants := Rows.modify (·.id) r.id (fun _ => n) t.restaurants }.Constraints := by
  have hids : (Rows.modify (·.id) r.id (fun _ => n) t.restaurants).map (·.id)
      = t.restaurants.map (·.id) := Rows.map_modify fun r' _ hk => hid.trans hk.symm
  have howners : (Rows.modify (·.id) r.id (fun _ => n) t.restaurants).map (·.ownerUserId)
      = t.restaurants.map (·.ownerUserId) := Rows.map_modify fun r' hr' hk => by
    rw [Rows.eq_of_key_eq h.restaurantId hr' hr hk, howner]
  exact { h with
    restaurantId := hids ▸ h.restaurantId
    restaurantOwner := howners ▸ h.restaurantOwner
    restaurantSlug := Rows.nodup_map_modify h.restaurantId h.restaurantSlug (fun _ _ _ => rfl) hslug
    restaurantOwnerFk := fun r' hr' => by
      rcases Rows.mem_modify.mp hr' with ⟨hr', -⟩ | ⟨-, -, -, rfl⟩
      · exact h.restaurantOwnerFk r' hr'
      · rw [howner]
        exact h.restaurantOwnerFk r hr
    categoryRestaurantFk := fun c hc => hids ▸ h.categoryRestaurantFk c hc
    scanEventRestaurantFk := fun e he => hids ▸ h.scanEventRestaurantFk e he }

lemma modifyCategory {c n : Category} (hc : c ∈ t.categories) (hid : n.id = c.id)
    (hrestaurant : n.restaurantId = c.restaurantId) :
    { t with
      categories := Rows.modify (·.id) c.id (fun _ => n) t.categories }.Constraints := by
  have hids : (Rows.modify (·.id) c.id (fun _ => n) t.categories).map (·.id)
      = t.categories.map (·.id) := Rows.map_modify fun c' _ hk => hid.trans hk.symm
  exact { h with
    categoryId := hids ▸ h.categoryId
    categoryRestaurantFk := fun c' hc' => by
      rcases Rows.mem_modify.mp hc' with ⟨hc', -⟩ | ⟨-, -, -, rfl⟩
      · exact h.categoryRestaurantFk c' hc'
      · rw [hrestaurant]
        exact h.categoryRestaurantFk c hc
    dishCategoryFk := fun d hd => hids ▸ h.dishCategoryFk d hd }

lemma modifyDish {d n : Dish} (hid : n.id = d.id)
    (hfk : n.categoryId ∈ t.categories.map (·.id)) :
    { t with dishes := Rows.modify (·.id) d.id (fun _ => n) t.dishes }.Constraints := by
  have hids : (Rows.modify (·.id) d.id (fun _ => n) t.dishes).map (·.id)
      = t.dishes.map (·.id) := Rows.map_modify fun d' _ hk => hid.trans hk.symm
  exact { h with
    dishId := hids ▸ h.dishId
    dishCategoryFk := fun d' hd' => by
      rcases Rows.mem_modify.mp hd' with ⟨hd', -⟩ | ⟨-, -, -, rfl⟩
      · exact h.dishCategoryFk d' hd'
      · exact hfk }

end Tables.Constraints

/-! ### When the writing methods succeed -/

section

variable {ρ : Type} (w : World) {t : Table} {find : Uuid → Tables → Option ρ} {id : Uuid}

/-- An insertion succeeds exactly if the row can be built and the constraints hold with it. -/
lemma Async.exec_insert_isOk_iff {row : Time → Except DbError ρ} {tables : Tables → ρ → Tables}
    (hfind : ∀ r (db : Database), row w.now = .ok r → db.toTables = tables w.db.toTables r →
      find id db.toTables = some r) :
    (∃ a, ((Async.insert t row tables find id).exec w).1 = .ok a) ↔
      ∃ r, row w.now = .ok r ∧ (tables w.db.toTables r).Constraints := by
  constructor
  · rintro ⟨a, ha⟩
    rcases Async.exec_insert w (t := t) hfind with ⟨e, h⟩ | ⟨r, db, hr, ht, h⟩
    · rw [h] at ha
      cases ha
    · exact ⟨r, hr, ht ▸ db.valid⟩
  · rintro ⟨r, hr, hvalid⟩
    refine ⟨r, ?_⟩
    rw [Async.insert, Async.exec_commit_bind, hr]
    simp only [bind, Except.bind, Database.write_of hvalid, pure, Except.pure]
    rw [Async.exec_refresh, hfind r ⟨_, hvalid⟩ hr rfl]

/-- A save succeeds exactly if the update does. -/
lemma Async.exec_save_isOk_iff {update : Time → Database → Except DbError Database}
    (hfind : ∀ db, update w.now w.db = .ok db → ∃ r, find id db.toTables = some r) :
    (∃ a, ((Async.save t update find id).exec w).1 = .ok a) ↔
      ∃ db, update w.now w.db = .ok db := by
  rw [Async.save, Async.exec_commit_bind]
  cases hu : update w.now w.db with
  | error e => simp [bind, Except.bind]
  | ok db =>
    obtain ⟨r, hr⟩ := hfind db hu
    simp only [bind, Except.bind, pure, Except.pure, Except.ok.injEq, exists_eq', iff_true]
    rw [Async.exec_refresh, hr]
    exact ⟨r, rfl⟩

end

namespace Database

variable {db : Database} (now : Time)

lemma update_isOk {t : Tables} {same gone : Prop} [Decidable same] [Decidable gone]
    (hthere : ¬ gone) (ht : t.Constraints) :
    ∃ db', (if same then .ok db else if gone then .error .stale else write t) = .ok db' := by
  split_ifs with hsame
  · exact ⟨db, rfl⟩
  · exact ⟨_, write_of ht⟩

lemma updateRestaurant_isOk {old new : Restaurant} (hmem : old ∈ db.restaurants)
    (hslug : ∀ r ∈ db.restaurants, r.id ≠ old.id → r.slug ≠ new.slug) :
    ∃ db', db.updateRestaurant old new now = .ok db' := by
  refine update_isOk (by simp [Rows.get_of_mem db.valid.restaurantId hmem]) ?_
  rw [Rows.modify_eq_const db.valid.restaurantId hmem]
  refine db.valid.modifyRestaurant hmem rfl rfl ?_
  intro r hr hid
  rw [show (old.flush new now old).slug = new.slug from flushColumn_self _ _]
  exact hslug r hr hid

lemma updateCategory_isOk {old : Category} (hmem : old ∈ db.categories) (new : Category) :
    ∃ db', db.updateCategory old new now = .ok db' := by
  refine update_isOk (by simp [Rows.get_of_mem db.valid.categoryId hmem]) ?_
  rw [Rows.modify_eq_const db.valid.categoryId hmem]
  exact db.valid.modifyCategory hmem rfl rfl

lemma updateDish_isOk {old new : Dish} (hmem : old ∈ db.dishes)
    (hfk : new.categoryId ∈ db.categories.map (·.id)) :
    ∃ db', db.updateDish old new now = .ok db' := by
  refine update_isOk (by simp [Rows.get_of_mem db.valid.dishId hmem]) ?_
  rw [Rows.modify_eq_const db.valid.dishId hmem]
  refine db.valid.modifyDish rfl ?_
  rw [show (old.flush new now old).categoryId = new.categoryId from flushColumn_self _ _]
  exact hfk

end Database

section

variable (w : World)

lemma RestaurantRepository.create_isOk_iff {owner : Uuid} {data : RestaurantCreate} {slug : String}
    {id : Uuid} (hid : id ∉ w.db.restaurants.map (·.id))
    (howner : Rows.get (·.ownerUserId) owner w.db.restaurants = none)
    (hslug : ¬ w.db.SlugTaken slug none) (huser : owner ∈ w.db.users.map (·.id)) :
    (∃ a, ((create owner data slug id).exec w).1 = .ok a) ↔
      ∃ r, Restaurant.ofCreate data owner slug id w.now = .ok r := by
  refine (Async.exec_insert_isOk_iff w fun r db hr ht => ?_).trans
    (exists_congr fun r => and_iff_left_of_imp fun hr => ?_)
  · rw [← (Restaurant.ofCreate_ok hr).1]
    apply Rows.get_of_mem db.valid.restaurantId
    rw [ht]
    simp
  · obtain ⟨hrid, hrowner, hrslug, -⟩ := Restaurant.ofCreate_ok hr
    refine w.db.valid.insertRestaurant (hrid ▸ hid) ?_ ?_ (hrowner ▸ huser)
    · intro h
      obtain ⟨r', hr', he⟩ := List.mem_map.mp h
      exact Rows.get_eq_none.mp howner r' hr' (he.trans hrowner)
    · intro h
      obtain ⟨r', hr', he⟩ := List.mem_map.mp h
      exact hslug ⟨r', hr', by rw [he, hrslug], (Option.some_ne_none _).symm⟩

lemma CategoryRepository.create_isOk_iff {restaurantId : Uuid} {name : BoundedStr 1 50}
    {description : Option PyStr} {active : Bool} {id : Uuid}
    (hid : id ∉ w.db.categories.map (·.id))
    (hfk : restaurantId ∈ w.db.restaurants.map (·.id)) :
    (∃ a, ((create restaurantId name description none active id).exec w).1 = .ok a) ↔
      ∃ c, Category.ofCreate restaurantId name description (nextPosition
        ((w.db.categories.filter fun c => c.restaurantId = restaurantId).map
          (·.position.val)).max?) active id w.now = .ok c := by
  rw [exec_create]
  refine (Async.exec_insert_isOk_iff w fun c db hc ht => find_created hc ht).trans
    (exists_congr fun c => and_iff_left_of_imp fun hc => ?_)
  obtain ⟨hcid, hcr, -⟩ := Category.ofCreate_ok hc
  exact w.db.valid.insertCategory (hcid ▸ hid) (hcr ▸ hfk)

lemma DishRepository.create_isOk_iff {data : DishCreate} {id : Uuid}
    (hid : id ∉ w.db.dishes.map (·.id))
    (hfk : data.categoryId ∈ w.db.categories.map (·.id)) :
    (∃ a, ((create data none id).exec w).1 = .ok a) ↔
      ∃ d, Dish.ofCreate data (nextPosition
        ((w.db.dishes.filter fun d => d.categoryId = data.categoryId ∧ d.deletedAt.isNone).map
          (·.position.val)).max?) id w.now = .ok d := by
  rw [exec_create]
  refine (Async.exec_insert_isOk_iff w fun d db hd ht => find_created hd ht).trans
    (exists_congr fun d => and_iff_left_of_imp fun hd => ?_)
  obtain ⟨hdid, hdc, -⟩ := Dish.ofCreate_ok hd
  exact w.db.valid.insertDish (hdid ▸ hid) (hdc ▸ hfk)

lemma RestaurantRepository.update_isOk_iff {r : Restaurant} (hr : r ∈ w.db.restaurants)
    {data : RestaurantUpdate} {slug : Option String}
    (hslug : ∀ s, slug = some s → ¬ w.db.SlugTaken s (some r.id)) :
    (∃ a, ((update r data slug).exec w).1 = .ok a) ↔ ∃ n, r.setattrs data slug = .ok n := by
  refine (Async.exec_save_isOk_iff w fun db h => ?_).trans ⟨?_, ?_⟩
  · obtain ⟨n, hn, h⟩ := Except.bind_eq_ok_iff.mp h
    have ht := Database.updateRestaurant_ok hr h
    refine ⟨_, Rows.get_modified (f := fun _ => r.saved n w.now) db.valid.restaurantId ?_ hr rfl
      (Restaurant.saved_id r n w.now)⟩
    rw [ht]
  · rintro ⟨db, h⟩
    obtain ⟨n, hn, -⟩ := Except.bind_eq_ok_iff.mp h
    exact ⟨n, hn⟩
  · rintro ⟨n, hn⟩
    obtain ⟨db, hdb⟩ := Database.updateRestaurant_isOk w.now hr
      fun r' hr' hid (he : r'.slug = n.slug) => by
        have hset := (Restaurant.setattrs_ok hn).2.2
        cases slug with
        | none =>
          rw [hset] at he
          exact hid (by rw [Rows.eq_of_key_eq w.db.valid.restaurantSlug hr' hr he])
        | some s =>
          exact hslug s rfl ⟨r', hr', by rw [he, hset], fun h => hid (Option.some.inj h).symm⟩
    exact ⟨db, Except.bind_eq_ok_iff.mpr ⟨n, hn, hdb⟩⟩

lemma CategoryRepository.update_isOk_iff {c : Category} (hc : c ∈ w.db.categories)
    {data : CategoryUpdate} :
    (∃ a, ((update c data).exec w).1 = .ok a) ↔ ∃ n, c.setattrs data = .ok n := by
  refine (Async.exec_save_isOk_iff w fun db h => ?_).trans ⟨?_, ?_⟩
  · obtain ⟨n, hn, h⟩ := Except.bind_eq_ok_iff.mp h
    have ht := Database.updateCategory_ok hc h
    refine ⟨_, Rows.get_modified (f := fun _ => c.saved n w.now) db.valid.categoryId ?_ hc rfl
      (Category.saved_id c n w.now)⟩
    rw [ht]
  · rintro ⟨db, h⟩
    obtain ⟨n, hn, -⟩ := Except.bind_eq_ok_iff.mp h
    exact ⟨n, hn⟩
  · rintro ⟨n, hn⟩
    obtain ⟨db, hdb⟩ := Database.updateCategory_isOk w.now hc n
    exact ⟨db, Except.bind_eq_ok_iff.mpr ⟨n, hn, hdb⟩⟩

lemma DishRepository.save_isOk_iff {d : Dish} (hd : d ∈ w.db.dishes) {new : Except DbError Dish}
    (hfk : ∀ n, new = .ok n → n.categoryId ∈ w.db.categories.map (·.id)) :
    (∃ a, ((save d new).exec w).1 = .ok a) ↔ ∃ n, new = .ok n := by
  refine (Async.exec_save_isOk_iff w fun db h => ?_).trans ⟨?_, ?_⟩
  · obtain ⟨n, hn, h⟩ := Except.bind_eq_ok_iff.mp h
    have ht := Database.updateDish_ok hd h
    refine ⟨_, Rows.get_modified (f := fun _ => d.saved n w.now) db.valid.dishId ?_ hd rfl
      (Dish.saved_id d n w.now)⟩
    rw [ht]
  · rintro ⟨db, h⟩
    obtain ⟨n, hn, -⟩ := Except.bind_eq_ok_iff.mp h
    exact ⟨n, hn⟩
  · rintro ⟨n, hn⟩
    obtain ⟨db, hdb⟩ := Database.updateDish_isOk w.now hd (hfk n hn)
    exact ⟨db, Except.bind_eq_ok_iff.mpr ⟨n, hn, hdb⟩⟩

end

end LiveMenu
