import LiveMenu.Model.Requests

/-!
# Repositories, one call at a time

What each writing method does when nothing runs between its steps: it fails with the world
unchanged, or it commits the tables named here and returns the row as stored.
-/

namespace LiveMenu

/-! ### Insertions and updates in general -/

section

variable {ρ : Type} (w : World) {t : Table} {find : Uuid → Tables → Option ρ} {id : Uuid}

/-- An insertion fails, or it returns the row it inserted. -/
lemma Async.exec_insert {row : Time → Except DbError ρ} {tables : Tables → ρ → Tables}
    (hfind : ∀ r (db : Database), row w.now = .ok r → db.toTables = tables w.db.toTables r →
      find id db.toTables = some r) :
    (∃ e, (Async.insert t row tables find id).exec w = (.error (.db e), w)) ∨
      ∃ r db, row w.now = .ok r ∧ db.toTables = tables w.db.toTables r ∧
        (Async.insert t row tables find id).exec w = (.ok r, { w with db := db }) := by
  rw [Async.insert, Async.exec_commit_bind]
  cases hr : row w.now with
  | error e => exact .inl ⟨e, rfl⟩
  | ok r =>
    cases hw : Database.write (tables w.db.toTables r) with
    | error e => exact .inl ⟨e, by simp only [bind, Except.bind, hw]⟩
    | ok db =>
      have ht := Database.write_ok hw
      refine .inr ⟨r, db, rfl, ht, ?_⟩
      simp only [bind, Except.bind, hw, pure, Except.pure]
      rw [Async.exec_refresh, hfind r db hr ht]

/-- A save fails, or it changes the tables as `tables n` says, where `n` is the instance it
flushed, and returns the row as stored. -/
lemma Async.exec_save_cases {α : Type} {new : Except DbError α}
    {update : Time → Database → Except DbError Database} {tables : α → Tables} {stored : α → ρ}
    (hupdate : ∀ db, update w.now w.db = .ok db →
      ∃ n, new = .ok n ∧ db.toTables = tables n ∧ find id db.toTables = some (stored n)) :
    (∃ e, (Async.save t update find id).exec w = (.error (.db e), w)) ∨
      ∃ n db, new = .ok n ∧ db.toTables = tables n ∧
        (Async.save t update find id).exec w = (.ok (stored n), { w with db := db }) := by
  rw [Async.save, Async.exec_commit_bind]
  cases hu : update w.now w.db with
  | error e => exact .inl ⟨e, rfl⟩
  | ok db =>
    obtain ⟨n, hn, ht, hget⟩ := hupdate db hu
    refine .inr ⟨n, db, hn, ht, ?_⟩
    simp only [bind, Except.bind, pure, Except.pure]
    rw [Async.exec_refresh, hget]

end

/-! ### New rows -/

lemma User.ofCreate_ok {P : Platform} {email passwordHash : String} {id : Uuid} {now : Time}
    {u : User} (h : User.ofCreate P email passwordHash id now = .ok u) :
    u.id = id ∧ u.email.val = P.strLower email ∧ u.passwordHash.val = passwordHash := by
  simp only [ofCreate, Except.bind_eq_ok_iff, Except.pure_eq_ok, Except.ok.injEq] at h
  obtain ⟨e, he, p, hp, rfl⟩ := h
  exact ⟨rfl, Varchar.val_of_ofString he, PgText.val_of_ofString hp⟩

lemma Restaurant.ofCreate_ok {data : RestaurantCreate} {owner id : Uuid} {slug : String}
    {now : Time} {r : Restaurant} (h : Restaurant.ofCreate data owner slug id now = .ok r) :
    r.id = id ∧ r.ownerUserId = owner ∧ r.slug.val = slug ∧ r.name.val = data.name.val := by
  simp only [ofCreate, Except.bind_eq_ok_iff, Except.pure_eq_ok, Except.ok.injEq] at h
  obtain ⟨n, hn, s, hs, d, -, l, -, p, -, a, -, j, -, rfl⟩ := h
  exact ⟨rfl, rfl, Varchar.val_of_ofString hs, Varchar.val_of_ofString hn⟩

lemma Category.ofCreate_ok {restaurantId id : Uuid} {name : BoundedStr 1 50}
    {description : Option PyStr} {position : ℤ} {active : Bool} {now : Time} {c : Category}
    (h : Category.ofCreate restaurantId name description position active id now = .ok c) :
    c.id = id ∧ c.restaurantId = restaurantId ∧ c.position.val = position ∧ c.active = active ∧
      c.createdAt = now := by
  simp only [ofCreate, Except.bind_eq_ok_iff, Except.pure_eq_ok, Except.ok.injEq] at h
  obtain ⟨n, -, d, -, p, hp, rfl⟩ := h
  exact ⟨rfl, rfl, PgInt.val_of_ofInt hp, rfl, rfl⟩

lemma Dish.ofCreate_ok {data : DishCreate} {position : ℤ} {id : Uuid} {now : Time} {d : Dish}
    (h : Dish.ofCreate data position id now = .ok d) :
    d.id = id ∧ d.categoryId = data.categoryId ∧ d.position.val = position ∧
      d.available = data.available ∧ d.createdAt = now ∧ d.deletedAt = none := by
  simp only [ofCreate, Except.bind_eq_ok_iff, Except.pure_eq_ok, Except.ok.injEq] at h
  obtain ⟨n, -, de, -, pr, -, sp, -, im, -, ta, -, p, hp, rfl⟩ := h
  exact ⟨rfl, rfl, PgInt.val_of_ofInt hp, rfl, rfl, rfl⟩

/-! ### Changed rows -/

/-- The row of an instance after its changed columns were saved and nothing else happened. -/
def Restaurant.saved (old new : Restaurant) (now : Time) : Restaurant :=
  if new = old then old else old.flush new now old

@[inherit_doc Restaurant.saved]
def Category.saved (old new : Category) (now : Time) : Category :=
  if new = old then old else old.flush new now old

@[inherit_doc Restaurant.saved]
def Dish.saved (old new : Dish) (now : Time) : Dish :=
  if new = old then old else old.flush new now old

/-- A column of a saved row, from what it is before the UPDATE and after. -/
lemma column_saved {ρ α : Type} [DecidableEq ρ] {old new row : ρ} {a : α} (column : ρ → α)
    (hsame : new = old → column old = a) (hrow : column row = a) :
    column (if new = old then old else row) = a := by
  split_ifs with h
  · exact hsame h
  · exact hrow

lemma Restaurant.setattrs_ok {r r' : Restaurant} {data : RestaurantUpdate} {slug : Option String} :
    r.setattrs data slug = .ok r' → r'.id = r.id ∧ r'.ownerUserId = r.ownerUserId ∧
      (match slug with | none => r'.slug = r.slug | some s => r'.slug.val = s) := by
  intro h
  simp only [setattrs, Except.bind_eq_ok_iff, Except.pure_eq_ok, Except.ok.injEq] at h
  obtain ⟨n, -, d, -, l, -, p, -, a, -, j, -, s, hs, rfl⟩ := h
  refine ⟨rfl, rfl, ?_⟩
  simp only [setSlug] at hs
  cases slug with
  | none =>
    cases hs
    rfl
  | some s' => exact Varchar.val_of_ofString hs

lemma Dish.setattrs_ok {d d' : Dish} {data : DishUpdate} (h : d.setattrs data = .ok d') :
    d'.id = d.id ∧ d'.createdAt = d.createdAt ∧ d'.deletedAt = d.deletedAt ∧
      (match data.categoryId.value with
        | none   => d'.categoryId = d.categoryId
        | some c => c = some d'.categoryId) := by
  simp only [setattrs, Except.bind_eq_ok_iff, Except.pure_eq_ok, Except.ok.injEq] at h
  obtain ⟨c, hc, n, -, de, -, pr, -, sp, -, im, -, av, -, fe, -, ta, -, po, -, rfl⟩ := h
  refine ⟨rfl, rfl, rfl, ?_⟩
  rw [setNotNull] at hc
  cases hv : data.categoryId.value with
  | none =>
    rw [hv] at hc
    cases hc
    rfl
  | some v =>
    rw [hv] at hc
    cases v with
    | none => cases hc
    | some c' =>
      cases hc
      rfl

@[simp] lemma Restaurant.saved_id (old new : Restaurant) (now : Time) :
    (old.saved new now).id = old.id :=
  column_saved Restaurant.id (fun _ => rfl) rfl

@[simp] lemma Restaurant.saved_ownerUserId (old new : Restaurant) (now : Time) :
    (old.saved new now).ownerUserId = old.ownerUserId :=
  column_saved Restaurant.ownerUserId (fun _ => rfl) rfl

lemma Restaurant.saved_slug (old new : Restaurant) (now : Time) :
    (old.saved new now).slug = new.slug :=
  column_saved Restaurant.slug (fun h => h ▸ rfl) (flushColumn_self _ _)

@[simp] lemma Category.saved_id (old new : Category) (now : Time) :
    (old.saved new now).id = old.id :=
  column_saved Category.id (fun _ => rfl) rfl

@[simp] lemma Category.saved_restaurantId (old new : Category) (now : Time) :
    (old.saved new now).restaurantId = old.restaurantId :=
  column_saved Category.restaurantId (fun _ => rfl) rfl

@[simp] lemma Dish.saved_id (old new : Dish) (now : Time) : (old.saved new now).id = old.id :=
  column_saved Dish.id (fun _ => rfl) rfl

lemma Dish.saved_categoryId (old new : Dish) (now : Time) :
    (old.saved new now).categoryId = new.categoryId :=
  column_saved Dish.categoryId (fun h => h ▸ rfl) (flushColumn_self _ _)

lemma Dish.saved_deletedAt (old new : Dish) (now : Time) :
    (old.saved new now).deletedAt = new.deletedAt :=
  column_saved Dish.deletedAt (fun h => h ▸ rfl) (flushColumn_self _ _)

namespace Database

variable {db db' : Database} {now : Time}

/-- A changed instance is committed if its row is there; an unchanged one sends no statement. -/
lemma update_ok {t : Tables} {same gone : Prop} [Decidable same] [Decidable gone]
    (h : (if same then .ok db else if gone then .error .stale else write t) = .ok db') :
    same ∧ db' = db ∨ ¬ same ∧ db'.toTables = t := by
  split_ifs at h with hsame hgone
  · exact .inl ⟨hsame, (Except.ok.inj h).symm⟩
  · exact .inr ⟨hsame, write_ok h⟩

/-- Alone, an instance that was loaded replaces its row. -/
lemma update_row_ok {ρ : Type} [DecidableEq ρ] {key : ρ → Uuid} {old new : ρ} {flush : ρ → ρ}
    {rows : List ρ} (tables : List ρ → Tables) {gone : Prop} [Decidable gone]
    (hkey : (rows.map key).Nodup) (hmem : old ∈ rows) (hdb : db.toTables = tables rows)
    (h : (if new = old then .ok db else if gone then .error .stale
      else write (tables (Rows.modify key (key old) flush rows))) = .ok db') :
    db'.toTables = tables
      (Rows.modify key (key old) (fun _ => if new = old then old else flush old) rows) := by
  rcases update_ok h with ⟨hsame, rfl⟩ | ⟨hne, ht⟩
  · rw [if_pos hsame, Rows.modify_const_self hkey hmem]
    exact hdb
  · rw [if_neg hne, ht, Rows.modify_eq_const hkey hmem]

lemma updateRestaurant_ok {old new : Restaurant} (hmem : old ∈ db.restaurants)
    (h : db.updateRestaurant old new now = .ok db') :
    db'.toTables = { db.toTables with
      restaurants := Rows.modify (·.id) old.id (fun _ => old.saved new now) db.restaurants } :=
  update_row_ok (fun rows => { db.toTables with restaurants := rows }) db.valid.restaurantId hmem
    rfl h

lemma updateCategory_ok {old new : Category} (hmem : old ∈ db.categories)
    (h : db.updateCategory old new now = .ok db') :
    db'.toTables = { db.toTables with
      categories := Rows.modify (·.id) old.id (fun _ => old.saved new now) db.categories } :=
  update_row_ok (fun rows => { db.toTables with categories := rows }) db.valid.categoryId hmem rfl h

lemma updateDish_ok {old new : Dish} (hmem : old ∈ db.dishes)
    (h : db.updateDish old new now = .ok db') :
    db'.toTables = { db.toTables with
      dishes := Rows.modify (·.id) old.id (fun _ => old.saved new now) db.dishes } :=
  update_row_ok (fun rows => { db.toTables with dishes := rows }) db.valid.dishId hmem rfl h

end Database

/-! ### Reordered and revoked rows -/

lemma CategoryRepository.reorderRows_ok {now : Time} {restaurantId : Uuid} {index : ℕ}
    {ids : List Uuid} {rows rows' : List Category}
    (h : reorderRows now restaurantId index ids rows = .ok rows') :
    ∃ f : Category → Category, rows' = rows.map f ∧ ∀ c, f c = c ∨
      c.restaurantId = restaurantId ∧ ∃ p, f c = { c with position := p, updatedAt := now } := by
  induction ids generalizing index rows with
  | nil =>
    cases h
    exact ⟨fun c => c, (List.map_id' _).symm, fun c => .inl rfl⟩
  | cons cid ids ih =>
    simp only [reorderRows, Except.bind_eq_ok_iff] at h
    obtain ⟨p, -, h⟩ := h
    obtain ⟨f, rfl, hf⟩ := ih h
    refine ⟨_, List.map_map, fun c => ?_⟩
    simp only [Function.comp_apply]
    split_ifs with hc
    · -- this UPDATE hits the row, whatever the later ones do to it
      rcases hf { c with position := p, updatedAt := now } with he | ⟨-, q, he⟩
      · exact .inr ⟨hc.2, p, he⟩
      · exact .inr ⟨hc.2, q, he⟩
    · exact hf c

/-- A token row after the flush of a list of changed instances. -/
def RefreshToken.flushAll (changes : List (RefreshToken × RefreshToken)) (k : RefreshToken) :
    RefreshToken :=
  changes.foldl (fun k c => if k.id = c.1.id then RefreshToken.flush c.1 c.2 k else k) k

namespace RefreshToken

/-- The changes of `revoke` and `revoke_all_for_user`. -/
def revocations (tokens : List RefreshToken) (now : Time) : List (RefreshToken × RefreshToken) :=
  tokens.map fun t => (t, { t with revokedAt := some now })

/-- A flush of revocations touches no other column. -/
lemma flushAll_revocations (tokens : List RefreshToken) (now : Time) (k : RefreshToken) :
    ∃ r, flushAll (revocations tokens now) k = { k with revokedAt := r } ∧
      (k.revokedAt.isSome → r.isSome) := by
  induction tokens generalizing k with
  | nil => exact ⟨k.revokedAt, rfl, fun h => h⟩
  | cons t tokens ih =>
    simp only [revocations, flushAll, List.map_cons, List.foldl_cons] at ih ⊢
    split_ifs with hid
    · obtain ⟨r, hr, hs⟩ := ih (flush t { t with revokedAt := some now } k)
      refine ⟨r, hr, fun hk => hs ?_⟩
      simp only [flush, flushColumn]
      split_ifs
      · exact hk
      · rfl
    · exact ih k

@[simp] lemma flushAll_id (tokens : List RefreshToken) (now : Time) (k : RefreshToken) :
    (flushAll (revocations tokens now) k).id = k.id := by
  obtain ⟨r, hr, -⟩ := flushAll_revocations tokens now k
  rw [hr]

lemma flushAll_of_not_mem {tokens : List RefreshToken} {now : Time} {k : RefreshToken}
    (h : ∀ t ∈ tokens, k.id ≠ t.id) : flushAll (revocations tokens now) k = k := by
  induction tokens with
  | nil => rfl
  | cons t tokens ih =>
    simp only [revocations, flushAll, List.map_cons, List.foldl_cons] at ih ⊢
    rw [if_neg (h t List.mem_cons_self)]
    exact ih fun t' ht' => h t' (List.mem_cons_of_mem t ht')

/-- An instance that was loaded unrevoked is stored revoked. -/
lemma flushAll_of_mem {tokens : List RefreshToken} {now : Time} {k t : RefreshToken}
    (hnone : ∀ t ∈ tokens, t.revokedAt = none) (ht : t ∈ tokens) (hid : k.id = t.id) :
    flushAll (revocations tokens now) k = { k with revokedAt := some now } := by
  induction tokens generalizing k t with
  | nil => cases ht
  | cons t' tokens ih =>
    have hnone' : ∀ t ∈ tokens, t.revokedAt = none := fun t h => hnone t (List.mem_cons_of_mem _ h)
    have hflush : flush t' { t' with revokedAt := some now } k
        = { k with revokedAt := some now } := by
      simp [flush, flushColumn, hnone t' List.mem_cons_self]
    by_cases hmem : ∃ s ∈ tokens, k.id = s.id
    · obtain ⟨s, hs, hks⟩ := hmem
      simp only [revocations, flushAll, List.map_cons, List.foldl_cons] at ih ⊢
      split_ifs with h
      · rw [hflush]
        exact ih (k := { k with revokedAt := some now }) hnone' hs hks
      · exact ih hnone' hs hks
    · have htt' : t = t' := by
        rcases List.mem_cons.mp ht with h | h
        · exact h
        · exact absurd ⟨t, h, hid⟩ hmem
      subst htt'
      simp only [revocations, flushAll, List.map_cons, List.foldl_cons]
      rw [if_pos hid, hflush]
      exact flushAll_of_not_mem (k := { k with revokedAt := some now })
        fun s hs he => hmem ⟨s, hs, he⟩

end RefreshToken

lemma Database.updateRefreshTokens_ok {db db' : Database} {tokens : List RefreshToken} {now : Time}
    (h : db.updateRefreshTokens (RefreshToken.revocations tokens now) = .ok db') :
    db'.toTables = { db.toTables with
      refreshTokens := db.refreshTokens.map
        (RefreshToken.flushAll (RefreshToken.revocations tokens now)) } := by
  rw [updateRefreshTokens] at h
  split_ifs at h
  rw [write_ok h, Rows.foldl_modify]
  rfl

/-- Rewritten token rows that keep their identity satisfy the constraints again. -/
lemma Tables.Constraints.map_refreshTokens {t : Tables} (h : t.Constraints)
    {f : RefreshToken → RefreshToken}
    (hf : ∀ k, (f k).id = k.id ∧ (f k).userId = k.userId ∧ (f k).tokenHash = k.tokenHash) :
    { t with refreshTokens := t.refreshTokens.map f }.Constraints :=
  { h with
    refreshTokenId := by
      simp only [List.map_map, Function.comp_def, hf]
      exact h.refreshTokenId
    refreshTokenHash := by
      simp only [List.map_map, Function.comp_def, hf]
      exact h.refreshTokenHash
    refreshTokenUserFk := by
      intro k hk
      obtain ⟨k', hk', rfl⟩ := List.mem_map.mp hk
      rw [(hf k').2.1]
      exact h.refreshTokenUserFk k' hk' }

/-- Rows that are still there can be revoked. -/
lemma Database.exists_updateRefreshTokens (db : Database) (tokens : List RefreshToken)
    (hmem : ∀ t ∈ tokens, t.id ∈ db.refreshTokens.map (·.id)) (now : Time) :
    ∃ db', db.updateRefreshTokens (RefreshToken.revocations tokens now) = .ok db' ∧
      db'.toTables = { db.toTables with
        refreshTokens := db.refreshTokens.map
          (RefreshToken.flushAll (RefreshToken.revocations tokens now)) } := by
  have hvalid := db.valid.map_refreshTokens
    (f := RefreshToken.flushAll (RefreshToken.revocations tokens now)) fun k => by
      obtain ⟨r, hr, -⟩ := RefreshToken.flushAll_revocations tokens now k
      rw [hr]
      exact ⟨rfl, rfl, rfl⟩
  have hpresent : ¬ ((RefreshToken.revocations tokens now).any fun c =>
      c.2 ≠ c.1 ∧ (Rows.get (·.id) c.1.id db.refreshTokens).isNone) = true := by
    simp only [RefreshToken.revocations, List.any_map, List.any_eq_true, Function.comp_apply,
      decide_eq_true_eq, not_exists, not_and]
    intro t ht _ hnone
    obtain ⟨k, hk, hid⟩ := List.mem_map.mp (hmem t ht)
    exact Rows.get_eq_none.mp (Option.isNone_iff_eq_none.mp hnone) k hk hid
  refine ⟨⟨_, hvalid⟩, ?_, rfl⟩
  rw [updateRefreshTokens, if_neg hpresent, Rows.foldl_modify]
  exact write_of hvalid

/-! ### The writing methods -/

section

variable (w : World)

lemma UserRepository.create_cases (P : Platform) (email passwordHash : String) (id : Uuid) :
    (∃ e, (create P email passwordHash id).exec w = (.error (.db e), w)) ∨
      ∃ u db, User.ofCreate P email passwordHash id w.now = .ok u ∧
        db.toTables = { w.db.toTables with users := w.db.users ++ [u] } ∧
        (create P email passwordHash id).exec w = (.ok u, { w with db := db }) := by
  apply Async.exec_insert w
  intro u db hu ht
  rw [← (User.ofCreate_ok hu).1]
  apply Rows.get_of_mem db.valid.userId
  rw [ht]
  simp

lemma RestaurantRepository.create_cases (owner : Uuid) (data : RestaurantCreate) (slug : String)
    (id : Uuid) :
    (∃ e, (create owner data slug id).exec w = (.error (.db e), w)) ∨
      ∃ r db, Restaurant.ofCreate data owner slug id w.now = .ok r ∧
        db.toTables = { w.db.toTables with restaurants := w.db.restaurants ++ [r] } ∧
        (create owner data slug id).exec w = (.ok r, { w with db := db }) := by
  apply Async.exec_insert w
  intro r db hr ht
  rw [← (Restaurant.ofCreate_ok hr).1]
  apply Rows.get_of_mem db.valid.restaurantId
  rw [ht]
  simp

lemma RestaurantRepository.update_cases {r : Restaurant} (hr : r ∈ w.db.restaurants)
    (data : RestaurantUpdate) (slug : Option String) :
    (∃ e, (update r data slug).exec w = (.error (.db e), w)) ∨
      ∃ n db, r.setattrs data slug = .ok n ∧ db.toTables = { w.db.toTables with
          restaurants := Rows.modify (·.id) r.id (fun _ => r.saved n w.now) w.db.restaurants } ∧
        (update r data slug).exec w = (.ok (r.saved n w.now), { w with db := db }) := by
  apply Async.exec_save_cases w
  intro db h
  obtain ⟨n, hn, h⟩ := Except.bind_eq_ok_iff.mp h
  have ht := Database.updateRestaurant_ok hr h
  refine ⟨n, hn, ht, Rows.get_modified (f := fun _ => r.saved n w.now) db.valid.restaurantId ?_ hr
    rfl (Restaurant.saved_id r n w.now)⟩
  rw [ht]

lemma CategoryRepository.update_cases {c : Category} (hc : c ∈ w.db.categories)
    (data : CategoryUpdate) :
    (∃ e, (update c data).exec w = (.error (.db e), w)) ∨
      ∃ n db, c.setattrs data = .ok n ∧ db.toTables = { w.db.toTables with
          categories := Rows.modify (·.id) c.id (fun _ => c.saved n w.now) w.db.categories } ∧
        (update c data).exec w = (.ok (c.saved n w.now), { w with db := db }) := by
  apply Async.exec_save_cases w
  intro db h
  obtain ⟨n, hn, h⟩ := Except.bind_eq_ok_iff.mp h
  have ht := Database.updateCategory_ok hc h
  refine ⟨n, hn, ht, Rows.get_modified (f := fun _ => c.saved n w.now) db.valid.categoryId ?_ hc rfl
    (Category.saved_id c n w.now)⟩
  rw [ht]

lemma DishRepository.save_cases {d : Dish} (hd : d ∈ w.db.dishes) (new : Except DbError Dish) :
    (∃ e, (save d new).exec w = (.error (.db e), w)) ∨
      ∃ n db, new = .ok n ∧ db.toTables = { w.db.toTables with
          dishes := Rows.modify (·.id) d.id (fun _ => d.saved n w.now) w.db.dishes } ∧
        (save d new).exec w = (.ok (d.saved n w.now), { w with db := db }) := by
  apply Async.exec_save_cases w
  intro db h
  obtain ⟨n, hn, h⟩ := Except.bind_eq_ok_iff.mp h
  have ht := Database.updateDish_ok hd h
  refine ⟨n, hn, ht, Rows.get_modified (f := fun _ => d.saved n w.now) db.valid.dishId ?_ hd rfl
    (Dish.saved_id d n w.now)⟩
  rw [ht]

/-- Alone, a new category takes the next position of its restaurant. -/
lemma CategoryRepository.exec_create (restaurantId : Uuid) (name : BoundedStr 1 50)
    (description : Option PyStr) (active : Bool) (id : Uuid) :
    (create restaurantId name description none active id).exec w
      = (Async.insert .categories (Category.ofCreate restaurantId name description (nextPosition
          ((w.db.categories.filter fun c => c.restaurantId = restaurantId).map
            (·.position.val)).max?) active id)
          (fun t c => { t with categories := t.categories ++ [c] })
          (fun id t => Rows.get (·.id) id t.categories) id).exec w := by
  simp only [create, Async.orElse, getNextPosition, Prog.bind_assoc, Async.exec_select_bind,
    Prog.exec_pure_bind]

lemma CategoryRepository.find_created {restaurantId : Uuid} {name : BoundedStr 1 50}
    {description : Option PyStr} {p : ℤ} {active : Bool} {id : Uuid} {now : Time} {c : Category}
    {db : Database} {t : Tables}
    (hc : Category.ofCreate restaurantId name description p active id now = .ok c)
    (ht : db.toTables = { t with categories := t.categories ++ [c] }) :
    Rows.get (·.id) id db.categories = some c := by
  rw [← (Category.ofCreate_ok hc).1]
  apply Rows.get_of_mem db.valid.categoryId
  rw [ht]
  simp

/-- A created category takes the next position of its restaurant. -/
lemma CategoryRepository.create_placed (restaurantId : Uuid) (name : BoundedStr 1 50)
    (description : Option PyStr) (active : Bool) (id : Uuid) :
    (∃ e, (create restaurantId name description none active id).exec w = (.error (.db e), w)) ∨
      ∃ c db, Category.ofCreate restaurantId name description (nextPosition
          ((w.db.categories.filter fun c => c.restaurantId = restaurantId).map
            (·.position.val)).max?) active id w.now = .ok c ∧
        db.toTables = { w.db.toTables with categories := w.db.categories ++ [c] } ∧
        (create restaurantId name description none active id).exec w
          = (.ok c, { w with db := db }) := by
  rw [exec_create]
  exact Async.exec_insert w fun c db hc ht => find_created hc ht

lemma CategoryRepository.create_cases (restaurantId : Uuid) (name : BoundedStr 1 50)
    (description : Option PyStr) (active : Bool) (id : Uuid) :
    (∃ e, (create restaurantId name description none active id).exec w = (.error (.db e), w)) ∨
      ∃ p c db, Category.ofCreate restaurantId name description p active id w.now = .ok c ∧
        db.toTables = { w.db.toTables with categories := w.db.categories ++ [c] } ∧
        (create restaurantId name description none active id).exec w
          = (.ok c, { w with db := db }) :=
  Or.imp_right (Exists.intro _) (create_placed w restaurantId name description active id)

lemma DishRepository.exec_create (data : DishCreate) (id : Uuid) :
    (create data none id).exec w
      = (Async.insert .dishes (Dish.ofCreate data (nextPosition
          ((w.db.dishes.filter fun d => d.categoryId = data.categoryId ∧ d.deletedAt.isNone).map
            (·.position.val)).max?) id)
          (fun t d => { t with dishes := t.dishes ++ [d] })
          (fun id t => Rows.get (·.id) id t.dishes) id).exec w := by
  simp only [create, Async.orElse, getNextPosition, Prog.bind_assoc, Async.exec_select_bind,
    Prog.exec_pure_bind]

lemma DishRepository.find_created {data : DishCreate} {p : ℤ} {id : Uuid} {now : Time} {d : Dish}
    {db : Database} {t : Tables} (hd : Dish.ofCreate data p id now = .ok d)
    (ht : db.toTables = { t with dishes := t.dishes ++ [d] }) :
    Rows.get (·.id) id db.dishes = some d := by
  rw [← (Dish.ofCreate_ok hd).1]
  apply Rows.get_of_mem db.valid.dishId
  rw [ht]
  simp

/-- A created dish takes the next position of its category. -/
lemma DishRepository.create_placed (data : DishCreate) (id : Uuid) :
    (∃ e, (create data none id).exec w = (.error (.db e), w)) ∨
      ∃ d db, Dish.ofCreate data (nextPosition ((w.db.dishes.filter fun d =>
          d.categoryId = data.categoryId ∧ d.deletedAt.isNone).map (·.position.val)).max?) id w.now
            = .ok d ∧
        db.toTables = { w.db.toTables with dishes := w.db.dishes ++ [d] } ∧
        (create data none id).exec w = (.ok d, { w with db := db }) := by
  rw [exec_create]
  exact Async.exec_insert w fun d db hd ht => find_created hd ht

lemma DishRepository.create_cases (data : DishCreate) (id : Uuid) :
    (∃ e, (create data none id).exec w = (.error (.db e), w)) ∨
      ∃ p d db, Dish.ofCreate data p id w.now = .ok d ∧
        db.toTables = { w.db.toTables with dishes := w.db.dishes ++ [d] } ∧
        (create data none id).exec w = (.ok d, { w with db := db }) :=
  Or.imp_right (Exists.intro _) (create_placed w data id)

/-- A write of tables that depend on nothing but the database fails, or it commits them. -/
lemma Async.exec_write_cases (t : Table) (tables : Tables) :
    (∃ e, (Async.commit t fun _ _ => do
        let db ← Database.write tables
        return ((), db)).exec w = (.error (.db e), w)) ∨
      ∃ db, db.toTables = tables ∧ (Async.commit t fun _ _ => do
        let db ← Database.write tables
        return ((), db)).exec w = (.ok (), { w with db := db }) := by
  rw [Async.exec_commit]
  cases hw : Database.write tables with
  | error e => exact .inl ⟨e, rfl⟩
  | ok db => exact .inr ⟨db, Database.write_ok hw, rfl⟩

lemma RestaurantRepository.delete_cases (r : Restaurant) :
    (∃ e, (delete r).exec w = (.error (.db e), w)) ∨
      ∃ db, db.toTables = w.db.toTables.deleteRestaurant r.id ∧
        (delete r).exec w = (.ok (), { w with db := db }) :=
  Async.exec_write_cases w .restaurants (w.db.toTables.deleteRestaurant r.id)

/-- The dishes that are loaded are those that the cascade takes. -/
lemma Tables.deleteCategory_loaded {t : Tables} (ht : t.Constraints) (cid : Uuid) :
    (t.deleteDishes ((t.dishes.filter fun d => d.categoryId = cid).map (·.id))).deleteCategory cid
      = t.deleteCategory cid := by
  rw [deleteDishes, deleteCategory, deleteCategory, List.filter_filter]
  congr 1
  refine List.filter_congr fun d hd => ?_
  rw [Bool.and_eq_left_iff_imp]
  intro hcat
  refine decide_eq_true fun hloaded => of_decide_eq_true hcat ?_
  obtain ⟨d', hd', hid⟩ := List.mem_map.mp hloaded
  obtain ⟨hd', hcat'⟩ := List.mem_filter.mp hd'
  rw [← Rows.eq_of_key_eq ht.dishId hd' hd hid]
  exact of_decide_eq_true hcat'

lemma CategoryRepository.delete_cases (c : Category) :
    (∃ e, (delete c).exec w = (.error (.db e), w)) ∨
      ∃ db, db.toTables = w.db.toTables.deleteCategory c.id ∧
        (delete c).exec w = (.ok (), { w with db := db }) := by
  rw [← Tables.deleteCategory_loaded w.db.valid]
  exact Async.exec_write_cases w .categories _

lemma CategoryRepository.reorder_cases (restaurantId : Uuid) (ids : List Uuid) :
    (∃ e, (reorderCategories restaurantId ids).exec w = (.error (.db e), w)) ∨
      ∃ rows db, reorderRows w.now restaurantId 0 ids w.db.categories = .ok rows ∧
        db.toTables = { w.db.toTables with categories := rows } ∧
        (reorderCategories restaurantId ids).exec w = (.ok (), { w with db := db }) := by
  rw [reorderCategories, Async.exec_commit]
  cases hr : reorderRows w.now restaurantId 0 ids w.db.categories with
  | error e => exact .inl ⟨e, rfl⟩
  | ok rows =>
    cases hw : Database.write { w.db.toTables with categories := rows } with
    | error e => exact .inl ⟨e, by simp only [bind, Except.bind, hw]⟩
    | ok db =>
      refine .inr ⟨rows, db, rfl, Database.write_ok hw, ?_⟩
      simp only [bind, Except.bind, hw, pure, Except.pure]

namespace RefreshTokenRepository

variable (P : Platform)

lemma create_cases (userId : Uuid) (token : String) (days : ℤ) (id : Uuid) :
    (∃ e, (create P userId token days id).exec w = (.error (.db e), w)) ∨
      ∃ k db, k = ⟨id, userId, hashToken P token, none, w.now + Time.days days, w.now⟩ ∧
        db.toTables = { w.db.toTables with refreshTokens := w.db.refreshTokens ++ [k] } ∧
        (create P userId token days id).exec w = (.ok k, { w with db := db }) := by
  simp only [create, Async.exec_clock_bind]
  refine Or.imp_right ?_ (Async.exec_insert w fun k db hk ht => ?_)
  · rintro ⟨k, db, hk, ht, h⟩
    exact ⟨k, db, (Except.ok.inj hk).symm, ht, h⟩
  · have hid : k.id = id := by
      cases hk
      rfl
    rw [← hid]
    apply Rows.get_of_mem db.valid.refreshTokenId
    rw [ht]
    simp

/-- A row with a new identifier and a new hash, of a user that exists, is stored. -/
lemma create_of_fresh (days : ℤ) {userId : Uuid} {token : String} {id : Uuid}
    (hid : id ∉ w.db.refreshTokens.map (·.id))
    (hhash : P.sha256 token ∉ w.db.refreshTokens.map (·.tokenHash))
    (huser : userId ∈ w.db.users.map (·.id)) :
    ∃ k db, (create P userId token days id).exec w = (.ok k, { w with db := db }) := by
  rcases create_cases w P userId token days id with ⟨e, h⟩ | ⟨k, db, -, -, h⟩
  · have hvalid : Tables.Constraints { w.db.toTables with refreshTokens := w.db.refreshTokens ++
        [⟨id, userId, hashToken P token, none, w.now + Time.days days, w.now⟩] } :=
      { w.db.valid with
        refreshTokenId := Rows.nodup_map_append w.db.valid.refreshTokenId hid
        refreshTokenHash := Rows.nodup_map_append w.db.valid.refreshTokenHash hhash
        refreshTokenUserFk := by
          intro k hk
          rcases List.mem_append.mp hk with hk | hk
          · exact w.db.valid.refreshTokenUserFk k hk
          · rw [List.mem_singleton.mp hk]
            exact huser }
    have hget := Rows.get_of_mem hvalid.refreshTokenId (List.mem_append_right _ (.head _))
    rw [create, Async.exec_clock_bind, Async.insert, Async.exec_commit_bind] at h
    simp only [bind, Except.bind, Database.write_of hvalid, pure, Except.pure] at h
    rw [Async.exec_refresh, hget] at h
    cases h
  · exact ⟨k, db, h⟩

/-- A token is valid if its row is there, not revoked and not expired. -/
lemma exec_isValid (token : String) :
    ∃ valid, (isValid P token).exec w = (.ok valid, w) ∧
      (valid = true ↔ ∃ k, Rows.get (·.tokenHash) (hashToken P token) w.db.refreshTokens = some k ∧
        k.revokedAt = none ∧ w.now ≤ k.expiresAt) := by
  rw [isValid, getByToken, Async.exec_select_bind]
  cases Rows.get (·.tokenHash) (hashToken P token) w.db.refreshTokens with
  | none => exact ⟨false, rfl, by simp⟩
  | some k =>
    simp only
    by_cases hrevoked : k.revokedAt.isSome
    · rw [if_pos hrevoked]
      refine ⟨false, rfl, ?_⟩
      have hne : k.revokedAt ≠ none := Option.isSome_iff_ne_none.mp hrevoked
      simp [hne]
    · rw [if_neg hrevoked, Async.exec_clock_bind]
      refine ⟨_, rfl, ?_⟩
      have heq : k.revokedAt = none := by simpa using hrevoked
      simp [heq]

/-- The token table after the row with the hash of `token` was revoked. -/
lemma revoke_cases (token : String) :
    (Rows.get (·.tokenHash) (hashToken P token) w.db.refreshTokens = none ∧
        (revoke P token).exec w = (.ok (), w)) ∨
      ∃ k db, Rows.get (·.tokenHash) (hashToken P token) w.db.refreshTokens = some k ∧
        db.toTables = { w.db.toTables with
          refreshTokens := Rows.modify (·.id) k.id (fun _ => { k with revokedAt := some w.now })
            w.db.refreshTokens } ∧
        (revoke P token).exec w = (.ok (), { w with db := db }) := by
  rw [revoke, getByToken, Async.exec_select_bind]
  cases hget : Rows.get (·.tokenHash) (hashToken P token) w.db.refreshTokens with
  | none => exact .inl ⟨rfl, rfl⟩
  | some k =>
    have hk := Rows.get_mem hget
    obtain ⟨db, hdb, ht⟩ := Database.exists_updateRefreshTokens w.db [k]
      (fun t h => List.mem_map_of_mem (List.mem_singleton.mp h ▸ hk)) w.now
    have hrows : w.db.refreshTokens.map
        (RefreshToken.flushAll (RefreshToken.revocations [k] w.now))
          = Rows.modify (·.id) k.id (fun _ => { k with revokedAt := some w.now })
            w.db.refreshTokens := by
      apply List.map_congr_left
      intro k' hk'
      split_ifs with hid
      · rw [Rows.eq_of_key_eq w.db.valid.refreshTokenId hk' hk hid]
        simp [RefreshToken.flushAll, RefreshToken.revocations, RefreshToken.flush]
      · exact RefreshToken.flushAll_of_not_mem fun t ht => List.mem_singleton.mp ht ▸ hid
    refine .inr ⟨k, db, rfl, by rw [ht, hrows], ?_⟩
    rw [Async.exec_clock_bind, Async.exec_commit]
    rw [RefreshToken.revocations, List.map_singleton] at hdb
    simp only [hdb, bind, Except.bind, pure, Except.pure]

/-- The token table after the live rows of a user were revoked. -/
lemma revokeAllForUser_cases (userId : Uuid) :
    ∃ db, db.toTables = { w.db.toTables with
        refreshTokens := w.db.refreshTokens.map fun k =>
          if k.userId = userId ∧ k.revokedAt.isNone then { k with revokedAt := some w.now }
          else k } ∧
      (revokeAllForUser userId).exec w = (.ok (), { w with db := db }) := by
  obtain ⟨db, hdb, ht⟩ := Database.exists_updateRefreshTokens w.db
    (w.db.refreshTokens.filter fun t => t.userId = userId ∧ t.revokedAt.isNone)
    (fun t h => List.mem_map_of_mem (List.mem_filter.mp h).1) w.now
  have hrows : w.db.refreshTokens.map (RefreshToken.flushAll (RefreshToken.revocations
      (w.db.refreshTokens.filter fun t => t.userId = userId ∧ t.revokedAt.isNone) w.now))
        = w.db.refreshTokens.map fun k => if k.userId = userId ∧ k.revokedAt.isNone then
            { k with revokedAt := some w.now } else k := by
    apply List.map_congr_left
    intro k hk
    split_ifs with hlive
    · refine RefreshToken.flushAll_of_mem (t := k) (fun t h => ?_) ?_ rfl
      · simpa using (of_decide_eq_true (List.mem_filter.mp h).2).2
      · exact List.mem_filter.mpr ⟨hk, decide_eq_true hlive⟩
    · refine RefreshToken.flushAll_of_not_mem fun t h hid => hlive ?_
      obtain ⟨ht, hp⟩ := List.mem_filter.mp h
      rw [Rows.eq_of_key_eq w.db.valid.refreshTokenId hk ht hid]
      exact of_decide_eq_true hp
  refine ⟨db, by rw [ht, hrows], ?_⟩
  rw [revokeAllForUser, Async.exec_select_bind, Async.exec_clock_bind, Async.exec_commit]
  rw [RefreshToken.revocations] at hdb
  simp only [hdb, bind, Except.bind, pure, Except.pure]

end RefreshTokenRepository

end

end LiveMenu
