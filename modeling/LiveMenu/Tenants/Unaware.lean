import LiveMenu.Tenants.Alike

/-!
# Code that is unaware of the menus of others

A coroutine is unaware if it makes the same steps in states that look alike to a user, leaves states
that look alike, and returns the same. Every statement of the repositories is, where the rows that
it names are in tables that all see or belong to the user.
-/

namespace LiveMenu

open Except (Both)

namespace Async

variable (ownerOf : Table → Uuid → Uuid) (u : Uuid) {α β : Type}

/-- The states look alike to the user, and in both the rows are with their owners. -/
structure Twins (w w' : World) : Prop where
  hold : (ownership ownerOf).Hold w
  hold' : (ownership ownerOf).Hold w'
  alike : w.Alike ownerOf u w'

/-- The coroutine cannot tell what others have on their menus, and what it returns meets `q`. -/
def Unaware (q : α → Prop) (p : Async α) : Prop :=
  Prog.Blind (Twins ownerOf u) (World.Alike ownerOf u) q p

variable {ownerOf u} {q : α → Prop} {q' : β → Prop}

/-! ### Rules -/

lemma unaware_pure {a : α} (h : q a) : Unaware ownerOf u q (pure a) := Prog.blind_pure h

lemma unaware_raise (e : Exc) : Unaware ownerOf u q (Prog.raise e) := Prog.blind_raise e

lemma unaware_http (status : ℕ) (detail : String) : Unaware ownerOf u q (http status detail) :=
  Prog.blind_raise _

lemma Unaware.bind {p : Async α} {k : α → Async β} (hp : p.Unaware ownerOf u q)
    (hk : ∀ a, q a → (k a).Unaware ownerOf u q') : (p >>= k).Unaware ownerOf u q' :=
  Prog.Blind.bind hp hk

lemma Unaware.map {p : Async α} {f : α → β} (hp : p.Unaware ownerOf u fun _ => True) :
    (f <$> p).Unaware ownerOf u fun _ => True :=
  Prog.Blind.map (hp.imp fun _ _ => trivial)

lemma unaware_select {t : Table} {query : Database → α}
    (h : ∀ w w', Twins ownerOf u w w' → query w'.db = query w.db ∧ q (query w.db)) :
    (select t query).Unaware ownerOf u q :=
  Prog.blind_read (fun _ _ h => h.alike) h

/-- A look for one row, which can be missing. -/
lemma unaware_find {t : Table} {query : Database → Option β} {k : Option β → Async α}
    (h : ∀ w w', Twins ownerOf u w w' → query w'.db = query w.db)
    (hnone : (k none).Unaware ownerOf u q)
    (hsome : ∀ w row, (ownership ownerOf).Hold w → query w.db = some row →
      (k (some row)).Unaware ownerOf u q) :
    (select t query >>= k).Unaware ownerOf u q := by
  refine Unaware.bind (q := fun o => ∀ row, o = some row → (k (some row)).Unaware ownerOf u q)
    (unaware_select fun w w' hw => ⟨h w w' hw, fun row hrow => hsome w row hw.hold hrow⟩) ?_
  intro o ho
  cases o with
  | none => exact hnone
  | some row => exact ho row rfl

/-- Rows that are loaded for the session and not used. -/
lemma unaware_load {t : Table} {query : Database → β} {p : Async α} (hp : p.Unaware ownerOf u q) :
    (select t query >>= fun _ => p).Unaware ownerOf u q :=
  Prog.blind_unread (fun _ _ h => h.alike) hp

lemma unaware_clock : clock.Unaware ownerOf u fun _ => True :=
  Prog.blind_read (fun _ _ h => h.alike) fun _ _ h => ⟨h.alike.now, trivial⟩

lemma unaware_refresh {t : Table} {query : Database → Option α}
    (h : ∀ w w', Twins ownerOf u w w' → query w'.db = query w.db) :
    (refresh t query).Unaware ownerOf u fun _ => True := by
  refine Unaware.bind (q := fun _ => True)
    (Prog.blind_read (fun _ _ h => h.alike) fun w w' hw => ⟨h w w' hw, trivial⟩) fun o _ => ?_
  cases o with
  | some a => exact unaware_pure trivial
  | none => exact unaware_raise _

lemma unaware_selectBound {t : Table} {query : Database → Except DbError α}
    (h : ∀ w w', Twins ownerOf u w w' → query w'.db = query w.db) :
    (selectBound t query).Unaware ownerOf u fun _ => True := by
  refine Unaware.bind (q := fun _ => True)
    (unaware_select fun w w' hw => ⟨h w w' hw, trivial⟩) fun r _ => ?_
  cases r with
  | ok a => exact unaware_pure trivial
  | error e => exact unaware_raise _

lemma unaware_cacheInvalidatePrefix (pre : String) :
    (cacheInvalidatePrefix pre).Unaware ownerOf u fun _ => True :=
  Prog.blind_modify (fun _ _ h => ⟨h.alike.db, alike_cacheInvalidatePrefix h.alike.cache pre,
    h.alike.now⟩) trivial

/-- The menus are dropped after a write, and the result of the write is returned. -/
lemma Unaware.invalidate {p : Async α} (hp : p.Unaware ownerOf u q) (pre : String) :
    (p >>= fun a => cacheInvalidatePrefix pre >>= fun _ => pure a).Unaware ownerOf u
      fun _ => True :=
  hp.bind fun _ _ => (unaware_cacheInvalidatePrefix pre).bind fun _ _ => unaware_pure trivial

lemma unaware_whenSome (o : Option α) {f : α → Async Unit}
    (hf : ∀ a, o = some a → (f a).Unaware ownerOf u fun _ => True) :
    (whenSome o f).Unaware ownerOf u fun _ => True := by
  cases o with
  | none => exact unaware_pure trivial
  | some a => exact hf a rfl

/-- What two commits write looks alike. -/
abbrev BothAlike (ownerOf : Table → Uuid → Uuid) (u : Uuid) (x y : Except DbError Database) :
    Prop :=
  x.Both (fun db db' => db.toTables.Alike ownerOf u db'.toTables) y

lemma unaware_commit {t : Table} {write : Time → Database → Except DbError (α × Database)}
    (h : ∀ w w', Twins ownerOf u w w' → (write w.now w.db).Both
      (fun x y => y.1 = x.1 ∧ x.2.toTables.Alike ownerOf u y.2.toTables) (write w.now w'.db)) :
    (commit t write).Unaware ownerOf u fun _ => True := by
  refine Prog.blind_attempt (fun _ _ h => h.alike) fun w w' hw => ?_
  have hboth := h w w' hw
  simp only [hw.alike.now]
  generalize write w.now w.db = x at hboth ⊢
  generalize write w.now w'.db = y at hboth ⊢
  cases hboth with
  | @ok x y hxy =>
    obtain ⟨a, db⟩ := x
    obtain ⟨a', db'⟩ := y
    exact .ok ⟨hxy.1, ⟨hxy.2, hw.alike.cache, rfl⟩, trivial⟩
  | error e => exact .error _

lemma unaware_write {t : Table} {write : Time → Database → Except DbError Database}
    (h : ∀ w w', Twins ownerOf u w w' →
      BothAlike ownerOf u (write w.now w.db) (write w.now w'.db)) :
    (commit t fun now db => do
      let db ← write now db
      return ((), db)).Unaware ownerOf u fun _ => True :=
  unaware_commit fun w w' hw => (h w w' hw).bind fun _ _ hdb => .ok ⟨rfl, hdb⟩

lemma unaware_insert {t : Table} {row : Time → Except DbError α} {tables : Tables → α → Tables}
    {find : Uuid → Tables → Option α} {id : Uuid}
    (h : ∀ w w' r, Twins ownerOf u w w' → row w.now = .ok r → BothAlike ownerOf u
      (Database.write (tables w.db.toTables r)) (Database.write (tables w'.db.toTables r)))
    (hfind : ∀ w w', Twins ownerOf u w w' → find id w'.db.toTables = find id w.db.toTables) :
    (insert t row tables find id).Unaware ownerOf u fun _ => True :=
  (unaware_commit fun w w' hw => Except.both_bind fun r hr =>
    (h w w' r hw hr).bind fun _ _ hdb => .ok ⟨rfl, hdb⟩).bind fun _ _ => unaware_refresh hfind

lemma unaware_save {t : Table} {update : Time → Database → Except DbError Database}
    {find : Uuid → Tables → Option α} {id : Uuid}
    (h : ∀ w w', Twins ownerOf u w w' →
      BothAlike ownerOf u (update w.now w.db) (update w.now w'.db))
    (hfind : ∀ w w', Twins ownerOf u w w' → find id w'.db.toTables = find id w.db.toTables) :
    (save t update find id).Unaware ownerOf u fun _ => True :=
  (unaware_write h).bind fun _ _ => unaware_refresh hfind

end Async

/-! ### Statements -/

section Statements

variable {ownerOf : Table → Uuid → Uuid} {u : Uuid} {w w' : World}

namespace Async.Twins

variable (hw : Twins ownerOf u w w')

include hw

lemma inPlace : InPlace ownerOf w.db.dishes := fun d hd => hw.hold.dishes d hd

lemma inPlace' : InPlace ownerOf w'.db.dishes := fun d hd => hw.hold'.dishes d hd

lemma get_restaurant {κ : Type} [DecidableEq κ] (key : Restaurant → κ) (k : κ) :
    Rows.get key k w'.db.restaurants = Rows.get key k w.db.restaurants := by
  rw [hw.alike.db.restaurants]

/-- A selection of categories in the user's restaurants is the same in both. -/
lemma filter_categories {q : Category → Bool}
    (hq : ∀ c, q c = true → ownerOf .restaurants c.restaurantId = u) :
    w'.db.categories.filter q = w.db.categories.filter q := by
  have hown : ∀ x : World, (ownership ownerOf).Hold x → ∀ c ∈ x.db.categories, q c = true →
      isOwn ownerOf u .categories c.id = true := by
    intro x hx c hc hqc
    have hfact : ownerOf .restaurants c.restaurantId = ownerOf .categories c.id :=
      hx.categories c hc
    exact decide_eq_true (hfact.symm.trans (hq c hqc))
  exact Rows.filter_eq_of_part hw.alike.db.categories (hown w hw.hold) (hown w' hw.hold')

/-- A selection of dishes in the user's categories is the same in both. -/
lemma filter_dishes {q : Dish → Bool}
    (hq : ∀ d, q d = true → ownerOf .categories d.categoryId = u) :
    w'.db.dishes.filter q = w.db.dishes.filter q := by
  have hown : ∀ x : World, (ownership ownerOf).Hold x → ∀ d ∈ x.db.dishes, q d = true →
      isOwn ownerOf u .dishes d.id = true := by
    intro x hx d hd hqd
    have hfact : ownerOf .categories d.categoryId = ownerOf .dishes d.id := hx.dishes d hd
    exact decide_eq_true (hfact.symm.trans (hq d hqd))
  exact Rows.filter_eq_of_part hw.alike.db.dishes (hown w hw.hold) (hown w' hw.hold')

/-! #### Tables that all see -/

/-- A write to the tables other than those of the catalog. -/
lemma both_write {f : Tables → Tables} (hf : ∀ t : Tables, t.SharedWrite (f t))
    (halike : ∀ t t' : Tables, t.Alike ownerOf u t' → (f t).Alike ownerOf u (f t')) :
    BothAlike ownerOf u (Database.write (f w.db.toTables)) (Database.write (f w'.db.toTables)) :=
  both_sharedWrite (hf _) (hf _) (halike _ _ hw.alike.db)

lemma both_updateRestaurant (old new : Restaurant) (now : Time) :
    BothAlike ownerOf u (w.db.updateRestaurant old new now)
      (w'.db.updateRestaurant old new now) := by
  rw [Database.updateRestaurant, Database.updateRestaurant, hw.get_restaurant]
  split_ifs
  · exact .ok hw.alike.db
  · exact .error _
  · refine hw.both_write (f := fun t => { t with
      restaurants := Rows.modify (·.id) old.id (old.flush new now) t.restaurants }) ?_ ?_
    · intro t
      have hids : (Rows.modify (·.id) old.id (old.flush new now) t.restaurants).map (·.id)
          = t.restaurants.map (·.id) := Rows.map_modify fun _ _ _ => rfl
      exact ⟨fun id hid => hids ▸ hid, rfl, rfl⟩
    · exact fun t t' h => { h with restaurants := by rw [h.restaurants] }

lemma both_updateRefreshTokens (changes : List (RefreshToken × RefreshToken)) :
    BothAlike ownerOf u (w.db.updateRefreshTokens changes)
      (w'.db.updateRefreshTokens changes) := by
  rw [Database.updateRefreshTokens, Database.updateRefreshTokens, hw.alike.db.refreshTokens]
  split_ifs
  · exact .error _
  · refine both_sharedWrite ⟨fun _ h => h, rfl, rfl⟩ ⟨fun _ h => h, rfl, rfl⟩ ?_
    exact { hw.alike.db with refreshTokens := rfl }

end Async.Twins

/-- A restaurant can always be deleted with what is in it. -/
lemma Tables.Constraints.deleteRestaurant {t : Tables} (ht : t.Constraints) (rid : Uuid) :
    (t.deleteRestaurant rid).Constraints where
  userId := ht.userId
  userEmail := ht.userEmail
  restaurantId := ht.restaurantId.sublist (List.filter_sublist.map _)
  restaurantOwner := ht.restaurantOwner.sublist (List.filter_sublist.map _)
  restaurantSlug := ht.restaurantSlug.sublist (List.filter_sublist.map _)
  restaurantOwnerFk r hr := ht.restaurantOwnerFk r (List.mem_of_mem_filter hr)
  categoryId := ht.categoryId.sublist (List.filter_sublist.map _)
  categoryRestaurantFk c hc := by
    obtain ⟨hc, hne⟩ := List.mem_filter.mp hc
    obtain ⟨r, hr, hid⟩ := List.mem_map.mp (ht.categoryRestaurantFk c hc)
    refine List.mem_map.mpr ⟨r, List.mem_filter.mpr ⟨hr, ?_⟩, hid⟩
    rwa [hid]
  dishId := ht.dishId.sublist (List.filter_sublist.map _)
  dishCategoryFk d hd := by
    obtain ⟨hd, hgone⟩ := List.mem_filter.mp hd
    obtain ⟨c, hc, hid⟩ := List.mem_map.mp (ht.dishCategoryFk d hd)
    refine List.mem_map.mpr ⟨c, List.mem_filter.mpr ⟨hc, decide_eq_true fun hrid => ?_⟩, hid⟩
    refine of_decide_eq_true hgone (List.mem_map.mpr ⟨c, List.mem_filter.mpr ⟨hc, ?_⟩, hid⟩)
    exact decide_eq_true hrid
  scanEventId := ht.scanEventId.sublist (List.filter_sublist.map _)
  scanEventRestaurantFk e he := by
    obtain ⟨he, hne⟩ := List.mem_filter.mp he
    obtain ⟨r, hr, hid⟩ := List.mem_map.mp (ht.scanEventRestaurantFk e he)
    refine List.mem_map.mpr ⟨r, List.mem_filter.mpr ⟨hr, ?_⟩, hid⟩
    rwa [hid]
  refreshTokenId := ht.refreshTokenId
  refreshTokenHash := ht.refreshTokenHash
  refreshTokenUserFk := ht.refreshTokenUserFk

namespace Async.Twins

variable (hw : Twins ownerOf u w w')

include hw

lemma both_deleteRestaurant (rid : Uuid) :
    BothAlike ownerOf u (Database.write (w.db.toTables.deleteRestaurant rid))
      (Database.write (w'.db.toTables.deleteRestaurant rid)) := by
  refine LiveMenu.both_write (iff_of_true (w.db.valid.deleteRestaurant rid)
    (w'.db.valid.deleteRestaurant rid)) ?_
  have h := hw.alike.db
  refine ⟨h.users, ?_, Rows.filter_filter_part h.categories fun _ _ => rfl,
    Rows.filter_filter_part h.dishes fun d hd => ?_, ?_, h.refreshTokens⟩
  · rw [Tables.deleteRestaurant, Tables.deleteRestaurant, h.restaurants]
  · -- the category of an own dish goes in both or in neither
    obtain ⟨hd, hown⟩ := List.mem_filter.mp hd
    have hcat : isOwn ownerOf u .categories d.categoryId = true := by
      rwa [isOwn, hw.inPlace d hd]
    have hgone : ∀ t : Tables, d.categoryId ∈
          ((t.categories.filter fun c => isOwn ownerOf u .categories c.id).filter fun c =>
            c.restaurantId = rid).map (·.id) ↔
        d.categoryId ∈ (t.categories.filter fun c => c.restaurantId = rid).map (·.id) := by
      intro t
      rw [← Rows.mem_map_filter hcat (t.categories.filter fun c => c.restaurantId = rid),
        List.filter_filter, List.filter_filter]
      simp only [Bool.and_comm]
    refine decide_eq_decide.mpr (not_congr ?_)
    rw [← hgone, ← hgone, h.categories]
  · rw [Tables.deleteRestaurant, Tables.deleteRestaurant, h.scanEvents]

/-! #### The user's rows -/

lemma both_insertCategory {c : Category} (hc : ownerOf .categories c.id = u) :
    BothAlike ownerOf u
      (Database.write { w.db.toTables with categories := w.db.categories ++ [c] })
      (Database.write { w'.db.toTables with categories := w'.db.categories ++ [c] }) := by
  have hown : (!isOwn ownerOf u .categories c.id) = false := by
    rw [isOwn, decide_eq_true hc, Bool.not_true]
  refine both_ownWrite hw.inPlace hw.inPlace' ?_ ?_ ?_
  · exact ⟨rfl, rfl, filter_append_of_false hown, rfl, rfl, rfl, hw.inPlace⟩
  · exact ⟨rfl, rfl, filter_append_of_false hown, rfl, rfl, rfl, hw.inPlace'⟩
  · refine { hw.alike.db with categories := ?_ }
    show (w'.db.categories ++ [c]).filter _ = (w.db.categories ++ [c]).filter _
    rw [List.filter_append, List.filter_append, hw.alike.db.categories]

lemma both_insertDish {d : Dish} (hd : ownerOf .dishes d.id = u)
    (hcat : ownerOf .categories d.categoryId = u) :
    BothAlike ownerOf u
      (Database.write { w.db.toTables with dishes := w.db.dishes ++ [d] })
      (Database.write { w'.db.toTables with dishes := w'.db.dishes ++ [d] }) := by
  have hown : (!isOwn ownerOf u .dishes d.id) = false := by
    rw [isOwn, decide_eq_true hd, Bool.not_true]
  have hplace : ∀ dishes, InPlace ownerOf dishes → InPlace ownerOf (dishes ++ [d]) := by
    intro dishes h d' hd'
    obtain hd' | hd' := List.mem_append.mp hd'
    · exact h d' hd'
    · rw [List.mem_singleton.mp hd', hcat, hd]
  refine both_ownWrite hw.inPlace hw.inPlace' ?_ ?_ ?_
  · exact ⟨rfl, rfl, rfl, filter_append_of_false hown, rfl, rfl, hplace _ hw.inPlace⟩
  · exact ⟨rfl, rfl, rfl, filter_append_of_false hown, rfl, rfl, hplace _ hw.inPlace'⟩
  · refine { hw.alike.db with dishes := ?_ }
    show (w'.db.dishes ++ [d]).filter _ = (w.db.dishes ++ [d]).filter _
    rw [List.filter_append, List.filter_append, hw.alike.db.dishes]

lemma both_updateCategory {old : Category} (hold : ownerOf .categories old.id = u)
    (new : Category) (now : Time) :
    BothAlike ownerOf u (w.db.updateCategory old new now) (w'.db.updateCategory old new now) := by
  rw [Database.updateCategory, Database.updateCategory, hw.alike.db.get_category hold]
  have hown : (!isOwn ownerOf u .categories old.id) = false := by
    rw [isOwn, decide_eq_true hold, Bool.not_true]
  have hforeign : ∀ rows : List Category,
      (Rows.modify (·.id) old.id (old.flush new now) rows).filter
        (fun c => !isOwn ownerOf u .categories c.id)
      = rows.filter fun c => !isOwn ownerOf u .categories c.id :=
    Rows.filter_modify_other (p := fun id => !isOwn ownerOf u .categories id) hown fun _ => rfl
  split_ifs
  · exact .ok hw.alike.db
  · exact .error _
  · refine both_ownWrite hw.inPlace hw.inPlace' ?_ ?_ ?_
    · exact ⟨rfl, rfl, hforeign _, rfl, rfl, rfl, hw.inPlace⟩
    · exact ⟨rfl, rfl, hforeign _, rfl, rfl, rfl, hw.inPlace'⟩
    · exact { hw.alike.db with
        categories := Rows.filter_modify_part (f := old.flush new now) (fun _ => rfl)
          hw.alike.db.categories }

/-- A dish of the user is rewritten and stays in a category of the user. -/
lemma both_updateDish {old new : Dish} (hold : ownerOf .dishes old.id = u)
    (hnew : ownerOf .categories new.categoryId = u) (now : Time) :
    BothAlike ownerOf u (w.db.updateDish old new now) (w'.db.updateDish old new now) := by
  rw [Database.updateDish, Database.updateDish, hw.alike.db.get_dish hold]
  have hown : (!isOwn ownerOf u .dishes old.id) = false := by
    rw [isOwn, decide_eq_true hold, Bool.not_true]
  have hforeign : ∀ rows : List Dish,
      (Rows.modify (·.id) old.id (old.flush new now) rows).filter
        (fun d => !isOwn ownerOf u .dishes d.id)
      = rows.filter fun d => !isOwn ownerOf u .dishes d.id :=
    Rows.filter_modify_other (p := fun id => !isOwn ownerOf u .dishes id) hown fun _ => rfl
  have hplace : ∀ dishes, InPlace ownerOf dishes →
      InPlace ownerOf (Rows.modify (·.id) old.id (old.flush new now) dishes) := by
    intro dishes h d' hd'
    obtain ⟨hd', -⟩ | ⟨d, hd, hid, rfl⟩ := Rows.mem_modify.mp hd'
    · exact h d' hd'
    · show ownerOf .categories (flushColumn old.categoryId new.categoryId d.categoryId)
        = ownerOf .dishes d.id
      rw [flushColumn]
      split_ifs
      · exact h d hd
      · rw [hnew, hid, hold]
  split_ifs
  · exact .ok hw.alike.db
  · exact .error _
  · refine both_ownWrite hw.inPlace hw.inPlace' ?_ ?_ ?_
    · exact ⟨rfl, rfl, rfl, hforeign _, rfl, rfl, hplace _ hw.inPlace⟩
    · exact ⟨rfl, rfl, rfl, hforeign _, rfl, rfl, hplace _ hw.inPlace'⟩
    · exact { hw.alike.db with
        dishes := Rows.filter_modify_part (f := old.flush new now) (fun _ => rfl)
          hw.alike.db.dishes }

lemma both_deleteCategory {cid : Uuid} (hcid : ownerOf .categories cid = u) {ids : List Uuid}
    (hids : ∀ id ∈ ids, ownerOf .dishes id = u) :
    BothAlike ownerOf u (Database.write ((w.db.toTables.deleteDishes ids).deleteCategory cid))
      (Database.write ((w'.db.toTables.deleteDishes ids).deleteCategory cid)) := by
  have hne : ∀ id, (!isOwn ownerOf u .categories id) = true → decide (id ≠ cid) = true := by
    rintro id hid
    refine decide_eq_true ?_
    rintro rfl
    rw [isOwn, decide_eq_true hcid] at hid
    cases hid
  have hnot : ∀ id, (!isOwn ownerOf u .dishes id) = true → decide (id ∉ ids) = true := by
    rintro id hid
    refine decide_eq_true fun hmem => ?_
    rw [isOwn, decide_eq_true (hids id hmem)] at hid
    cases hid
  have hown : ∀ t : Tables, InPlace ownerOf t.dishes →
      t.OwnWrite ownerOf u ((t.deleteDishes ids).deleteCategory cid) := by
    intro t ht
    refine ⟨rfl, rfl, ?_, ?_, rfl, rfl,
      fun d hd => ht d (List.mem_of_mem_filter (List.mem_of_mem_filter hd))⟩
    · exact Rows.filter_filter_eq fun c _ hc => hne _ hc
    · refine (Rows.filter_filter_eq fun d hd hd' => hne _ ?_).trans
        (Rows.filter_filter_eq fun d _ hd => hnot _ hd)
      rwa [isOwn, ht d (List.mem_of_mem_filter hd)]
  have h := hw.alike.db
  refine both_ownWrite hw.inPlace hw.inPlace' (hown _ hw.inPlace) (hown _ hw.inPlace') ?_
  exact ⟨h.users, h.restaurants, Rows.filter_filter_part h.categories fun _ _ => rfl,
    Rows.filter_filter_part (Rows.filter_filter_part h.dishes fun _ _ => rfl) fun _ _ => rfl,
    h.scanEvents, h.refreshTokens⟩

end Async.Twins

/-- The categories are in restaurants of their owners. -/
def Categorized (ownerOf : Table → Uuid → Uuid) (categories : List Category) : Prop :=
  ∀ c ∈ categories, ownerOf .restaurants c.restaurantId = ownerOf .categories c.id

/-- The positions of the user's categories are set alike, those of others are left alone. -/
lemma both_reorderRows {rid : Uuid} (hrid : ownerOf .restaurants rid = u) (now : Time) (index : ℕ)
    (ids : List Uuid) {rows rows' : List Category} (h : Categorized ownerOf rows)
    (h' : Categorized ownerOf rows')
    (heq : rows'.filter (fun c => isOwn ownerOf u .categories c.id)
      = rows.filter fun c => isOwn ownerOf u .categories c.id) :
    (CategoryRepository.reorderRows now rid index ids rows).Both
      (fun x y => y.filter (fun c => isOwn ownerOf u .categories c.id)
          = x.filter (fun c => isOwn ownerOf u .categories c.id) ∧
        x.filter (fun c => !isOwn ownerOf u .categories c.id)
          = rows.filter (fun c => !isOwn ownerOf u .categories c.id) ∧
        y.filter (fun c => !isOwn ownerOf u .categories c.id)
          = rows'.filter fun c => !isOwn ownerOf u .categories c.id)
      (CategoryRepository.reorderRows now rid index ids rows') := by
  induction ids generalizing index rows rows' with
  | nil => exact .ok ⟨heq, rfl, rfl⟩
  | cons cid ids ih =>
    refine Except.both_bind fun position _ => ?_
    set f : Category → Category := fun c =>
      if c.id = cid ∧ c.restaurantId = rid then { c with position := position, updatedAt := now }
      else c with hf
    have hid : ∀ c, (f c).id = c.id := by
      intro c
      simp only [hf]
      split_ifs <;> rfl
    have hcat : ∀ rows, Categorized ownerOf rows → Categorized ownerOf (rows.map f) := by
      intro rows hrows c' hc'
      obtain ⟨c, hc, rfl⟩ := List.mem_map.mp hc'
      have hrest : (f c).restaurantId = c.restaurantId := by
        simp only [hf]
        split_ifs <;> rfl
      rw [hid, hrest]
      exact hrows c hc
    have hforeign : ∀ rows, Categorized ownerOf rows →
        (rows.map f).filter (fun c => !isOwn ownerOf u .categories c.id)
          = rows.filter fun c => !isOwn ownerOf u .categories c.id := by
      intro rows hrows
      refine Rows.filter_map_eq fun c hc => ?_
      by_cases hmatch : c.id = cid ∧ c.restaurantId = rid
      · have hown : isOwn ownerOf u .categories c.id = true := by
          rw [isOwn, ← hrows c hc, hmatch.2, decide_eq_true hrid]
        exact .inr ⟨by rw [hown, Bool.not_true], by rw [hid, hown, Bool.not_true]⟩
      · exact .inl (if_neg hmatch)
    refine (ih (index + 1) (hcat rows h) (hcat rows' h') ?_).imp ?_
    · rw [Rows.filter_map_part hid, Rows.filter_map_part hid, heq]
    · rintro x y ⟨hxy, hx, hy⟩
      exact ⟨hxy, hx.trans (hforeign rows h), hy.trans (hforeign rows' h')⟩

end Statements

end LiveMenu
