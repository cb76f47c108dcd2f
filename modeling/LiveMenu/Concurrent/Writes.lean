import LiveMenu.Concurrent.Lookups
import LiveMenu.Sequential.Repositories
import LiveMenu.Model.Requests

/-!
# What the commits of a coroutine write

`Async.Writes R` says of a coroutine, whoever runs between its steps, that only its commits touch
the database and that each of them changes it as `R` says. `AdminOp.writes` gives the relation for
every operation of the owners: the instance that a commit saves was read before and may be stale.
-/

namespace LiveMenu

namespace Async

variable {α β : Type} {R : Time → Tables → Tables → Prop}

/-- A step leaves the tables alone, or it is a commit that changes them as `R` says. -/
def StepWrites (R : Time → Tables → Tables → Prop) (l : Label) (w w' : World) : Prop :=
  w'.db = w.db ∨ (∃ t, l = .commit t) ∧ R w.now w.db.toTables w'.db.toTables

/-- Every step of the coroutine leaves the clock alone, and the tables but for commits as in `R`. -/
def Writes (R : Time → Tables → Tables → Prop) : Async α → Prop
  | .done _          => True
  | .step l eff next =>
    (∀ w, (eff w).now = w.now ∧ StepWrites R l w (eff w)) ∧ ∀ w, Writes R (next w)

/-- A step puts no menu into the cache. -/
def StepCachesNothing (l : Label) (w w' : World) : Prop :=
  (∀ key, l ≠ .cacheSet key) ∧ ∀ e ∈ w'.cache, e ∈ w.cache

/-- The coroutine writes as `R` says, and none of its steps puts a menu into the cache. -/
def Mutates (R : Time → Tables → Tables → Prop) : Async α → Prop
  | .done _          => True
  | .step l eff next =>
    (∀ w, (eff w).now = w.now ∧ StepWrites R l w (eff w) ∧ StepCachesNothing l w (eff w)) ∧
      ∀ w, Mutates R (next w)

lemma Mutates.writes {p : Async α} (h : p.Mutates R) : p.Writes R := by
  induction p with
  | done r => trivial
  | step l eff next ih =>
    exact ⟨fun w => ⟨(h.1 w).1, (h.1 w).2.1⟩, fun w => ih w (h.2 w)⟩

lemma mutates_pure (a : α) : Mutates R (pure a : Async α) := trivial

lemma mutates_raise (e : Exc) : Mutates R (Prog.raise e : Async α) := trivial

lemma mutates_http (status : ℕ) (detail : String) : Mutates R (http status detail : Async α) :=
  trivial

lemma Queries.mutates {p : Async α} (h : p.Queries) : p.Mutates R := by
  induction p with
  | done r => trivial
  | step l eff next ih =>
    obtain ⟨hl, rfl, hnext⟩ := h
    refine ⟨fun w => ⟨rfl, .inl rfl, ?_, fun e he => he⟩, fun w => ih w (hnext w)⟩
    rintro key rfl
    exact hl

lemma Mutates.bind {p : Async α} {k : α → Async β} (hp : p.Mutates R) (hk : ∀ a, (k a).Mutates R) :
    (p >>= k).Mutates R := by
  show Mutates R (Prog.bind p k)
  induction p with
  | done r =>
    cases r with
    | ok a => exact hk a
    | error e => trivial
  | step l eff next ih => exact ⟨hp.1, fun w => ih w (hp.2 w)⟩

lemma Mutates.map {p : Async α} (hp : p.Mutates R) (f : α → β) : (f <$> p).Mutates R :=
  hp.bind fun a => mutates_pure (f a)

lemma Mutates.handle {p : Async α} {h : Exc → Async α} (hp : p.Mutates R)
    (hh : ∀ e, (h e).Mutates R) : Mutates R (Prog.handle h p) := by
  induction p with
  | done r =>
    cases r with
    | ok a => trivial
    | error e => exact hh e
  | step l eff next ih => exact ⟨hp.1, fun w => ih w (hp.2 w)⟩

lemma mutates_cacheInvalidatePrefix (pre : String) : (cacheInvalidatePrefix pre).Mutates R := by
  refine ⟨fun w => ⟨rfl, .inl rfl, fun _ => Label.noConfusion, fun e he => ?_⟩, fun _ => trivial⟩
  exact (Cache.mem_cacheInvalidatePrefix.mp he).1

/-- The pages of a menu are dropped after a write, and the result of the write is returned. -/
lemma Mutates.invalidate {p : Async α} (hp : p.Mutates R) (pre : α → String) :
    (p >>= fun a => cacheInvalidatePrefix (pre a) >>= fun _ => pure a).Mutates R :=
  hp.bind fun a => (mutates_cacheInvalidatePrefix (pre a)).bind fun _ => mutates_pure a

lemma mutates_commit {t : Table} {write : Time → Database → Except DbError (α × Database)}
    (h : ∀ now db a db', write now db = .ok (a, db') →
      db' = db ∨ R now db.toTables db'.toTables) : (commit t write).Mutates R := by
  refine ⟨fun w => ?_, fun w => trivial⟩
  cases hw : write w.now w.db with
  | error e =>
    simp only [hw]
    exact ⟨trivial, .inl rfl, fun _ => Label.noConfusion, fun e he => he⟩
  | ok r =>
    obtain ⟨a, db⟩ := r
    simp only [hw]
    refine ⟨trivial, (h w.now w.db a db hw).imp_right fun hR => ⟨⟨t, rfl⟩, hR⟩, ?_⟩
    exact ⟨fun _ => Label.noConfusion, fun e he => he⟩

/-- An insertion writes the row it builds. -/
lemma mutates_insert {ρ : Type} {t : Table} {row : Time → Except DbError ρ}
    {tables : Tables → ρ → Tables} {find : Uuid → Tables → Option ρ} {id : Uuid}
    (h : ∀ now t r, row now = .ok r → R now t (tables t r)) :
    (insert t row tables find id).Mutates R := by
  refine (mutates_commit fun now db r db' hw => .inr ?_).bind fun r =>
    (queries_refresh _ _).mutates
  simp only [Except.bind_eq_ok_iff, Except.pure_eq_ok, Except.ok.injEq, Prod.mk.injEq] at hw
  obtain ⟨r', hr', db'', hdb, rfl, rfl⟩ := hw
  rw [Database.write_ok hdb]
  exact h _ _ _ hr'

lemma mutates_save {ρ : Type} {t : Table} {update : Time → Database → Except DbError Database}
    {find : Uuid → Tables → Option ρ} {id : Uuid}
    (h : ∀ now db db', update now db = .ok db' → db' = db ∨ R now db.toTables db'.toTables) :
    (save t update find id).Mutates R := by
  refine (mutates_commit fun now db a db' hw => ?_).bind fun _ => (queries_refresh _ _).mutates
  simp only [Except.bind_eq_ok_iff, Except.pure_eq_ok, Except.ok.injEq, Prod.mk.injEq] at hw
  obtain ⟨db'', hdb, -, rfl⟩ := hw
  exact h _ _ _ hdb

lemma mutates_select_bind {t : Table} {query : Database → α} {k : α → Async β}
    (h : ∀ w : World, (k (query w.db)).Mutates R) : (select t query >>= k).Mutates R :=
  ⟨fun _ => ⟨rfl, .inl rfl, fun _ => Label.noConfusion, fun _ he => he⟩, h⟩

/-- A look for one row, which can be missing. -/
lemma mutates_find {t : Table} {query : Database → Option β} {k : Option β → Async α}
    (hnone : (k none).Mutates R) (hsome : ∀ row, (k (some row)).Mutates R) :
    (select t query >>= k).Mutates R := by
  refine (queries_select _ _).mutates.bind fun o => ?_
  cases o with
  | none => exact hnone
  | some row => exact hsome row

/-- A commit of tables that are computed from the stored ones. -/
lemma mutates_write {t : Table} {tables : Time → Tables → Except DbError Tables}
    (h : ∀ now t t', tables now t = .ok t' → R now t t') :
    (commit t fun now db => do
      let t ← tables now db.toTables
      let db ← Database.write t
      return ((), db)).Mutates R := by
  refine mutates_commit fun now db a db' hw => .inr ?_
  simp only [Except.bind_eq_ok_iff, Except.pure_eq_ok, Except.ok.injEq, Prod.mk.injEq] at hw
  obtain ⟨t', ht', db'', hdb, -, rfl⟩ := hw
  rw [Database.write_ok hdb]
  exact h _ _ _ ht'

/-- A monitor that lets the writes of a coroutine pass follows it without moving. -/
lemma Writes.accepts {Φ : Type} {M : Monitor World Label Φ} {φ : Φ} {p : Async α}
    (hp : p.Writes R)
    (hM : ∀ l w w', StepWrites R l w w' → M.allows φ l w w' ∧ M.next φ l w w' = φ) :
    M.Accepts (fun φ' _ => φ' = φ) p φ := by
  induction p with
  | done r => exact rfl
  | step l eff next ih =>
    intro w
    obtain ⟨hallow, hφ⟩ := hM l w (eff w) (hp.1 w).2
    rw [hφ]
    exact ⟨hallow, ih w (hp.2 w)⟩

/-- The same for a monitor that also watches the clock and the cache. -/
lemma Mutates.accepts {Φ : Type} {M : Monitor World Label Φ} {φ : Φ} {p : Async α}
    (hp : p.Mutates R)
    (hM : ∀ l w w', w'.now = w.now → StepWrites R l w w' → StepCachesNothing l w w' →
      M.allows φ l w w' ∧ M.next φ l w w' = φ) :
    M.Accepts (fun φ' _ => φ' = φ) p φ := by
  induction p with
  | done r => exact rfl
  | step l eff next ih =>
    intro w
    obtain ⟨hnow, hwrites, hcache⟩ := hp.1 w
    obtain ⟨hallow, hφ⟩ := hM l w (eff w) hnow hwrites hcache
    rw [hφ]
    exact ⟨hallow, ih w (hp.2 w)⟩

end Async

/-! ### Saving an instance that may be stale -/

namespace Database

variable {db db' : Database} {now : Time}

lemma updateRestaurant_writes {old new : Restaurant}
    (h : db.updateRestaurant old new now = .ok db') :
    db' = db ∨ db'.toTables = { db.toTables with
      restaurants := Rows.modify (·.id) old.id (old.flush new now) db.restaurants } :=
  (update_ok h).imp And.right And.right

lemma updateCategory_writes {old new : Category} (h : db.updateCategory old new now = .ok db') :
    db' = db ∨ db'.toTables = { db.toTables with
      categories := Rows.modify (·.id) old.id (old.flush new now) db.categories } :=
  (update_ok h).imp And.right And.right

lemma updateDish_writes {old new : Dish} (h : db.updateDish old new now = .ok db') :
    db' = db ∨ db'.toTables = { db.toTables with
      dishes := Rows.modify (·.id) old.id (old.flush new now) db.dishes } :=
  (update_ok h).imp And.right And.right

lemma updateRefreshTokens_writes {changes : List (RefreshToken × RefreshToken)}
    (h : db.updateRefreshTokens changes = .ok db') :
    db'.toTables = { db.toTables with
      refreshTokens := changes.foldl
        (fun rows c => Rows.modify (·.id) c.1.id (RefreshToken.flush c.1 c.2) rows)
        db.refreshTokens } := by
  rw [updateRefreshTokens] at h
  split_ifs at h
  exact write_ok h

end Database

/-! ### The owners' operations -/

/-- What a commit of an operation of the user `u` does to the tables. -/
inductive AdminWrite (u : Uuid) (now : Time) (t t' : Tables) : AdminOp → Prop
  | restaurantCreate {fuel : ℕ} {data : RestaurantCreate} {id : Uuid} {slug : String}
      {r : Restaurant} (hrow : Restaurant.ofCreate data u slug id now = .ok r)
      (ht : t' = { t with restaurants := t.restaurants ++ [r] }) :
      AdminWrite u now t t' (.restaurantCreate fuel data id)
  | restaurantUpdate {fuel : ℕ} {data : RestaurantUpdate} {old new : Restaurant}
      (ht : t' = { t with
        restaurants := Rows.modify (·.id) old.id (old.flush new now) t.restaurants }) :
      AdminWrite u now t t' (.restaurantUpdate fuel data)
  | restaurantDelete {rid : Uuid} (ht : t' = t.deleteRestaurant rid) :
      AdminWrite u now t t' .restaurantDelete
  | categoryCreate {data : CategoryCreate} {id : Uuid} {c : Category} (hid : c.id = id)
      (ht : t' = { t with categories := t.categories ++ [c] }) :
      AdminWrite u now t t' (.categoryCreate data id)
  | categoryUpdate {categoryId : Uuid} {data : CategoryUpdate} {old new : Category}
      (ht : t' = { t with
        categories := Rows.modify (·.id) old.id (old.flush new now) t.categories }) :
      AdminWrite u now t t' (.categoryUpdate categoryId data)
  | categoryDelete {categoryId : Uuid} {ids : List Uuid}
      (ht : t' = (t.deleteDishes ids).deleteCategory categoryId) :
      AdminWrite u now t t' (.categoryDelete categoryId)
  | categoryReorder {ids : List Uuid} {rid : Uuid} {rows : List Category}
      (hrows : CategoryRepository.reorderRows now rid 0 ids t.categories = .ok rows)
      (ht : t' = { t with categories := rows }) :
      AdminWrite u now t t' (.categoryReorder ids)
  | dishCreate {data : DishCreate} {id : Uuid} {d : Dish} (hid : d.id = id)
      (ht : t' = { t with dishes := t.dishes ++ [d] }) :
      AdminWrite u now t t' (.dishCreate data id)
  | dishUpdate {dishId : Uuid} {data : DishUpdate} {old new : Dish}
      (hdel : new.deletedAt = none → old.deletedAt = none)
      (ht : t' = { t with dishes := Rows.modify (·.id) old.id (old.flush new now) t.dishes }) :
      AdminWrite u now t t' (.dishUpdate dishId data)
  | dishDelete {dishId : Uuid} {old new : Dish}
      (hdel : new.deletedAt = none → old.deletedAt = none)
      (ht : t' = { t with dishes := Rows.modify (·.id) old.id (old.flush new now) t.dishes }) :
      AdminWrite u now t t' (.dishDelete dishId)
  | dishToggle {dishId : Uuid} {old new : Dish}
      (hdel : new.deletedAt = none → old.deletedAt = none)
      (ht : t' = { t with dishes := Rows.modify (·.id) old.id (old.flush new now) t.dishes }) :
      AdminWrite u now t t' (.dishToggle dishId)
  | logout {ks : List RefreshToken} (ht : t' = { t with refreshTokens := ks }) :
      AdminWrite u now t t' .logout

namespace AdminOp

open Async

variable {u : Uuid}

/-- A deleted dish is saved as one. -/
lemma mutates_dishSave {op : AdminOp} {dish : Dish} {new : Except DbError Dish}
    (hnew : ∀ n, new = .ok n → n.deletedAt = none → dish.deletedAt = none)
    (h : ∀ now (t t' : Tables) (old n : Dish), (n.deletedAt = none → old.deletedAt = none) →
      t' = { t with dishes := Rows.modify (·.id) old.id (old.flush n now) t.dishes } →
        AdminWrite u now t t' op) :
    (DishRepository.save dish new).Mutates fun now t t' => AdminWrite u now t t' op := by
  apply mutates_save
  intro now db db' hdb
  obtain ⟨n, hn, hdb⟩ := Except.bind_eq_ok_iff.mp hdb
  exact (Database.updateDish_writes hdb).imp_right (h now _ _ dish n (hnew n hn))

/-- Every commit of an operation writes what the operation stands for. -/
theorem mutates (P : Platform) (u : Uuid) (op : AdminOp) :
    (op.code P u).Mutates fun now t t' => AdminWrite u now t t' op := by
  cases op with
  | restaurantGet => exact (RestaurantService.queries_getByOwner u).mutates.map _
  | restaurantCreate fuel data id =>
    refine (mutates_find ?_ fun r => mutates_http _ _).map _
    apply (RestaurantService.queries_ensureUniqueSlug _ _ _).mutates.bind
    intro slug
    exact mutates_insert fun now t r hr => .restaurantCreate hr rfl
  | restaurantUpdate fuel data =>
    refine ((RestaurantService.queries_getByOwner u).mutates.bind fun r => ?_).map _
    apply (RestaurantService.queries_updatedSlug fuel r data.name).mutates.bind
    intro slug
    refine Mutates.invalidate ?_ _
    apply mutates_save
    intro now db db' hdb
    obtain ⟨n, -, hdb⟩ := Except.bind_eq_ok_iff.mp hdb
    exact (Database.updateRestaurant_writes hdb).imp_right .restaurantUpdate
  | restaurantDelete =>
    refine ((RestaurantService.queries_getByOwner u).mutates.bind fun r => ?_).map _
    refine Mutates.bind ?_ fun _ => mutates_cacheInvalidatePrefix _
    apply (queries_select _ _).mutates.bind
    intro _
    exact @mutates_write _ _ (fun _ t => .ok (t.deleteRestaurant r.id))
      fun _ _ _ h => .restaurantDelete (Except.ok.inj h).symm
  | categoryList activeOnly scan =>
    exact (mutates_find (mutates_http _ _) fun _ => (queries_select _ _).mutates).map _
  | categoryCreate data id =>
    refine (mutates_find (mutates_http _ _) fun r => ?_).map _
    refine Mutates.invalidate ?_ _
    refine (queries_orElse _ ((queries_select _ _).bind fun _ => queries_pure _)).mutates.bind
      fun p => mutates_insert fun now t c hc => ?_
    exact .categoryCreate (Category.ofCreate_ok hc).1 rfl
  | categoryUpdate categoryId data =>
    refine (mutates_find (mutates_http _ _) fun c => ?_).map _
    apply (CategoryService.queries_verifyRestaurantOwnership _ u).mutates.bind
    intro _
    refine Mutates.invalidate ?_ _
    apply mutates_save
    intro now db db' hdb
    obtain ⟨n, -, hdb⟩ := Except.bind_eq_ok_iff.mp hdb
    exact (Database.updateCategory_writes hdb).imp_right .categoryUpdate
  | categoryDelete categoryId =>
    refine Mutates.map (mutates_select_bind fun w => ?_) _
    cases hget : Rows.get (·.id) categoryId w.db.categories with
    | none => exact mutates_http _ _
    | some c =>
      apply (CategoryService.queries_verifyRestaurantOwnership _ u).mutates.bind
      intro _
      apply (CategoryRepository.queries_hasActiveDishes categoryId).mutates.bind
      intro active
      split_ifs
      · exact mutates_http _ _
      · refine Mutates.bind ?_ fun _ => mutates_cacheInvalidatePrefix _
        apply (queries_select _ _).mutates.bind
        intro dishes
        apply @mutates_write _ _
          (fun _ t => .ok ((t.deleteDishes (dishes.map (·.id))).deleteCategory c.id))
        intro _ _ _ h
        have hid := Rows.get_key hget
        exact .categoryDelete (hid ▸ (Except.ok.inj h).symm)
  | categoryReorder orderedIds =>
    refine (mutates_find (mutates_http _ _) fun r => ?_).map _
    apply (CategoryService.queries_verifyOrderedIds _ _).mutates.bind
    intro _
    refine Mutates.bind ?_ fun _ => mutates_cacheInvalidatePrefix _
    refine mutates_commit fun now db a db' hw => .inr ?_
    simp only [Except.bind_eq_ok_iff, Except.pure_eq_ok, Except.ok.injEq, Prod.mk.injEq] at hw
    obtain ⟨rows, hrows, db'', hdb, -, rfl⟩ := hw
    exact .categoryReorder hrows (Database.write_ok hdb)
  | dishList f limit offset scan =>
    refine (mutates_find (mutates_http _ _) fun r => ?_).map _
    refine (queries_whenSome _ fun cid =>
      DishService.queries_verifyCategoryOwnership (some cid) u).mutates.bind fun _ => ?_
    exact (DishRepository.queries_listDishes P _ limit offset scan).mutates.bind
      fun _ => mutates_pure _
  | dishGet dishId => exact (DishService.queries_getDish dishId u).mutates.map _
  | dishCreate data id =>
    refine ((DishService.queries_verifyCategoryOwnership _ u).mutates.bind fun _ => ?_).map _
    refine Mutates.invalidate ?_ _
    refine (queries_orElse _ ((queries_select _ _).bind fun _ => queries_pure _)).mutates.bind
      fun p => mutates_insert fun now t d hd => ?_
    exact .dishCreate (Dish.ofCreate_ok hd).1 rfl
  | dishUpdate dishId data =>
    refine ((DishService.queries_getDish dishId u).mutates.bind fun d => ?_).map _
    refine (queries_whenSome _ fun cid =>
      DishService.queries_verifyCategoryOwnership cid u).mutates.bind fun _ => ?_
    refine Mutates.invalidate ?_ _
    refine mutates_dishSave (fun n hn hlive => ?_) fun _ _ _ _ _ => .dishUpdate
    rwa [← (Dish.setattrs_ok hn).2.2.1]
  | dishDelete dishId =>
    refine ((DishService.queries_getDish dishId u).mutates.bind fun d => ?_).map _
    refine Mutates.invalidate ?_ _
    refine queries_clock.mutates.bind fun _ =>
      mutates_dishSave ?_ fun _ _ _ _ _ => .dishDelete
    rintro _ ⟨⟩ ⟨⟩
  | dishToggle dishId =>
    refine ((DishService.queries_getDish dishId u).mutates.bind fun d => ?_).map _
    refine Mutates.invalidate ?_ _
    refine mutates_dishSave ?_ fun _ _ _ _ _ => .dishToggle
    rintro _ ⟨⟩ hlive
    exact hlive
  | analyticsGet granularity fromDate toDate scan =>
    refine (mutates_find (mutates_http _ _) fun r => ?_).map _
    open AnalyticsRepository in
    exact ((queries_query _ _ _ _).bind fun _ => (queries_query _ _ _ _).bind fun _ =>
      (queries_query _ _ _ _).bind fun _ => (queries_query _ _ _ _).bind fun _ =>
        queries_pure _).mutates
  | analyticsExport fromDate toDate scan =>
    refine (mutates_find (mutates_http _ _) fun r => ?_).map _
    exact ((AnalyticsRepository.queries_query _ _ _ _).bind fun _ => queries_pure _).mutates
  | logout =>
    refine ((queries_select _ _).mutates.bind fun tokens =>
      queries_clock.mutates.bind fun now => ?_).map _
    refine mutates_commit fun now db a db' hw => .inr ?_
    simp only [Except.bind_eq_ok_iff, Except.pure_eq_ok, Except.ok.injEq, Prod.mk.injEq] at hw
    obtain ⟨db'', hdb, -, rfl⟩ := hw
    exact .logout (Database.updateRefreshTokens_writes hdb)

theorem writes (P : Platform) (u : Uuid) (op : AdminOp) :
    (op.code P u).Writes fun now t t' => AdminWrite u now t t' op := (mutates P u op).writes

end AdminOp

/-! ### The other requests -/

/-- The categories stay as they are. -/
def SameCategories (_ : Time) (t t' : Tables) : Prop := t'.categories = t.categories

namespace AuthService

open Async

variable (P : Platform)

lemma mutates_issueTokens (user : Option User) (userId : Uuid) (email : String) (draws : Draws) :
    (issueTokens P user userId email draws).Mutates SameCategories := by
  apply (queries_clock.bind fun _ => queries_pure _).mutates.bind
  intro access
  apply (queries_clock.bind fun _ => queries_pure _).mutates.bind
  intro token
  refine Mutates.bind ?_ fun _ => mutates_pure _
  exact queries_clock.mutates.bind fun _ => mutates_insert fun _ _ _ _ => rfl

lemma mutates_register (email password : String) (draws : Draws) :
    (register P email password draws).Mutates SameCategories := by
  apply ((queries_select _ _).bind fun _ => queries_pure _).mutates.bind
  intro taken
  split_ifs
  · exact mutates_http _ _
  · cases P.hashPassword draws.salt password with
    | error e => exact mutates_raise e
    | ok hash =>
      refine Mutates.bind (p := UserRepository.create P email hash draws.userId) ?_ fun user => ?_
      · exact mutates_insert fun _ _ _ _ => rfl
      · exact mutates_issueTokens P _ _ _ draws

lemma mutates_login (email password : String) (draws : Draws) :
    (login P email password draws).Mutates SameCategories := by
  rw [login_eq]
  refine mutates_find (mutates_http _ _) fun user => ?_
  cases hverify : P.verifyPassword password user.passwordHash.val with
  | error e =>
    simp only [hverify]
    exact mutates_raise e
  | ok right =>
    simp only [hverify]
    cases right with
    | false => exact mutates_http _ _
    | true => exact mutates_issueTokens P _ _ _ draws

lemma mutates_revoke (token : String) :
    (RefreshTokenRepository.revoke P token).Mutates SameCategories := by
  refine mutates_find (mutates_pure ()) fun k => ?_
  refine queries_clock.mutates.bind fun now => mutates_commit fun _ db a db' hw => .inr ?_
  simp only [Except.bind_eq_ok_iff, Except.pure_eq_ok, Except.ok.injEq, Prod.mk.injEq] at hw
  obtain ⟨db'', hdb, -, rfl⟩ := hw
  rw [SameCategories, Database.updateRefreshTokens_writes hdb]

lemma queries_isValid (token : String) : (RefreshTokenRepository.isValid P token).Queries := by
  apply (queries_select _ _).bind
  intro o
  cases o with
  | none => exact queries_pure _
  | some k =>
    dsimp only
    split_ifs
    · exact queries_pure _
    · exact queries_clock.bind fun _ => queries_pure _

lemma queries_verifyRefreshToken (token : String) : (verifyRefreshToken P token).Queries := by
  refine Queries.bind ?_ fun payload => ?_
  · rw [decodeToken]
    cases P.jwtDecode token with
    | none => exact queries_raise _
    | some payload =>
      apply queries_clock.bind
      intro now
      split_ifs
      · exact queries_raise _
      · exact queries_pure _
  · split_ifs
    · exact queries_raise _
    · exact queries_pure _

lemma mutates_refresh (token : String) (draws : Draws) :
    (refresh P token draws).Mutates SameCategories := by
  refine Mutates.handle ?_ fun e => ?_
  · apply (queries_verifyRefreshToken P token).mutates.bind
    intro payload
    apply (queries_isValid P token).mutates.bind
    intro valid
    split_ifs
    · exact mutates_http _ _
    · exact (mutates_revoke P token).bind fun _ => mutates_issueTokens P _ _ _ draws
  · cases e <;> exact mutates_http _ _

end AuthService

end LiveMenu
