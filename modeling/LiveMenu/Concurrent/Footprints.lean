import LiveMenu.Concurrent.Knowledge
import LiveMenu.Concurrent.Lookups
import LiveMenu.Concurrent.Writes

/-!
# The footprint of every request

Whatever runs between its steps and whatever facts hold of the rows it reads, a request only makes
the writes of `Request.Writes` and only returns the answers of `Request.Answers`.
-/

namespace LiveMenu

/-- What a call returns meets `q`, if it returns. -/
def OnReturn {α : Type} (q : α → Prop) : Except Exc α → Prop
  | .ok a    => q a
  | .error _ => True

namespace Async

variable {α β : Type} {P : Platform} {F : Facts} {req : Request} {q : α → Prop} {q' : β → Prop}

/-- The steps of the coroutine are steps of the request, and what it returns meets `q`. -/
def Yields (P : Platform) (F : Facts) (req : Request) (q : α → Prop) (p : Async α) : Prop :=
  p.Keeps F.Hold (req.Does P F) (OnReturn q)

/-! ### Rules -/

lemma does_query (w : World) : req.Does P F w w := .stays rfl (fun _ h => h) rfl

lemma yields_pure {a : α} (h : q a) : Yields P F req q (pure a) := h

lemma yields_raise (e : Exc) : Yields P F req q (Prog.raise e) := trivial

lemma yields_http (status : ℕ) (detail : String) : Yields P F req q (http status detail) := trivial

lemma Yields.mono {q' : α → Prop} {p : Async α} (h : p.Yields P F req q) (hq : ∀ a, q a → q' a) :
    p.Yields P F req q' := by
  refine Prog.Keeps.imp h fun r hr => ?_
  cases r with
  | ok a => exact hq a hr
  | error e => trivial

lemma Yields.bind {p : Async α} {k : α → Async β} (hp : p.Yields P F req q)
    (hk : ∀ a, q a → (k a).Yields P F req q') : (p >>= k).Yields P F req q' :=
  Prog.Keeps.seq hp hk fun _ _ => trivial

lemma Yields.map {p : Async α} {f : α → β} (hp : p.Yields P F req fun a => q' (f a)) :
    (f <$> p).Yields P F req q' :=
  hp.bind fun _ ha => yields_pure ha

lemma Yields.handle {p : Async α} {h : Exc → Async α} (hp : p.Yields P F req q)
    (hh : ∀ e, (h e).Yields P F req q) : Yields P F req q (Prog.handle h p) := by
  apply Prog.Keeps.handle
  refine Prog.Keeps.imp hp fun r hr => ?_
  cases r with
  | ok a => exact hr
  | error e => exact hh e

lemma Queries.yields {p : Async α} (h : p.Queries) : p.Yields P F req fun _ => True := by
  induction p with
  | done r => cases r <;> trivial
  | step l eff next ih =>
    obtain ⟨-, rfl, hnext⟩ := h
    exact fun w _ => ⟨does_query w, fun _ => ih w (hnext w)⟩

lemma yields_select {t : Table} {query : Database → α} (h : ∀ w, F.Hold w → q (query w.db)) :
    (select t query).Yields P F req q :=
  Prog.keeps_read (fun w _ => does_query w) h

lemma yields_selectBound {t : Table} {query : Database → Except DbError α}
    (h : ∀ w a, F.Hold w → query w.db = .ok a → q a) :
    (selectBound t query).Yields P F req q := by
  refine Yields.bind (q := fun r => ∀ a, r = .ok a → q a)
    (yields_select fun w hw a ha => h w a hw ha) fun r hr => ?_
  cases r with
  | ok a => exact yields_pure (hr a rfl)
  | error e => exact yields_raise _

lemma yields_refresh {t : Table} {query : Database → Option α}
    (h : ∀ w a, F.Hold w → query w.db = some a → q a) : (refresh t query).Yields P F req q := by
  refine Yields.bind (q := fun o => ∀ a, o = some a → q a) ?_ fun o ho => ?_
  · exact Prog.keeps_read (fun w _ => does_query w) fun w hw a ha => h w a hw ha
  · cases o with
    | some a => exact yields_pure (ho a rfl)
    | none => exact yields_raise _

/-- A look for one row, which can be missing. -/
lemma yields_find {t : Table} {query : Database → Option β} {k : Option β → Async α}
    (hnone : (k none).Yields P F req q)
    (hsome : ∀ w row, F.Hold w → query w.db = some row → (k (some row)).Yields P F req q) :
    (select t query >>= k).Yields P F req q := by
  refine Yields.bind (q := fun o => ∀ row, o = some row → (k (some row)).Yields P F req q)
    (yields_select fun w hw row hrow => hsome w row hw hrow) fun o ho => ?_
  cases o with
  | none => exact hnone
  | some row => exact ho row rfl

lemma yields_commit {t : Table} {write : Time → Database → Except DbError (α × Database)}
    (h : ∀ w a db, F.Hold w → write w.now w.db = .ok (a, db) →
      (db = w.db ∨ req.Writes P F w.now w.db.toTables db.toTables) ∧
        (F.Hold { w with db := db } → q a)) :
    (commit t write).Yields P F req q := by
  apply Prog.keeps_attempt
  · intro w a w' hw hf
    cases hwrite : write w.now w.db with
    | error e =>
      rw [hwrite] at hf
      cases hf
    | ok r =>
      obtain ⟨a', db⟩ := r
      rw [hwrite] at hf
      cases hf
      obtain ⟨hdb, ha⟩ := h w a db hw hwrite
      refine ⟨?_, ha⟩
      rcases hdb with rfl | hdb
      · exact does_query w
      · exact .commits hdb rfl rfl
  · exact fun w e _ _ => ⟨does_query w, trivial⟩

/-- A commit of tables that are computed from the stored ones. -/
lemma yields_write {t : Table} {tables : Time → Tables → Except DbError Tables}
    (h : ∀ now t t', tables now t = .ok t' → req.Writes P F now t t') :
    (commit t fun now db => do
      let t ← tables now db.toTables
      let db ← Database.write t
      return ((), db)).Yields P F req fun _ => True := by
  refine yields_commit fun w a db _ hwrite => ⟨.inr ?_, fun _ => trivial⟩
  simp only [Except.bind_eq_ok_iff, Except.pure_eq_ok, Except.ok.injEq, Prod.mk.injEq] at hwrite
  obtain ⟨t', ht', db', hdb, -, rfl⟩ := hwrite
  rw [Database.write_ok hdb]
  exact h _ _ _ ht'

/-- An insertion writes the row it builds, and returns the row that is found under its id. -/
lemma yields_insert {t : Table} {row : Time → Except DbError α} {tables : Tables → α → Tables}
    {find : Uuid → Tables → Option α} {id : Uuid}
    (h : ∀ now t r, row now = .ok r → req.Writes P F now t (tables t r))
    (hfind : ∀ now t r w w' r', row now = .ok r → F.Hold w → w.db.toTables = tables t r →
      F.Hold w' → find id w'.db.toTables = some r' → q r') :
    (insert t row tables find id).Yields P F req q := by
  refine Yields.bind (q := fun r => ∃ now t w, row now = .ok r ∧ F.Hold w ∧
    w.db.toTables = tables t r) (yields_commit fun w r db _ hwrite => ?_) ?_
  · simp only [Except.bind_eq_ok_iff, Except.pure_eq_ok, Except.ok.injEq, Prod.mk.injEq] at hwrite
    obtain ⟨r', hr, db', hdb, rfl, rfl⟩ := hwrite
    have htables := Database.write_ok hdb
    refine ⟨.inr ?_, fun hw => ⟨w.now, w.db.toTables, _, hr, hw, htables⟩⟩
    rw [htables]
    exact h _ _ _ hr
  · rintro r ⟨now, t, w, hr, hw, ht⟩
    exact yields_refresh fun w' r' hw' hr' => hfind now t r w w' r' hr hw ht hw' hr'

lemma yields_save {t : Table} {update : Time → Database → Except DbError Database}
    {find : Uuid → Tables → Option α} {id : Uuid}
    (h : ∀ now (db db' : Database), update now db = .ok db' →
      db' = db ∨ req.Writes P F now db.toTables db'.toTables)
    (hfind : ∀ w r, F.Hold w → find id w.db.toTables = some r → q r) :
    (save t update find id).Yields P F req q := by
  refine Yields.bind (q := fun _ => True) ?_ fun _ _ => yields_refresh hfind
  refine yields_commit fun w a db _ hwrite => ⟨?_, fun _ => trivial⟩
  simp only [Except.bind_eq_ok_iff, Except.pure_eq_ok, Except.ok.injEq, Prod.mk.injEq] at hwrite
  obtain ⟨db', hdb, -, rfl⟩ := hwrite
  exact h _ _ _ hdb

lemma yields_cacheInvalidatePrefix (pre : String) :
    (cacheInvalidatePrefix pre).Yields P F req fun _ => True := by
  refine Prog.keeps_modify (fun w _ => .stays rfl (fun e he => ?_) rfl) trivial
  exact (Cache.mem_cacheInvalidatePrefix.mp he).1

/-- The pages of a menu are dropped after a write, and the result of the write is returned. -/
lemma Yields.invalidate {p : Async α} (hp : p.Yields P F req q) (pre : String) :
    (p >>= fun a => cacheInvalidatePrefix pre >>= fun _ => pure a).Yields P F req q :=
  hp.bind fun _ ha => (yields_cacheInvalidatePrefix pre).bind fun _ _ => yields_pure ha

end Async

open Async

variable {P : Platform} {F : Facts} {req : Request}

/-! ### Lookups -/

lemma Facts.Hold.restaurant {w : World} (h : F.Hold w) {κ : Type} [DecidableEq κ]
    {key : Restaurant → κ} {k : κ} {r : Restaurant}
    (hr : Rows.get key k w.db.restaurants = some r) :
    F.restaurant r ∧ key r = k :=
  ⟨h.restaurants r (Rows.get_mem hr), Rows.get_key hr⟩

lemma Facts.Hold.category {w : World} (h : F.Hold w) {id : Uuid} {c : Category}
    (hc : Rows.get (·.id) id w.db.categories = some c) : F.category c ∧ c.id = id :=
  ⟨h.categories c (Rows.get_mem hc), Rows.get_key hc⟩

lemma Facts.Hold.dish {w : World} (h : F.Hold w) {id : Uuid} {d : Dish}
    (hd : Rows.get (·.id) id w.db.dishes = some d) : F.dish d ∧ d.id = id :=
  ⟨h.dishes d (Rows.get_mem hd), Rows.get_key hd⟩

lemma RestaurantService.yields_getByOwner (u : Uuid) :
    (getByOwner u).Yields P F req (F.OwnRestaurant u) := by
  refine yields_find (yields_http _ _) fun w r hw hr => yields_pure ?_
  obtain ⟨hfact, hown⟩ := hw.restaurant hr
  exact ⟨hfact, hown⟩

/-- The restaurant of the user, looked for at the start of an operation. -/
lemma yields_ownRestaurant {α : Type} {q : α → Prop} {u : Uuid} {k : Option Restaurant → Async α}
    (hnone : (k none).Yields P F req q)
    (hsome : ∀ r, F.OwnRestaurant u r → (k (some r)).Yields P F req q) :
    (RestaurantRepository.getByOwnerId u >>= k).Yields P F req q := by
  refine yields_find hnone fun w r hw hr => hsome r ?_
  obtain ⟨hfact, hown⟩ := hw.restaurant hr
  exact ⟨hfact, hown⟩

lemma RestaurantService.yields_searchSlug (baseSlug : String) (excludeId : Option Uuid)
    (fuel counter : ℕ) : (searchSlug baseSlug excludeId fuel counter).Yields P F req
      fun slug => ∃ k ≥ counter, slug = suffixed baseSlug k := by
  induction fuel generalizing counter with
  | zero => exact yields_raise _
  | succ fuel ih =>
    refine (queries_getBySlug _).yields.bind fun existing _ => ?_
    split_ifs
    · exact yields_pure ⟨counter, le_rfl, rfl⟩
    · refine (ih (counter + 1)).mono ?_
      rintro slug ⟨k, hk, rfl⟩
      exact ⟨k, Nat.le_of_succ_le hk, rfl⟩

lemma RestaurantService.yields_ensureUniqueSlug (fuel : ℕ) (baseSlug : String)
    (excludeId : Option Uuid) : (ensureUniqueSlug fuel baseSlug excludeId).Yields P F req
      fun slug => ∃ k, slug = slugCandidate baseSlug k := by
  refine (queries_getBySlug _).yields.bind fun existing _ => ?_
  split_ifs
  · exact yields_pure ⟨0, rfl⟩
  · refine (yields_searchSlug baseSlug excludeId fuel 1).mono ?_
    rintro slug ⟨k, hk, rfl⟩
    obtain ⟨j, rfl⟩ := Nat.exists_eq_add_of_le hk
    exact ⟨1 + j, by rw [Nat.add_comm]; rfl⟩

lemma RestaurantService.yields_updatedSlug (fuel : ℕ) (r : Restaurant)
    (name : Patch (BoundedStr 1 100)) :
    (updatedSlug fuel r name).Yields P F req (NewSlug name) := by
  rw [updatedSlug]
  split
  · exact yields_pure (.kept ‹_›)
  · exact yields_raise _
  · refine (yields_ensureUniqueSlug fuel _ _).bind ?_
    rintro slug ⟨k, rfl⟩
    exact yields_pure (.named k ‹_›)

lemma CategoryService.yields_verifyRestaurantOwnership (rid u : Uuid) :
    (verifyRestaurantOwnership rid u).Yields P F req
      fun _ => ∃ r, F.OwnRestaurant u r ∧ r.id = rid := by
  refine yields_find (yields_http _ _) fun w r hw hr => ?_
  obtain ⟨hfact, hid⟩ := hw.restaurant hr
  dsimp only
  split_ifs with hown
  · exact yields_http _ _
  · exact yields_pure ⟨r, ⟨hfact, not_not.mp hown⟩, hid⟩

/-- A category and its restaurant, checked at the start of an operation. -/
lemma yields_ownCategory {α : Type} {q : α → Prop} {u categoryId : Uuid}
    {k : Category → Async α}
    (hk : ∀ c, F.OwnCategory u categoryId c → (k c).Yields P F req q) :
    (do
      match ← CategoryRepository.getById categoryId with
      | none => Async.http 404 "Category not found"
      | some category => do
        CategoryService.verifyRestaurantOwnership category.restaurantId u
        k category).Yields P F req q := by
  refine yields_find (yields_http _ _) fun w c hw hc => ?_
  obtain ⟨hfact, hid⟩ := hw.category hc
  exact (CategoryService.yields_verifyRestaurantOwnership c.restaurantId u).bind
    fun _ hr => hk c ⟨hfact, hid, hr⟩

lemma CategoryService.yields_verifyOrderedIds (rid : Uuid) (ids : List Uuid) :
    (verifyOrderedIds rid ids).Yields P F req
      fun _ => ∀ id ∈ ids, ∃ c, F.category c ∧ c.id = id ∧ c.restaurantId = rid := by
  induction ids with
  | nil =>
    refine yields_pure ?_
    rintro id ⟨⟩
  | cons categoryId ids ih =>
    refine yields_find (yields_http _ _) fun w c hw hc => ?_
    obtain ⟨hfact, hid⟩ := hw.category hc
    simp only [Option.any_some, decide_eq_true_eq]
    split_ifs with hrid
    · refine ih.mono fun _ hids id hmem => ?_
      rcases List.mem_cons.mp hmem with rfl | hmem
      · exact ⟨c, hfact, hid, hrid⟩
      · exact hids id hmem
    · exact yields_http _ _

lemma DishService.yields_verifyCategoryOwnership (categoryId : Option Uuid) (u : Uuid) :
    (verifyCategoryOwnership categoryId u).Yields P F req
      fun _ => ∃ cid c, categoryId = some cid ∧ F.OwnCategory u cid c := by
  refine yields_find (yields_http _ _) fun w c hw hc => ?_
  obtain ⟨cid, rfl, hc⟩ := Option.bind_eq_some_iff.mp hc
  obtain ⟨hfact, hid⟩ := hw.category hc
  refine yields_find (yields_http _ _) fun w' r hw' hr => ?_
  obtain ⟨hrfact, hrid⟩ := hw'.restaurant hr
  simp only [Option.any_some, decide_eq_true_eq]
  split_ifs with hown
  · exact yields_pure ⟨cid, c, rfl, hfact, hid, r, ⟨hrfact, hown⟩, hrid⟩
  · exact yields_http _ _

lemma DishService.yields_getDish (dishId u : Uuid) :
    (getDish dishId u).Yields P F req (F.OwnDish u dishId) := by
  refine yields_find (yields_http _ _) fun w d hw hd => ?_
  obtain ⟨hd, hlive⟩ := Option.filter_eq_some_iff.mp hd
  obtain ⟨hfact, hid⟩ := hw.dish hd
  refine (yields_verifyCategoryOwnership (some d.categoryId) u).bind ?_
  rintro _ ⟨cid, c, ⟨⟩, hc⟩
  exact yields_pure ⟨hfact, hid, by simpa using hlive, c, hc⟩

/-! ### Operations of the owners -/

lemma AdminOp.yields_dishSave {u dishId : Uuid} {op : AdminOp} {old : Dish}
    {new : Except DbError Dish} {q : Dish → Prop} (hold : F.OwnDish u dishId old)
    (h : ∀ now (t : Tables) n, new = .ok n → Request.Writes P F now t
      { t with dishes := Rows.modify (·.id) old.id (old.flush n now) t.dishes } (.admin u op))
    (hq : ∀ d, F.dish d → d.id = dishId → q d) :
    (DishRepository.save old new).Yields P F (.admin u op) q := by
  apply yields_save
  · intro now db db' hdb
    obtain ⟨n, hn, hdb⟩ := Except.bind_eq_ok_iff.mp hdb
    refine (Database.updateDish_writes hdb).imp_right fun ht => ?_
    rw [ht]
    exact h now _ n hn
  · intro w d hw hd
    obtain ⟨hfact, hid⟩ := hw.dish hd
    exact hq d hfact (hid.trans hold.id)

lemma AnalyticsRepository.yields_query {α : Type} (rid : Uuid) (fromDate toDate : Option PyDateTime)
    (f : List ScanEvent → α) : (query rid fromDate toDate f).Yields P F req
      fun a => ∃ rows, Request.ScansOf F rid rows ∧ a = f rows := by
  rw [query]
  split
  · exact yields_raise _
  · refine yields_select fun w hw => ⟨_, ⟨hw.selected Tables.scanEvents _, ?_⟩, rfl⟩
    intro e he
    obtain ⟨hmem, hsel⟩ := List.mem_filter.mp he
    simp only [selectsScan, Bool.and_eq_true, decide_eq_true_eq] at hsel
    exact ⟨hw.scanEvents e hmem, hsel.1.1⟩

/-- Every operation of an owner writes and answers what it stands for. -/
lemma AdminOp.yields (P : Platform) (F : Facts) (u : Uuid) (op : AdminOp) :
    (op.code P u).Yields P F (.admin u op) (Request.Answers P F (.admin u op)) := by
  cases op with
  | restaurantGet =>
    exact Yields.map ((RestaurantService.yields_getByOwner u).mono fun r hr => .restaurantGet hr)
  | restaurantCreate fuel data id =>
    refine Yields.map (yields_ownRestaurant ?_ fun r _ => yields_http _ _)
    refine (RestaurantService.yields_ensureUniqueSlug fuel _ none).bind ?_
    rintro slug ⟨k, rfl⟩
    apply yields_insert
    · exact fun now t r hr => .restaurantCreate hr rfl
    · intro now t r w w' r' hr hw ht hw' hr'
      obtain ⟨hfact, hid⟩ := hw'.restaurant hr'
      refine .restaurantCreate hr (hw.restaurants r ?_) hfact hid
      exact ht ▸ List.mem_append_right _ (List.mem_singleton_self r)
  | restaurantUpdate fuel data =>
    refine Yields.map ((RestaurantService.yields_getByOwner u).bind fun old hold => ?_)
    refine (RestaurantService.yields_updatedSlug fuel old data.name).bind fun slug hslug => ?_
    refine Yields.invalidate (yields_save ?_ ?_) _
    · intro now db db' hdb
      obtain ⟨n, hn, hdb⟩ := Except.bind_eq_ok_iff.mp hdb
      exact (Database.updateRestaurant_writes hdb).imp_right (.restaurantUpdate hold hslug hn)
    · intro w r hw hr
      obtain ⟨hfact, hid⟩ := hw.restaurant hr
      exact .restaurantUpdate hold hfact hid
  | restaurantDelete =>
    refine Yields.map ((RestaurantService.yields_getByOwner u).bind fun r hr => ?_)
    refine Yields.bind (q := fun _ => True) ?_
      fun _ _ => (yields_cacheInvalidatePrefix _).mono fun _ _ => .restaurantDelete hr
    refine (queries_select _ _).yields.bind fun _ _ => ?_
    exact @yields_write _ _ _ _ (fun _ t => .ok (t.deleteRestaurant r.id))
      fun _ _ _ h => .restaurantDelete hr (Except.ok.inj h).symm
  | categoryList activeOnly scan =>
    refine Yields.map (yields_ownRestaurant (yields_http _ _) fun r hr => ?_)
    refine yields_select fun w hw => .categoryList hr ⟨hw.selected Tables.categories _, ?_⟩
      ((orderBy_perm _ _).trans (Scan.perm _ _))
    intro c hc
    simp only [List.mem_filter, decide_eq_true_eq] at hc
    exact ⟨hw.categories c hc.1, hc.2.1⟩
  | categoryCreate data id =>
    refine Yields.map (yields_ownRestaurant (yields_http _ _) fun r hr => ?_)
    refine Yields.invalidate ?_ _
    refine (queries_orElse _ ((queries_select _ _).bind fun _ => queries_pure _)).yields.bind ?_
    intro position _
    apply yields_insert
    · exact fun now t c hc => .categoryCreate hr hc rfl
    · intro now t c w w' c' hc hw ht hw' hc'
      obtain ⟨hfact, hid⟩ := hw'.category hc'
      refine .categoryCreate hr hc (hw.categories c ?_) hfact hid
      exact ht ▸ List.mem_append_right _ (List.mem_singleton_self c)
  | categoryUpdate categoryId data =>
    refine Yields.map (yields_ownCategory fun old hold => ?_)
    refine Yields.invalidate (yields_save ?_ ?_) _
    · intro now db db' hdb
      obtain ⟨n, hn, hdb⟩ := Except.bind_eq_ok_iff.mp hdb
      exact (Database.updateCategory_writes hdb).imp_right (.categoryUpdate hold hn)
    · intro w c hw hc
      obtain ⟨hfact, hid⟩ := hw.category hc
      exact .categoryUpdate hold hfact (hid.trans hold.2.1)
  | categoryDelete categoryId =>
    refine Yields.map (yields_ownCategory fun c hc => ?_)
    refine (CategoryRepository.queries_hasActiveDishes categoryId).yields.bind fun active _ => ?_
    split_ifs
    · exact yields_http _ _
    · refine Yields.bind (q := fun _ => True) ?_
        fun _ _ => (yields_cacheInvalidatePrefix _).mono fun _ _ => .categoryDelete hc
      refine Yields.bind (q := fun ds => ∀ d ∈ ds, F.dish d ∧ d.categoryId = c.id)
        (yields_select fun w hw d hd => ?_) fun ds hds => ?_
      · obtain ⟨hmem, hcat⟩ := List.mem_filter.mp hd
        exact ⟨hw.dishes d hmem, of_decide_eq_true hcat⟩
      · exact @yields_write _ _ _ _
          (fun _ t => .ok ((t.deleteDishes (ds.map (·.id))).deleteCategory c.id))
          fun _ _ _ h => .categoryDelete hc hds (Except.ok.inj h).symm
  | categoryReorder orderedIds =>
    refine Yields.map (yields_ownRestaurant (yields_http _ _) fun r hr => ?_)
    refine (CategoryService.yields_verifyOrderedIds r.id orderedIds).bind fun _ hids => ?_
    refine Yields.bind (q := fun _ => True) ?_
      fun _ _ => (yields_cacheInvalidatePrefix _).mono fun _ _ => .categoryReorder hr hids
    refine yields_commit fun w a db _ hw => ⟨.inr ?_, fun _ => trivial⟩
    simp only [Except.bind_eq_ok_iff, Except.pure_eq_ok, Except.ok.injEq, Prod.mk.injEq] at hw
    obtain ⟨rows, hrows, db', hdb, -, rfl⟩ := hw
    exact .categoryReorder hr hids hrows (Database.write_ok hdb)
  | dishList f limit offset scan =>
    refine Yields.map (yields_ownRestaurant (yields_http _ _) fun r hr => ?_)
    refine (queries_whenSome _ fun cid =>
      DishService.queries_verifyCategoryOwnership (some cid) u).yields.bind fun _ _ => ?_
    have hrows : ∀ w rows, F.Hold w → ((f.ofRestaurant r.id).query P).rows w.db = .ok rows →
        Request.DishesOf F r.id rows := by
      intro w rows hw hq
      rw [DishFilter.rows_of_query hq]
      refine ⟨hw.selected Tables.dishes _, fun d hd => ?_⟩
      obtain ⟨hmem, hd⟩ := List.mem_filter.mp hd
      have hlive := DishFilter.deletedAt_of_matches hd rfl
      obtain ⟨c, hc, hid, hrid⟩ := DishFilter.category_of_matches hd rfl
      exact ⟨hw.dishes d hmem, hlive, c, hw.categories c hc, hid, hrid⟩
    refine Yields.bind (q := fun page =>
      (∃ selected, Request.DishesOf F r.id selected ∧ page.1.Subperm selected) ∧
      ∃ counted : List Dish, Request.DishesOf F r.id counted ∧ page.2 = counted.length) ?_ ?_
    · refine Yields.bind (q := fun total => ∃ counted : List Dish, Request.DishesOf F r.id counted ∧
        total = counted.length) (yields_selectBound fun w total hw hq => ?_) fun total htotal => ?_
      · obtain ⟨rows, hrows', htotal⟩ := Except.bind_eq_ok_iff.mp hq
        exact ⟨rows, hrows w rows hw hrows', (Except.ok.inj htotal).symm⟩
      · refine Yields.bind (yields_selectBound fun w page hw hq => ?_)
          fun dishes hds => yields_pure ⟨hds, htotal⟩
        obtain ⟨rows, hrows', hpage⟩ := Except.bind_eq_ok_iff.mp hq
        obtain ⟨limit, -, hpage⟩ := Except.bind_eq_ok_iff.mp hpage
        obtain ⟨offset, -, hpage⟩ := Except.bind_eq_ok_iff.mp hpage
        cases hpage
        refine ⟨rows, hrows w rows hw hrows', ?_⟩
        exact ((List.take_sublist _ _).trans (List.drop_sublist _ _)).subperm.trans
          ((orderBy_perm _ _).trans (Scan.perm _ _)).subperm
    · rintro page ⟨⟨selected, hds, hpage⟩, counted, hcounted, htotal⟩
      exact yields_pure (.dishList hr hds hpage hcounted htotal)
  | dishGet dishId =>
    exact Yields.map ((DishService.yields_getDish dishId u).mono fun d hd => .dishGet hd)
  | dishCreate data id =>
    refine Yields.map ((DishService.yields_verifyCategoryOwnership _ u).bind ?_)
    rintro _ ⟨cid, c, ⟨⟩, hc⟩
    refine Yields.invalidate ?_ _
    refine (queries_orElse _ ((queries_select _ _).bind fun _ => queries_pure _)).yields.bind ?_
    intro position _
    apply yields_insert
    · exact fun now t d hd => .dishCreate hc hd rfl
    · intro now t d w w' d' hd hw ht hw' hd'
      obtain ⟨hfact, hid⟩ := hw'.dish hd'
      refine .dishCreate hc hd (hw.dishes d ?_) hfact hid
      exact ht ▸ List.mem_append_right _ (List.mem_singleton_self d)
  | dishUpdate dishId data =>
    refine Yields.map ((DishService.yields_getDish dishId u).bind fun old hold => ?_)
    refine Yields.bind (q := fun _ => ∀ cid, data.categoryId.value = some (some cid) →
      ∃ c, F.OwnCategory u cid c) ?_ fun _ htarget => ?_
    · cases hvalue : data.categoryId.value with
      | none =>
        refine yields_pure ?_
        rintro cid ⟨⟩
      | some target =>
        refine (DishService.yields_verifyCategoryOwnership target u).mono ?_
        rintro _ ⟨cid, c, rfl, hc⟩ cid' ⟨⟩
        exact ⟨c, hc⟩
    · refine Yields.invalidate (yields_dishSave hold ?_ fun d hd hid => .dishUpdate hold hd hid) _
      exact fun now t n hn => .dishUpdate hold htarget hn rfl
  | dishDelete dishId =>
    refine Yields.map ((DishService.yields_getDish dishId u).bind fun old hold => ?_)
    refine Yields.invalidate (queries_clock.yields.bind fun at' _ => ?_) _
    refine yields_dishSave hold ?_ fun d hd hid => .dishDelete hold hd hid
    rintro now t n ⟨⟩
    exact .dishDelete hold rfl
  | dishToggle dishId =>
    refine Yields.map ((DishService.yields_getDish dishId u).bind fun old hold => ?_)
    refine Yields.invalidate (yields_dishSave hold ?_ fun d hd hid => .dishToggle hold hd hid) _
    rintro now t n ⟨⟩
    exact .dishToggle hold rfl
  | analyticsGet granularity fromDate toDate scan =>
    refine Yields.map (yields_ownRestaurant (yields_http _ _) fun r hr => ?_)
    have hquery : ∀ {α : Type} (f : List ScanEvent → α),
        (AnalyticsRepository.query r.id fromDate toDate f).Yields P F
          (.admin u (.analyticsGet granularity fromDate toDate scan))
          fun a => ∃ rows, Request.ScansOf F r.id rows ∧ a = f rows :=
      fun f => AnalyticsRepository.yields_query r.id fromDate toDate f
    refine (hquery List.length).bind ?_
    rintro _ ⟨total, htotal, rfl⟩
    refine (hquery _).bind ?_
    rintro _ ⟨periods, hperiods, rfl⟩
    refine (hquery _).bind ?_
    rintro _ ⟨hours, hhours, rfl⟩
    refine (hquery _).bind ?_
    rintro _ ⟨agents, hagents, rfl⟩
    exact yields_pure (.analyticsGet hr htotal hperiods hhours hagents rfl)
  | analyticsExport fromDate toDate scan =>
    refine Yields.map (yields_ownRestaurant (yields_http _ _) fun r hr => ?_)
    refine (AnalyticsRepository.yields_query r.id fromDate toDate _).bind ?_
    rintro _ ⟨rows, hrows, rfl⟩
    exact yields_pure (.analyticsExport hr hrows)
  | logout =>
    refine Yields.map (Yields.bind (q := fun ks => ∀ k ∈ ks, F.refreshToken k ∧ k.userId = u ∧
      k.revokedAt = none) (yields_select fun w hw k hk => ?_) fun ks hks => ?_)
    · obtain ⟨hmem, hk⟩ := List.mem_filter.mp hk
      simp only [decide_eq_true_eq, Option.isNone_iff_eq_none] at hk
      exact ⟨hw.refreshTokens k hmem, hk.1, hk.2⟩
    · refine queries_clock.yields.bind fun at' _ => ?_
      refine yields_commit fun w a db _ hw => ⟨.inr ?_, fun _ => .logout⟩
      simp only [Except.bind_eq_ok_iff, Except.pure_eq_ok, Except.ok.injEq, Prod.mk.injEq] at hw
      obtain ⟨db', hdb, -, rfl⟩ := hw
      exact .logout hks (Database.updateRefreshTokens_ok hdb)

/-! ### Menus -/

section Menu

open MenuService

variable {slug : String}

lemma yields_cacheSet {menu : MenuResponse} (hslug : req.menuSlug = some slug)
    (hmenu : F.Built slug menu) :
    (Async.cacheSet (cacheKey slug) menu menuCacheTtl).Yields P F req fun _ => True :=
  Prog.keeps_modify (fun _ _ => .caches hslug hmenu rfl) trivial

lemma RestaurantRepository.yields_getBySlug (slug : String) :
    (getBySlug slug).Yields P F req fun o =>
      ∀ r, o = some r → F.restaurant r ∧ r.slug.val = slug := by
  refine yields_selectBound fun w o hw hq r hr => ?_
  obtain ⟨text, htext, hget⟩ := Except.bind_eq_ok_iff.mp hq
  cases hget
  rw [PgText.val_of_ofString htext] at hr
  exact hw.restaurant hr

lemma MenuService.yields_getMenuBySlug {scan : MenuScan} (hslug : req.menuSlug = some slug) :
    (getMenuBySlug scan slug).Yields P F req (F.Served slug) := by
  refine Yields.bind (q := fun o => ∀ m, o = some m → F.menu (cacheKey slug) m) ?_ fun o ho => ?_
  · intro w hw
    refine ⟨.stays rfl (fun e he => Cache.mem_cacheGet he) rfl, fun _ m hm => ?_⟩
    obtain ⟨expiresAt, hmem, -⟩ := Cache.cacheGet_some hm
    exact hw.menus _ hmem
  · cases o with
    | some m => exact yields_pure (.inl (ho m rfl))
    | none =>
      refine (RestaurantRepository.yields_getBySlug slug).bind fun o ho => ?_
      cases o with
      | none => exact yields_http _ _
      | some r =>
        obtain ⟨hfact, hr⟩ := ho r rfl
        refine Yields.bind (q := fun cs => ∀ c ∈ cs, F.category c ∧ c.restaurantId = r.id ∧
          c.active = true) (yields_select fun w hw c hc => ?_) fun cs hcs => ?_
        · rw [activeCategories, mem_orderBy, (Scan.perm _ _).mem_iff, List.mem_filter,
            decide_eq_true_eq] at hc
          exact ⟨hw.categories c hc.1, hc.2⟩
        · have hstore : ∀ ds : List Dish, (∀ d ∈ ds, F.dish d ∧ d.categoryId ∈ cs.map (·.id)) →
              (Async.cacheSet (cacheKey slug) (menuResponse r cs ds) menuCacheTtl >>= fun _ =>
                pure (menuResponse r cs ds)).Yields P F req (F.Served slug) := by
            intro ds hds
            have hbuilt : F.Built slug (menuResponse r cs ds) :=
              ⟨r, cs, ds, hfact, hr, hcs, hds, rfl⟩
            exact (yields_cacheSet hslug hbuilt).bind fun _ _ => yields_pure (.inr hbuilt)
          dsimp only
          split_ifs
          · refine hstore [] ?_
            rintro d ⟨⟩
          · refine Yields.bind (yields_select fun w hw d hd => ?_) hstore
            rw [loadedDishes, (Scan.perm _ _).mem_iff, List.mem_filter, decide_eq_true_eq] at hd
            exact ⟨hw.dishes d hd.1, hd.2⟩

/-- Recording a view never fails, and writes at most its event. -/
lemma yields_recordScan {scan : MenuScan} {client : Client} {id : Uuid} {menu : MenuResponse}
    (hmenu : F.Served slug menu) :
    (recordScan P menu client id).Yields P F (.viewMenu scan slug client id) fun _ => True := by
  refine Yields.handle (yields_commit fun w a db _ hw => ⟨.inr ?_, fun _ => trivial⟩)
    fun _ => yields_pure trivial
  simp only [Except.bind_eq_ok_iff, Except.pure_eq_ok, Except.ok.injEq, Prod.mk.injEq] at hw
  obtain ⟨userAgent, hagent, referrer, hreferrer, db', hdb, -, rfl⟩ := hw
  exact .record hmenu rfl rfl ⟨rfl, hagent, rfl, hreferrer⟩ (Database.write_ok hdb)

end Menu

/-! ### Authentication -/

namespace AuthService

variable {userId : Uuid} {email : String} {draws : Draws} {user : Option User}

lemma yields_issueTokens {q : AuthResult → Prop}
    (h : ∀ now (t : Tables) k, IsIssued P userId email draws k → Request.Writes P F now t
      { t with refreshTokens := t.refreshTokens ++ [k] } req)
    (hq : ∀ t t', q ⟨user, P.jwtEncode (accessClaims P userId email draws.accessJti t),
      P.jwtEncode (refreshClaims P userId email draws.refreshJti t')⟩) :
    (issueTokens P user userId email draws).Yields P F req q := by
  refine Yields.bind (q := fun token => ∃ t, token =
    P.jwtEncode (accessClaims P userId email draws.accessJti t)) ?_ ?_
  · exact queries_clock.yields.bind fun t _ => yields_pure ⟨t, rfl⟩
  · rintro _ ⟨t, rfl⟩
    refine Yields.bind (q := fun token => ∃ t', token =
      P.jwtEncode (refreshClaims P userId email draws.refreshJti t')) ?_ ?_
    · exact queries_clock.yields.bind fun t' _ => yields_pure ⟨t', rfl⟩
    · rintro _ ⟨t', rfl⟩
      refine Yields.bind (q := fun _ => True) ?_ fun _ _ => yields_pure (hq t t')
      refine queries_clock.yields.bind fun _ _ => yields_insert ?_ ?_
      · rintro now t _ ⟨⟩
        exact h now t _ ⟨⟨t', rfl⟩, rfl, rfl, rfl⟩
      · intros
        trivial

lemma yields_register (email password : String) (draws : Draws) :
    (register P email password draws).Yields P F (.register email password draws)
      fun a => Request.Answers P F (.register email password draws) (.auth a) := by
  refine ((queries_select _ _).bind fun _ => queries_pure _).yields.bind fun taken _ => ?_
  split_ifs
  · exact yields_http _ _
  · cases hhash : P.hashPassword draws.salt password with
    | error e => exact yields_raise e
    | ok hash =>
      refine Yields.bind (q := fun user => ∃ now created,
        User.ofCreate P email hash draws.userId now = .ok created ∧ F.user created ∧
          F.user user ∧ user.id = draws.userId) (yields_insert ?_ ?_) ?_
      · exact fun now t user hrow => .registerUser hhash hrow rfl
      · intro now t user w w' user' hrow hw ht hw' hget
        refine ⟨now, user, hrow, hw.users user ?_, hw'.users user' (Rows.get_mem hget),
          Rows.get_key hget⟩
        exact ht ▸ List.mem_append_right _ (List.mem_singleton_self user)
      · rintro user ⟨now, created, hrow, hcreated, hfact, hid⟩
        refine yields_issueTokens ?_ fun t t' => .register hhash hrow hcreated hfact hid rfl
        exact fun now t k hk => .registerToken hfact hid hk rfl

lemma yields_login (email password : String) (draws : Draws) :
    (login P email password draws).Yields P F (.login email password draws)
      fun a => Request.Answers P F (.login email password draws) (.auth a) := by
  rw [login_eq]
  refine yields_find (yields_http _ _) fun w user hw hfind => ?_
  have hfact := hw.users user (List.mem_of_find?_eq_some hfind)
  have hemail : user.email.val = P.strLower email := by simpa using List.find?_some hfind
  cases hverify : P.verifyPassword password user.passwordHash.val with
  | error e =>
    simp only [hverify]
    exact yields_raise e
  | ok right =>
    simp only [hverify]
    cases right with
    | false => exact yields_http _ _
    | true =>
      refine yields_issueTokens ?_ fun t t' => .login hfact hemail hverify rfl
      exact fun now t k hk => .login hfact hemail hverify hk rfl

lemma yields_revoke (token : String) (draws : Draws) :
    (RefreshTokenRepository.revoke P token).Yields P F (.refresh token draws) fun _ => True := by
  refine yields_find (yields_pure trivial) fun w k hw hget => ?_
  have hfact := hw.refreshTokens k (Rows.get_mem hget)
  have hhash := Rows.get_key hget
  refine queries_clock.yields.bind fun at' _ => ?_
  refine yields_commit fun w a db _ hw => ⟨.inr ?_, fun _ => trivial⟩
  simp only [Except.bind_eq_ok_iff, Except.pure_eq_ok, Except.ok.injEq, Prod.mk.injEq] at hw
  obtain ⟨db', hdb, -, rfl⟩ := hw
  have hdb : w.db.updateRefreshTokens (RefreshToken.revocations [k] at') = .ok db' := hdb
  exact .revoke hfact hhash (Database.updateRefreshTokens_ok hdb)

lemma yields_verifyRefreshToken (token : String) :
    (verifyRefreshToken P token).Yields P F req fun payload =>
      P.jwtDecode token = some payload := by
  refine Yields.bind (q := fun payload => P.jwtDecode token = some payload) ?_ fun payload h => ?_
  · rw [decodeToken]
    split
    · exact yields_raise _
    · refine queries_clock.yields.bind fun now _ => ?_
      split_ifs
      · exact yields_raise _
      · exact yields_pure ‹_›
  · split_ifs
    · exact yields_raise _
    · exact yields_pure h

lemma yields_refresh (token : String) (draws : Draws) :
    (refresh P token draws).Yields P F (.refresh token draws)
      fun a => Request.Answers P F (.refresh token draws) (.auth a) := by
  refine Yields.handle ?_ fun e => ?_
  · refine (yields_verifyRefreshToken token).bind fun payload hpayload => ?_
    refine (queries_isValid P token).yields.bind fun valid _ => ?_
    split_ifs
    · exact yields_http _ _
    · refine (yields_revoke token draws).bind fun _ _ => ?_
      refine yields_issueTokens ?_ fun t t' => .refresh hpayload rfl
      exact fun now t k hk => .rotate hpayload hk rfl
  · cases e <;> exact yields_http _ _

end AuthService

/-! ### All requests -/

/-- Whatever runs in between, a request writes and answers what it stands for. -/
theorem Request.yields (P : Platform) (F : Facts) (req : Request) :
    (req.code P).Yields P F req (req.Answers P F) := by
  cases req with
  | menu scan slug =>
    exact Yields.map ((MenuService.yields_getMenuBySlug rfl).mono fun m hm => .menu hm)
  | viewMenu scan slug client id =>
    refine Yields.map ((MenuService.yields_getMenuBySlug rfl).bind fun m hm => ?_)
    exact (yields_recordScan hm).bind fun _ _ => yields_pure (.viewMenu hm)
  | admin u op => exact AdminOp.yields P F u op
  | register email password draws => exact Yields.map (AuthService.yields_register _ _ _)
  | login email password draws => exact Yields.map (AuthService.yields_login _ _ _)
  | refresh token draws => exact Yields.map (AuthService.yields_refresh _ _)

end LiveMenu
