import LiveMenu.Concurrent.Lookups
import LiveMenu.Model.Requests

/-!
# Menu reads and changes, step by step

A read of a menu looks into the cache, asks the database up to three questions and stores what it
has put together. A change of what menus show checks, commits and then drops every cached menu.
-/

namespace LiveMenu

open MenuService

/-! ### Calls -/

/-- An update, deletion, toggle or reorder of something that menus show. -/
def AdminOp.IsChange : AdminOp → Prop
  | .restaurantUpdate .. | .restaurantDelete | .categoryUpdate .. | .categoryDelete _
  | .categoryReorder _ | .dishUpdate .. | .dishDelete _ | .dishToggle _ => True
  | _ => False

/-- A read of a menu, or a change of what menus show. -/
inductive MenuCall where
  | menu (scan : MenuScan) (slug : String)
  | change (u : Uuid) (op : AdminOp) (h : op.IsChange)

def MenuCall.request : MenuCall → Request
  | .menu scan slug  => .menu scan slug
  | .change u op _   => .admin u op

/-- How far a call is. -/
inductive MenuPhase where
  | start
  /-- The cache had no menu. -/
  | missed
  /-- The restaurant was read. -/
  | found (r : Restaurant)
  /-- The categories were read. -/
  | listed (r : Restaurant) (categories : List Category)
  /-- The menu is put together and not stored yet. -/
  | built (menu : MenuResponse)
  /-- The menu came from the cache, or it was stored there. -/
  | answered (menu : MenuResponse)
  /-- There is no such restaurant. -/
  | absent
  /-- The commit of the change was made. -/
  | committed
  /-- The cached menus were dropped. -/
  | flushed

/-- How a step moves the phase. -/
def MenuCall.next (call : MenuCall) (φ : MenuPhase) (l : Label) (w : World) : MenuPhase :=
  match call, φ, l with
  | .menu _ slug, .start, .cacheGet _ =>
    match (w.cache.cacheGet (cacheKey slug) w.now).1 with
    | some m => .answered m
    | none   => .missed
  | .menu _ slug, .missed, .select _ =>
    match Rows.get (·.slug.val) slug w.db.restaurants with
    | some r => .found r
    | none   => .absent
  | .menu scan _, .found r, .select _ =>
    if (activeCategories scan r.id w.db).isEmpty then .built (menuResponse r [] [])
    else .listed r (activeCategories scan r.id w.db)
  | .menu scan _, .listed r categories, .select _ =>
    .built (menuResponse r categories (loadedDishes scan categories w.db))
  | .menu _ _, .built m, .cacheSet _ => .answered m
  | .change _ _ _, .start, .commit _ => .committed
  | .change _ _ _, .committed, .cacheInvalidatePrefix _ => .flushed
  | _, φ, _ => φ

/-- What a step from the world `w` to the world `w'` does, and between which phases. -/
inductive MenuStep (w w' : World) : MenuCall → MenuPhase → Label → MenuPhase → Prop
  | hit {scan slug menu} (hget : (w.cache.cacheGet (cacheKey slug) w.now).1 = some menu)
      (hw : w' = { w with cache := (w.cache.cacheGet (cacheKey slug) w.now).2 }) :
      MenuStep w w' (.menu scan slug) .start (.cacheGet (cacheKey slug)) (.answered menu)
  | miss {scan slug} (hw : w' = { w with cache := (w.cache.cacheGet (cacheKey slug) w.now).2 }) :
      MenuStep w w' (.menu scan slug) .start (.cacheGet (cacheKey slug)) .missed
  | find {scan slug r} (hget : Rows.get (·.slug.val) slug w.db.restaurants = some r)
      (hw : w' = w) :
      MenuStep w w' (.menu scan slug) .missed (.select .restaurants) (.found r)
  | absent {scan slug} (hw : w' = w) :
      MenuStep w w' (.menu scan slug) .missed (.select .restaurants) .absent
  | list {scan slug r} (hw : w' = w) :
      MenuStep w w' (.menu scan slug) (.found r) (.select .categories)
        (.listed r (activeCategories scan r.id w.db))
  | listNone {scan slug r} (hnil : activeCategories scan r.id w.db = []) (hw : w' = w) :
      MenuStep w w' (.menu scan slug) (.found r) (.select .categories)
        (.built (menuResponse r [] []))
  | load {scan slug r categories} (hw : w' = w) :
      MenuStep w w' (.menu scan slug) (.listed r categories) (.select .dishes)
        (.built (menuResponse r categories (loadedDishes scan categories w.db)))
  | store {scan slug menu} (hw : w' = { w with
        cache := w.cache.cacheSet (cacheKey slug) menu menuCacheTtl w.now }) :
      MenuStep w w' (.menu scan slug) (.built menu) (.cacheSet (cacheKey slug)) (.answered menu)
  | look {u op h φ l} (hl : l.IsQuery) (hw : w' = w) : MenuStep w w' (.change u op h) φ l φ
  | commit {u op h t} (hcache : w'.cache = w.cache) :
      MenuStep w w' (.change u op h) .start (.commit t) .committed
  | flush {u op h} (hw : w' = { w with cache := w.cache.cacheInvalidatePrefix "menu:" }) :
      MenuStep w w' (.change u op h) .committed (.cacheInvalidatePrefix "menu:") .flushed

def MenuCall.monitor (call : MenuCall) : Monitor World Label MenuPhase where
  next φ l w _ := call.next φ l w
  allows φ l w w' := MenuStep w w' call φ l (call.next φ l w)

/-- A read that returns was answered with its menu; a change that returns has dropped the cached
menus. -/
def MenuCall.Ends : MenuCall → MenuPhase → Except Exc Response → Prop
  | .menu _ _, φ, r     => ∀ a, r = .ok a → ∃ m, a = .menu m ∧ φ = .answered m
  | .change _ _ _, φ, r => ∀ a, r = .ok a → φ = .flushed

/-! ### The code follows the phases -/

/-- What holds of every value a call returns holds when it raises. -/
lemma not_returns_error {α : Type} (e : Exc) (p : α → Prop) :
    ∀ a, (.error e : Except Exc α) = .ok a → p a := by
  rintro a ⟨⟩

/-- One step of a call, and what follows it. -/
lemma MenuStep.accepts {call : MenuCall} {α : Type} {Q : MenuPhase → Except Exc α → Prop}
    {p : Async α} {w w' : World} {φ φ' : MenuPhase} {l : Label}
    (hstep : MenuStep w w' call φ l φ') (hnext : call.next φ l w = φ')
    (hp : call.monitor.Accepts Q p φ') :
    call.monitor.allows φ l w w' ∧ call.monitor.Accepts Q p (call.monitor.next φ l w w') := by
  subst hnext
  exact ⟨hstep, hp⟩

section

variable {scan : MenuScan} {slug : String}

/-- The read returns with the menu it was answered with. -/
abbrev ReadsMenu (scan : MenuScan) (slug : String) (p : Async MenuResponse) (φ : MenuPhase) :
    Prop :=
  (MenuCall.menu scan slug).monitor.Accepts (fun φ r => ∀ m, r = .ok m → φ = .answered m) p φ

lemma readsMenu_pure (m : MenuResponse) : ReadsMenu scan slug (pure m) (.answered m) := by
  apply Monitor.accepts_pure
  rintro _ ⟨⟩
  rfl

lemma readsMenu_store (m : MenuResponse) :
    ReadsMenu scan slug (Async.cacheSet (cacheKey slug) m menuCacheTtl >>= fun _ => pure m)
      (.built m) :=
  Async.accepts_cacheSet_bind fun _ => (MenuStep.store rfl).accepts rfl (readsMenu_pure m)

lemma readsMenu_getMenuBySlug : ReadsMenu scan slug (getMenuBySlug scan slug) .start := by
  apply Async.accepts_cacheGet_bind
  intro w
  cases hget : (w.cache.cacheGet (cacheKey slug) w.now).1 with
  | some m =>
    exact (MenuStep.hit hget rfl).accepts (by simp only [MenuCall.next, hget]) (readsMenu_pure m)
  | none =>
    refine (MenuStep.miss rfl).accepts (by simp only [MenuCall.next, hget]) ?_
    refine RestaurantService.accepts_getBySlug_bind (fun w => ?_)
      fun _ _ => not_returns_error _ _
    cases hget : Rows.get (·.slug.val) slug w.db.restaurants with
    | none =>
      refine (MenuStep.absent rfl).accepts (by simp only [MenuCall.next, hget]) ?_
      exact Async.accepts_http (not_returns_error _ _)
    | some r =>
      refine (MenuStep.find hget rfl).accepts (by simp only [MenuCall.next, hget]) ?_
      apply Async.accepts_select_bind
      intro w
      by_cases hnil : activeCategories scan r.id w.db = []
      · refine (MenuStep.listNone hnil rfl).accepts (by simp [MenuCall.next, hnil]) ?_
        rw [hnil]
        exact readsMenu_store _
      · refine (MenuStep.list rfl).accepts (by simp [MenuCall.next, hnil]) ?_
        rw [List.isEmpty_eq_false_iff.mpr hnil]
        apply Async.accepts_select_bind
        intro w
        exact (MenuStep.load rfl).accepts rfl (readsMenu_store _)

end

section

variable {u : Uuid} {op : AdminOp} {h : op.IsChange} {α β : Type}

lemma MenuStep.query (φ : MenuPhase) {l : Label} (w : World) (hl : l.IsQuery) :
    (MenuCall.change u op h).monitor.allows φ l w w ∧
      (MenuCall.change u op h).monitor.next φ l w w = φ := by
  have hnext : (MenuCall.change u op h).next φ l w = φ := by
    cases l <;> first | exact hl.elim | cases φ <;> rfl
  refine ⟨?_, hnext⟩
  show MenuStep w w (.change u op h) φ l ((MenuCall.change u op h).next φ l w)
  rw [hnext]
  exact .look hl rfl

/-- If the coroutine returns, the change is committed. -/
abbrev Commits (u : Uuid) (op : AdminOp) (h : op.IsChange) (p : Async α) : Prop :=
  (MenuCall.change u op h).monitor.Accepts (fun φ r => ∀ a, r = .ok a → φ = .committed) p .start

/-- If the coroutine returns, the change is committed and the cached menus are dropped. -/
abbrev Flushes (u : Uuid) (op : AdminOp) (h : op.IsChange) (p : Async α) : Prop :=
  (MenuCall.change u op h).monitor.Accepts (fun φ r => ∀ a, r = .ok a → φ = .flushed) p .start

lemma commits_commit (t : Table) (write : Time → Database → Except DbError (α × Database)) :
    Commits u op h (Async.commit t write) :=
  Async.accepts_commit (fun _ _ _ _ => ⟨.commit rfl, fun _ _ => rfl⟩)
    fun _ _ _ => ⟨.commit rfl, not_returns_error _ _⟩

lemma commits_save (t : Table) (update : Time → Database → Except DbError Database)
    (find : Uuid → Tables → Option α) (id : Uuid) :
    Commits u op h (Async.save t update find id) := by
  refine Async.accepts_commit_bind (fun w _ db _ => ⟨.commit rfl, ?_⟩)
    fun _ _ _ => ⟨.commit rfl, not_returns_error _ _⟩
  refine Async.accepts_refresh fun w => ⟨.look trivial rfl, ?_, ?_⟩
  · exact fun _ _ _ _ => rfl
  · exact fun _ => not_returns_error _ _

lemma commits_dishSave (dish : Dish) (new : Except DbError Dish) :
    Commits u op h (DishRepository.save dish new) := commits_save _ _ _ _

lemma commits_bind {p : Async α} {k : α → Async β} (hp : p.Queries)
    (hk : ∀ a, Commits u op h (k a)) : Commits u op h (p >>= k) :=
  hp.accepts_bind (fun _ w hl => MenuStep.query .start w hl) hk fun _ =>
    not_returns_error _ _

lemma flushes_bind {p : Async α} {k : α → Async β} (hp : p.Queries)
    (hk : ∀ a, Flushes u op h (k a)) : Flushes u op h (p >>= k) :=
  hp.accepts_bind (fun _ w hl => MenuStep.query .start w hl) hk fun _ =>
    not_returns_error _ _

lemma flushes_http (status : ℕ) (detail : String) :
    Flushes u op h (Async.http status detail : Async α) :=
  Async.accepts_http (not_returns_error _ _)

/-- A look for one row, which can be missing. -/
lemma flushes_find {t : Table} {query : Database → Option α} {k : Option α → Async β}
    (hnone : Flushes u op h (k none)) (hsome : ∀ row, Flushes u op h (k (some row))) :
    Flushes u op h (Async.select t query >>= k) := by
  refine flushes_bind (Async.queries_select _ _) fun o => ?_
  cases o with
  | none => exact hnone
  | some row => exact hsome row

/-- The rule of every change: what commits, then the flush. -/
lemma Commits.flushes {p : Async α} {k : α → Async β} (hp : Commits u op h p)
    (hk : ∀ a φ, φ = .committed →
      (MenuCall.change u op h).monitor.Accepts (fun φ r => ∀ b, r = .ok b → φ = .flushed) (k a) φ) :
    Flushes u op h (p >>= k) := by
  refine Monitor.accepts_bind (hp.mono fun φ r hr => ?_)
  cases r with
  | error e => exact not_returns_error _ _
  | ok a => exact hk a φ (hr a rfl)

lemma Commits.flushes_return {p : Async α} (hp : Commits u op h p) :
    Flushes u op h (p >>= fun a => Async.cacheInvalidatePrefix "menu:" >>= fun _ => pure a) := by
  apply hp.flushes
  rintro a _ rfl
  exact Async.accepts_cacheInvalidatePrefix_bind fun _ =>
    (MenuStep.flush rfl).accepts rfl (Monitor.accepts_pure fun _ _ => rfl)

lemma Commits.flushes_last {p : Async α} (hp : Commits u op h p) :
    Flushes u op h (p >>= fun _ => Async.cacheInvalidatePrefix "menu:") := by
  apply hp.flushes
  rintro _ _ rfl
  exact Monitor.accepts_modify fun _ => ⟨.flush rfl, fun _ _ => rfl⟩

lemma flushes_map {p : Async α} (hp : Flushes u op h p) (f : α → β) :
    Flushes u op h (f <$> p) := by
  refine Monitor.accepts_map (hp.mono fun φ r hr => ?_)
  cases r with
  | error e => exact not_returns_error _ _
  | ok a => exact fun _ _ => hr a rfl

end

/-- Every change checks what it needs, commits and flushes. -/
lemma flushes_change (P : Platform) (u : Uuid) (op : AdminOp) (h : op.IsChange) :
    Flushes u op h (op.code P u) := by
  cases op with
  | restaurantUpdate fuel data =>
    refine flushes_map (flushes_bind (RestaurantService.queries_getByOwner u) fun r => ?_) _
    apply flushes_bind (RestaurantService.queries_updatedSlug fuel r data.name)
    intro slug
    exact (commits_save _ _ _ _).flushes_return
  | restaurantDelete =>
    refine flushes_map (flushes_bind (RestaurantService.queries_getByOwner u) fun r => ?_) _
    exact (commits_bind (Async.queries_select _ _) fun _ => commits_commit _ _).flushes_last
  | categoryUpdate categoryId data =>
    refine flushes_map (flushes_find (flushes_http _ _) fun category => ?_) _
    apply flushes_bind (CategoryService.queries_verifyRestaurantOwnership _ u)
    intro _
    exact (commits_save _ _ _ _).flushes_return
  | categoryDelete categoryId =>
    refine flushes_map (flushes_find (flushes_http _ _) fun category => ?_) _
    apply flushes_bind (CategoryService.queries_verifyRestaurantOwnership _ u)
    intro _
    apply flushes_bind (CategoryRepository.queries_hasActiveDishes categoryId)
    intro active
    split_ifs
    · exact flushes_http _ _
    · exact (commits_bind (Async.queries_select _ _) fun _ => commits_commit _ _).flushes_last
  | categoryReorder orderedIds =>
    refine flushes_map (flushes_find (flushes_http _ _) fun restaurant => ?_) _
    apply flushes_bind (CategoryService.queries_verifyOrderedIds _ orderedIds)
    intro _
    exact (commits_commit _ _).flushes_last
  | dishUpdate dishId data =>
    refine flushes_map (flushes_bind (DishService.queries_getDish dishId u) fun dish => ?_) _
    refine flushes_bind (Async.queries_whenSome _ fun cid =>
      DishService.queries_verifyCategoryOwnership cid u) fun _ => ?_
    exact (commits_dishSave dish _).flushes_return
  | dishDelete dishId =>
    refine flushes_map (flushes_bind (DishService.queries_getDish dishId u) fun dish => ?_) _
    exact (commits_bind Async.queries_clock fun now => commits_dishSave dish _).flushes_return
  | dishToggle dishId =>
    refine flushes_map (flushes_bind (DishService.queries_getDish dishId u) fun dish => ?_) _
    exact (commits_dishSave dish _).flushes_return
  | _ => exact h.elim

/-- The code of every call follows its phases. -/
theorem MenuCall.accepts (P : Platform) (call : MenuCall) :
    call.monitor.Accepts call.Ends (call.request.code P) .start := by
  cases call with
  | menu scan slug =>
    refine Monitor.accepts_map (readsMenu_getMenuBySlug.mono fun φ r hr => ?_)
    cases r with
    | error e => exact not_returns_error _ _
    | ok m =>
      rintro _ ⟨⟩
      exact ⟨m, rfl, hr m rfl⟩
  | change u op h => exact flushes_change P u op h

end LiveMenu
