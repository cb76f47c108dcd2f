import LiveMenu.Menu.Content
import LiveMenu.Tenants.Blindness

/-!
# The menus of others do not matter

Two owners share the process, its cache and its tables. As long as a user names only own categories
and dishes, whatever the other owners do with theirs could as well not have happened: there is a run
without these requests in which all the other requests get the same answers and the user holds the
same rows. Only the menus of the other restaurants may differ.
-/

namespace LiveMenu

open Async MenuService

/-! ### Menus -/

section Menus

variable {P : Platform} {ownerOf : Table → Uuid → Uuid} {u : Uuid}

/-- The second coroutine keeps up with the first, up to what others have on their menus. -/
abbrev KeepsUp (ownerOf : Table → Uuid → Uuid) (u : Uuid) {α : Type} (R : α → α → Prop)
    (p q : Async α) : Prop :=
  p.Follows (Twins ownerOf u) (World.Alike ownerOf u) (Except.Both R) q

lemma keepsUp_cacheSet (slug : String) {m m' : MenuResponse} (h : m.Alike ownerOf u m') :
    KeepsUp ownerOf u (MenuResponse.Alike ownerOf u)
      (cacheSet (cacheKey slug) m menuCacheTtl >>= fun _ => pure m)
      (cacheSet (cacheKey slug) m' menuCacheTtl >>= fun _ => pure m') := by
  refine Prog.follows_step fun w w' hw => ⟨⟨hw.alike.db, ?_, hw.alike.now⟩,
    Prog.follows_done (.ok h)⟩
  rw [hw.alike.now]
  exact alike_cacheSet hw.alike.cache _ h _ _

/-- `get_menu_by_slug` from the categories on. -/
def builtFrom (scan : MenuScan) (slug : String) (r : Restaurant) (cs : List Category) :
    Async MenuResponse := do
  let dishes ← if cs.isEmpty then pure [] else select .dishes (loadedDishes scan cs)
  let menu := menuResponse r cs dishes
  cacheSet (cacheKey slug) menu menuCacheTtl
  return menu

/-- The menu of the user. -/
lemma keepsUp_builtFrom_own (scan : MenuScan) (slug : String) (r : Restaurant) {cs : List Category}
    (hcs : ∀ c ∈ cs, ownerOf .categories c.id = u) :
    KeepsUp ownerOf u (MenuResponse.Alike ownerOf u) (builtFrom scan slug r cs)
      (builtFrom scan slug r cs) := by
  rw [builtFrom]
  split_ifs
  · exact keepsUp_cacheSet slug ⟨rfl, fun _ => rfl⟩
  · refine Prog.Blind.follows_bind (q := fun _ => True)
      (unaware_select fun w w' hw => ⟨?_, trivial⟩)
      (fun ds _ => keepsUp_cacheSet slug ⟨rfl, fun _ => rfl⟩) fun e => .error e
    rw [loadedDishes, loadedDishes, hw.filter_dishes fun d hq => ?_]
    obtain ⟨c, hc, hcid⟩ := List.mem_map.mp (of_decide_eq_true hq)
    rw [← hcid, hcs c hc]

/-- The menu of somebody else. Whether there are categories decides whether the dishes are read, so
the steps need not match. -/
lemma keepsUp_builtFrom_other (scan : MenuScan) (slug : String) {r : Restaurant}
    (hr : ownerOf .restaurants r.id ≠ u) (cs cs' : List Category) :
    KeepsUp ownerOf u (MenuResponse.Alike ownerOf u) (builtFrom scan slug r cs)
      (builtFrom scan slug r cs') := by
  have hmenu : ∀ cs cs' ds ds',
      (menuResponse r cs ds).Alike ownerOf u (menuResponse r cs' ds') :=
    fun _ _ _ _ => ⟨rfl, fun hown => absurd hown hr⟩
  simp only [builtFrom]
  split_ifs
  · exact keepsUp_cacheSet slug (hmenu _ _ _ _)
  · intro w w' hw
    refine ⟨_, _, .step (.step (.refl _ _)), ⟨hw.alike.db, ?_, hw.alike.now⟩, _, rfl,
      .ok (hmenu _ _ _ _)⟩
    show List.Forall₂ _ (w.cache.cacheSet _ _ _ w.now) (w'.cache.cacheSet _ _ _ w'.now)
    rw [hw.alike.now]
    exact alike_cacheSet hw.alike.cache _ (hmenu _ _ _ _) _ _
  · exact Prog.follows_skip fun w w' hw => ⟨hw.alike, keepsUp_cacheSet slug (hmenu _ _ _ _)⟩
  · exact Prog.follows_step fun w w' hw => ⟨hw.alike, keepsUp_cacheSet slug (hmenu _ _ _ _)⟩

/-- `get_menu_by_slug` for a slug that is not in the cache. -/
def uncached (scan : MenuScan) (slug : String) : Async MenuResponse := do
  match ← RestaurantRepository.getBySlug slug with
  | none => http 404 ("Restaurant with slug '" ++ slug ++ "' not found")
  | some r => do
    let cs ← select .categories (activeCategories scan r.id)
    builtFrom scan slug r cs

lemma keepsUp_uncached (scan : MenuScan) (slug : String) :
    KeepsUp ownerOf u (MenuResponse.Alike ownerOf u) (uncached scan slug) (uncached scan slug) := by
  refine Prog.Blind.follows_bind (RestaurantService.unaware_getBySlug slug) (fun o _ => ?_)
    fun e => .error e
  cases o with
  | none => exact Prog.follows_raise (.error _)
  | some r =>
    by_cases hr : ownerOf .restaurants r.id = u
    · refine Prog.Blind.follows_bind (q := fun cs => ∀ c ∈ cs, ownerOf .categories c.id = u)
        (unaware_select fun w w' hw => ⟨?_, fun c hc => ?_⟩)
        (fun cs hcs => keepsUp_builtFrom_own scan slug r hcs) fun e => .error e
      · rw [activeCategories, activeCategories, hw.filter_categories fun c hq => ?_]
        rw [(of_decide_eq_true hq).1, hr]
      · obtain ⟨hmem, hrid, -⟩ := mem_activeCategories.mp hc
        have hfact : ownerOf .restaurants c.restaurantId = ownerOf .categories c.id :=
          hw.hold.categories c hmem
        rw [← hfact, hrid, hr]
    · exact Prog.follows_step fun w w' hw => ⟨hw.alike, keepsUp_builtFrom_other scan slug hr _ _⟩

lemma keepsUp_getMenuBySlug (scan : MenuScan) (slug : String) :
    KeepsUp ownerOf u (MenuResponse.Alike ownerOf u) (getMenuBySlug scan slug)
      (getMenuBySlug scan slug) := by
  refine Prog.follows_step fun w w' hw => ?_
  obtain ⟨hget, hcache⟩ := alike_cacheGet hw.alike.cache (cacheKey slug) w.now
  dsimp only
  rw [hw.alike.now]
  refine ⟨⟨hw.alike.db, hcache, rfl⟩, ?_⟩
  generalize (w.cache.cacheGet (cacheKey slug) w.now).1 = o at hget
  generalize (w'.cache.cacheGet (cacheKey slug) w.now).1 = o' at hget
  cases hget with
  | some hm => exact Prog.follows_pure (Except.Both.ok hm)
  | none => exact keepsUp_uncached scan slug

lemma unaware_recordScan (menu : MenuResponse) (client : Client) (id : Uuid) :
    (recordScan P menu client id).Unaware ownerOf u fun _ => True := by
  refine Prog.Blind.handle (unaware_commit fun w w' hw => ?_) fun _ => unaware_pure trivial
  refine Except.both_bind fun userAgent _ => Except.both_bind fun referrer _ => ?_
  refine Except.Both.bind
    (hw.both_write (f := fun t => { t with scanEvents := t.scanEvents ++ [_] })
      (fun _ => ⟨fun _ hid => hid, rfl, rfl⟩)
      fun t t' h => { h with scanEvents := by rw [h.scanEvents] }) fun _ _ hdb => .ok ⟨rfl, hdb⟩

/-- What is recorded of a view is the restaurant of the menu, not what is on it. -/
lemma keepsUp_getMenu (scan : MenuScan) (slug : String) (client : Client) (id : Uuid) :
    KeepsUp ownerOf u (MenuResponse.Alike ownerOf u) (MenuRouter.getMenu P scan slug client id)
      (MenuRouter.getMenu P scan slug client id) := by
  refine Prog.Follows.bind (keepsUp_getMenuBySlug scan slug) ?_ ?_
  · intro m r' h
    cases h with
    | @ok _ m' hm =>
      have hrecord : recordScan P m' client id = recordScan P m client id := by
        simp only [recordScan, hm.1]
      show KeepsUp ownerOf u _ (recordScan P m client id >>= fun _ => pure m)
        (recordScan P m' client id >>= fun _ => pure m')
      rw [hrecord]
      exact Prog.Blind.follows_bind (unaware_recordScan m client id)
        (fun _ _ => Prog.follows_pure (.ok hm)) fun e => .error e
  · intro e r' h
    cases h
    exact Prog.follows_raise (.error e)

end Menus

/-! ### Requests -/

/-- The answers are the same, or menus that look alike. -/
inductive Response.Alike (ownerOf : Table → Uuid → Uuid) (u : Uuid) : Response → Response → Prop
  | same (r : Response) : Alike ownerOf u r r
  | menu {m m' : MenuResponse} (h : m.Alike ownerOf u m') : Alike ownerOf u (.menu m) (.menu m')

/-- The request is one of somebody else's on categories or dishes. -/
def Request.hiddenFrom (u : Uuid) : Request → Bool
  | .admin v op   => decide (v ≠ u) && op.onCatalog
  | _             => false

/-- The operations of the user name only what belongs to the user. -/
def Request.NamesOwn (ownerOf : Table → Uuid → Uuid) (u : Uuid) : Request → Prop
  | .admin v op   => v = u → ∀ x ∈ op.named, ownerOf x.1 x.2 = u
  | _             => True

section Requests

variable {P : Platform} {ownerOf : Table → Uuid → Uuid} {u : Uuid}

lemma Async.Unaware.keepsUp {q : Response → Prop} {p : Async Response}
    (hp : p.Unaware ownerOf u q) :
    KeepsUp ownerOf u (Response.Alike ownerOf u) p p := by
  refine Prog.Follows.imp hp ?_
  rintro _ r ⟨rfl, -⟩
  cases r with
  | ok r => exact .ok (.same r)
  | error e => exact .error e

lemma KeepsUp.menu {p : Async MenuResponse}
    (hp : KeepsUp ownerOf u (MenuResponse.Alike ownerOf u) p p) :
    KeepsUp ownerOf u (Response.Alike ownerOf u) (Response.menu <$> p)
      (Response.menu <$> p) := by
  refine Prog.Follows.bind (k := fun m => pure (Response.menu m)) hp ?_ ?_
  · intro m r' h
    cases h with
    | ok hm => exact Prog.follows_done (.ok (.menu hm))
  · intro e r' h
    cases h
    exact Prog.follows_done (.error e)

/-- A request that is not hidden keeps up with itself. -/
lemma Request.keepsUp (P : Platform) {req : Request} (hseen : req.hiddenFrom u = false)
    (hdraws : req.DrawsOwn ownerOf) (hnames : req.NamesOwn ownerOf u) :
    KeepsUp ownerOf u (Response.Alike ownerOf u) (req.code P) (req.code P) := by
  cases req with
  | menu scan slug => exact (keepsUp_getMenuBySlug scan slug).menu
  | viewMenu scan slug client id => exact (keepsUp_getMenu scan slug client id).menu
  | admin v op =>
    cases hop : op.onCatalog with
    | false => exact (AdminOp.unaware_shared P v hop).keepsUp
    | true =>
      have hv : v = u := by simpa [hiddenFrom, hop] using hseen
      subst hv
      exact (AdminOp.unaware_own P hdraws (hnames rfl)).keepsUp
  | register email password draws =>
    exact (AuthService.unaware_register email password draws).map.keepsUp
  | login email password draws => exact (AuthService.unaware_login email password draws).map.keepsUp
  | refresh token draws => exact (AuthService.unaware_refresh token draws).map.keepsUp

/-- A write of somebody else to categories or dishes cannot be seen. -/
lemma Request.Writes.alike {F : Facts} (hF : F.Tells ownerOf) {now : Time} {w : World} {t' : Tables}
    {v : Uuid} {op : AdminOp} (h : Request.Writes P F now w.db.toTables t' (.admin v op))
    (hhidden : (Request.admin v op).hiddenFrom u = true)
    (hok : Request.DrawsOwn ownerOf (.admin v op)) (hw : (ownership ownerOf).Hold w) :
    w.db.toTables.Alike ownerOf u t' := by
  obtain ⟨hvu, hop⟩ := Bool.and_eq_true_iff.mp hhidden
  have hrows := h.ownRows_eq hF (fun hlogout => by rw [hlogout] at hop; cases hop) hok hw
    (of_decide_eq_true hvu)
  have hcategories := congrArg Holdings.categories hrows
  have hdishes := congrArg Holdings.dishes hrows
  cases h with
  | categoryCreate _ _ ht | categoryUpdate _ _ ht | categoryDelete _ _ ht | categoryReorder _ _ _ ht
  | dishCreate _ _ ht | dishUpdate _ _ _ ht | dishDelete _ ht | dishToggle _ ht =>
    subst ht
    exact ⟨rfl, rfl, hcategories, hdishes, rfl, rfl⟩
  | restaurantCreate | restaurantUpdate | restaurantDelete | logout => cases hop

/-- Time passes and the cache loses the same. -/
lemma World.Alike.exists_env {w w' t : World} (ht : w.Alike ownerOf u t)
    (h : (apiSystem P).env w w') : ∃ t', (apiSystem P).env t t' ∧ w'.Alike ownerOf u t' := by
  obtain ⟨hdb, hcache, hnow⟩ := h
  obtain ⟨d, hd, halike⟩ := exists_alike_subset ht.cache hcache
  exact ⟨⟨t.db, d, w'.now⟩, ⟨rfl, hd, ht.now.trans_le hnow⟩, hdb ▸ ht.db, halike, rfl⟩

/-- The states still look alike after a hidden step, if the cache loses what the step drops. -/
lemma Request.Does.alike {F : Facts} (hF : F.Tells ownerOf) {req : Request} {w w' t : World}
    (h : req.Does P F w w') (hhidden : req.hiddenFrom u = true) (hok : req.DrawsOwn ownerOf)
    (hw : (ownership ownerOf).Hold w) (ht : w.Alike ownerOf u t) :
    ∃ t', (apiSystem P).env t t' ∧ w'.Alike ownerOf u t' := by
  cases req with
  | admin v op =>
    cases h with
    | stays hdb hcache hnow => exact ht.exists_env ⟨hdb, hcache, hnow.ge⟩
    | commits h hcache hnow =>
      have hwrite := h.alike hF hhidden hok hw
      exact ⟨t, ⟨rfl, fun _ he => he, le_rfl⟩, hwrite.symm.trans ht.db, hcache ▸ ht.cache,
        ht.now.trans hnow.symm⟩
    | caches hslug => cases hslug
  | _ => cases hhidden

lemma World.alike_refl (ownerOf : Table → Uuid → Uuid) (u : Uuid) (db : Database) (now : Time) :
    World.Alike ownerOf u ⟨db, [], now⟩ ⟨db, [], now⟩ :=
  ⟨⟨rfl, rfl, rfl, rfl, rfl, rfl⟩, .nil, rfl⟩

end Requests

/-! ### Every interleaving -/

/-- An operation of the user names the id. -/
def Names (cfg : ApiConfig) (u : Uuid) (table : Table) (id : Uuid) : Prop :=
  ∃ i th op, cfg.threads i = some th ∧ th.call = .admin u op ∧ (table, id) ∈ op.named

/-- No id that operations of the user name is drawn for somebody else, or of a row of somebody
else. The error for such an id would tell whether its row is there. -/
structure NamesApart (t : Tables) (cfg : ApiConfig) (u : Uuid) : Prop where
  requests : ∀ table id j th v, Names cfg u table id → cfg.threads j = some th →
    th.call.draws = some (table, id, v) → v = u
  stored : ∀ table id v, Names cfg u table id → t.ownerIn table id = some v → v = u

/-- The ids that the user names can be taken for the user's. -/
lemma NamesApart.exists_owner {t : Tables} {cfg : ApiConfig} {u : Uuid}
    (hnames : NamesApart t cfg u) (hids : DrawnApart t cfg) :
    ∃ ownerOf : Table → Uuid → Uuid,
      (∀ table id v, t.ownerIn table id = some v → ownerOf table id = v) ∧
        cfg.Calls fun _ req => req.DrawsOwn ownerOf ∧ req.NamesOwn ownerOf u := by
  classical
  obtain ⟨ownerOf, hstored, hdrawn⟩ := hids.exists_owner
  refine ⟨fun table id => if Names cfg u table id then u else ownerOf table id, ?_, ?_⟩
  · intro table id v hv
    dsimp only
    split_ifs with hnamed
    · exact (hnames.stored table id v hnamed hv).symm
    · exact hstored table id v hv
  · intro i th hi
    constructor
    · intro table id v hv
      dsimp only
      split_ifs with hnamed
      · exact (hnames.requests table id i th v hnamed hi hv).symm
      · exact hdrawn i th hi table id v hv
    · obtain ⟨call, φ, code⟩ := th
      cases call with
      | admin v op =>
        rintro rfl x hx
        exact if_pos ⟨i, _, op, hi, rfl, hx⟩
      | _ => trivial

/-- The answers are the same, or two menus of a restaurant that has never been the user's. -/
def SameAnswer (P : Platform) (start last : ApiConfig) (u : Uuid) (r r' : Except Exc Response) :
    Prop :=
  r' = r ∨ ∃ m m' : MenuResponse, r = .ok (.menu m) ∧ r' = .ok (.menu m') ∧
    m'.restaurantId = m.restaurantId ∧
      ∀ mid, Serves P start mid → Serves P mid last →
        mid.state.db.restaurantOwner m.restaurantId ≠ some u

/-- In every interleaving of all requests, if requests of different users draw their ids apart and
the operations of the user name no id of somebody else: there is a run without the other users'
operations on categories and dishes, in which every other request that has ended gets the same
answer, up to the menus of the others, and the user holds the same rows. Where these operations
drop cached menus, the cache loses them by itself. -/
theorem other_catalogs_unseen (P : Platform) (db : Database) (now : Time) {cfg : ApiConfig}
    (h : Serves P (apiStart db now) cfg) (hids : DrawnApart db.toTables cfg) {u : Uuid}
    (hnames : NamesApart db.toTables cfg u) :
    ∃ tw, Serves P (apiStart db now) tw ∧
      (∀ i, (tw.threads i).map (·.call)
        = ((cfg.threads i).map (·.call)).filter fun req => !req.hiddenFrom u) ∧
      (∀ i req r, req.hiddenFrom u = false → cfg.threads i = some ⟨req, (), .done r⟩ →
        ∃ r', tw.threads i = some ⟨req, (), .done r'⟩ ∧
          SameAnswer P (apiStart db now) cfg u r r') ∧
      tw.state.db.holdings u = cfg.state.db.holdings u := by
  obtain ⟨ownerOf, hstored, hcalls⟩ := hnames.exists_owner hids
  have hown : ∀ mid, Serves P (apiStart db now) mid →
      (mid.Calls fun _ req => req.DrawsOwn ownerOf ∧ req.NamesOwn ownerOf u) →
        Guaranteed P (ownership ownerOf) mid ∧ (ownership ownerOf).Hold mid.state :=
    fun mid hmid hok => ownership_closed.serves hmid (fun i th hi => (hok i th hi).1)
      (guaranteed_start db now) (ownership_stored now hstored)
  have hstep : ∀ mid i th l eff next t, Serves P (apiStart db now) mid →
      (mid.Calls fun _ req => req.DrawsOwn ownerOf ∧ req.NamesOwn ownerOf u) →
        mid.threads i = some th → th.call.hiddenFrom u = true → th.code = .step l eff next →
          mid.state.Alike ownerOf u t →
            ∃ t', (apiSystem P).env t t' ∧ (eff mid.state).Alike ownerOf u t' := by
    intro mid i th l eff next t hmid hok hi hhidden hcode ht
    obtain ⟨hplain, hI⟩ := hown mid hmid hok
    exact (hplain.step hi hcode hI).alike (ownership_tells ownerOf) hhidden (hok i th hi).1 hI ht
  obtain ⟨tw, htw, halike, hmirrors⟩ := h.erase (fun req => req.hiddenFrom u = true)
    (Q := fun _ => Except.Both (Response.Alike ownerOf u)) (fun _ => rfl) hcalls
    (fun mid hmid hok => (hown mid hmid hok).2)
    (fun s t hs ht hst => Twins.mk hs ht hst)
    (fun req hseen hok => Request.keepsUp P (eq_false_of_ne_true hseen) hok.1 hok.2)
    hstep (fun s s' t hst henv => hst.exists_env henv) (World.alike_refl _ _ _ _)
  have hsame : ∀ r r', Except.Both (Response.Alike ownerOf u) r r' →
      SameAnswer P (apiStart db now) cfg u r r' := by
    intro r r' hQ
    cases hQ with
    | error e => exact .inl rfl
    | ok hr =>
      cases hr with
      | same r => exact .inl rfl
      | @menu m m' hm =>
        by_cases hmine : ownerOf .restaurants m.restaurantId = u
        · exact .inl (by rw [hm.2 hmine])
        · refine .inr ⟨m, m', rfl, rfl, hm.1, fun mid hmid hrest howner => hmine ?_⟩
          obtain ⟨r, hr, hu⟩ := Option.map_eq_some_iff.mp howner
          obtain ⟨hfact, hid⟩ := (hown mid hmid (hrest.calls hcalls)).2.restaurant hr
          exact hid ▸ hfact.trans hu
  refine ⟨tw, htw, fun i => ?_, fun i req r hseen hi => ?_, ?_⟩
  · rw [(hmirrors i).map_call]
    congr 1
    funext req
    simp
  · have hm := hmirrors i
    rw [hi] at hm
    obtain ⟨_, r', htwin, hQ⟩ := hm.done (ne_true_of_eq_false hseen)
    exact ⟨r', htwin, hsame r r' hQ⟩
  · rw [holdings_eq_ownRows (hown tw htw (System.calls_of_mirrors hmirrors hcalls)).2,
      holdings_eq_ownRows (hown cfg h hcalls).2]
    refine ownRows_congr ?_ halike.db.categories halike.db.dishes ?_ ?_
    · rw [halike.db.restaurants]
    · rw [halike.db.scanEvents]
    · rw [halike.db.refreshTokens]

/-- What the calls below `n` name for the user. -/
def namedBelow (n : ℕ) (cfg : ApiConfig) (u : Uuid) : List (Table × Uuid) :=
  (List.range n).flatMap fun i =>
    match cfg.threads i with
    | some ⟨.admin v op, _, _⟩   => if v = u then op.named else []
    | _                          => []

/-- No call below `n` names an id of somebody else for the user. -/
def namesApart (n : ℕ) (t : Tables) (cfg : ApiConfig) (u : Uuid) : Bool :=
  (namedBelow n cfg u).all fun (table, id) =>
    ((t.ownerIn table id).all (· = u)) &&
      (drawnBelow n cfg).all fun (table', id', v) => !(table = table' && id = id') || v = u

lemma namesApart_of_checked {n : ℕ} {t : Tables} {cfg : ApiConfig} {u : Uuid}
    (hidle : ∀ j, n ≤ j → cfg.threads j = none) (h : namesApart n t cfg u = true) :
    NamesApart t cfg u := by
  have hmem : ∀ table id, Names cfg u table id → (table, id) ∈ namedBelow n cfg u := by
    rintro table id ⟨i, ⟨_, φ, code⟩, op, hi, rfl, hx⟩
    refine List.mem_flatMap.mpr ⟨i, List.mem_range.mpr ?_, ?_⟩
    · by_contra hn
      rw [hidle i (Nat.not_lt.mp hn)] at hi
      cases hi
    · simp only [hi, if_pos]
      exact hx
  simp only [namesApart, List.all_eq_true, Bool.and_eq_true, Option.all_eq_true,
    Bool.or_eq_true, Bool.not_eq_true', Bool.and_eq_false_iff, decide_eq_true_eq,
    decide_eq_false_iff_not] at h
  constructor
  · intro table id j th v hnamed hj hv
    obtain hne | heq := (h _ (hmem table id hnamed)).2 _ (mem_drawnBelow hidle hj hv)
    · simp at hne
    · exact heq
  · intro table id v hnamed hv
    exact (h _ (hmem table id hnamed)).1 v hv

/-- The dish that the call has switched on or off for the user. -/
def toggledDish (cfg : ApiConfig) (i : ℕ) : Option (Uuid × Uuid × Dish) :=
  match cfg.threads i with
  | some ⟨.admin u (.dishToggle id), _, .done (.ok (.dish d))⟩   => some (u, id, d)
  | _                                                            => none

/-- Luis's new category comes between the steps of Ana's request, and without it she gets the same
answer. -/
theorem other_catalogs_unseen_category :
    ∃ cfg tw d, Serves Platform.plain (apiStart sopaServed.db 0) cfg ∧
      cfg.state.db.categories.map (·.id) = [20, 21] ∧ d.available = false ∧
      cfg.threads 2 = some ⟨.admin 1 (.dishToggle 30), (), .done (.ok (.dish d))⟩ ∧
      Serves Platform.plain (apiStart sopaServed.db 0) tw ∧ tw.threads 1 = none ∧
      tw.threads 2 = some ⟨.admin 1 (.dishToggle 30), (), .done (.ok (.dish d))⟩ ∧
      tw.state.db.holdings 1 = cfg.state.db.holdings 1 := by
  have hrun : ((apiSystem Platform.plain).follow (fun _ _ => true)
      (.start 0 luisCreates :: List.replicate 5 (.run 0) ++
        .start 1 (.admin 2 (.categoryCreate { name := ⟨"Vinos", by decide⟩ } 21)) ::
          .start 2 (.admin 1 (.dishToggle 30)) :: [1, 2, 1, 2, 2, 1, 2, 1, 2, 2].map .run)
      (apiStart sopaServed.db 0)).any (fun cfg =>
        drawnApart 3 sopaServed.db.toTables cfg && (namesApart 3 sopaServed.db.toTables cfg 1 &&
          ((cfg.threads 1).any (fun th => th.call.hiddenFrom 1) &&
            (cfg.state.db.categories.map (·.id) = [20, 21] && (toggledDish cfg 2).any fun s =>
              s.1 = 1 && (s.2.1 = 30 && !s.2.2.available))))) = true := by
    decide +kernel
  obtain ⟨cfg, h, hidle, hcfg⟩ := System.exists_reach_of_follow_below (n := 3) (fun _ _ => rfl)
    (fun i c h => by simp at h; omega) (fun _ _ _ _ _ _ _ => trivial) hrun
  simp only [Bool.and_eq_true, Option.any_eq_true, decide_eq_true_eq] at hcfg
  obtain ⟨hids, hnames, ⟨th, hth, hhidden⟩, hcategories, ⟨u, id, d⟩, htoggled, rfl, rfl, hd⟩ := hcfg
  obtain ⟨tw, htw, hcalls, hanswers, hrows⟩ :=
    other_catalogs_unseen Platform.plain sopaServed.db 0 h (drawnApart_of_checked hidle hids)
      (namesApart_of_checked hidle hnames)
  have hi : cfg.threads 2 = some ⟨.admin 1 (.dishToggle 30), (), .done (.ok (.dish d))⟩ := by
    rw [toggledDish] at htoggled
    split at htoggled
    · cases htoggled
      assumption
    · cases htoggled
  obtain ⟨r', hi', hsame⟩ := hanswers 2 _ _ rfl hi
  refine ⟨cfg, tw, d, h, hcategories, by simpa using hd, hi, htw, ?_, ?_, hrows⟩
  · have hcall := hcalls 1
    rw [hth, Option.map_some, Option.filter_some, hhidden] at hcall
    exact Option.map_eq_none_iff.mp hcall
  · obtain rfl | ⟨m, m', hm, -⟩ := hsame
    · exact hi'
    · cases hm

end LiveMenu
