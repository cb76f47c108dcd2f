import LiveMenu.Lib.LastIndex
import LiveMenu.Sequential.Menu

/-!
# Reordering the categories

A reorder gives each listed category the index of its last occurrence in the list. The two readers
sort by that position, so they show the listed categories in the order of the list.
-/

namespace LiveMenu

/-! ### Rows -/

/-- What a reorder makes of a row, with the positions from `index` on. -/
def IsReordered (now : Time) (restaurantId : Uuid) (index : ℕ) (ids : List Uuid)
    (f : Category → Category) : Prop :=
  ∀ c, (c.id ∈ ids ∧ c.restaurantId = restaurantId → ∃ p : PgInt,
      p.val = index + lastIndex c.id ids ∧ f c = { c with position := p, updatedAt := now }) ∧
    (¬ (c.id ∈ ids ∧ c.restaurantId = restaurantId) → f c = c)

namespace CategoryRepository

variable {now : Time} {restaurantId : Uuid}

/-- A later UPDATE of the same row overwrites an earlier one. -/
lemma reorderRows_isReordered {index : ℕ} {ids : List Uuid} {rows rows' : List Category}
    (h : reorderRows now restaurantId index ids rows = .ok rows') :
    ∃ f, rows' = rows.map f ∧ IsReordered now restaurantId index ids f := by
  induction ids generalizing index rows with
  | nil =>
    cases h
    exact ⟨fun c => c, (List.map_id' _).symm, fun c => ⟨fun h => by simp at h, fun _ => rfl⟩⟩
  | cons cid ids ih =>
    simp only [reorderRows, Except.bind_eq_ok_iff] at h
    obtain ⟨p, hp, h⟩ := h
    obtain ⟨f, rfl, hf⟩ := ih h
    refine ⟨_, List.map_map, fun c => ?_⟩
    simp only [Function.comp_apply]
    by_cases hlater : c.id ∈ ids ∧ c.restaurantId = restaurantId
    · -- a later occurrence decides, whether or not this UPDATE hits the row
      refine ⟨fun _ => ?_, fun hnot => absurd ⟨List.mem_cons_of_mem _ hlater.1, hlater.2⟩ hnot⟩
      have hindex := lastIndex_cons_of_mem (a := cid) hlater.1
      split_ifs with hc
      · obtain ⟨q, hq, hfc⟩ := (hf { c with position := p, updatedAt := now }).1 hlater
        refine ⟨q, ?_, hfc⟩
        rw [hq, hindex]
        dsimp only
        omega
      · obtain ⟨q, hq, hfc⟩ := (hf c).1 hlater
        refine ⟨q, ?_, hfc⟩
        rw [hq, hindex]
        omega
    · split_ifs with hc
      · refine ⟨fun _ => ⟨p, ?_, (hf { c with position := p, updatedAt := now }).2 hlater⟩,
          fun hnot => absurd ⟨hc.1 ▸ List.mem_cons_self, hc.2⟩ hnot⟩
        have hout : c.id ∉ ids := fun hin => hlater ⟨hin, hc.2⟩
        rw [PgInt.val_of_ofInt hp, lastIndex_cons_of_not_mem hout]
        simp
      · refine ⟨fun hin => ?_, fun _ => (hf c).2 hlater⟩
        rcases List.mem_cons.mp hin.1 with heq | hmem
        · exact absurd ⟨heq, hin.2⟩ hc
        · exact absurd ⟨hmem, hin.2⟩ hlater

/-- The positions of a list of up to 2^31 ids fit the column. -/
lemma reorderRows_isOk {index : ℕ} {ids : List Uuid} (rows : List Category)
    (hfits : index + ids.length ≤ 2147483648) :
    ∃ rows', reorderRows now restaurantId index ids rows = .ok rows' := by
  induction ids generalizing index rows with
  | nil => exact ⟨rows, rfl⟩
  | cons cid ids ih =>
    rw [List.length_cons] at hfits
    obtain ⟨p, hp⟩ := PgInt.ofInt_isOk (z := index).mpr (by omega)
    simp only [reorderRows, hp, bind, Except.bind]
    exact ih _ (by omega)

lemma reorderRows_error {index : ℕ} {ids : List Uuid} (rows : List Category)
    (hindex : index ≤ 2147483648) (hlong : 2147483648 < index + ids.length) :
    reorderRows now restaurantId index ids rows = .error .data := by
  induction ids generalizing index rows with
  | nil =>
    rw [List.length_nil] at hlong
    omega
  | cons cid ids ih =>
    rw [List.length_cons] at hlong
    simp only [reorderRows]
    by_cases hlast : index = 2147483648
    · have : PgInt.ofInt index = .error .data := dif_neg (by omega)
      rw [this]
      rfl
    · obtain ⟨p, hp⟩ := PgInt.ofInt_isOk (z := index).mpr (by omega)
      simp only [hp, bind, Except.bind]
      exact ih _ (by omega) (by omega)

end CategoryRepository

namespace IsReordered

variable {now : Time} {restaurantId : Uuid} {index : ℕ} {ids : List Uuid} {f : Category → Category}

/-- A reorder changes no other column. -/
lemma columns (h : IsReordered now restaurantId index ids f) (c : Category) :
    (f c).id = c.id ∧ (f c).restaurantId = c.restaurantId ∧ (f c).active = c.active := by
  by_cases hc : c.id ∈ ids ∧ c.restaurantId = restaurantId
  · obtain ⟨p, -, hfc⟩ := (h c).1 hc
    rw [hfc]
    exact ⟨rfl, rfl, rfl⟩
  · rw [(h c).2 hc]
    exact ⟨rfl, rfl, rfl⟩

lemma constraints (h : IsReordered now restaurantId index ids f) {t : Tables}
    (ht : t.Constraints) : { t with categories := t.categories.map f }.Constraints := by
  have hids : (t.categories.map f).map (·.id) = t.categories.map (·.id) := by
    rw [List.map_map]
    exact List.map_congr_left fun c _ => (h.columns c).1
  exact { ht with
    categoryId := hids ▸ ht.categoryId
    categoryRestaurantFk := by
      intro c hc
      obtain ⟨c', hc', rfl⟩ := List.mem_map.mp hc
      rw [(h.columns c').2.1]
      exact ht.categoryRestaurantFk c' hc'
    dishCategoryFk := fun d hd => hids ▸ ht.dishCategoryFk d hd }

end IsReordered

/-! ### Checks -/

/-- The category exists and is one of the restaurant. -/
def Tables.HasCategory (t : Tables) (restaurantId categoryId : Uuid) : Prop :=
  ∃ c ∈ t.categories, c.id = categoryId ∧ c.restaurantId = restaurantId

lemma Tables.hasCategory_iff {t : Tables} (ht : t.Constraints) (restaurantId categoryId : Uuid) :
    t.HasCategory restaurantId categoryId ↔
      ((Rows.get (·.id) categoryId t.categories).any fun c => c.restaurantId = restaurantId)
        = true := by
  simp only [HasCategory, Option.any_eq_true, decide_eq_true_eq]
  constructor
  · rintro ⟨c, hc, rfl, hr⟩
    exact ⟨c, Rows.get_of_mem ht.categoryId hc, hr⟩
  · rintro ⟨c, hc, hr⟩
    have hid := Rows.get_key hc
    exact ⟨c, Rows.get_mem hc, hid, hr⟩

namespace CategoryService

variable (w : World) (restaurantId : Uuid)

/-- The loop lets a list pass if every id is a category of the restaurant, and names one that is
not. -/
lemma exec_verifyOrderedIds (ids : List Uuid) :
    ((∀ id ∈ ids, w.db.HasCategory restaurantId id) ∧
      (verifyOrderedIds restaurantId ids).exec w = (.ok (), w)) ∨
    ∃ id ∈ ids, ¬ w.db.HasCategory restaurantId id ∧
      (verifyOrderedIds restaurantId ids).exec w = (.error (.http 400
        ("Category " ++ uuidStr id ++ " does not belong to restaurant")), w) := by
  induction ids with
  | nil => exact .inl ⟨List.forall_mem_nil _, rfl⟩
  | cons id ids ih =>
    have hiff := Tables.hasCategory_iff w.db.valid restaurantId id
    simp only [verifyOrderedIds, CategoryRepository.getById, Async.exec_select_bind]
    by_cases h : w.db.HasCategory restaurantId id
    · rw [if_pos (hiff.mp h)]
      rcases ih with ⟨hall, hx⟩ | ⟨id', hmem, hnot, hx⟩
      · exact .inl ⟨List.forall_mem_cons.mpr ⟨h, hall⟩, hx⟩
      · exact .inr ⟨id', List.mem_cons_of_mem _ hmem, hnot, hx⟩
    · rw [if_neg (hiff.not.mp h)]
      exact .inr ⟨id, List.mem_cons_self, h, rfl⟩

end CategoryService

/-! ### Readers -/

/-- Distinct categories of the restaurant that are sorted by position stand in the order of the
list, if all of them are listed. -/
lemma map_id_eq_filter_dedup {db : Database} {now : Time} {restaurantId : Uuid} {ids : List Uuid}
    {f : Category → Category} (hf : IsReordered now restaurantId 0 ids f) {rows l : List Category}
    (hrows : db.categories = rows.map f) (hnd : l.Nodup) (hmem : ∀ c ∈ l, c ∈ db.categories ∧
      c.restaurantId = restaurantId ∧ c.id ∈ ids)
    (hsorted : l.Pairwise fun a b => a.orderKey ≤ b.orderKey) :
    l.map (·.id) = ids.dedup.filter (· ∈ l.map (·.id)) := by
  have hposition : ∀ c ∈ l, c.position.val = lastIndex c.id ids := by
    intro c hc
    obtain ⟨hcdb, hcr, hcid⟩ := hmem c hc
    rw [hrows] at hcdb
    obtain ⟨c', -, rfl⟩ := List.mem_map.mp hcdb
    obtain ⟨hid, hr, -⟩ := hf.columns c'
    rw [hid] at hcid ⊢
    rw [hr] at hcr
    obtain ⟨p, hp, hfc⟩ := (hf c').1 ⟨hcid, hcr⟩
    rw [hfc, hp]
    simp
  refine eq_filter_dedup_of_sorted ?_ ?_ ?_
  · refine List.Nodup.map_on (fun a ha b hb hab => ?_) hnd
    exact Rows.eq_of_key_eq db.valid.categoryId (hmem a ha).1 (hmem b hb).1 hab
  · intro x hx
    obtain ⟨c, hc, rfl⟩ := List.mem_map.mp hx
    exact (hmem c hc).2.2
  · rw [List.pairwise_map]
    refine hsorted.imp_of_mem fun {a b} ha hb hab => ?_
    have hle : a.position.val ≤ b.position.val := by
      rcases (Prod.Lex.toLex_le_toLex.mp hab) with h | ⟨h, -⟩
      · exact h.le
      · exact h.le
    have h1 := hposition a ha
    have h2 := hposition b hb
    omega

/-! ### The result -/

/-- What a reorder that succeeds has done: the rows, and what the two readers then show. -/
structure ReorderDone (w : World) (u : Uuid) (r : Restaurant) (ids : List Uuid) (db : Database) :
    Prop where
  /-- Only categories change: a listed one gets the index of its last occurrence. -/
  rows : ∃ f : Category → Category,
    db.toTables = { w.db.toTables with categories := w.db.categories.map f } ∧
      (∀ c ∈ w.db.categories, c.id ∈ ids → ∃ (i : ℕ) (p : PgInt), p.val = i ∧
        ids[i]? = some c.id ∧ (∀ j, i < j → ids[j]? ≠ some c.id) ∧
          f c = { c with position := p, updatedAt := w.now }) ∧
      ∀ c ∈ w.db.categories, c.id ∉ ids → f c = c
  /-- The listed categories are shown in the order of their last occurrences. -/
  listed : ∀ scan, ∃ cs,
    (CategoryService.listCategories u false scan).exec (w.flushed db) = (.ok cs, w.flushed db) ∧
      (cs.map (·.id)).filter (· ∈ ids) = ids.dedup
  /-- A list of all categories is the order of both readers. -/
  covered : (∀ c ∈ w.db.categories, c.restaurantId = r.id → c.id ∈ ids) →
    (∀ scan, ∃ cs,
      (CategoryService.listCategories u false scan).exec (w.flushed db) = (.ok cs, w.flushed db) ∧
        cs.map (·.id) = ids.dedup) ∧
    ∀ scan, ∃ menu, ((MenuService.getMenuBySlug scan r.slug.val).exec (w.flushed db)).1 = .ok menu ∧
      (menu.categories.map (·.id)).Sublist ids.dedup

/-- The cache has no menu after a committed mutation. -/
lemma World.flushed_cacheGet (w : World) (db : Database) (slug : String) (now : Time) :
    ((w.flushed db).cache.cacheGet (MenuService.cacheKey slug) now).1 = none := by
  by_contra hne
  obtain ⟨menu, hmenu⟩ := Option.ne_none_iff_exists'.mp hne
  obtain ⟨t, hmem, -⟩ := Cache.cacheGet_some hmenu
  have := (Cache.mem_cacheInvalidatePrefix.mp hmem).2
  rw [MenuService.cacheKey_startswith] at this
  cases this

section

variable {w : World} {u : Uuid} {r : Restaurant} {ids : List Uuid} {db : Database}
  {f : Category → Category}

/-- The categories a query of the restaurant returns. -/
def queried (scan : Scan Category) (db : Database) (p : Category → Bool) : List Category :=
  orderBy Category.orderKey (scan.order (db.categories.filter p))

lemma mem_queried {scan : Scan Category} {p : Category → Bool} {c : Category} :
    c ∈ queried scan db p ↔ c ∈ db.categories ∧ p c = true := by
  rw [queried, mem_orderBy, (scan.perm _).mem_iff, List.mem_filter]

lemma queried_map_id (hf : IsReordered w.now r.id 0 ids f)
    (ht : db.toTables = { w.db.toTables with categories := w.db.categories.map f })
    (scan : Scan Category) {p : Category → Bool} (hp : ∀ c, p c = true → c.restaurantId = r.id) :
    ((queried scan db p).map (·.id)).filter (· ∈ ids)
      = ids.dedup.filter (· ∈ (queried scan db p).map (·.id)) := by
  have hrows : db.categories = w.db.categories.map f := by rw [ht]
  have hperm := (orderBy_perm Category.orderKey _).trans (scan.perm (db.categories.filter p))
  have key := map_id_eq_filter_dedup hf hrows (l := (queried scan db p).filter (·.id ∈ ids))
    ((hperm.nodup_iff.mpr (db.valid.categoryId.of_map.filter _)).filter _) ?_
    ((orderBy_sorted _ _).filter _)
  · rw [List.filter_map]
    refine key.trans (List.filter_congr fun x hx => ?_)
    rw [List.mem_dedup] at hx
    simp only [decide_eq_decide, List.mem_map, List.mem_filter, decide_eq_true_eq]
    constructor
    · rintro ⟨c, ⟨hc, -⟩, rfl⟩
      exact ⟨c, hc, rfl⟩
    · rintro ⟨c, hc, rfl⟩
      exact ⟨c, ⟨hc, hx⟩, rfl⟩
  · intro c hc
    obtain ⟨hc, hin⟩ := List.mem_filter.mp hc
    obtain ⟨hcdb, hpc⟩ := mem_queried.mp hc
    exact ⟨hcdb, hp c hpc, of_decide_eq_true hin⟩

/-- With every category of the restaurant in the list, a query shows a part of the list in its
order. -/
lemma queried_sublist (hf : IsReordered w.now r.id 0 ids f)
    (ht : db.toTables = { w.db.toTables with categories := w.db.categories.map f })
    (hcover : ∀ c ∈ w.db.categories, c.restaurantId = r.id → c.id ∈ ids) (scan : Scan Category)
    {p : Category → Bool} (hp : ∀ c, p c = true → c.restaurantId = r.id) :
    (queried scan db p).map (·.id)
      = ids.dedup.filter (· ∈ (queried scan db p).map (·.id)) := by
  rw [← queried_map_id hf ht scan hp]
  refine (List.filter_eq_self.mpr fun x hx => ?_).symm
  obtain ⟨c, hc, rfl⟩ := List.mem_map.mp hx
  obtain ⟨hcdb, hpc⟩ := mem_queried.mp hc
  rw [ht] at hcdb
  obtain ⟨c', hc', rfl⟩ := List.mem_map.mp hcdb
  obtain ⟨hid, hr, -⟩ := hf.columns c'
  rw [hid]
  exact decide_eq_true (hcover c' hc' (hr ▸ hp _ hpc))

/-- A listed category of the restaurant is among all its categories. -/
lemma listed_mem_queried (hf : IsReordered w.now r.id 0 ids f)
    (ht : db.toTables = { w.db.toTables with categories := w.db.categories.map f })
    (hall : ∀ id ∈ ids, w.db.HasCategory r.id id) (scan : Scan Category) {p : Category → Bool}
    (hp : ∀ c, c.restaurantId = r.id → p c = true) {id : Uuid} (hid : id ∈ ids.dedup) :
    id ∈ (queried scan db p).map (·.id) := by
  obtain ⟨c, hc, rfl, hcr⟩ := hall id (List.mem_dedup.mp hid)
  obtain ⟨hfid, hfr, -⟩ := hf.columns c
  refine List.mem_map.mpr ⟨f c, mem_queried.mpr ⟨?_, hp _ (hfr.trans hcr)⟩, hfid⟩
  rw [ht]
  exact List.mem_map_of_mem hc

/-- A menu built afterwards leaves out categories without dishes; the others keep the order of the
list. -/
lemma menu_sublist (hr : Rows.get (·.ownerUserId) u w.db.restaurants = some r)
    (hf : IsReordered w.now r.id 0 ids f)
    (ht : db.toTables = { w.db.toTables with categories := w.db.categories.map f })
    (hcover : ∀ c ∈ w.db.categories, c.restaurantId = r.id → c.id ∈ ids) (scan : MenuScan) :
    ∃ menu, ((MenuService.getMenuBySlug scan r.slug.val).exec (w.flushed db)).1 = .ok menu ∧
      (menu.categories.map (·.id)).Sublist ids.dedup := by
  have hslug : Rows.get (·.slug.val) r.slug.val (w.flushed db).db.restaurants = some r := by
    rw [show (w.flushed db).db.restaurants = w.db.restaurants by rw [World.flushed, ht]]
    exact Rows.get_of_mem w.db.slugVal_nodup (Rows.get_mem hr)
  rw [MenuService.exec_getMenuBySlug_miss _ _ _ (World.flushed_cacheGet _ _ _ _),
    MenuService.builtMenu, hslug]
  refine ⟨_, rfl, ?_⟩
  have hsub : ((MenuService.activeCategories scan r.id db).map (·.id)).Sublist ids.dedup := by
    have := queried_sublist hf ht hcover scan.categories
      (p := fun c => c.restaurantId = r.id ∧ c.active) fun c hc => (of_decide_eq_true hc).1
    rw [MenuService.activeCategories]
    rw [queried] at this
    rw [this]
    exact List.filter_sublist
  refine (List.filter_sublist.map _).trans ?_
  rw [List.map_map]
  exact hsub

lemma reorderDone (hr : Rows.get (·.ownerUserId) u w.db.restaurants = some r)
    (hall : ∀ id ∈ ids, w.db.HasCategory r.id id) (hf : IsReordered w.now r.id 0 ids f)
    (ht : db.toTables = { w.db.toTables with categories := w.db.categories.map f }) :
    ReorderDone w u r ids db := by
  have hrestaurants : db.restaurants = w.db.restaurants := by rw [ht]
  have hlist : ∀ scan, (CategoryService.listCategories u false scan).exec (w.flushed db)
      = (.ok (queried scan db fun c => c.restaurantId = r.id ∧ (false → c.active)),
        w.flushed db) := by
    intro scan
    simp only [CategoryService.listCategories, RestaurantRepository.getByOwnerId,
      Async.exec_select_bind, World.flushed, hrestaurants, hr]
    rfl
  have hown : ∀ c : Category, c.restaurantId = r.id →
      decide (c.restaurantId = r.id ∧ (false → c.active)) = true := by
    intro c hc
    simp [hc]
  have hin : ∀ scan, ids.dedup.filter (· ∈ (queried scan db fun c =>
      c.restaurantId = r.id ∧ (false → c.active)).map (·.id)) = ids.dedup := by
    intro scan
    refine List.filter_eq_self.mpr fun x hx => decide_eq_true ?_
    exact listed_mem_queried hf ht hall scan hown hx
  have hrid : ∀ c : Category, decide (c.restaurantId = r.id ∧ (false → c.active)) = true →
      c.restaurantId = r.id := by
    intro c hc
    exact (of_decide_eq_true hc).1
  constructor
  · refine ⟨f, ht, fun c hc hcid => ?_, fun c _ hcid => (hf c).2 fun h => hcid h.1⟩
    obtain ⟨c', hc', hid', hcr⟩ := hall c.id hcid
    rw [Rows.eq_of_key_eq w.db.valid.categoryId hc' hc hid'] at hcr
    obtain ⟨p, hp, hfc⟩ := (hf c).1 ⟨hcid, hcr⟩
    refine ⟨lastIndex c.id ids, p, ?_, getElem?_lastIndex hcid, ?_, hfc⟩
    · rw [hp]
      simp
    · exact fun j hj => getElem?_ne_of_lastIndex_lt hj
  · intro scan
    exact ⟨_, hlist scan, (queried_map_id hf ht scan hrid).trans (hin scan)⟩
  · intro hcover
    constructor
    · intro scan
      exact ⟨_, hlist scan, (queried_sublist hf ht hcover scan hrid).trans (hin scan)⟩
    · exact menu_sublist hr hf ht hcover

end

namespace CategoryService

section

variable {w : World} {u : Uuid} {r : Restaurant} {ids : List Uuid}
  (hr : Rows.get (·.ownerUserId) u w.db.restaurants = some r)

include hr

lemma reorder_unlisted (h : ∃ id ∈ ids, ¬ w.db.HasCategory r.id id) :
    ∃ id ∈ ids, ¬ w.db.HasCategory r.id id ∧
      (reorder u ids).exec w = (.error (.http 400
        ("Category " ++ uuidStr id ++ " does not belong to restaurant")), w) := by
  simp only [reorder, RestaurantRepository.getByOwnerId, Async.exec_select_bind, hr]
  rcases exec_verifyOrderedIds w r.id ids with ⟨hall, -⟩ | ⟨id, hid, hnot, hx⟩
  · obtain ⟨id, hid, hnot⟩ := h
    exact absurd (hall id hid) hnot
  · exact ⟨id, hid, hnot, Prog.exec_bind_error hx⟩

variable (hall : ∀ id ∈ ids, w.db.HasCategory r.id id)

include hall

/-- A list that passes the checks is handed to the repository. -/
lemma exec_reorder_listed :
    (reorder u ids).exec w = (do
      CategoryRepository.reorderCategories r.id ids
      Async.cacheInvalidatePrefix "menu:" : Async Unit).exec w := by
  simp only [reorder, RestaurantRepository.getByOwnerId, Async.exec_select_bind, hr]
  rcases exec_verifyOrderedIds w r.id ids with ⟨-, hx⟩ | ⟨id, hid, hnot, -⟩
  · exact Prog.exec_bind_ok hx
  · exact absurd (hall id hid) hnot

lemma reorder_done (hshort : ids.length ≤ 2147483648) :
    ∃ db, (reorder u ids).exec w = (.ok (), w.flushed db) ∧ ReorderDone w u r ids db := by
  obtain ⟨rows, hrows⟩ : ∃ rows,
      CategoryRepository.reorderRows w.now r.id 0 ids w.db.categories = .ok rows :=
    CategoryRepository.reorderRows_isOk w.db.categories (by omega)
  obtain ⟨f, rfl, hf⟩ := CategoryRepository.reorderRows_isReordered hrows
  have hvalid := hf.constraints w.db.valid
  refine ⟨⟨_, hvalid⟩, ?_, reorderDone hr hall hf rfl⟩
  rw [exec_reorder_listed hr hall, CategoryRepository.reorderCategories, Async.exec_commit_bind]
  simp only [hrows, bind, Except.bind, Database.write_of hvalid]
  rfl

lemma reorder_too_long (hlong : 2147483648 < ids.length) :
    (reorder u ids).exec w = (.error (.db .data), w) := by
  have hrows : CategoryRepository.reorderRows w.now r.id 0 ids w.db.categories = .error .data :=
    CategoryRepository.reorderRows_error w.db.categories (by omega) (by omega)
  rw [exec_reorder_listed hr hall, CategoryRepository.reorderCategories, Async.exec_commit_bind]
  simp only [hrows, bind, Except.bind]

end

/-- A reorder answers 404 to a caller without a restaurant, and 400 if some id is not a category of
the restaurant. A list that passes is applied as a whole, or, with more entries than positions fit
the column, not at all. -/
theorem reorder_does_what_the_list_says (w : World) (u : Uuid) (ids : List Uuid) :
    match Rows.get (·.ownerUserId) u w.db.restaurants with
    | none   => (reorder u ids).exec w = (.error (.http 404 "Restaurant not found"), w)
    | some r =>
      ((∃ id ∈ ids, ¬ w.db.HasCategory r.id id) → ∃ id ∈ ids, ¬ w.db.HasCategory r.id id ∧
        (reorder u ids).exec w = (.error (.http 400
          ("Category " ++ uuidStr id ++ " does not belong to restaurant")), w)) ∧
      ((∀ id ∈ ids, w.db.HasCategory r.id id) →
        (ids.length ≤ 2147483648 → ∃ db,
          (reorder u ids).exec w = (.ok (), w.flushed db) ∧ ReorderDone w u r ids db) ∧
        (2147483648 < ids.length → (reorder u ids).exec w = (.error (.db .data), w))) := by
  cases hr : Rows.get (·.ownerUserId) u w.db.restaurants with
  | none =>
    simp only [reorder, RestaurantRepository.getByOwnerId, Async.exec_select_bind, hr]
    rfl
  | some r =>
    constructor
    · exact reorder_unlisted hr
    · exact fun hall => ⟨reorder_done hr hall, reorder_too_long hr hall⟩

/-- A caller without a restaurant gets a 404, not a 400. A list of 2^31 + 1 times one category of
the caller passes every check, and fails in the last UPDATE. -/
theorem reorder_not_found_and_too_long :
    (reorder 2 [20]).exec sopaServed = (.error (.http 404 "Restaurant not found"), sopaServed) ∧
      ∃ r, Rows.get (·.ownerUserId) 1 sopaServed.db.restaurants = some r ∧
        (∀ id ∈ List.replicate 2147483649 (20 : Uuid), sopaServed.db.HasCategory r.id id) ∧
          (reorder 1 (List.replicate 2147483649 20)).exec sopaServed
            = (.error (.db .data), sopaServed) := by
  constructor
  · have hnone : Rows.get (·.ownerUserId) 2 sopaServed.db.restaurants = none := by decide +kernel
    simp only [reorder, RestaurantRepository.getByOwnerId, Async.exec_select_bind, hnone]
    rfl
  · have hsome : (Rows.get (·.ownerUserId) 1 sopaServed.db.restaurants).map (·.id) = some 10 := by
      decide +kernel
    obtain ⟨r, hr, hid⟩ := Option.map_eq_some_iff.mp hsome
    have hcat : (sopaServed.db.categories.any fun c => c.id = 20 ∧ c.restaurantId = 10) = true := by
      decide +kernel
    obtain ⟨c, hc, heq⟩ := List.any_eq_true.mp hcat
    have hall : ∀ id ∈ List.replicate 2147483649 (20 : Uuid),
        sopaServed.db.HasCategory r.id id := by
      intro id hmem
      rw [List.eq_of_mem_replicate hmem, hid]
      exact ⟨c, hc, of_decide_eq_true heq⟩
    refine ⟨r, hr, hall, reorder_too_long hr hall ?_⟩
    rw [List.length_replicate]
    omega

end CategoryService

end LiveMenu
