import Mathlib.Data.List.Forall2
import LiveMenu.Lib.Erasure
import LiveMenu.Lib.Parts
import LiveMenu.Tenants.Interleaved

/-!
# What a user can tell apart

Two states look alike to a user if they differ at most in the categories and dishes of others, and
in what cached menus show of them. What a query of the user reads is the same in both, and a write
is possible in both or in neither.
-/

namespace LiveMenu

open Except (Both)

/-! ### Own rows and the rows of others -/

section Parts

variable (ownerOf : Table → Uuid → Uuid) (u : Uuid)

/-- The id belongs to the user. -/
def isOwn (table : Table) (id : Uuid) : Bool := ownerOf table id = u

/-- The dishes are in categories of their owners. -/
def InPlace (dishes : List Dish) : Prop :=
  ∀ d ∈ dishes, ownerOf .categories d.categoryId = ownerOf .dishes d.id

/-- The tables differ at most in the categories and dishes of others. -/
structure Tables.Alike (t t' : Tables) : Prop where
  users : t'.users = t.users
  restaurants : t'.restaurants = t.restaurants
  categories : t'.categories.filter (fun c => isOwn ownerOf u .categories c.id)
    = t.categories.filter fun c => isOwn ownerOf u .categories c.id
  dishes : t'.dishes.filter (fun d => isOwn ownerOf u .dishes d.id)
    = t.dishes.filter fun d => isOwn ownerOf u .dishes d.id
  scanEvents : t'.scanEvents = t.scanEvents
  refreshTokens : t'.refreshTokens = t.refreshTokens

/-- The tables after a write to the categories and dishes of the user. -/
structure Tables.OwnWrite (t t' : Tables) : Prop where
  users : t'.users = t.users
  restaurants : t'.restaurants = t.restaurants
  categories : t'.categories.filter (fun c => !isOwn ownerOf u .categories c.id)
    = t.categories.filter fun c => !isOwn ownerOf u .categories c.id
  dishes : t'.dishes.filter (fun d => !isOwn ownerOf u .dishes d.id)
    = t.dishes.filter fun d => !isOwn ownerOf u .dishes d.id
  scanEvents : t'.scanEvents = t.scanEvents
  refreshTokens : t'.refreshTokens = t.refreshTokens
  inPlace : InPlace ownerOf t'.dishes

end Parts

/-- The tables after a write to the other tables. -/
structure Tables.SharedWrite (t t' : Tables) : Prop where
  restaurants : ∀ id ∈ t.restaurants.map (·.id), id ∈ t'.restaurants.map (·.id)
  categories : t'.categories = t.categories
  dishes : t'.dishes = t.dishes

/-! ### Constraints -/

/-- The constraints on categories and dishes. -/
structure CatalogOk (restaurants : List Restaurant) (categories : List Category)
    (dishes : List Dish) : Prop where
  categoryId : (categories.map (·.id)).Nodup
  categoryRestaurantFk : ∀ c ∈ categories, c.restaurantId ∈ restaurants.map (·.id)
  dishId : (dishes.map (·.id)).Nodup
  dishCategoryFk : ∀ d ∈ dishes, d.categoryId ∈ categories.map (·.id)

/-- The constraints on the other tables. -/
structure Tables.SharedOk (t : Tables) : Prop where
  userId : (t.users.map (·.id)).Nodup
  userEmail : (t.users.map (·.email)).Nodup
  restaurantId : (t.restaurants.map (·.id)).Nodup
  restaurantOwner : (t.restaurants.map (·.ownerUserId)).Nodup
  restaurantSlug : (t.restaurants.map (·.slug)).Nodup
  restaurantOwnerFk : ∀ r ∈ t.restaurants, r.ownerUserId ∈ t.users.map (·.id)
  scanEventId : (t.scanEvents.map (·.id)).Nodup
  scanEventRestaurantFk : ∀ e ∈ t.scanEvents, e.restaurantId ∈ t.restaurants.map (·.id)
  refreshTokenId : (t.refreshTokens.map (·.id)).Nodup
  refreshTokenHash : (t.refreshTokens.map (·.tokenHash)).Nodup
  refreshTokenUserFk : ∀ k ∈ t.refreshTokens, k.userId ∈ t.users.map (·.id)

lemma Tables.constraints_iff {t : Tables} :
    t.Constraints ↔ t.SharedOk ∧ CatalogOk t.restaurants t.categories t.dishes := by
  constructor
  · intro h
    exact ⟨{ h with }, { h with }⟩
  · rintro ⟨h, h'⟩
    exact { h, h' with }

section Writes

variable {ownerOf : Table → Uuid → Uuid} {u : Uuid}

/-- The catalog is in order if the user's part is and the part of the others is. -/
lemma catalogOk_iff {restaurants : List Restaurant} {categories : List Category}
    {dishes : List Dish} (h : InPlace ownerOf dishes) :
    CatalogOk restaurants categories dishes ↔
      CatalogOk restaurants (categories.filter fun c => isOwn ownerOf u .categories c.id)
        (dishes.filter fun d => isOwn ownerOf u .dishes d.id) ∧
      CatalogOk restaurants (categories.filter fun c => !isOwn ownerOf u .categories c.id)
        (dishes.filter fun d => !isOwn ownerOf u .dishes d.id) := by
  have hown : ∀ d ∈ dishes.filter fun d => isOwn ownerOf u .dishes d.id,
      isOwn ownerOf u .categories d.categoryId = true := by
    intro d hd
    obtain ⟨hd, hd'⟩ := List.mem_filter.mp hd
    rwa [isOwn, h d hd]
  have hforeign : ∀ d ∈ dishes.filter fun d => !isOwn ownerOf u .dishes d.id,
      (!isOwn ownerOf u .categories d.categoryId) = true := by
    intro d hd
    obtain ⟨hd, hd'⟩ := List.mem_filter.mp hd
    rwa [isOwn, h d hd]
  constructor
  · intro hok
    obtain ⟨hcid, hcid'⟩ :=
      (Rows.nodup_map_iff (isOwn ownerOf u .categories) categories).mp hok.categoryId
    obtain ⟨hfk, hfk'⟩ := (Rows.forall_mem_iff (fun c => isOwn ownerOf u .categories c.id)
      categories).mp hok.categoryRestaurantFk
    obtain ⟨hdid, hdid'⟩ := (Rows.nodup_map_iff (isOwn ownerOf u .dishes) dishes).mp hok.dishId
    obtain ⟨hdfk, hdfk'⟩ := (Rows.forall_mem_iff (fun d => isOwn ownerOf u .dishes d.id)
      dishes).mp hok.dishCategoryFk
    refine ⟨⟨hcid, hfk, hdid, fun d hd => ?_⟩, ⟨hcid', hfk', hdid', fun d hd => ?_⟩⟩
    · exact (Rows.mem_map_filter (hown d hd) _).mpr (hdfk d hd)
    · exact (Rows.mem_map_filter (p := fun id => !isOwn ownerOf u .categories id)
        (hforeign d hd) _).mpr (hdfk' d hd)
  · rintro ⟨hok, hok'⟩
    refine ⟨(Rows.nodup_map_iff _ _).mpr ⟨hok.categoryId, hok'.categoryId⟩,
      (Rows.forall_mem_iff _ _).mpr ⟨hok.categoryRestaurantFk, hok'.categoryRestaurantFk⟩,
      (Rows.nodup_map_iff _ _).mpr ⟨hok.dishId, hok'.dishId⟩,
      (Rows.forall_mem_iff (fun d => isOwn ownerOf u .dishes d.id) _).mpr ⟨?_, ?_⟩⟩
    · exact fun d hd => (Rows.mem_map_filter (hown d hd) _).mp (hok.dishCategoryFk d hd)
    · exact fun d hd => (Rows.mem_map_filter (p := fun id => !isOwn ownerOf u .categories id)
        (hforeign d hd) _).mp (hok'.dishCategoryFk d hd)

/-- Whether a write to own rows is possible is decided by the own rows. -/
lemma Tables.OwnWrite.constraints_iff {t t' : Tables} (h : t.OwnWrite ownerOf u t')
    (ht : t.Constraints) (hdishes : InPlace ownerOf t.dishes) :
    t'.Constraints ↔
      CatalogOk t.restaurants (t'.categories.filter fun c => isOwn ownerOf u .categories c.id)
        (t'.dishes.filter fun d => isOwn ownerOf u .dishes d.id) := by
  obtain ⟨hshared, hcatalog⟩ := Tables.constraints_iff.mp ht
  have hforeign := ((catalogOk_iff (u := u) hdishes).mp hcatalog).2
  rw [← h.categories, ← h.dishes] at hforeign
  rw [Tables.constraints_iff, h.restaurants, catalogOk_iff (u := u) h.inPlace]
  have hshared' : t'.SharedOk := by
    constructor
    all_goals simp only [h.users, h.restaurants, h.scanEvents, h.refreshTokens]
    exacts [hshared.userId, hshared.userEmail, hshared.restaurantId, hshared.restaurantOwner,
      hshared.restaurantSlug, hshared.restaurantOwnerFk, hshared.scanEventId,
      hshared.scanEventRestaurantFk, hshared.refreshTokenId, hshared.refreshTokenHash,
      hshared.refreshTokenUserFk]
  exact ⟨fun h => h.2.1, fun h => ⟨hshared', h, hforeign⟩⟩

/-- Whether another write is possible is decided by the other tables. -/
lemma Tables.SharedWrite.constraints_iff {t t' : Tables} (h : t.SharedWrite t')
    (ht : t.Constraints) : t'.Constraints ↔ t'.SharedOk := by
  obtain ⟨-, hcatalog⟩ := Tables.constraints_iff.mp ht
  rw [Tables.constraints_iff, h.categories, h.dishes]
  refine ⟨fun h => h.1, fun hshared => ⟨hshared, hcatalog.categoryId, fun c hc => ?_,
    hcatalog.dishId, hcatalog.dishCategoryFk⟩⟩
  exact h.restaurants _ (hcatalog.categoryRestaurantFk c hc)

/-- What is written when both constraints or none hold. -/
lemma both_write {t t' : Tables} (hiff : t.Constraints ↔ t'.Constraints)
    (h : t.Alike ownerOf u t') :
    (Database.write t).Both (fun db db' => db.toTables.Alike ownerOf u db'.toTables)
      (Database.write t') := by
  by_cases ht : t.Constraints
  · rw [Database.write_of ht, Database.write_of (hiff.mp ht)]
    exact .ok h
  · rw [Database.write, Database.write, dif_neg ht, dif_neg fun ht' => ht (hiff.mpr ht')]
    exact .error _

lemma Tables.Alike.symm {t t' : Tables} (h : t.Alike ownerOf u t') : t'.Alike ownerOf u t :=
  ⟨h.users.symm, h.restaurants.symm, h.categories.symm, h.dishes.symm, h.scanEvents.symm,
    h.refreshTokens.symm⟩

lemma Tables.Alike.trans {t t' t'' : Tables} (h : t.Alike ownerOf u t')
    (h' : t'.Alike ownerOf u t'') : t.Alike ownerOf u t'' :=
  ⟨h'.users.trans h.users, h'.restaurants.trans h.restaurants, h'.categories.trans h.categories,
    h'.dishes.trans h.dishes, h'.scanEvents.trans h.scanEvents,
    h'.refreshTokens.trans h.refreshTokens⟩

lemma Tables.Alike.sharedOk {t t' : Tables} (h : t.Alike ownerOf u t') (ht : t.SharedOk) :
    t'.SharedOk := by
  constructor
  all_goals simp only [h.users, h.restaurants, h.scanEvents, h.refreshTokens]
  exacts [ht.userId, ht.userEmail, ht.restaurantId, ht.restaurantOwner, ht.restaurantSlug,
    ht.restaurantOwnerFk, ht.scanEventId, ht.scanEventRestaurantFk, ht.refreshTokenId,
    ht.refreshTokenHash, ht.refreshTokenUserFk]

/-- A write of the user to the catalog. -/
lemma both_ownWrite {s t : Database} {s' t' : Tables} (hs : InPlace ownerOf s.dishes)
    (ht : InPlace ownerOf t.dishes) (hs' : s.toTables.OwnWrite ownerOf u s')
    (ht' : t.toTables.OwnWrite ownerOf u t') (h : s'.Alike ownerOf u t') :
    (Database.write s').Both (fun db db' => db.toTables.Alike ownerOf u db'.toTables)
      (Database.write t') := by
  refine both_write ?_ h
  rw [hs'.constraints_iff s.valid hs, ht'.constraints_iff t.valid ht, h.categories, h.dishes,
    ← hs'.restaurants, ← ht'.restaurants, h.restaurants]

/-- A write to the other tables. -/
lemma both_sharedWrite {s t : Database} {s' t' : Tables} (hs' : s.toTables.SharedWrite s')
    (ht' : t.toTables.SharedWrite t') (h : s'.Alike ownerOf u t') :
    (Database.write s').Both (fun db db' => db.toTables.Alike ownerOf u db'.toTables)
      (Database.write t') := by
  refine both_write ?_ h
  rw [hs'.constraints_iff s.valid, ht'.constraints_iff t.valid]
  exact ⟨h.sharedOk, h.symm.sharedOk⟩

end Writes

/-! ### Reading own rows -/

section Reads

variable {ownerOf : Table → Uuid → Uuid} {u : Uuid} {t t' : Tables}

lemma Tables.Alike.get_category (h : t.Alike ownerOf u t') {id : Uuid}
    (hid : ownerOf .categories id = u) :
    Rows.get (·.id) id t'.categories = Rows.get (·.id) id t.categories := by
  have hpart : ∀ rows : List Category, Rows.get (·.id) id
      (rows.filter fun c => isOwn ownerOf u .categories c.id) = Rows.get (·.id) id rows :=
    Rows.get_filter_key (p := isOwn ownerOf u .categories) (decide_eq_true hid)
  rw [← hpart t'.categories, h.categories, hpart]

lemma Tables.Alike.get_dish (h : t.Alike ownerOf u t') {id : Uuid}
    (hid : ownerOf .dishes id = u) :
    Rows.get (·.id) id t'.dishes = Rows.get (·.id) id t.dishes := by
  have hpart : ∀ rows : List Dish, Rows.get (·.id) id
      (rows.filter fun d => isOwn ownerOf u .dishes d.id) = Rows.get (·.id) id rows :=
    Rows.get_filter_key (p := isOwn ownerOf u .dishes) (decide_eq_true hid)
  rw [← hpart t'.dishes, h.dishes, hpart]

end Reads

/-! ### States -/

section States

variable (ownerOf : Table → Uuid → Uuid) (u : Uuid)

/-- The menus are of the same restaurant, and the same if it is the user's. -/
def MenuResponse.Alike (m m' : MenuResponse) : Prop :=
  m'.restaurantId = m.restaurantId ∧ (ownerOf .restaurants m.restaurantId = u → m' = m)

/-- Entries of the cache that differ at most in the menu of somebody else. -/
def EntryAlike (e e' : String × MenuResponse × Time) : Prop :=
  e'.1 = e.1 ∧ e.2.1.Alike ownerOf u e'.2.1 ∧ e'.2.2 = e.2.2

/-- The states differ at most in what others have on their menus. -/
structure World.Alike (w w' : World) : Prop where
  db : w.db.toTables.Alike ownerOf u w'.db.toTables
  cache : List.Forall₂ (EntryAlike ownerOf u) w.cache w'.cache
  now : w'.now = w.now

end States

section Cached

variable {ownerOf : Table → Uuid → Uuid} {u : Uuid} {c c' : Cache MenuResponse}

lemma alike_lookup (h : List.Forall₂ (EntryAlike ownerOf u) c c') (key : String) :
    Option.Rel (fun e e' => e.1.Alike ownerOf u e'.1 ∧ e'.2 = e.2) (c.lookup key)
      (c'.lookup key) := by
  induction h with
  | nil => exact .none
  | @cons e e' c c' he _ ih =>
    rw [Cache.lookup_cons, Cache.lookup_cons, he.1]
    split_ifs with hkey
    · exact .some he.2
    · exact ih

lemma alike_pop (h : List.Forall₂ (EntryAlike ownerOf u) c c') (key : String) :
    List.Forall₂ (EntryAlike ownerOf u) (c.pop key) (c'.pop key) := by
  refine List.rel_filter (fun e e' he => ?_) h
  show (e.1 != key) = true ↔ (e'.1 != key) = true
  rw [he.1]

lemma alike_cacheInvalidatePrefix (h : List.Forall₂ (EntryAlike ownerOf u) c c') (pre : String) :
    List.Forall₂ (EntryAlike ownerOf u) (c.cacheInvalidatePrefix pre)
      (c'.cacheInvalidatePrefix pre) := by
  have hkeys : c'.map Prod.fst = c.map Prod.fst := by
    induction h with
    | nil => rfl
    | cons he _ ih => rw [List.map_cons, List.map_cons, ih, he.1]
  rw [Cache.cacheInvalidatePrefix, Cache.cacheInvalidatePrefix, hkeys]
  generalize (c.map Prod.fst).filter (fun k => startswith k pre) = ks
  clear hkeys
  induction ks generalizing c c' with
  | nil => exact h
  | cons k ks ih => exact ih (alike_pop h k)

lemma alike_cacheGet (h : List.Forall₂ (EntryAlike ownerOf u) c c') (key : String) (now : Time) :
    Option.Rel (MenuResponse.Alike ownerOf u) (c.cacheGet key now).1 (c'.cacheGet key now).1 ∧
      List.Forall₂ (EntryAlike ownerOf u) (c.cacheGet key now).2 (c'.cacheGet key now).2 := by
  have hlook := alike_lookup h key
  rw [Cache.cacheGet, Cache.cacheGet]
  generalize c.lookup key = o at hlook
  generalize c'.lookup key = o' at hlook
  cases hlook with
  | none => exact ⟨.none, h⟩
  | @some e e' he =>
    simp only [he.2]
    split_ifs
    · exact ⟨.none, alike_pop h key⟩
    · exact ⟨.some he.1, h⟩

lemma alike_cacheSet (h : List.Forall₂ (EntryAlike ownerOf u) c c') (key : String)
    {m m' : MenuResponse} (hm : m.Alike ownerOf u m') (ttl : ℤ) (now : Time) :
    List.Forall₂ (EntryAlike ownerOf u) (c.cacheSet key m ttl now)
      (c'.cacheSet key m' ttl now) := by
  have hany : (c'.any fun e => e.1 == key) = c.any fun e => e.1 == key := by
    induction h with
    | nil => rfl
    | cons he _ ih => rw [List.any_cons, List.any_cons, ih, he.1]
  have hentry : EntryAlike ownerOf u (key, m, now + Time.seconds ttl)
      (key, m', now + Time.seconds ttl) := ⟨rfl, hm, rfl⟩
  rw [Cache.cacheSet, Cache.cacheSet, Cache.store, Cache.store, hany]
  split_ifs
  · refine List.rel_map (fun e e' he => ?_) h
    rw [he.1]
    split_ifs
    · exact hentry
    · exact he
  · exact List.rel_append h (.cons hentry .nil)

/-- What is left of a cache has a counterpart in a cache that looks alike. -/
lemma exists_alike_subset (h : List.Forall₂ (EntryAlike ownerOf u) c c')
    {d : Cache MenuResponse} (hd : ∀ e ∈ d, e ∈ c) :
    ∃ d', (∀ e ∈ d', e ∈ c') ∧ List.Forall₂ (EntryAlike ownerOf u) d d' := by
  have hmem : ∀ e ∈ c, ∃ e' ∈ c', EntryAlike ownerOf u e e' := by
    clear hd
    induction h with
    | nil => rintro e ⟨⟩
    | cons he _ ih =>
      intro e hmem
      obtain rfl | hmem := List.mem_cons.mp hmem
      · exact ⟨_, .head _, he⟩
      · obtain ⟨e', he', halike⟩ := ih e hmem
        exact ⟨e', .tail _ he', halike⟩
  induction d with
  | nil => exact ⟨[], List.forall_mem_nil _, .nil⟩
  | cons e d ih =>
    obtain ⟨d', hd', hrel⟩ := ih fun e he => hd e (.tail _ he)
    obtain ⟨e', he', halike⟩ := hmem e (hd e (.head _))
    exact ⟨e' :: d', List.forall_mem_cons.mpr ⟨he', hd'⟩, .cons halike hrel⟩

end Cached

end LiveMenu
