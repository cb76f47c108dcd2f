import LiveMenu.Writes.Constraints

/-!
# Accepted bodies that the database refuses

The schemas accept explicit `null`s for columns that are NOT NULL, characters PostgreSQL does
not store, and numbers its columns do not hold. `Storable` says of each body that it has none of
these; together with the next position it decides whether a create or an update is served.
-/

namespace LiveMenu

/-! ### Fields -/

/-- What a field sets has a property. -/
def Patch.All {α : Type} (p : α → Prop) : Patch α → Prop
  | .set a  => p a
  | _       => True

/-- The field is not an explicit `null`, and what it sets has a property. -/
def Patch.NonNull {α : Type} (p : α → Prop) : Patch α → Prop
  | .unset  => True
  | .null   => False
  | .set a  => p a

/-- The text has no NUL. -/
def NoNul (s : String) : Prop := nul ∉ s.toList

/-- A price that rounds to less than 10^8, of no more than 16383 places. -/
def Price.Fits (p : Price) : Prop := p.val.FitsNumeric

instance (p : Price) : Decidable p.Fits := inferInstanceAs (Decidable p.val.FitsNumeric)

/-- A 32-bit integer. -/
def FitsInt32 (z : ℤ) : Prop := -2147483648 ≤ z ∧ z ≤ 2147483647

section

variable {α β : Type} {f : α → Except DbError β} {p : α → Prop}

lemma nullable_isOk_iff (hf : ∀ a, (∃ b, f a = .ok b) ↔ p a) (o : Option α) :
    (∃ v, nullable f o = .ok v) ↔ ∀ a ∈ o, p a := by
  cases o with
  | none => exact iff_of_true ⟨none, rfl⟩ (by simp)
  | some a =>
    simp only [nullable, Option.mem_def, Option.some.injEq, forall_eq', ← hf]
    cases f a with
    | error e => simp [Except.map]
    | ok b => simp [Except.map]

lemma setNotNull_isOk_iff (hf : ∀ a, (∃ b, f a = .ok b) ↔ p a) (old : β) (field : Patch α) :
    (∃ v, setNotNull f old field = .ok v) ↔ field.NonNull p := by
  rw [setNotNull]
  cases field with
  | unset => exact iff_of_true ⟨old, rfl⟩ trivial
  | null => simp [Patch.value, notNull, Patch.NonNull]
  | set a => exact hf a

lemma setNullable_isOk_iff (hf : ∀ a, (∃ b, f a = .ok b) ↔ p a) (old : Option β)
    (field : Patch α) : (∃ v, setNullable f old field = .ok v) ↔ field.All p := by
  rw [setNullable]
  cases field with
  | unset => exact iff_of_true ⟨old, rfl⟩ trivial
  | null => exact iff_of_true ⟨none, rfl⟩ trivial
  | set a =>
    refine (nullable_isOk_iff hf (some a)).trans ?_
    simp [Patch.All]

lemma setHours_isOk_iff (old : Option Jsonb) (field : Patch JsonObject) :
    (∃ v, setHours old field = .ok v) ↔ field.All fun j => j.storable = true :=
  (Except.exists_bind_eq_ok_iff fun _ _ => Except.exists_pure_eq_ok _).trans
    ((and_iff_left trivial).trans (setNullable_isOk_iff (fun _ => Jsonb.ofJson_isOk) old field))

lemma array_isOk_iff (hf : ∀ a, (∃ b, f a = .ok b) ↔ p a) (as : List α) :
    (∃ v, array f as = .ok v) ↔ ∀ a ∈ as, p a := by
  induction as with
  | nil => exact iff_of_true ⟨[], rfl⟩ (by simp)
  | cons a as ih =>
    rw [array, List.forall_mem_cons, ← hf a, ← ih]
    apply Except.exists_bind_eq_ok_iff
    intro b _
    rw [← and_true (∃ v, array f as = .ok v)]
    exact Except.exists_bind_eq_ok_iff fun bs _ => Except.exists_pure_eq_ok _

end

lemma Varchar.ofBounded_isOk_iff {lo hi n : ℕ} (hn : hi ≤ n) (s : BoundedStr lo hi) :
    (∃ v, Varchar.ofString n s.val = .ok v) ↔ NoNul s.val :=
  Varchar.ofString_isOk.trans ⟨fun h => h.2, fun h => ⟨s.bounds.2.trans hn, h⟩⟩

lemma Numeric.ofPrice_isOk_iff (p : Price) : (∃ v, Numeric.ofDecimal p.val = .ok v) ↔ p.Fits :=
  Numeric.ofDecimal_isOk

/-- `99999999.9999999999999999999999999999` is below 10^8 and normalizes to it. -/
example : ∃ p : Price, p.val = ⟨999999999999999999999999999999999999, -28⟩ ∧ ¬ p.Fits :=
  ⟨⟨⟨999999999999999999999999999999999999, -28⟩, by decide⟩, rfl, by decide⟩

/-! ### Bodies -/

structure RestaurantCreate.Storable (data : RestaurantCreate) : Prop where
  name : NoNul data.name.val
  description : ∀ s ∈ data.description, NoNul s.val
  logoUrl : ∀ s ∈ data.logoUrl, s.storable = true
  phone : ∀ s ∈ data.phone, NoNul s.val
  address : ∀ s ∈ data.address, s.storable = true
  hours : ∀ j ∈ data.hours, j.storable = true

structure RestaurantUpdate.Storable (data : RestaurantUpdate) : Prop where
  name : data.name.NonNull fun s => NoNul s.val
  description : data.description.All fun s => NoNul s.val
  logoUrl : data.logoUrl.All fun s => s.storable = true
  phone : data.phone.All fun s => NoNul s.val
  address : data.address.All fun s => s.storable = true
  hours : data.hours.All fun j => j.storable = true

structure CategoryCreate.Storable (data : CategoryCreate) : Prop where
  name : NoNul data.name.val
  description : ∀ s ∈ data.description, s.storable = true

structure CategoryUpdate.Storable (data : CategoryUpdate) : Prop where
  name : data.name.NonNull fun s => NoNul s.val
  description : data.description.All fun s => s.storable = true
  active : data.active.NonNull fun _ => True
  position : data.position.NonNull FitsInt32

structure DishCreate.Storable (data : DishCreate) : Prop where
  name : NoNul data.name.val
  description : ∀ s ∈ data.description, NoNul s.val
  price : data.price.Fits
  salePrice : ∀ p ∈ data.salePrice, p.Fits
  imageUrl : ∀ s ∈ data.imageUrl, s.storable = true
  tags : ∀ ts ∈ data.tags, ∀ s ∈ ts, s.storable = true

structure DishUpdate.Storable (data : DishUpdate) : Prop where
  name : data.name.NonNull fun s => NoNul s.val
  description : data.description.All fun s => NoNul s.val
  price : data.price.NonNull Price.Fits
  salePrice : data.salePrice.All Price.Fits
  imageUrl : data.imageUrl.All fun s => s.storable = true
  available : data.available.NonNull fun _ => True
  featured : data.featured.NonNull fun _ => True
  tags : data.tags.All fun ts => ∀ s ∈ ts, s.storable = true
  position : data.position.NonNull FitsInt32

lemma Restaurant.ofCreate_isOk_iff {data : RestaurantCreate} {owner id : Uuid} {slug : String}
    {now : Time} (hslug : slug.length ≤ 150 ∧ nul ∉ slug.toList) :
    (∃ r, ofCreate data owner slug id now = .ok r) ↔ data.Storable := by
  refine (Except.exists_bind_eq_ok_iff fun _ _ => Except.exists_bind_eq_ok_iff fun _ _ =>
    Except.exists_bind_eq_ok_iff fun _ _ => Except.exists_bind_eq_ok_iff fun _ _ =>
    Except.exists_bind_eq_ok_iff fun _ _ => Except.exists_bind_eq_ok_iff fun _ _ =>
    Except.exists_bind_eq_ok_iff fun _ _ => Except.exists_pure_eq_ok _).trans ?_
  rw [Varchar.ofBounded_isOk_iff le_rfl, Varchar.ofString_isOk,
    nullable_isOk_iff (Varchar.ofBounded_isOk_iff le_rfl),
    nullable_isOk_iff fun _ => PgText.ofPy_isOk,
    nullable_isOk_iff (Varchar.ofBounded_isOk_iff le_rfl),
    nullable_isOk_iff fun _ => PgText.ofPy_isOk,
    nullable_isOk_iff fun _ => Jsonb.ofJson_isOk]
  constructor
  · rintro ⟨hname, -, hdescription, hlogo, hphone, haddress, hhours, -⟩
    exact ⟨hname, hdescription, hlogo, hphone, haddress, hhours⟩
  · intro h
    exact ⟨h.name, hslug, h.description, h.logoUrl, h.phone, h.address, h.hours, trivial⟩

lemma Restaurant.setattrs_isOk_iff {r : Restaurant} {data : RestaurantUpdate}
    {slug : Option String}
    (hslug : ∀ s ∈ slug, s.length ≤ 150 ∧ nul ∉ s.toList) :
    (∃ n, r.setattrs data slug = .ok n) ↔ data.Storable := by
  have hset : ∃ v, setSlug r.slug slug = .ok v := by
    cases slug with
    | none => exact ⟨_, rfl⟩
    | some s => exact Varchar.ofString_isOk.mpr (hslug s rfl)
  refine (Except.exists_bind_eq_ok_iff fun _ _ => Except.exists_bind_eq_ok_iff fun _ _ =>
    Except.exists_bind_eq_ok_iff fun _ _ => Except.exists_bind_eq_ok_iff fun _ _ =>
    Except.exists_bind_eq_ok_iff fun _ _ => Except.exists_bind_eq_ok_iff fun _ _ =>
    Except.exists_bind_eq_ok_iff fun _ _ => Except.exists_pure_eq_ok _).trans ?_
  rw [setNotNull_isOk_iff (Varchar.ofBounded_isOk_iff le_rfl),
    setNullable_isOk_iff (Varchar.ofBounded_isOk_iff le_rfl),
    setNullable_isOk_iff fun _ => PgText.ofPy_isOk,
    setNullable_isOk_iff (Varchar.ofBounded_isOk_iff le_rfl),
    setNullable_isOk_iff fun _ => PgText.ofPy_isOk, setHours_isOk_iff]
  constructor
  · rintro ⟨hname, hdescription, hlogo, hphone, haddress, hhours, -⟩
    exact ⟨hname, hdescription, hlogo, hphone, haddress, hhours⟩
  · intro h
    exact ⟨h.name, h.description, h.logoUrl, h.phone, h.address, h.hours, hset, trivial⟩

lemma Category.ofCreate_isOk_iff {restaurantId id : Uuid} {data : CategoryCreate} {position : ℤ}
    {now : Time} :
    (∃ c, ofCreate restaurantId data.name data.description position data.active id now = .ok c) ↔
      data.Storable ∧ FitsInt32 position := by
  refine (Except.exists_bind_eq_ok_iff fun _ _ => Except.exists_bind_eq_ok_iff fun _ _ =>
    Except.exists_bind_eq_ok_iff fun _ _ => Except.exists_pure_eq_ok _).trans ?_
  rw [Varchar.ofBounded_isOk_iff le_rfl, nullable_isOk_iff fun _ => PgText.ofPy_isOk,
    PgInt.ofInt_isOk]
  constructor
  · rintro ⟨hname, hdescription, hposition, -⟩
    exact ⟨⟨hname, hdescription⟩, hposition⟩
  · intro h
    exact ⟨h.1.name, h.1.description, h.2, trivial⟩

lemma Category.setattrs_isOk_iff {c : Category} {data : CategoryUpdate} :
    (∃ n, c.setattrs data = .ok n) ↔ data.Storable := by
  refine (Except.exists_bind_eq_ok_iff fun _ _ => Except.exists_bind_eq_ok_iff fun _ _ =>
    Except.exists_bind_eq_ok_iff fun _ _ => Except.exists_bind_eq_ok_iff fun _ _ =>
    Except.exists_pure_eq_ok _).trans ?_
  rw [setNotNull_isOk_iff (Varchar.ofBounded_isOk_iff le_rfl),
    setNullable_isOk_iff fun _ => PgText.ofPy_isOk,
    setNotNull_isOk_iff fun a => iff_of_true ⟨a, rfl⟩ trivial,
    setNotNull_isOk_iff fun _ => PgInt.ofInt_isOk]
  constructor
  · rintro ⟨hname, hdescription, hactive, hposition, -⟩
    exact ⟨hname, hdescription, hactive, hposition⟩
  · intro h
    exact ⟨h.name, h.description, h.active, h.position, trivial⟩

lemma Dish.ofCreate_isOk_iff {data : DishCreate} {position : ℤ} {id : Uuid} {now : Time} :
    (∃ d, ofCreate data position id now = .ok d) ↔ data.Storable ∧ FitsInt32 position := by
  refine (Except.exists_bind_eq_ok_iff fun _ _ => Except.exists_bind_eq_ok_iff fun _ _ =>
    Except.exists_bind_eq_ok_iff fun _ _ => Except.exists_bind_eq_ok_iff fun _ _ =>
    Except.exists_bind_eq_ok_iff fun _ _ => Except.exists_bind_eq_ok_iff fun _ _ =>
    Except.exists_bind_eq_ok_iff fun _ _ => Except.exists_pure_eq_ok _).trans ?_
  rw [Varchar.ofBounded_isOk_iff le_rfl, nullable_isOk_iff (Varchar.ofBounded_isOk_iff le_rfl),
    Numeric.ofPrice_isOk_iff, nullable_isOk_iff Numeric.ofPrice_isOk_iff,
    nullable_isOk_iff fun _ => PgText.ofPy_isOk,
    nullable_isOk_iff fun _ => array_isOk_iff (fun _ => PgText.ofPy_isOk) _, PgInt.ofInt_isOk]
  constructor
  · rintro ⟨hname, hdescription, hprice, hsale, himage, htags, hposition, -⟩
    exact ⟨⟨hname, hdescription, hprice, hsale, himage, htags⟩, hposition⟩
  · intro h
    exact ⟨h.1.name, h.1.description, h.1.price, h.1.salePrice, h.1.imageUrl, h.1.tags, h.2,
      trivial⟩

/-- A category of `None` never comes this far, the ownership check rejects it. -/
lemma Dish.setattrs_isOk_iff {d : Dish} {data : DishUpdate}
    (hcategory : data.categoryId.NonNull fun _ => True) :
    (∃ n, d.setattrs data = .ok n) ↔ data.Storable := by
  refine (Except.exists_bind_eq_ok_iff fun _ _ => Except.exists_bind_eq_ok_iff fun _ _ =>
    Except.exists_bind_eq_ok_iff fun _ _ => Except.exists_bind_eq_ok_iff fun _ _ =>
    Except.exists_bind_eq_ok_iff fun _ _ => Except.exists_bind_eq_ok_iff fun _ _ =>
    Except.exists_bind_eq_ok_iff fun _ _ => Except.exists_bind_eq_ok_iff fun _ _ =>
    Except.exists_bind_eq_ok_iff fun _ _ => Except.exists_bind_eq_ok_iff fun _ _ =>
    Except.exists_pure_eq_ok _).trans ?_
  rw [setNotNull_isOk_iff fun a => iff_of_true ⟨a, rfl⟩ trivial,
    setNotNull_isOk_iff (Varchar.ofBounded_isOk_iff le_rfl),
    setNullable_isOk_iff (Varchar.ofBounded_isOk_iff le_rfl),
    setNotNull_isOk_iff Numeric.ofPrice_isOk_iff,
    setNullable_isOk_iff Numeric.ofPrice_isOk_iff,
    setNullable_isOk_iff fun _ => PgText.ofPy_isOk,
    setNotNull_isOk_iff fun a => iff_of_true ⟨a, rfl⟩ trivial,
    setNotNull_isOk_iff fun a => iff_of_true ⟨a, rfl⟩ trivial,
    setNullable_isOk_iff fun _ => array_isOk_iff (fun _ => PgText.ofPy_isOk) _,
    setNotNull_isOk_iff fun _ => PgInt.ofInt_isOk]
  constructor
  · rintro ⟨-, hname, hdescription, hprice, hsale, himage, havailable, hfeatured, htags,
      hposition, -⟩
    exact ⟨hname, hdescription, hprice, hsale, himage, havailable, hfeatured, htags, hposition⟩
  · intro h
    exact ⟨hcategory, h.name, h.description, h.price, h.salePrice, h.imageUrl, h.available,
      h.featured, h.tags, h.position, trivial⟩

/-! ### Positions -/

/-- The next position fits if no position in use is the last one. -/
lemma fitsInt32_nextPosition_iff {α : Type} (rows : List α) (position : α → PgInt) :
    FitsInt32 (nextPosition (rows.map fun a => (position a).val).max?) ↔
      ∀ a ∈ rows, (position a).val ≠ 2147483647 := by
  cases hmax : (rows.map fun a => (position a).val).max? with
  | none =>
    rw [List.max?_eq_none_iff, List.map_eq_nil_iff] at hmax
    subst hmax
    exact iff_of_true (by unfold FitsInt32; decide) (by simp)
  | some m =>
    obtain ⟨hmem, hle⟩ := List.max?_eq_some_iff.mp hmax
    obtain ⟨a, ha, rfl⟩ := List.mem_map.mp hmem
    have hfits := (position a).fits
    have hnext : FitsInt32 (nextPosition (some (position a).val)) ↔
        (position a).val ≠ 2147483647 := by
      simp only [FitsInt32, nextPosition]
      split
      · simp_all
      · simp_all
      · simp_all
        omega
    rw [hnext]
    constructor
    · intro h b hb he
      have hb := hle _ (List.mem_map_of_mem hb)
      have hfits := (position a).fits
      omega
    · exact fun h => h a ha

/-- A new category of the restaurant can be placed after the others. -/
def Tables.RoomForCategory (t : Tables) (restaurantId : Uuid) : Prop :=
  ∀ c ∈ t.categories, c.restaurantId = restaurantId → c.position.val ≠ 2147483647

/-- A new dish of the category can be placed after the others. -/
def Tables.RoomForDish (t : Tables) (categoryId : Uuid) : Prop :=
  ∀ d ∈ t.dishes, d.categoryId = categoryId → d.deletedAt = none → d.position.val ≠ 2147483647

lemma Tables.roomForCategory_iff (t : Tables) (restaurantId : Uuid) :
    FitsInt32 (nextPosition ((t.categories.filter fun c => c.restaurantId = restaurantId).map
      (·.position.val)).max?) ↔ t.RoomForCategory restaurantId := by
  rw [fitsInt32_nextPosition_iff _ fun c : Category => c.position]
  simp [RoomForCategory]

lemma Tables.roomForDish_iff (t : Tables) (categoryId : Uuid) :
    FitsInt32 (nextPosition ((t.dishes.filter fun d => d.categoryId = categoryId ∧
      d.deletedAt.isNone).map (·.position.val)).max?) ↔ t.RoomForDish categoryId := by
  rw [fitsInt32_nextPosition_iff _ fun d : Dish => d.position]
  simp [RoomForDish]

/-! ### Served requests -/

/-- The call returns, or it raises an `HTTPException` with a 4xx status. -/
def Served {α : Type} (p : Async α) (w : World) : Prop :=
  (∃ a, (p.exec w).1 = .ok a) ∨
    ∃ status detail, 400 ≤ status ∧ status < 500 ∧
      (p.exec w).1 = .error (.http status detail)

section

variable {α β : Type} {w : World}

lemma Rejected.served {p : Async α} (h : Rejected p w) : Served p w := by
  obtain ⟨status, detail, hlo, hhi, h⟩ := h
  exact .inr ⟨status, detail, hlo, hhi, by rw [h]⟩

lemma Served.congr {p q : Async α} (h : p.exec w = q.exec w) : Served p w ↔ Served q w := by
  rw [Served, Served, h]

lemma served_map_iff (f : α → β) (p : Async α) : Served (f <$> p) w ↔ Served p w := by
  simp only [Served, Prog.exec_map]
  cases (p.exec w).1 <;> simp [Except.map]

/-- Flushing the cache at the end changes nothing about the outcome. -/
lemma served_then_flush_iff (p : Async α) :
    Served (do let a ← p; Async.cacheInvalidatePrefix "menu:"; return a) w ↔ Served p w := by
  simp only [Served, Prog.exec_bind]
  rcases p.exec w with ⟨r, w'⟩
  cases r <;> simp

/-- A call that can only fail in the database layer is served if it returns. -/
lemma served_iff_isOk {p : Async α}
    (h : (∃ e, p.exec w = (.error (.db e), w)) ∨ ∃ a, (p.exec w).1 = .ok a) :
    Served p w ↔ ∃ a, (p.exec w).1 = .ok a := by
  refine ⟨fun hs => ?_, .inl⟩
  rcases hs with hok | ⟨status, detail, -, -, herr⟩
  · exact hok
  · rcases h with ⟨e, h⟩ | hok
    · rw [h] at herr
      cases herr
    · exact hok

end

/-! ### The six operations -/

section

variable (w : World) (u : Uuid)

lemma RestaurantService.create_served_iff {fuel : ℕ} {data : RestaurantCreate} {id : Uuid}
    (huser : u ∈ w.db.users.map (·.id)) (hid : id ∉ w.db.restaurants.map (·.id))
    (hfuel : w.db.restaurants.length ≤ fuel) :
    Served (create fuel u data id) w ↔
      (Rows.get (·.ownerUserId) u w.db.restaurants = none → data.Storable) := by
  have hexec := exec_create w u fuel data id
  cases hget : Rows.get (·.ownerUserId) u w.db.restaurants with
  | some r =>
    rw [hget] at hexec
    exact iff_of_true (.inr ⟨409, _, by decide, by decide, by rw [hexec]⟩) fun h =>
      absurd h (Option.some_ne_none r)
  | none =>
    rw [hget] at hexec
    obtain ⟨k, hk, hslug⟩ :=
      exec_ensureUniqueSlug w _ none (nul_not_mem_generateSlug data.name.val) hfuel
    simp only [Prog.exec_bind_ok hslug] at hexec
    have hfits := And.intro hk.length_le
      (not_mem_slugCandidate (c := nul) (by decide) data.name.val k)
    rw [Served.congr hexec, served_iff_isOk, RestaurantRepository.create_isOk_iff w hid hget hk.1
      huser, Restaurant.ofCreate_isOk_iff hfits]
    · simp
    · rcases RestaurantRepository.create_cases w u data _ id with h | ⟨r, db, -, -, h⟩
      · exact .inl h
      · exact .inr ⟨r, by rw [h]⟩

lemma RestaurantService.update_served_iff {fuel : ℕ} {data : RestaurantUpdate}
    (hfuel : w.db.restaurants.length ≤ fuel) :
    Served (update fuel u data) w ↔
      ((Rows.get (·.ownerUserId) u w.db.restaurants).isSome → data.Storable) := by
  rcases getByOwner_cases w u with ⟨status, detail, hlo, hhi, h⟩ | ⟨r, hr, h⟩
  · apply iff_of_true (Rejected.bind ⟨status, detail, hlo, hhi, h⟩ _).served
    intro hsome
    obtain ⟨r, hr⟩ := Option.isSome_iff_exists.mp hsome
    rw [getByOwner, RestaurantRepository.getByOwnerId, Async.exec_select_bind, hr] at h
    cases h
  · have hsome : (Rows.get (·.ownerUserId) u w.db.restaurants).isSome = true := by
      rw [hr]
      rfl
    have hcases : ∀ slug, (∃ e, (RestaurantRepository.update r data slug).exec w
        = (.error (.db e), w)) ∨ ∃ a, ((RestaurantRepository.update r data slug).exec w).1
        = .ok a := by
      intro slug
      rcases RestaurantRepository.update_cases w (Rows.get_mem hr) data slug with
        h | ⟨n, db, -, -, h⟩
      · exact .inl h
      · exact .inr ⟨_, by rw [h]⟩
    have hexec : (update fuel u data).exec w = _ := Prog.exec_bind_ok h
    simp only [hsome, true_imp_iff]
    cases hname : data.name with
    | null =>
      simp only [hname, updatedSlug, Patch.value, Prog.exec_raise_bind] at hexec
      refine iff_of_false (fun hs => ?_) fun hs => ?_
      · rw [Served, hexec] at hs
        rcases hs with ⟨a, ha⟩ | ⟨s, d, -, -, hd⟩
        · cases ha
        · cases hd
      · have := hs.name
        rw [hname] at this
        exact this
    | unset =>
      simp only [hname, updatedSlug, Patch.value, Prog.exec_pure_bind] at hexec
      rw [Served.congr hexec, served_then_flush_iff, served_iff_isOk (hcases none),
        RestaurantRepository.update_isOk_iff w (Rows.get_mem hr) (by simp),
        Restaurant.setattrs_isOk_iff (by simp)]
    | set name =>
      obtain ⟨k, hk, hslug⟩ :=
        exec_ensureUniqueSlug w _ (some r.id) (nul_not_mem_generateSlug name.val) hfuel
      simp only [hname, updatedSlug, Patch.value, Prog.bind_assoc] at hexec
      rw [Prog.exec_bind_ok hslug, Prog.exec_pure_bind] at hexec
      have hfits : ∀ s ∈ some (slugCandidate (generateSlug name.val) k),
          s.length ≤ 150 ∧ nul ∉ s.toList := by
        intro s hs
        cases hs
        exact ⟨hk.length_le, not_mem_slugCandidate (by decide) name.val k⟩
      rw [Served.congr hexec, served_then_flush_iff, served_iff_isOk (hcases _),
        RestaurantRepository.update_isOk_iff w (Rows.get_mem hr) (fun s hs => ?_),
        Restaurant.setattrs_isOk_iff hfits]
      cases hs
      exact hk.1

lemma CategoryService.create_served_iff {data : CategoryCreate} {id : Uuid}
    (hid : id ∉ w.db.categories.map (·.id)) :
    Served (create u data id) w ↔ ∀ r ∈ Rows.get (·.ownerUserId) u w.db.restaurants,
      data.Storable ∧ w.db.RoomForCategory r.id := by
  rcases exec_create w u data id with ⟨hnone, h⟩ | ⟨r, hr, h⟩
  · rw [hnone]
    exact iff_of_true h.served fun r hr => absurd hr.symm (Option.some_ne_none r)
  · have hfk : r.id ∈ w.db.restaurants.map (·.id) := List.mem_map_of_mem (Rows.get_mem hr)
    rw [hr, Served.congr h, served_then_flush_iff, served_iff_isOk,
      CategoryRepository.create_isOk_iff w hid hfk, Category.ofCreate_isOk_iff,
      Tables.roomForCategory_iff]
    · simp
    · rcases CategoryRepository.create_cases w r.id data.name data.description data.active id with
        h | ⟨p, c, db, -, -, h⟩
      · exact .inl h
      · exact .inr ⟨c, by rw [h]⟩

lemma CategoryService.update_served_iff {categoryId : Uuid} {data : CategoryUpdate} :
    Served (update categoryId u data) w ↔
      (w.db.categoryOwner categoryId = some u → data.Storable) := by
  rcases exec_update w u categoryId data with ⟨hne, h⟩ | ⟨c, hc, hown, h⟩
  · exact iff_of_true h.served fun hown => absurd hown hne
  · have howner : w.db.categoryOwner categoryId = some u := by
      rw [Tables.categoryOwner, hc, Option.bind_some, hown]
    rw [Served.congr h, served_then_flush_iff, served_iff_isOk,
      CategoryRepository.update_isOk_iff w (Rows.get_mem hc), Category.setattrs_isOk_iff]
    · simp [howner]
    · rcases CategoryRepository.update_cases w (Rows.get_mem hc) data with h | ⟨n, db, -, -, h⟩
      · exact .inl h
      · exact .inr ⟨_, by rw [h]⟩

/-- A category with an owner is there. -/
lemma Tables.mem_categories_of_owner {t : Tables} {categoryId : Uuid}
    (h : t.categoryOwner categoryId = some u) : categoryId ∈ t.categories.map (·.id) := by
  simp only [categoryOwner, Option.bind_eq_some_iff] at h
  obtain ⟨c, hc, -⟩ := h
  have hid := Rows.get_key hc
  exact List.mem_map.mpr ⟨c, Rows.get_mem hc, hid⟩

lemma DishService.create_served_iff {data : DishCreate} {id : Uuid}
    (hid : id ∉ w.db.dishes.map (·.id)) :
    Served (create u data id) w ↔ (w.db.categoryOwner data.categoryId = some u →
      data.Storable ∧ w.db.RoomForDish data.categoryId) := by
  rcases exec_create w u data id with ⟨hne, h⟩ | ⟨hown, h⟩
  · exact iff_of_true h.served fun hown => absurd hown hne
  · rw [Served.congr h, served_then_flush_iff, served_iff_isOk,
      DishRepository.create_isOk_iff w hid (Tables.mem_categories_of_owner u hown),
      Dish.ofCreate_isOk_iff, Tables.roomForDish_iff]
    · simp [hown]
    · rcases DishRepository.create_cases w data id with h | ⟨p, d, db, -, -, h⟩
      · exact .inl h
      · exact .inr ⟨d, by rw [h]⟩

lemma DishService.update_served_iff {dishId : Uuid} {data : DishUpdate} :
    Served (update dishId u data) w ↔
      ((∃ d, OwnsDish w u dishId d) → TargetOwned w u data → data.Storable) := by
  rcases exec_update w u dishId data with ⟨hne, h⟩ | ⟨d, hd, htarget, h⟩
  · apply iff_of_true h.served
    rintro ⟨d, hd⟩ htarget
    exact absurd ⟨d, hd, htarget⟩ hne
  · have hcategory : data.categoryId.NonNull fun _ => True := by
      cases hc : data.categoryId with
      | unset => trivial
      | null => exact absurd (htarget none (by rw [hc]; rfl)) (Option.some_ne_none u).symm
      | set c => trivial
    have hfk : ∀ n, d.setattrs data = .ok n → n.categoryId ∈ w.db.categories.map (·.id) :=
      fun n hn => Tables.mem_categories_of_owner u (htarget.owned hd hn)
    rw [Served.congr h, served_then_flush_iff, served_iff_isOk, DishRepository.update,
      DishRepository.save_isOk_iff w (Rows.get_mem hd.get) hfk, Dish.setattrs_isOk_iff hcategory]
    · exact ⟨fun h _ _ => h, fun h => h ⟨d, hd⟩ htarget⟩
    · rcases DishRepository.save_cases w (Rows.get_mem hd.get) (d.setattrs data) with
        h | ⟨n, db, -, -, h⟩
      · exact .inl h
      · exact .inr ⟨d.saved n w.now, congrArg Prod.fst h⟩

end

namespace AdminOp

/-- The creations and updates: the operations with a request body. -/
def HasBody : AdminOp → Prop
  | restaurantCreate .. | restaurantUpdate .. | categoryCreate .. | categoryUpdate ..
  | dishCreate .. | dishUpdate .. => True
  | _ => False

/-- The primary key drawn for a new row is new, and the slug search may try as many candidates as
there are restaurants. -/
def Supplied (w : World) : AdminOp → Prop
  | restaurantCreate fuel _ id  =>
    id ∉ w.db.restaurants.map (·.id) ∧ w.db.restaurants.length ≤ fuel
  | restaurantUpdate fuel _     => w.db.restaurants.length ≤ fuel
  | categoryCreate _ id         => id ∉ w.db.categories.map (·.id)
  | dishCreate _ id             => id ∉ w.db.dishes.map (·.id)
  | _                           => True

/-- If the operation passes its checks, its body can be stored and a new row has a position. -/
def BodyFits (w : World) (u : Uuid) : AdminOp → Prop
  | restaurantCreate _ data _       =>
    Rows.get (·.ownerUserId) u w.db.restaurants = none → data.Storable
  | restaurantUpdate _ data         =>
    (Rows.get (·.ownerUserId) u w.db.restaurants).isSome → data.Storable
  | categoryCreate data _           =>
    ∀ r ∈ Rows.get (·.ownerUserId) u w.db.restaurants,
      data.Storable ∧ w.db.RoomForCategory r.id
  | categoryUpdate categoryId data  => w.db.categoryOwner categoryId = some u → data.Storable
  | dishCreate data _               =>
    w.db.categoryOwner data.categoryId = some u →
      data.Storable ∧ w.db.RoomForDish data.categoryId
  | dishUpdate dishId data          =>
    (∃ d, DishService.OwnsDish w u dishId d) → DishService.TargetOwned w u data → data.Storable
  | _                               => True

/-- A create or an update of an existing user is served exactly if its body fits. -/
theorem served_iff_bodyFits (P : Platform) (w : World) (u : Uuid) (op : AdminOp)
    (hbody : op.HasBody) (huser : u ∈ w.db.users.map (·.id)) (hsupplied : op.Supplied w) :
    Served (op.code P u) w ↔ op.BodyFits w u := by
  cases op with
  | restaurantCreate fuel data id =>
    rw [code, served_map_iff,
      RestaurantService.create_served_iff w u huser hsupplied.1 hsupplied.2]
    rfl
  | restaurantUpdate fuel data =>
    rw [code, served_map_iff, RestaurantService.update_served_iff w u hsupplied]
    rfl
  | categoryCreate data id =>
    rw [code, served_map_iff, CategoryService.create_served_iff w u hsupplied]
    rfl
  | categoryUpdate categoryId data =>
    rw [code, served_map_iff, CategoryService.update_served_iff w u]
    rfl
  | dishCreate data id =>
    rw [code, served_map_iff, DishService.create_served_iff w u hsupplied]
    rfl
  | dishUpdate dishId data =>
    rw [code, served_map_iff, DishService.update_served_iff w u]
    rfl
  | _ => exact hbody.elim

/-- A rename without a NUL is served. -/
theorem rename_served :
    Served ((restaurantUpdate 5 { name := .set ⟨"Bar", by decide⟩ }).code Platform.plain 1)
      (runEvents Platform.plain World.sample
        [.request (.admin 1 (.restaurantCreate 5 { name := ⟨"Casa", by decide⟩ } 10))]) :=
  (served_iff_bodyFits Platform.plain _ 1
    (restaurantUpdate 5 { name := .set ⟨"Bar", by decide⟩ }) trivial (by decide)
    (by unfold Supplied; decide)).mpr
    fun _ => ⟨by unfold Patch.NonNull NoNul; decide, trivial, trivial, trivial, trivial, trivial⟩

/-- An explicit null for the name of an existing restaurant ends in an `AttributeError`. -/
theorem null_name_not_served :
    let w := runEvents Platform.plain World.sample
      [.request (.admin 1 (.restaurantCreate 5 { name := ⟨"Casa", by decide⟩ } 10))]
    (((restaurantUpdate 5 { name := .null }).code Platform.plain 1).exec w).1
        = .error .attribute ∧
      ¬ Served ((restaurantUpdate 5 { name := .null }).code Platform.plain 1) w := by
  intro w
  have herr : (((restaurantUpdate 5 { name := .null }).code Platform.plain 1).exec w).1
      = .error .attribute := by rfl
  refine ⟨herr, ?_⟩
  rintro (⟨a, ha⟩ | ⟨status, detail, -, -, h⟩)
  · rw [herr] at ha
    cases ha
  · rw [herr] at h
    cases h

end AdminOp

end LiveMenu
