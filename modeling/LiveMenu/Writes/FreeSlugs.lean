import Mathlib.Order.Bounds.Defs
import LiveMenu.Sequential.Menu

/-!
# The search for a free slug ends

With `n` restaurants the search asks for at most `n + 1` slugs and returns the first candidate that
no other restaurant has. What a creation or a rename then writes keeps the slugs distinct before
the unique index is even asked.
-/

namespace LiveMenu

namespace RestaurantService

variable {w : World} {baseSlug : String} {excludeId : Option Uuid}

/-! ### Lookups -/

/-- A lookup is one step, whether it is refused or not. -/
lemma steps_getBySlug_bind_le {β : Type} (slug : String) (k : Option Restaurant → Async β) :
    (RestaurantRepository.getBySlug slug >>= k).steps w
      ≤ (k (Rows.get (·.slug.val) slug w.db.restaurants)).steps w + 1 := by
  rw [RestaurantRepository.getBySlug, Async.selectBound, Prog.bind_assoc, Async.steps_select_bind]
  by_cases hnul : nul ∈ slug.toList
  · rw [PgText.ofString, dif_neg (not_not.mpr hnul)]
    exact Nat.succ_le_succ (Nat.zero_le _)
  · rw [PgText.ofString, dif_pos hnul]
    rfl

/-- The search from `counter` on stops at the first free candidate at the latest. -/
lemma steps_searchSlug_le {k : ℕ} (hfree : ¬ w.db.SlugTaken (slugCandidate baseSlug k) excludeId)
    (fuel counter : ℕ) (hle : counter + 1 ≤ k) :
    (searchSlug baseSlug excludeId fuel (counter + 1)).steps w ≤ k - counter := by
  induction fuel generalizing counter with
  | zero => exact Nat.zero_le _
  | succ fuel ih =>
    refine (steps_getBySlug_bind_le _ _).trans ?_
    by_cases hnow : slugIsFree
        (Rows.get (·.slug.val) (suffixed baseSlug (counter + 1)) w.db.restaurants) excludeId = true
    · rw [if_pos hnow, Prog.steps_pure]
      omega
    · rw [if_neg hnow]
      have hne : counter + 1 ≠ k := by
        rintro rfl
        exact hnow ((slugIsFree_get w.db _ _).mpr hfree)
      have := ih (counter + 1) (by omega)
      omega

lemma steps_ensureUniqueSlug_le {k : ℕ} (hk : w.db.FirstFree baseSlug excludeId k) (fuel : ℕ) :
    (ensureUniqueSlug fuel baseSlug excludeId).steps w ≤ k + 1 := by
  refine (steps_getBySlug_bind_le _ _).trans ?_
  by_cases hnow : slugIsFree (Rows.get (·.slug.val) baseSlug w.db.restaurants) excludeId = true
  · rw [if_pos hnow, Prog.steps_pure]
    omega
  · rw [if_neg hnow]
    have hne : k ≠ 0 := by
      rintro rfl
      exact hnow ((slugIsFree_get w.db _ _).mpr hk.1)
    have : (searchSlug baseSlug excludeId fuel 1).steps w ≤ k :=
      steps_searchSlug_le hk.1 fuel 0 (by omega)
    omega

end RestaurantService

/-! ### Distinct slugs -/

/-- No two restaurants have the same slug. -/
def SlugsDistinct (rows : List Restaurant) : Prop := (rows.map (·.slug)).Nodup

namespace Tables

variable {t : Tables} {slug : String}

/-- A new row with a free slug keeps the slugs distinct. -/
lemma slugsDistinct_append (h : SlugsDistinct t.restaurants) {r : Restaurant}
    (hslug : r.slug.val = slug) (hfree : ¬ t.SlugTaken slug none) :
    SlugsDistinct (t.restaurants ++ [r]) := by
  apply Rows.nodup_map_append h
  intro hmem
  obtain ⟨r', hr', heq⟩ := List.mem_map.mp hmem
  exact hfree ⟨r', hr', by rw [heq, hslug], (Option.some_ne_none _).symm⟩

/-- A rename to a slug that is free but for the restaurant itself keeps the slugs distinct. -/
lemma slugsDistinct_modify (hid : (t.restaurants.map (·.id)).Nodup)
    (h : SlugsDistinct t.restaurants) {r n : Restaurant} {now : Time}
    (hslug : n.slug.val = slug) (hfree : ¬ t.SlugTaken slug (some r.id)) :
    SlugsDistinct (Rows.modify (·.id) r.id (fun _ => r.saved n now) t.restaurants) := by
  refine Rows.nodup_map_modify (b := n.slug) hid h (fun _ _ _ => Restaurant.saved_slug r n now) ?_
  intro r' hr' hne heq
  exact hfree ⟨r', hr', by rw [heq, hslug], fun hr => hne (Option.some.inj hr).symm⟩

end Tables

/-- Without a rename the slugs stay as they are. -/
lemma slugsDistinct_modify_same {rows : List Restaurant} (hid : (rows.map (·.id)).Nodup)
    (h : SlugsDistinct rows) {r n : Restaurant} {now : Time} (hr : r ∈ rows)
    (hslug : n.slug = r.slug) :
    SlugsDistinct (Rows.modify (·.id) r.id (fun _ => r.saved n now) rows) := by
  rw [SlugsDistinct]
  rw [Rows.map_modify]
  · exact h
  · intro r' hr' heq
    rw [Restaurant.saved_slug, hslug, Rows.eq_of_key_eq hid hr' hr heq]

/-- The rows of an update, renamed or not, have distinct slugs. -/
lemma slugsDistinct_update {w : World} {u : Uuid} {data : RestaurantUpdate} {r n : Restaurant}
    {slug : Option String} (hr : Rows.get (·.ownerUserId) u w.db.restaurants = some r)
    (h : SlugsDistinct w.db.restaurants) (hslug : RestaurantService.SlugOfUpdate w r data slug)
    (hset : r.setattrs data slug = .ok n) :
    SlugsDistinct (Rows.modify (·.id) r.id (fun _ => r.saved n w.now) w.db.restaurants) := by
  have hid := w.db.valid.restaurantId
  have hset := (Restaurant.setattrs_ok hset).2.2
  rw [RestaurantService.SlugOfUpdate] at hslug
  cases hname : data.name with
  | unset =>
    rw [hname] at hslug
    subst hslug
    exact slugsDistinct_modify_same hid h (Rows.get_mem hr) hset
  | null =>
    rw [hname] at hslug
    exact hslug.elim
  | set name =>
    rw [hname] at hslug
    obtain ⟨k, hk, rfl⟩ := hslug
    exact Tables.slugsDistinct_modify hid h hset hk.1

/-- Every event keeps the slugs distinct, whatever the unique index would refuse. -/
lemma RestaurantsEffect.slugsDistinct {w : World} {e : Event} {rows : List Restaurant}
    (heff : RestaurantsEffect w e rows) (h : SlugsDistinct w.db.restaurants) :
    SlugsDistinct rows := by
  cases heff with
  | same => exact h
  | created hnone hslug hrow =>
    exact Tables.slugsDistinct_append h (Restaurant.ofCreate_ok hrow).2.2.1 hslug.1
  | updated hr hslug hset => exact slugsDistinct_update hr h hslug hset
  | deleted hr => exact h.sublist (List.filter_sublist.map _)

lemma slugsDistinct_runEvents (P : Platform) {w : World} (h : SlugsDistinct w.db.restaurants)
    (events : List Event) : SlugsDistinct (runEvents P w events).db.restaurants := by
  refine runEvents_invariant (I := fun w => SlugsDistinct w.db.restaurants) ?_ h events
  intro w e hw
  exact (Event.restaurants_cases P w e).slugsDistinct hw

namespace RestaurantService

variable (w : World)

/-- A creation answers 409, or it writes a row whose slug nobody has. -/
lemma create_writes {fuel : ℕ} (hfuel : w.db.restaurants.length ≤ fuel) (u : Uuid)
    (data : RestaurantCreate) (id : Uuid) :
    (create fuel u data id).exec w = (.error (.http 409 "User already has a restaurant"), w) ∨
      ∃ slug, (create fuel u data id).exec w
          = (RestaurantRepository.create u data slug id).exec w ∧
        ∀ r, Restaurant.ofCreate data u slug id w.now = .ok r →
          SlugsDistinct (w.db.restaurants ++ [r]) := by
  rw [exec_create]
  cases Rows.get (·.ownerUserId) u w.db.restaurants with
  | some r => exact .inl rfl
  | none =>
    obtain ⟨k, hk, hx⟩ :=
      exec_ensureUniqueSlug w _ none (nul_not_mem_generateSlug data.name.val) hfuel
    refine .inr ⟨slugCandidate (generateSlug data.name.val) k, Prog.exec_bind_ok hx, ?_⟩
    intro r hr
    exact Tables.slugsDistinct_append w.db.valid.restaurantSlug (Restaurant.ofCreate_ok hr).2.2.1
      hk.1

/-- An update finds no restaurant, has an explicit null for a name, or writes rows with distinct
slugs. -/
lemma update_writes {fuel : ℕ} (hfuel : w.db.restaurants.length ≤ fuel) (u : Uuid)
    (data : RestaurantUpdate) :
    Rejected (update fuel u data) w ∨
      (data.name = .null ∧ (update fuel u data).exec w = (.error .attribute, w)) ∨
      ∃ r slug, Rows.get (·.ownerUserId) u w.db.restaurants = some r ∧
        (update fuel u data).exec w = (do
          let restaurant ← RestaurantRepository.update r data slug
          Async.cacheInvalidatePrefix "menu:"
          return restaurant : Async Restaurant).exec w ∧
        ∀ n, r.setattrs data slug = .ok n →
          SlugsDistinct (Rows.modify (·.id) r.id (fun _ => r.saved n w.now) w.db.restaurants) := by
  rcases getByOwner_cases w u with h | ⟨r, hr, h⟩
  · exact .inl (h.bind _)
  · right
    have hdistinct := w.db.valid.restaurantSlug
    simp only [update, Prog.exec_bind_ok h]
    cases hname : data.name with
    | null => exact .inl ⟨rfl, rfl⟩
    | unset =>
      refine .inr ⟨r, none, hr, rfl, fun n hn => ?_⟩
      refine slugsDistinct_update hr hdistinct ?_ hn
      rw [SlugOfUpdate, hname]
    | set name =>
      obtain ⟨k, hk, hx⟩ :=
        exec_ensureUniqueSlug w _ (some r.id) (nul_not_mem_generateSlug name.val) hfuel
      refine .inr ⟨r, some (slugCandidate (generateSlug name.val) k), hr, ?_, fun n hn => ?_⟩
      · rw [updatedSlug, Prog.exec_bind_ok (Prog.exec_bind_ok hx)]
      · refine slugsDistinct_update hr hdistinct ?_ hn
        rw [SlugOfUpdate, hname]
        exact ⟨k, hk, rfl⟩

/-! ### The result -/

lemma length_slug_le {t : Tables} {baseSlug text : String} {excludeId : Option Uuid} {k : ℕ}
    (hk : t.FirstFree baseSlug excludeId k) (hbase : baseSlug = generateSlug text)
    (hlt : t.restaurants.length < 10 ^ 49) : (slugCandidate baseSlug k).length ≤ 150 := by
  have hk' : k < 10 ^ (48 + 1) := lt_of_le_of_lt hk.le_length hlt
  have h1 := length_slugCandidate_le baseSlug hk'
  have h2 := length_generateSlug_le text 100
  rw [← hbase] at h2
  omega

/-- With `n` restaurants, and however much longer it could go on, the search asks for at most
`n + 1` slugs. It returns the base slug if no other restaurant has it, else the base slug with the
least number that makes it free, and that fits the column. A creation and an update that run alone
write rows with distinct slugs, so the slugs are distinct after every run. -/
theorem ensureUniqueSlug_returns_least_free (baseSlug : String) (excludeId : Option Uuid) (m : ℕ) :
    let n := w.db.restaurants.length
    (ensureUniqueSlug (n + m) baseSlug excludeId).steps w ≤ n + 1 ∧
    (nul ∉ baseSlug.toList →
      ∃ slug, (ensureUniqueSlug (n + m) baseSlug excludeId).exec w = (.ok slug, w) ∧
      (¬ w.db.SlugTaken baseSlug excludeId → slug = baseSlug) ∧
      (w.db.SlugTaken baseSlug excludeId → ∃ k, slug = suffixed baseSlug k ∧
        IsLeast {k | 1 ≤ k ∧ ¬ w.db.SlugTaken (suffixed baseSlug k) excludeId} k) ∧
      ∀ text, baseSlug = generateSlug text → n < 10 ^ 49 → slug.length ≤ 150) ∧
    (∀ u data id,
      (create (n + m) u data id).exec w
          = (.error (.http 409 "User already has a restaurant"), w) ∨
        ∃ slug, (create (n + m) u data id).exec w
            = (RestaurantRepository.create u data slug id).exec w ∧
          ∀ r, Restaurant.ofCreate data u slug id w.now = .ok r →
            SlugsDistinct (w.db.restaurants ++ [r])) ∧
    (∀ u data,
      Rejected (update (n + m) u data) w ∨
      (data.name = .null ∧ (update (n + m) u data).exec w = (.error .attribute, w)) ∨
        ∃ r slug, Rows.get (·.ownerUserId) u w.db.restaurants = some r ∧
          (update (n + m) u data).exec w = (do
            let restaurant ← RestaurantRepository.update r data slug
            Async.cacheInvalidatePrefix "menu:"
            return restaurant : Async Restaurant).exec w ∧
          ∀ row, r.setattrs data slug = .ok row →
            SlugsDistinct (Rows.modify (·.id) r.id (fun _ => r.saved row w.now)
              w.db.restaurants)) ∧
    ∀ P events, SlugsDistinct (runEvents P w events).db.restaurants := by
  intro n
  have hfuel : w.db.restaurants.length ≤ n + m := Nat.le_add_right _ _
  refine ⟨?_, fun hbase => ?_, create_writes w hfuel, update_writes w hfuel,
    fun P events => slugsDistinct_runEvents P w.db.valid.restaurantSlug events⟩
  · obtain ⟨k, hk⟩ := w.db.exists_firstFree baseSlug excludeId
    exact (steps_ensureUniqueSlug_le hk _).trans (Nat.succ_le_succ hk.le_length)
  obtain ⟨k, hk, hx⟩ := exec_ensureUniqueSlug w baseSlug excludeId hbase hfuel
  refine ⟨slugCandidate baseSlug k, hx, ?_, ?_, ?_⟩
  · intro hfree
    cases k with
    | zero => rfl
    | succ k => exact absurd (hk.2 0 k.succ_pos) hfree
  · intro htaken
    cases k with
    | zero => exact absurd htaken hk.1
    | succ k =>
      refine ⟨k + 1, rfl, ⟨k.succ_pos, hk.1⟩, ?_⟩
      rintro j ⟨hj, hfree⟩
      by_contra hlt
      obtain ⟨i, rfl⟩ := Nat.exists_eq_add_of_le' hj
      exact hfree (hk.2 (i + 1) (by omega))
  · exact fun text hbase hlt => length_slug_le hk hbase hlt

end RestaurantService

end LiveMenu
