import LiveMenu.Concurrent.Steps
import LiveMenu.Model.Analytics

/-!
# What the services look up

The checks that a service makes before it writes are queries: they leave the process as it is, and
the calls that run between them are not disturbed.
-/

namespace LiveMenu

open Async

/-! ### Restaurants -/

namespace RestaurantService

lemma queries_getByOwner (u : Uuid) : (getByOwner u).Queries := by
  apply (queries_select _ _).bind
  intro o
  cases o with
  | none => exact queries_http _ _
  | some r => exact queries_pure r

lemma queries_getBySlug (slug : String) : (RestaurantRepository.getBySlug slug).Queries :=
  queries_selectBound _ _

/-- A lookup by slug is refused or finds the row there is. -/
lemma accepts_getBySlug_bind {Φ β : Type} {M : Monitor World Label Φ} {φ : Φ}
    {Q : Φ → Except Exc β → Prop} {slug : String} {k : Option Restaurant → Async β}
    (h : ∀ w, M.allows φ (.select .restaurants) w w ∧
      M.Accepts Q (k (Rows.get (·.slug.val) slug w.db.restaurants))
        (M.next φ (.select .restaurants) w w))
    (hrefused : nul ∈ slug.toList → ∀ w,
      Q (M.next φ (.select .restaurants) w w) (.error (.db .data))) :
    M.Accepts Q (RestaurantRepository.getBySlug slug >>= k) φ := by
  by_cases hnul : nul ∈ slug.toList
  · have hquery : PgText.ofString slug = .error .data := dif_neg (not_not.mpr hnul)
    refine accepts_selectBound_bind (fun w a hq => ?_) fun w e hq => ?_
    · rw [hquery] at hq
      cases hq
    · rw [hquery] at hq
      cases hq
      exact ⟨(h w).1, hrefused hnul w⟩
  · have hquery : PgText.ofString slug = .ok ⟨slug, hnul⟩ := dif_pos hnul
    refine accepts_selectBound_bind (fun w a hq => ?_) fun w e hq => ?_
    · rw [hquery] at hq
      cases hq
      exact h w
    · rw [hquery] at hq
      cases hq

lemma queries_searchSlug (baseSlug : String) (excludeId : Option Uuid) (fuel counter : ℕ) :
    (searchSlug baseSlug excludeId fuel counter).Queries := by
  induction fuel generalizing counter with
  | zero => exact queries_raise _
  | succ fuel ih =>
    apply (queries_getBySlug _).bind
    intro existing
    split_ifs
    · exact queries_pure _
    · exact ih (counter + 1)

lemma queries_ensureUniqueSlug (fuel : ℕ) (baseSlug : String) (excludeId : Option Uuid) :
    (ensureUniqueSlug fuel baseSlug excludeId).Queries := by
  apply (queries_getBySlug _).bind
  intro existing
  split_ifs
  · exact queries_pure _
  · exact queries_searchSlug _ _ _ _

lemma queries_updatedSlug (fuel : ℕ) (r : Restaurant) (name : Patch (BoundedStr 1 100)) :
    (updatedSlug fuel r name).Queries := by
  rw [updatedSlug]
  split
  · exact queries_pure _
  · exact queries_raise _
  · exact (queries_ensureUniqueSlug _ _ _).bind fun slug => queries_pure _

end RestaurantService

/-! ### Categories -/

namespace CategoryService

lemma queries_verifyRestaurantOwnership (restaurantId ownerUserId : Uuid) :
    (verifyRestaurantOwnership restaurantId ownerUserId).Queries := by
  apply (queries_select _ _).bind
  intro o
  cases o with
  | none => exact queries_http _ _
  | some r =>
    dsimp only
    split_ifs
    · exact queries_http _ _
    · exact queries_pure ()

lemma queries_verifyOrderedIds (restaurantId : Uuid) (ids : List Uuid) :
    (verifyOrderedIds restaurantId ids).Queries := by
  induction ids with
  | nil => exact queries_pure ()
  | cons categoryId ids ih =>
    apply (queries_select _ _).bind
    intro category
    split_ifs
    · exact ih
    · exact queries_http _ _

end CategoryService

lemma CategoryRepository.queries_hasActiveDishes (categoryId : Uuid) :
    (CategoryRepository.hasActiveDishes categoryId).Queries :=
  (queries_select _ _).bind fun _ => queries_pure _

/-! ### Dishes -/

lemma DishRepository.queries_listDishes (P : Platform) (f : DishFilter) (limit offset : ℕ)
    (scan : Scan Dish) : (listDishes P f limit offset scan).Queries :=
  (queries_selectBound _ _).bind fun _ => (queries_selectBound _ _).bind fun _ => queries_pure _

namespace DishService

lemma queries_verifyCategoryOwnership (categoryId : Option Uuid) (ownerUserId : Uuid) :
    (verifyCategoryOwnership categoryId ownerUserId).Queries := by
  apply (queries_select _ _).bind
  intro o
  cases o with
  | none => exact queries_http _ _
  | some category =>
    apply (queries_select _ _).bind
    intro restaurant
    split_ifs
    · exact queries_pure ()
    · exact queries_http _ _

lemma queries_getDish (dishId ownerUserId : Uuid) : (getDish dishId ownerUserId).Queries := by
  apply (queries_select _ _).bind
  intro o
  cases o with
  | none => exact queries_http _ _
  | some dish => exact (queries_verifyCategoryOwnership _ _).bind fun _ => queries_pure dish

end DishService

/-! ### Analytics -/

lemma AnalyticsRepository.queries_query {α : Type} (restaurantId : Uuid)
    (fromDate toDate : Option PyDateTime) (q : List ScanEvent → α) :
    (query restaurantId fromDate toDate q).Queries := by
  rw [query]
  split
  · exact queries_raise _
  · exact queries_select _ _

end LiveMenu
