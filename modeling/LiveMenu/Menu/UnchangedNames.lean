import LiveMenu.Writes.AcceptedBodies
import LiveMenu.Sequential.Menu

/-!
# Saving an unchanged name

A slug is a candidate for the name of its restaurant, the first one that was free when it was last
computed. An update whose body has the stored name computes it again, and the restaurants that took
the earlier candidates may be gone by then.
-/

namespace LiveMenu

/-! ### Slugs and names -/

lemma Restaurant.saved_name (old new : Restaurant) (now : Time) :
    (old.saved new now).name = new.name :=
  column_saved Restaurant.name (fun h => by rw [h]) (flushColumn_self old.name new.name)

lemma Restaurant.setattrs_name {r r' : Restaurant} {data : RestaurantUpdate} {slug : Option String}
    (h : r.setattrs data slug = .ok r') :
    (data.name = .unset → r'.name = r.name) ∧
      ∀ name, data.name = .set name → r'.name.val = name.val := by
  simp only [setattrs, Except.bind_eq_ok_iff, Except.pure_eq_ok, Except.ok.injEq] at h
  obtain ⟨n, hn, d, -, l, -, p, -, a, -, j, -, s, -, rfl⟩ := h
  rw [setNotNull] at hn
  constructor
  · intro hname
    rw [hname] at hn
    exact (Except.ok.inj hn).symm
  · intro name hname
    rw [hname] at hn
    exact Varchar.val_of_ofString hn

/-- The slug is one of the candidates for the name. -/
def Restaurant.SlugFromName (r : Restaurant) : Prop :=
  ∃ k, r.slug.val = slugCandidate (generateSlug r.name.val) k

/-- Every slug is one of the candidates for the name of its restaurant. -/
def SlugsFromNames (rows : List Restaurant) : Prop := ∀ r ∈ rows, r.SlugFromName

lemma Restaurant.SlugFromName.saved {w : World} {data : RestaurantUpdate} {r n : Restaurant}
    {slug : Option String} (h : r.SlugFromName)
    (hslug : RestaurantService.SlugOfUpdate w r data slug) (hset : r.setattrs data slug = .ok n) :
    (r.saved n w.now).SlugFromName := by
  rw [SlugFromName, saved_slug, saved_name]
  have hs := (setattrs_ok hset).2.2
  have hn := setattrs_name hset
  rw [RestaurantService.SlugOfUpdate] at hslug
  cases hname : data.name with
  | unset =>
    rw [hname] at hslug
    subst hslug
    rw [hs, hn.1 hname]
    exact h
  | null =>
    rw [hname] at hslug
    exact hslug.elim
  | set name =>
    rw [hname] at hslug
    obtain ⟨k, -, rfl⟩ := hslug
    rw [hn.2 name hname]
    exact ⟨k, hs⟩

lemma SlugsFromNames.step {P : Platform} {w : World} (h : SlugsFromNames w.db.restaurants)
    (e : Event) : SlugsFromNames (e.run P w).db.restaurants := by
  have heff := Event.restaurants_cases P w e
  generalize (e.run P w).db.restaurants = rows at heff ⊢
  cases heff with
  | same => exact h
  | @created v fuel data id k r hnone hslug hrow =>
    intro r' hr'
    rcases List.mem_append.mp hr' with hr' | hr'
    · exact h r' hr'
    · obtain ⟨-, -, hs, hn⟩ := Restaurant.ofCreate_ok hrow
      rw [List.mem_singleton.mp hr', Restaurant.SlugFromName, hn]
      exact ⟨k, hs⟩
  | @updated v fuel data r n slug hr hslug hset =>
    intro r' hr'
    rcases Rows.mem_modify.mp hr' with ⟨hr', -⟩ | ⟨-, -, -, rfl⟩
    · exact h r' hr'
    · exact (h r (Rows.get_mem hr)).saved hslug hset
  | deleted => exact fun r' hr' => h r' (List.mem_filter.mp hr').1

/-! ### The update -/

/-- Each candidate before the slug of the restaurant is the slug of another restaurant. -/
def Tables.EarlierSlugsTaken (t : Tables) (r : Restaurant) : Prop :=
  ∀ k, r.slug.val = slugCandidate (generateSlug r.name.val) k →
    ∀ j < k, t.SlugTaken (slugCandidate (generateSlug r.name.val) j) (some r.id)

/-- The slug of a restaurant is taken by no other one. -/
lemma Database.not_slugTaken_self {db : Database} {r : Restaurant} (hr : r ∈ db.restaurants) :
    ¬ db.SlugTaken r.slug.val (some r.id) := by
  rintro ⟨r', hr', hslug, hne⟩
  exact hne (by rw [Rows.eq_of_key_eq db.slugVal_nodup hr' hr hslug])

/-- The first free candidate is the slug if and only if the earlier ones are taken. -/
lemma Tables.FirstFree.eq_slug_iff {db : Database} {r : Restaurant} {k : ℕ}
    (hr : r ∈ db.restaurants) (hfrom : r.SlugFromName)
    (hk : db.FirstFree (generateSlug r.name.val) (some r.id) k) :
    slugCandidate (generateSlug r.name.val) k = r.slug.val ↔ db.EarlierSlugsTaken r := by
  constructor
  · intro heq i hi j hj
    have : i = k := slugCandidate_injective _ (hi.symm.trans heq.symm)
    subst this
    exact hk.2 j hj
  · intro htaken
    obtain ⟨i, hi⟩ := hfrom
    have hfirst : db.FirstFree (generateSlug r.name.val) (some r.id) i := by
      refine ⟨?_, htaken i hi⟩
      rw [← hi]
      exact db.not_slugTaken_self hr
    rw [hk.unique hfirst, hi]

/-- What the restaurant of a user has for a slug. -/
def slugOfOwner (u : Uuid) (rows : List Restaurant) : Option String :=
  (Rows.get (·.ownerUserId) u rows).map (·.slug.val)

/-- Two users have named their restaurants alike. -/
def tapasTwice : World := runEvents Platform.plain World.sample [
  .request (.admin 1 (.restaurantCreate 5 { name := ⟨"Tapas", by decide⟩ } 10)),
  .request (.admin 2 (.restaurantCreate 5 { name := ⟨"Tapas", by decide⟩ } 11))]

/-- The form of the second restaurant, sent as it was loaded. -/
def tapasForm : RestaurantUpdate := { name := .set ⟨"Tapas", by decide⟩ }

namespace RestaurantService

/-- With a name in the body the update is the one of the repository, with the first free candidate
for its slug. -/
lemma exec_update_set {w : World} {u : Uuid} {r : Restaurant}
    (hr : Rows.get (·.ownerUserId) u w.db.restaurants = some r) {data : RestaurantUpdate}
    {name : BoundedStr 1 100} (hname : data.name = .set name) {fuel : ℕ}
    (hfuel : w.db.restaurants.length ≤ fuel) :
    ∃ k, w.db.FirstFree (generateSlug name.val) (some r.id) k ∧
      (update fuel u data).exec w = (do
        let restaurant ← RestaurantRepository.update r data
          (some (slugCandidate (generateSlug name.val) k))
        Async.cacheInvalidatePrefix "menu:"
        return restaurant : Async Restaurant).exec w := by
  obtain ⟨k, hk, hx⟩ :=
    exec_ensureUniqueSlug w _ (some r.id) (nul_not_mem_generateSlug name.val) hfuel
  refine ⟨k, hk, ?_⟩
  have hget : (getByOwner u).exec w = (.ok r, w) := by
    simp only [getByOwner, RestaurantRepository.getByOwnerId, Async.exec_select_bind, hr]
    rfl
  rw [update, Prog.exec_bind_ok hget, hname, updatedSlug, Patch.value,
    Prog.exec_bind_ok (Prog.exec_bind_ok hx)]

/-- After every run that starts without restaurants, an update that saves the stored name leaves
the slug as it is if and only if it fails on a value no column holds, or every candidate before
the slug is taken by another restaurant. -/
theorem update_keeps_slug_iff (P : Platform) {start : World} (hstart : start.db.restaurants = [])
    (events : List Event) {w : World} (hw : w = runEvents P start events) {u : Uuid}
    {r : Restaurant} (hr : Rows.get (·.ownerUserId) u w.db.restaurants = some r)
    {data : RestaurantUpdate} {name : BoundedStr 1 100} (hname : data.name = .set name)
    (hsame : name.val = r.name.val) {fuel : ℕ} (hfuel : w.db.restaurants.length ≤ fuel) :
    slugOfOwner u ((update fuel u data).exec w).2.db.restaurants = some r.slug.val ↔
      ¬ data.Storable ∨ w.db.EarlierSlugsTaken r := by
  have hmem := Rows.get_mem hr
  have hfrom : r.SlugFromName := by
    have hall : SlugsFromNames w.db.restaurants := by
      rw [hw]
      refine runEvents_invariant (I := fun w => SlugsFromNames w.db.restaurants)
        (fun w e h => h.step e) ?_ events
      rw [hstart]
      exact List.forall_mem_nil _
    exact hall r hmem
  obtain ⟨k, hk, hx⟩ := exec_update_set hr hname hfuel
  have hstorable : (∃ n, r.setattrs data (some (slugCandidate (generateSlug name.val) k)) = .ok n) ↔
      data.Storable := by
    apply Restaurant.setattrs_isOk_iff
    intro s hs
    cases hs
    exact ⟨hk.length_le, not_mem_slugCandidate (by decide) name.val k⟩
  have hisOk : (∃ a, ((RestaurantRepository.update r data
      (some (slugCandidate (generateSlug name.val) k))).exec w).1 = .ok a) ↔ _ :=
    RestaurantRepository.update_isOk_iff w hmem fun s hs => by
      cases hs
      exact hk.1
  rw [hsame] at hk
  rcases RestaurantRepository.update_cases w hmem data
      (some (slugCandidate (generateSlug name.val) k)) with ⟨e, h⟩ | ⟨n, db, hn, ht, h⟩
  · -- the commit failed: nothing changed, and the body was at fault
    have hnot : ¬ data.Storable := by
      rw [← hstorable, ← hisOk, h]
      rintro ⟨a, ha⟩
      cases ha
    rw [hx, Prog.exec_bind_error h, slugOfOwner, hr]
    exact iff_of_true rfl (.inl hnot)
  · have hslug : n.slug.val = slugCandidate (generateSlug r.name.val) k := by
      rw [← hsame]
      exact (Restaurant.setattrs_ok hn).2.2
    have hget : Rows.get (·.ownerUserId) u db.restaurants = some (r.saved n w.now) := by
      have hin : r.saved n w.now ∈ db.restaurants := by
        rw [ht]
        exact Rows.mem_modify.mpr (.inr ⟨r, hmem, rfl, rfl⟩)
      have hkey := Rows.get_key hr
      have := Rows.get_of_mem db.valid.restaurantOwner hin
      rwa [Restaurant.saved_ownerUserId, hkey] at this
    have hok : data.Storable := hstorable.mp ⟨n, hn⟩
    rw [hx, exec_then_flush h]
    simp only [World.flushed, slugOfOwner, hget, Option.map_some, Option.some.injEq,
      Restaurant.saved_slug, hslug, hok, not_true_eq_false, false_or]
    exact hk.eq_slug_iff hmem hfrom

/-- While the first restaurant is there, the second keeps its slug. -/
theorem update_keeps_slug_iff_tapas :
    slugOfOwner 2 ((update 5 2 tapasForm).exec tapasTwice).2.db.restaurants = some "tapas-1" := by
  let r : Restaurant :=
    ⟨11, 2, ⟨"Tapas", by decide⟩, ⟨"tapas-1", by decide⟩, none, none, none, none, none, 0, 0⟩
  have hr : Rows.get (·.ownerUserId) 2 tapasTwice.db.restaurants = some r := by decide +kernel
  have hempty : World.sample.db.restaurants = [] := rfl
  have hname : tapasForm.name = .set ⟨"Tapas", by decide⟩ := rfl
  refine (update_keeps_slug_iff Platform.plain hempty _ rfl hr hname rfl
    (by decide +kernel)).mpr (.inr ?_)
  intro k hk j hj
  have hone : r.slug.val = slugCandidate (generateSlug r.name.val) 1 := by decide +kernel
  have : k = 1 := slugCandidate_injective _ (hk.symm.trans hone)
  obtain rfl : j = 0 := by omega
  have hfirst : (tapasTwice.db.restaurants.map fun r => (r.slug.val, r.id)).head?
      = some ("tapas", 10) := by decide +kernel
  obtain ⟨r', hr', heq⟩ := List.mem_map.mp (List.mem_of_mem_head? hfirst)
  rw [Prod.mk.injEq] at heq
  refine ⟨r', hr', heq.1.trans (by decide +kernel), ?_⟩
  rw [heq.2]
  decide

/-- Once the first restaurant is gone, saving the same form moves the second to another slug. -/
theorem update_moves_slug :
    let w := runEvents Platform.plain tapasTwice [.request (.admin 1 .restaurantDelete)]
    (w.db.restaurants.map fun r => (r.ownerUserId, r.name.val, r.slug.val))
        = [(2, "Tapas", "tapas-1")] ∧
      ((update 5 2 tapasForm).exec w).2.db.restaurants.map
          (fun r => (r.ownerUserId, r.name.val, r.slug.val)) = [(2, "Tapas", "tapas")] := by
  decide +kernel

end RestaurantService

end LiveMenu
