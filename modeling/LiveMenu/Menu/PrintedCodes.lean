import LiveMenu.Model.Links
import LiveMenu.Menu.Transparency

/-!
# Printed codes

A QR code prints the slug a restaurant has at that moment. A rename releases the slug at once, and
the next restaurant whose name leads to it takes it. As long as no step gives the slug away, the
code shows its own restaurant or nothing.
-/

namespace LiveMenu

open MenuService

/-- A call of `get_menu_by_slug` returns the menu of the restaurant `rid` or a 404. -/
def ShowsOnly (slug : String) (rid : Uuid) (w : World) : Prop :=
  ∀ scan, ((getMenuBySlug scan slug).exec w).1 = .error (notFound slug) ∨
    ∃ menu, ((getMenuBySlug scan slug).exec w).1 = .ok menu ∧ menu.restaurantId = rid

/-- The restaurant exists. -/
def InDatabase (rid : Uuid) (w : World) : Prop := ∃ r ∈ w.db.restaurants, r.id = rid

/-- The step gives a slug to a restaurant other than `rid`: a creation, or a rename of another
restaurant, to a name whose first free candidate is that slug. -/
def TakesSlug (slug : String) (rid : Uuid) (w : World) : Event → Prop
  | .request (.admin v (.restaurantCreate _ data _)) =>
    Rows.get (·.ownerUserId) v w.db.restaurants = none ∧
      ∃ k, w.db.FirstFree (generateSlug data.name.val) none k ∧
        slugCandidate (generateSlug data.name.val) k = slug
  | .request (.admin v (.restaurantUpdate _ data)) =>
    ∃ r name k, Rows.get (·.ownerUserId) v w.db.restaurants = some r ∧ r.id ≠ rid ∧
      data.name = .set name ∧ w.db.FirstFree (generateSlug name.val) (some r.id) k ∧
      slugCandidate (generateSlug name.val) k = slug
  | _ => False

/-- Only the restaurant `rid` has the slug, if any. -/
def HeldOnlyBy (slug : String) (rid : Uuid) (w : World) : Prop :=
  ∀ r ∈ w.db.restaurants, r.slug.val = slug → r.id = rid

/-- A step that does not take the slug leaves it with its restaurant. -/
lemma HeldOnlyBy.step {P : Platform} {slug : String} {rid : Uuid} {w : World} {e : Event}
    (h : HeldOnlyBy slug rid w) (htakes : ¬ TakesSlug slug rid w e) :
    HeldOnlyBy slug rid (e.run P w) := by
  rw [HeldOnlyBy]
  have heff := Event.restaurants_cases P w e
  generalize (e.run P w).db.restaurants = rows at heff ⊢
  cases heff with
  | same => exact h
  | @created v fuel data id k r hnone hslug hrow =>
    intro r' hr' hs
    rcases List.mem_append.mp hr' with hr' | hr'
    · exact h r' hr' hs
    · rw [List.mem_singleton.mp hr', (Restaurant.ofCreate_ok hrow).2.2.1] at hs
      exact absurd ⟨hnone, k, hslug, hs⟩ htakes
  | @updated v fuel data r n s hr hslug hset =>
    intro r' hr' hs
    rcases Rows.mem_modify.mp hr' with ⟨hr', -⟩ | ⟨-, -, -, rfl⟩
    · exact h r' hr' hs
    · rw [Restaurant.saved_id]
      by_contra hne
      rw [Restaurant.saved_slug] at hs
      have hset := (Restaurant.setattrs_ok hset).2.2
      rw [RestaurantService.SlugOfUpdate] at hslug
      cases hname : data.name with
      | unset =>
        rw [hname] at hslug
        subst hslug
        exact hne (h r (Rows.get_mem hr) (by rw [← hset, hs]))
      | null => rw [hname] at hslug; exact hslug
      | set name =>
        rw [hname] at hslug
        obtain ⟨k, hk, rfl⟩ := hslug
        exact htakes ⟨r, name, k, hr, hne, hname, hk, hset.symm.trans hs⟩
  | deleted => exact fun r' hr' hs => h r' (List.mem_filter.mp hr').1 hs

lemma HeldOnlyBy.showsOnly {slug : String} {rid : Uuid} {w : World} (h : HeldOnlyBy slug rid w)
    (hnul : nul ∉ slug.toList) (hfresh : CacheFresh w) : ShowsOnly slug rid w := by
  intro scan
  obtain ⟨-, -, scan', hout⟩ := hfresh.getMenuBySlug scan slug
  rw [hout]
  cases hbuilt : builtMenu scan' slug w.db with
  | none => exact .inl (outcome_none hnul)
  | some menu =>
    obtain ⟨r, hget, hid⟩ := builtMenu_eq_some scan' slug hbuilt
    have hslug := Rows.get_key hget
    exact .inr ⟨menu, rfl, hid.trans (h r (Rows.get_mem hget) hslug)⟩

lemma ShowsOnly.eq {slug : String} {rid rid' : Uuid} {w : World} {scan : MenuScan}
    (h : ShowsOnly slug rid w)
    (hmenu : ((getMenuBySlug scan slug).exec w).1.map (·.restaurantId) = .ok rid') :
    rid' = rid := by
  rcases h scan with h | ⟨menu, h, hid⟩
  · rw [h] at hmenu
    cases hmenu
  · rw [h] at hmenu
    exact (Except.ok.inj hmenu).symm.trans hid

lemma menuUrl_injective : Function.Injective QrRouter.menuUrl :=
  append_right_injective "https://localhost/m/"

/-- The code is printed with the slug of the restaurant of the user. -/
lemma slug_of_getQrCode {w : World} {u : Uuid} {r : Restaurant} {slug : String}
    (hr : Rows.get (·.ownerUserId) u w.db.restaurants = some r)
    (hcode : ((QrRouter.getQrCode u).exec w).1 = .ok (QrRouter.menuUrl slug)) :
    r.slug.val = slug := by
  have hrun : (QrRouter.getQrCode u).exec w = (.ok (QrRouter.menuUrl r.slug.val), w) := by
    rcases RestaurantService.getByOwner_cases w u with ⟨status, detail, -, -, h⟩ | ⟨r', hr', h⟩
    · rw [RestaurantService.getByOwner, RestaurantRepository.getByOwnerId,
        Async.exec_select_bind, hr] at h
      cases h
    · rw [hr] at hr'
      cases hr'
      exact Prog.exec_bind_ok h
  rw [hrun] at hcode
  exact menuUrl_injective (Except.ok.inj hcode)

/-- The slugs are distinct. -/
lemma heldOnlyBy_of_mem {w : World} {r : Restaurant} (hr : r ∈ w.db.restaurants) :
    HeldOnlyBy r.slug.val r.id w := by
  intro r' hr' hs
  rw [Rows.eq_of_key_eq w.db.slugVal_nodup hr' hr hs]

/-- From the printing of a code on, in every run whose steps do not give its slug to another
restaurant while the printed one exists, the link of the code shows that restaurant or a 404 for as
long as it exists; and for good, if nobody takes the slug afterwards either. -/
theorem printed_code_showsOnly (P : Platform) (db : Database) (now : Time)
    (before after : List Event) (u : Uuid) (r : Restaurant) (slug : String)
    (hr : Rows.get (·.ownerUserId) u (runEvents P ⟨db, [], now⟩ before).db.restaurants = some r)
    (hcode : ((QrRouter.getQrCode u).exec (runEvents P ⟨db, [], now⟩ before)).1
      = .ok (QrRouter.menuUrl slug))
    (hsteps : EveryStep P (fun w e => InDatabase r.id w → ¬ TakesSlug slug r.id w e)
      (runEvents P ⟨db, [], now⟩ before) after) :
    (∀ events, events <+: after →
      EveryState P (InDatabase r.id) (runEvents P ⟨db, [], now⟩ before) events →
        ShowsOnly slug r.id (runEvents P (runEvents P ⟨db, [], now⟩ before) events)) ∧
    (EveryStep P (fun w e => ¬ TakesSlug slug r.id w e)
        (runEvents P ⟨db, [], now⟩ before) after →
      EveryState P (ShowsOnly slug r.id) (runEvents P ⟨db, [], now⟩ before) after) := by
  have hfresh : CacheFresh (runEvents P ⟨db, [], now⟩ before) :=
    (cacheFresh_of_empty db now).run before
  have hslug := slug_of_getQrCode hr hcode
  have hshows : ∀ events, EveryStep P (fun w e => ¬ TakesSlug slug r.id w e)
      (runEvents P ⟨db, [], now⟩ before) events →
        EveryState P (ShowsOnly slug r.id) (runEvents P ⟨db, [], now⟩ before) events := by
    intro events hnot
    have hinv : EveryState P (fun w => CacheFresh w ∧ HeldOnlyBy slug r.id w)
        (runEvents P ⟨db, [], now⟩ before) events :=
      hnot.everyState (fun w e hcond hw => ⟨hw.1.run [e], hw.2.step hcond⟩)
        ⟨hfresh, hslug ▸ heldOnlyBy_of_mem (Rows.get_mem hr)⟩
    exact hinv.mono fun w hw => hw.2.showsOnly (hslug ▸ r.slug.fits.2) hw.1
  refine ⟨fun events hpre hexists => ?_, hshows after⟩
  obtain ⟨rest, rfl⟩ := hpre
  exact (hshows events (hexists.everyStep (everyStep_append.mp hsteps).1)).last

/-- A creation by another owner under a new name leaves the code alone. -/
theorem printed_code_showsOnly_casa_bar :
    ShowsOnly "casa" 10 (runEvents Platform.plain (runEvents Platform.plain World.sample
        [.request (.admin 1 (.restaurantCreate 5 { name := ⟨"Casa", by decide⟩ } 10))])
      [.request (.admin 2 (.restaurantCreate 5 { name := ⟨"Bar", by decide⟩ } 20))]) := by
  have hslug : generateSlug "Bar" = "bar" := by decide
  refine (printed_code_showsOnly Platform.plain World.sample.db 0 _
    [.request (.admin 2 (.restaurantCreate 5 { name := ⟨"Bar", by decide⟩ } 20))] 1
    ⟨10, 1, ⟨"Casa", by decide⟩, ⟨"casa", by decide⟩, none, none, none, none, none, 0, 0⟩ "casa"
    rfl rfl ⟨fun _ => ?_, trivial⟩).1 _ List.prefix_rfl
      ⟨⟨_, List.mem_cons_self, rfl⟩, ⟨_, List.mem_cons_self, rfl⟩⟩
  rintro ⟨-, k, hk, hcasa⟩
  -- the slug "bar" is free, so it is the first candidate
  have h0 : Tables.FirstFree (runEvents Platform.plain World.sample
      [.request (.admin 1 (.restaurantCreate 5 { name := ⟨"Casa", by decide⟩ } 10))]).db.toTables
      (generateSlug "Bar") none 0 := by
    refine ⟨?_, fun j hj => absurd hj (Nat.not_lt_zero j)⟩
    rintro ⟨r, hr, hs, -⟩
    cases List.mem_singleton.mp hr
    revert hs
    decide
  rw [hk.unique h0] at hcasa
  revert hcasa
  decide

/-- Ana prints the code of her restaurant and renames it, Luis opens one under the old name: the
code shows the restaurant of Luis while Ana's still exists. -/
theorem printed_code_shows_other_restaurant :
    let printed := runEvents Platform.plain World.sample
      [.request (.admin 1 (.restaurantCreate 5 { name := ⟨"Casa", by decide⟩ } 10))]
    let later := runEvents Platform.plain printed [
      .request (.admin 1 (.restaurantUpdate 5 { name := .set ⟨"Mesa", by decide⟩ })),
      .request (.admin 2 (.restaurantCreate 5 { name := ⟨"Casa", by decide⟩ } 20))]
    ((QrRouter.getQrCode 1).exec printed).1 = .ok (QrRouter.menuUrl "casa") ∧
      later.db.restaurants.map (·.id) = [10, 20] ∧
      ((getMenuBySlug MenuScan.stored "casa").exec later).1.map (·.restaurantId) = .ok 20 ∧
      ¬ ShowsOnly "casa" 10 later := by
  have hmenu : ((getMenuBySlug MenuScan.stored "casa").exec (runEvents Platform.plain
      (runEvents Platform.plain World.sample
        [.request (.admin 1 (.restaurantCreate 5 { name := ⟨"Casa", by decide⟩ } 10))])
      [.request (.admin 1 (.restaurantUpdate 5 { name := .set ⟨"Mesa", by decide⟩ })),
        .request (.admin 2 (.restaurantCreate 5 { name := ⟨"Casa", by decide⟩ } 20))])).1.map
      (·.restaurantId) = .ok (20 : Uuid) := by rfl
  exact ⟨by rfl, by rfl, hmenu, fun h => absurd (h.eq hmenu) (by decide)⟩

end LiveMenu
