import LiveMenu.Model.Links
import LiveMenu.Menu.Transparency

/-!
# Which restaurants have a working link

A link works if the slug is one segment of a path that clients send as it is. The base slug of
a name can be empty, `.` or `..`; a suffix repairs that, so only the first restaurant with such
a name is out of reach.
-/

namespace LiveMenu

open MenuService

/-! ### Segments that arrive -/

/-- The slug is one segment of a path and no dot segment. -/
structure RoutableSlug (slug : String) : Prop where
  nonempty : slug ≠ ""
  segment : '/' ∉ slug.toList
  dot : slug ≠ "."
  dotDot : slug ≠ ".."

lemma pathSegments_ne_nil (s : List Char) : pathSegments s ≠ [] := by
  cases s with
  | nil => exact List.cons_ne_nil _ _
  | cons c s =>
    rw [pathSegments]
    split_ifs
    · exact List.cons_ne_nil _ _
    · split <;> exact List.cons_ne_nil _ _

lemma pathSegments_append_slash (s t : List Char) :
    pathSegments (s ++ '/' :: t) = pathSegments s ++ pathSegments t := by
  induction s with
  | nil => simp [pathSegments]
  | cons c s ih =>
    rw [List.cons_append, pathSegments, pathSegments, ih]
    split_ifs with hc
    · rfl
    · cases hs : pathSegments s with
      | nil => exact absurd hs (pathSegments_ne_nil s)
      | cons u us => rfl

lemma pathSegments_of_segment {s : List Char} (h : '/' ∉ s) : pathSegments s = [s] := by
  induction s with
  | nil => rfl
  | cons c s ih =>
    rw [List.mem_cons, not_or] at h
    rw [pathSegments, if_neg (Ne.symm h.1), ih h.2]

/-- Without dot segments there is nothing to remove. -/
lemma removeDotSegments_of_no_dots {done path : List (List Char)}
    (h : ∀ s ∈ path, s ≠ ['.'] ∧ s ≠ ['.', '.']) :
    removeDotSegments done path = done.reverse ++ path := by
  induction path generalizing done with
  | nil => simp [removeDotSegments]
  | cons s path ih =>
    obtain ⟨hdot, hdots⟩ := h s List.mem_cons_self
    rw [removeDotSegments, if_neg hdot, if_neg hdots,
      ih fun t ht => h t (List.mem_cons_of_mem s ht), List.reverse_cons, List.append_assoc]
    rfl

/-- A routable slug arrives at the route its link names. -/
lemma followLink_of_routable {pre slug : String}
    (hpre : ∀ s ∈ pathSegments pre.toList, s ≠ ['.'] ∧ s ≠ ['.', '.']) (h : RoutableSlug slug) :
    followLink pre slug = some slug := by
  have hslug : slug.toList ≠ ['.'] ∧ slug.toList ≠ ['.', '.'] :=
    ⟨fun hs => h.dot (String.toList_injective hs), fun hs => h.dotDot (String.toList_injective hs)⟩
  have hne : slug.toList ≠ [] := fun hs => h.nonempty (String.toList_injective hs)
  rw [followLink, pathSegments_append_slash, pathSegments_of_segment h.segment,
    removeDotSegments_of_no_dots]
  · simp [routeParameter, hne]
  · intro s hs
    rcases List.mem_append.mp hs with hs | hs
    · exact hpre s hs
    · rw [List.mem_singleton.mp hs]
      exact hslug

/-! ### The slugs that are stored -/

/-- The base slug of a name is no path segment. -/
def Unroutable (baseSlug : String) : Prop := baseSlug = "" ∨ baseSlug = "." ∨ baseSlug = ".."

/-- A candidate is routable exactly if it has a suffix or its base slug is routable. -/
lemma routableSlug_slugCandidate_iff (name : String) (k : ℕ) :
    RoutableSlug (slugCandidate (generateSlug name) k) ↔
      k ≠ 0 ∨ ¬ Unroutable (generateSlug name) := by
  have hsegment := not_mem_slugCandidate (c := '/') (by decide) name k
  cases k with
  | zero =>
    simp only [slugCandidate, Unroutable, ne_eq, not_true_eq_false, false_or, not_or] at hsegment ⊢
    exact ⟨fun h => ⟨h.nonempty, h.dot, h.dotDot⟩, fun h => ⟨h.1, hsegment, h.2.1, h.2.2⟩⟩
  | succ k =>
    -- the hyphen of the suffix is in none of the three
    have hyphen : '-' ∈ (slugCandidate (generateSlug name) (k + 1)).toList := by
      rw [slugCandidate, suffixed_toList]
      exact List.mem_append_right _ List.mem_cons_self
    refine iff_of_true ⟨?_, hsegment, ?_, ?_⟩ (.inl k.succ_ne_zero) <;>
    · intro h
      rw [h] at hyphen
      revert hyphen
      decide

/-! ### Every restaurant of a run -/

/-- Both public routes lead from the slug of the restaurant to its menu. -/
structure PubliclyReachable (w : World) (r : Restaurant) : Prop where
  routable : RoutableSlug r.slug.val
  page : followLink "m" r.slug.val = some r.slug.val
  api : followLink "api/v1/menu" r.slug.val = some r.slug.val
  menu : ∀ scan, ∃ menu, ((getMenuBySlug scan r.slug.val).exec w).1 = .ok menu ∧
    menu.restaurantId = r.id

/-- A creation or a rename that is not rejected for its owner has a name whose base slug is a path
segment. -/
def NamesRoutable (w : World) : Event → Prop
  | .request (.admin v (.restaurantCreate _ data _)) =>
    Rows.get (·.ownerUserId) v w.db.restaurants = none → ¬ Unroutable (generateSlug data.name.val)
  | .request (.admin v (.restaurantUpdate _ data)) =>
    ∀ name, data.name = .set name → (Rows.get (·.ownerUserId) v w.db.restaurants).isSome →
      ¬ Unroutable (generateSlug name.val)
  | _ => True

/-- Every stored slug is routable. -/
def SlugsRoutable (w : World) : Prop := ∀ r ∈ w.db.restaurants, RoutableSlug r.slug.val

lemma SlugsRoutable.step {P : Platform} {w : World} {e : Event} (h : SlugsRoutable w)
    (hnames : NamesRoutable w e) : SlugsRoutable (e.run P w) := by
  rw [SlugsRoutable]
  have heff := Event.restaurants_cases P w e
  generalize (e.run P w).db.restaurants = rows at heff ⊢
  cases heff with
  | same => exact h
  | @created v fuel data id k r hnone hslug hrow =>
    intro r' hr'
    rcases List.mem_append.mp hr' with hr' | hr'
    · exact h r' hr'
    · rw [List.mem_singleton.mp hr', (Restaurant.ofCreate_ok hrow).2.2.1]
      exact (routableSlug_slugCandidate_iff _ _).mpr (.inr (hnames hnone))
  | @updated v fuel data r n s hr hslug hset =>
    intro r' hr'
    rcases Rows.mem_modify.mp hr' with ⟨hr', -⟩ | ⟨-, -, -, rfl⟩
    · exact h r' hr'
    · rw [Restaurant.saved_slug]
      have hset := (Restaurant.setattrs_ok hset).2.2
      rw [RestaurantService.SlugOfUpdate] at hslug
      cases hname : data.name with
      | unset =>
        rw [hname] at hslug
        subst hslug
        rw [hset]
        exact h r (Rows.get_mem hr)
      | null => rw [hname] at hslug; exact hslug.elim
      | set name =>
        rw [hname] at hslug
        obtain ⟨k, hk, rfl⟩ := hslug
        rw [hset]
        refine (routableSlug_slugCandidate_iff _ _).mpr (.inr (hnames name hname ?_))
        rw [hr]
        rfl
  | deleted => exact fun r' hr' => h r' (List.mem_filter.mp hr').1

lemma publiclyReachable_of_routable {w : World} {r : Restaurant} (hr : r ∈ w.db.restaurants)
    (h : RoutableSlug r.slug.val) (hfresh : CacheFresh w) : PubliclyReachable w r where
  routable := h
  page := followLink_of_routable (by decide) h
  api := followLink_of_routable (by decide) h
  menu := by
    intro scan
    obtain ⟨-, -, scan', hout⟩ := hfresh.getMenuBySlug scan r.slug.val
    have hget := Rows.get_of_mem w.db.slugVal_nodup hr
    rw [hout, builtMenu, hget]
    exact ⟨_, rfl, rfl⟩

/-- In every run whose creations and renames have names with a routable base slug, every
restaurant is publicly reachable at every point. -/
theorem restaurants_publiclyReachable (P : Platform) (now : Time) (events : List Event)
    (hnames : EveryStep P NamesRoutable ⟨Database.empty, [], now⟩ events) :
    EveryState P (fun w => ∀ r ∈ w.db.restaurants, PubliclyReachable w r)
      ⟨Database.empty, [], now⟩ events := by
  have hinv : EveryState P (fun w => CacheFresh w ∧ SlugsRoutable w) ⟨Database.empty, [], now⟩
      events :=
    hnames.everyState (fun w e hcond hw => ⟨hw.1.run [e], hw.2.step hcond⟩)
      ⟨cacheFresh_of_empty Database.empty now, List.forall_mem_nil _⟩
  exact hinv.mono fun w hw r hr => publiclyReachable_of_routable hr (hw.2 r hr) hw.1

theorem restaurants_publiclyReachable_cafe :
    EveryState Platform.plain (fun w => ∀ r ∈ w.db.restaurants, PubliclyReachable w r)
      ⟨Database.empty, [], 0⟩ [registerAna,
        .request (.admin 1 (.restaurantCreate 5 { name := ⟨"Café 日本", by decide⟩ } 10))] :=
  restaurants_publiclyReachable Platform.plain 0 _
    ⟨trivial, fun _ h => absurd h (by unfold Unroutable; decide), trivial⟩

/-- A name without ASCII letters, digits and periods is accepted and gives the empty slug. -/
theorem restaurant_without_link :
    let w := runEvents Platform.plain ⟨Database.empty, [], 0⟩ [registerAna,
      .request (.admin 1 (.restaurantCreate 5 { name := ⟨"日本", by decide⟩ } 10))]
    w.db.restaurants.map (fun r => (r.id, r.name.val, r.slug.val)) = [(10, "日本", "")] ∧
      followLink "m" "" = none ∧
      ¬ ∀ r ∈ w.db.restaurants, PubliclyReachable w r := by
  refine ⟨by rfl, by decide, fun h => ?_⟩
  exact (h ⟨10, 1, ⟨"日本", by decide⟩, ⟨"", by decide⟩, none, none, none, none, none, 0, 0⟩
    List.mem_cons_self).routable.nonempty rfl

end LiveMenu
