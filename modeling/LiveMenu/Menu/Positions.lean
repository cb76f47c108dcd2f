import LiveMenu.Sequential.Menu

/-!
# Where a new item is placed

A new category or dish is to follow the others in its list. `max_position or -1` takes a largest
position of zero for an absent one, so the item after a last position of zero gets position zero
again; in every other list it gets a position past all others.
-/

namespace LiveMenu

/-! ### Lists with positions -/

section

variable {ρ : Type} {pos : ρ → ℤ} {rows : List ρ}

/-- The largest position of the list is zero. -/
def TopsAtZero (pos : ρ → ℤ) (rows : List ρ) : Prop :=
  (∃ r ∈ rows, pos r = 0) ∧ ∀ r ∈ rows, pos r ≤ 0

/-- The position lies past every position of the list. -/
def PastAll (pos : ρ → ℤ) (rows : List ρ) (p : ℤ) : Prop := ∀ r ∈ rows, pos r < p

lemma nextPosition_some_of_ne {m : ℤ} (h : m ≠ 0) : nextPosition (some m) = m + 1 := by
  unfold nextPosition
  split
  · rename_i hnone
    cases hnone
  · rename_i hzero
    exact absurd (Option.some.inj hzero) h
  · rename_i p hp
    rw [Option.some.inj hp]

/-- The next position lies past the list unless the largest position is zero. -/
lemma pastAll_nextPosition_iff :
    PastAll pos rows (nextPosition (rows.map pos).max?) ↔ ¬ TopsAtZero pos rows := by
  cases hmax : (rows.map pos).max? with
  | none =>
    rw [List.max?_eq_none_iff, List.map_eq_nil_iff] at hmax
    subst hmax
    refine iff_of_true (List.forall_mem_nil _) ?_
    rintro ⟨⟨r, hr, -⟩, -⟩
    cases hr
  | some m =>
    obtain ⟨hmem, hle⟩ := List.max?_eq_some_iff.mp hmax
    obtain ⟨r, hr, hm⟩ := List.mem_map.mp hmem
    have hle : ∀ r ∈ rows, pos r ≤ m := fun r hr => hle _ (List.mem_map_of_mem hr)
    by_cases hzero : m = 0
    · subst hzero
      refine iff_of_false (fun h => ?_) (not_not.mpr ⟨⟨r, hr, hm⟩, hle⟩)
      exact absurd (h r hr) (by rw [hm]; exact lt_irrefl 0)
    · rw [nextPosition_some_of_ne hzero]
      refine iff_of_true (fun r hr => Int.lt_add_one_of_le (hle r hr)) ?_
      rintro ⟨⟨r', hr', hr0⟩, htop⟩
      have h1 := hle r' hr'
      have h2 := htop r hr
      omega

@[simp] lemma nextPosition_map_nil : nextPosition (([] : List ρ).map pos).max? = 0 := rfl

/-- A row past all others ends every arrangement by position. -/
lemma getLast?_of_pastAll {l : List ρ} {new : ρ} (h : PastAll pos rows (pos new))
    (hperm : l.Perm (rows ++ [new])) (hsorted : l.Pairwise fun r r' => pos r ≤ pos r') :
    l.getLast? = some new := by
  have hne : l ≠ [] := by
    rintro rfl
    exact absurd hperm.symm.eq_nil (by simp)
  rw [List.getLast?_eq_getLast_of_ne_nil hne, Option.some.injEq]
  have hmem : new ∈ l := hperm.mem_iff.mpr (by simp)
  have hle : pos new ≤ pos (l.getLast hne) := by
    rw [← List.dropLast_append_getLast hne] at hmem hsorted
    rcases List.mem_append.mp hmem with hmem | hmem
    · exact (List.pairwise_append.mp hsorted).2.2 new hmem _ (by simp)
    · rw [List.mem_singleton.mp hmem]
  rcases List.mem_append.mp (hperm.mem_iff.mp (List.getLast_mem hne)) with hlast | hlast
  · exact absurd (h _ hlast) (not_lt.mpr hle)
  · exact List.mem_singleton.mp hlast

end

/-! ### The lists of the code -/

namespace Tables

/-- The categories of a restaurant. -/
def categoriesOf (t : Tables) (restaurantId : Uuid) : List Category :=
  t.categories.filter fun c => c.restaurantId = restaurantId

/-- The dishes of a category that are not deleted. -/
def dishesOf (t : Tables) (categoryId : Uuid) : List Dish :=
  t.dishes.filter fun d => d.categoryId = categoryId ∧ d.deletedAt.isNone

end Tables

def Category.place (c : Category) : ℤ := c.position.val

def Dish.place (d : Dish) : ℤ := d.position.val

variable {w w' : World} {u id : Uuid}

/-- A created category is added to its restaurant at the next position. -/
lemma CategoryService.create_place {data : CategoryCreate} {c : Category}
    (h : (create u data id).exec w = (.ok c, w')) :
    ∃ r, Rows.get (·.ownerUserId) u w.db.restaurants = some r ∧ c.restaurantId = r.id ∧
      c.place = nextPosition ((w.db.categoriesOf r.id).map Category.place).max? ∧
      w'.db.categoriesOf r.id = w.db.categoriesOf r.id ++ [c] := by
  rcases exec_create w u data id with ⟨-, status, detail, -, -, hrej⟩ | ⟨r, hr, hx⟩
  · rw [hrej] at h
    cases h
  · rw [hx] at h
    rcases CategoryRepository.create_placed w r.id data.name data.description data.active id with
      ⟨e, hfail⟩ | ⟨c', db, hc, ht, hok⟩
    · rw [Prog.exec_bind_error hfail] at h
      cases h
    · rw [exec_then_flush hok] at h
      cases h
      obtain ⟨-, hcr, hp, -, -⟩ := Category.ofCreate_ok hc
      refine ⟨r, hr, hcr, hp, ?_⟩
      simp only [World.flushed, Tables.categoriesOf, ht, List.filter_append]
      rw [List.filter_singleton, hcr]
      simp

/-- A created dish is added to its category at the next position. -/
lemma DishService.create_place {data : DishCreate} {d : Dish}
    (h : (create u data id).exec w = (.ok d, w')) :
    d.categoryId = data.categoryId ∧
      d.place = nextPosition ((w.db.dishesOf data.categoryId).map Dish.place).max? ∧
      w'.db.dishesOf data.categoryId = w.db.dishesOf data.categoryId ++ [d] := by
  rcases exec_create w u data id with ⟨-, status, detail, -, -, hrej⟩ | ⟨-, hx⟩
  · rw [hrej] at h
    cases h
  · rw [hx] at h
    rcases DishRepository.create_placed w data id with ⟨e, hfail⟩ | ⟨d', db, hd, ht, hok⟩
    · rw [Prog.exec_bind_error hfail] at h
      cases h
    · rw [exec_then_flush hok] at h
      cases h
      obtain ⟨-, hdc, hp, -, -, hlive⟩ := Dish.ofCreate_ok hd
      refine ⟨hdc, hp, ?_⟩
      simp only [World.flushed, Tables.dishesOf, ht, List.filter_append]
      rw [List.filter_singleton, hdc, hlive]
      simp

/-! ### Creations -/

/-- The new item stands past the others, it ends the list in every order by position, and it is at
zero if it is the first. -/
structure Appended {ρ : Type} (pos : ρ → ℤ) (rows rows' : List ρ) (new : ρ) : Prop where
  past : PastAll pos rows (pos new)
  last : ∀ l : List ρ, l.Perm rows' → (l.Pairwise fun r r' => pos r ≤ pos r') →
    l.getLast? = some new
  first : rows = [] → pos new = 0

lemma appended_iff {ρ : Type} {pos : ρ → ℤ} {rows rows' : List ρ} {new : ρ}
    (hplace : pos new = nextPosition (rows.map pos).max?) (hrows : rows' = rows ++ [new]) :
    Appended pos rows rows' new ↔ ¬ TopsAtZero pos rows := by
  constructor
  · intro h
    rw [← pastAll_nextPosition_iff, ← hplace]
    exact h.past
  · intro h
    have hpast : PastAll pos rows (pos new) := hplace ▸ pastAll_nextPosition_iff.mpr h
    refine ⟨hpast, fun l hperm hsorted => getLast?_of_pastAll hpast (hrows ▸ hperm) hsorted, ?_⟩
    rintro rfl
    exact hplace

lemma CategoryService.create_appended_iff {data : CategoryCreate} {c : Category}
    (h : (create u data id).exec w = (.ok c, w')) :
    Appended Category.place (w.db.categoriesOf c.restaurantId) (w'.db.categoriesOf c.restaurantId) c
      ↔ ¬ TopsAtZero Category.place (w.db.categoriesOf c.restaurantId) := by
  obtain ⟨r, -, hcr, hplace, hrows⟩ := create_place h
  rw [hcr]
  exact appended_iff hplace hrows

lemma DishService.create_appended_iff {data : DishCreate} {d : Dish}
    (h : (create u data id).exec w = (.ok d, w')) :
    Appended Dish.place (w.db.dishesOf d.categoryId) (w'.db.dishesOf d.categoryId) d
      ↔ ¬ TopsAtZero Dish.place (w.db.dishesOf d.categoryId) := by
  obtain ⟨hdc, hplace, hrows⟩ := create_place h
  rw [hdc]
  exact appended_iff hplace hrows

/-- The event asks for an item in a list whose largest position is zero. -/
def CreatesAfterZero (w : World) : Event → Prop
  | .request (.admin u (.categoryCreate _ _)) =>
    ∃ r, Rows.get (·.ownerUserId) u w.db.restaurants = some r ∧
      TopsAtZero Category.place (w.db.categoriesOf r.id)
  | .request (.admin _ (.dishCreate data _)) =>
    TopsAtZero Dish.place (w.db.dishesOf data.categoryId)
  | _ => False

/-- The item that the event creates, if it does, is appended to its list. -/
def CreatesLast (w : World) : Event → Prop
  | .request (.admin u (.categoryCreate data id)) =>
    ∀ c w', (CategoryService.create u data id).exec w = (.ok c, w') →
      Appended Category.place (w.db.categoriesOf c.restaurantId)
        (w'.db.categoriesOf c.restaurantId) c
  | .request (.admin u (.dishCreate data id)) =>
    ∀ d w', (DishService.create u data id).exec w = (.ok d, w') →
      Appended Dish.place (w.db.dishesOf d.categoryId) (w'.db.dishesOf d.categoryId) d
  | _ => True

lemma createsLast_of_not_afterZero {w : World} {e : Event} (h : ¬ CreatesAfterZero w e) :
    CreatesLast w e := by
  simp only [CreatesLast]
  split
  · intro c w' hx
    obtain ⟨r, hr, hcr, -, -⟩ := CategoryService.create_place hx
    refine (CategoryService.create_appended_iff hx).mpr fun htop => h ⟨r, hr, ?_⟩
    rwa [hcr] at htop
  · intro d w' hx
    refine (DishService.create_appended_iff hx).mpr fun htop => h ?_
    rwa [(DishService.create_place hx).1] at htop
  · trivial

/-- In every run a created item is appended exactly if the largest position of its list was not
zero; so it is in every run that never creates an item after a largest position of zero. -/
theorem creation_appends_iff (P : Platform) (w : World) (events : List Event) :
    (EveryStep P (fun w e => ¬ CreatesAfterZero w e) w events →
      EveryStep P CreatesLast w events) ∧
    (∀ u data id c w',
      (CategoryService.create u data id).exec (runEvents P w events) = (.ok c, w') →
      (Appended Category.place ((runEvents P w events).db.categoriesOf c.restaurantId)
          (w'.db.categoriesOf c.restaurantId) c ↔
        ¬ TopsAtZero Category.place ((runEvents P w events).db.categoriesOf c.restaurantId))) ∧
    (∀ u data id d w', (DishService.create u data id).exec (runEvents P w events) = (.ok d, w') →
      (Appended Dish.place ((runEvents P w events).db.dishesOf d.categoryId)
          (w'.db.dishesOf d.categoryId) d ↔
        ¬ TopsAtZero Dish.place ((runEvents P w events).db.dishesOf d.categoryId))) := by
  refine ⟨fun h => h.mono fun w e => createsLast_of_not_afterZero, ?_, ?_⟩
  · intro u data id c w' hx
    exact CategoryService.create_appended_iff hx
  · intro u data id d w' hx
    exact DishService.create_appended_iff hx

/-- The second category of a restaurant. -/
def postres : CategoryCreate := { name := ⟨"Postres", by decide⟩ }

/-- The second category is placed where the first one is. -/
theorem second_category_not_appended :
    ¬ CreatesLast sopaServed (.request (.admin 1 (.categoryCreate postres 21))) := by
  intro h
  have hplace : (((CategoryService.create 1 postres 21).exec sopaServed).1.map fun c =>
      (c.restaurantId, c.place)).toOption = some (10, 0) := by
    decide +kernel
  rcases hx : (CategoryService.create 1 postres 21).exec sopaServed with ⟨r, w'⟩
  rw [hx] at hplace
  cases r with
  | error e => cases hplace
  | ok c =>
    obtain ⟨hcr, hc⟩ : c.restaurantId = 10 ∧ c.place = 0 :=
      Prod.mk.inj (Option.some.inj hplace)
    have hpast := (h c w' hx).past
    rw [hcr, hc] at hpast
    have hfirst : ∃ c ∈ sopaServed.db.categoriesOf 10, c.place = 0 := by decide +kernel
    obtain ⟨c', hc', hzero⟩ := hfirst
    exact absurd (hpast c' hc') (by rw [hzero]; exact lt_irrefl 0)

end LiveMenu
