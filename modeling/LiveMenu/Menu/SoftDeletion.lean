import LiveMenu.Menu.Content
import LiveMenu.Menu.Transparency

/-!
# Soft deletion is final

A deleted dish keeps its row, and no operation touches the row again: every one asks for a dish that
is not deleted. The row goes with its category or its restaurant.
-/

namespace LiveMenu

open MenuService

/-! ### Dishes over a run -/

/-- What an event does to the dishes. -/
inductive DishesEffect (P : Platform) (w : World) : Event → List Dish → Prop
  | same (e : Event) : DishesEffect P w e w.db.dishes
  | created {v : Uuid} {data : DishCreate} {id : Uuid} {d : Dish} (hid : d.id = id) :
      DishesEffect P w (.request (.admin v (.dishCreate data id))) (w.db.dishes ++ [d])
  | saved {e : Event} {d n : Dish} (hd : d ∈ w.db.dishes) (hlive : d.deletedAt = none) :
      DishesEffect P w e (Rows.modify (·.id) d.id (fun _ => d.saved n w.now) w.db.dishes)
  | cascaded {e : Event} {gone : List Uuid}
      (hgone : ∀ c ∈ (e.run P w).db.categories, c.id ∉ gone) :
      DishesEffect P w e (w.db.dishes.filter fun d => d.categoryId ∉ gone)

lemma DishService.OwnsDish.saved {P : Platform} {w : World} {u dishId : Uuid} {d n : Dish}
    {e : Event} (hd : DishService.OwnsDish w u dishId d) :
    DishesEffect P w e (Rows.modify (·.id) d.id (fun _ => d.saved n w.now) w.db.dishes) :=
  .saved (Rows.get_mem hd.get) hd.live

/-- No category that is left was one of the restaurant. -/
lemma Tables.not_mem_cascaded {t : Tables} (h : t.Constraints) (rid : Uuid) :
    ∀ c ∈ t.categories.filter fun c => c.restaurantId ≠ rid,
      c.id ∉ (t.categories.filter fun c => c.restaurantId = rid).map (·.id) := by
  intro c hc hmem
  obtain ⟨c', hc', hid⟩ := List.mem_map.mp hmem
  rw [List.mem_filter, decide_eq_true_eq] at hc hc'
  have heq := Rows.eq_of_key_eq h.categoryId hc'.1 hc.1 hid
  exact hc.2 (heq ▸ hc'.2)

lemma Event.dishes_cases (P : Platform) (w : World) (e : Event) :
    DishesEffect P w e (e.run P w).db.dishes := by
  rcases Event.menu_cases P w e with hsame | ⟨u, op, r, w', rfl, hrun, heff⟩
  · rw [hsame.dishes]
    exact .same _
  · rw [hrun]
    cases heff with
    | @restaurantDelete r db hr hdb =>
      simp only [World.flushed, hdb, Tables.deleteRestaurant]
      refine .cascaded ?_
      simp only [hrun, World.flushed, hdb, Tables.deleteRestaurant]
      exact Tables.not_mem_cascaded w.db.valid r.id
    | @categoryDelete categoryId c db hc hown hdb =>
      have hgone : (w.flushed db).db.dishes
          = w.db.dishes.filter fun d => d.categoryId ∉ [c.id] := by
        simp only [World.flushed, hdb, Tables.deleteCategory, List.mem_singleton]
      rw [hgone]
      refine .cascaded ?_
      simp only [hrun, World.flushed, hdb, Tables.deleteCategory, List.mem_singleton]
      exact fun c' hc' => of_decide_eq_true (List.mem_filter.mp hc').2
    | dishCreate _ hrow hdb =>
      simp only [World.flushed, hdb]
      exact .created (Dish.ofCreate_ok hrow).1
    | dishUpdate hd _ _ hdb | dishDelete hd _ hdb | dishToggle hd _ hdb =>
      simp only [World.flushed, hdb]
      exact hd.saved
    | restaurantCreate _ _ _ hdb | logout hdb =>
      simp only [hdb]
      exact .same _
    | restaurantUpdate _ _ _ hdb | categoryCreate _ _ hdb | categoryUpdate _ _ _ hdb
    | categoryReorder _ _ _ hdb =>
      simp only [World.flushed, hdb]
      exact .same _
    | restaurantGet | categoryList | dishList | dishGet | analyticsGet | analyticsExport =>
      exact .same _

/-! ### A deleted dish -/

/-- The dish is deleted, no other row has its id, and no cached menu is behind the database. -/
structure SoftDeleted (d : Dish) (w : World) : Prop where
  deleted : d.deletedAt ≠ none
  rows : ∀ d' ∈ w.db.dishes, d'.id = d.id → d' = d
  fresh : CacheFresh w

/-- The event creates no dish with the id. -/
def NoDishWithId (id : Uuid) (e : Event) : Prop :=
  ∀ v data, e ≠ .request (.admin v (.dishCreate data id))

namespace SoftDeleted

variable {P : Platform} {d : Dish} {w : World}

/-- Rows that are not deleted are rows of other dishes. -/
lemma live_ne (h : SoftDeleted d w) {d' : Dish} (hd' : d' ∈ w.db.dishes)
    (hlive : d'.deletedAt = none) : d'.id ≠ d.id := by
  intro hid
  rw [h.rows d' hd' hid] at hlive
  exact h.deleted hlive

lemma step (h : SoftDeleted d w) {e : Event} (he : NoDishWithId d.id e) :
    SoftDeleted d (e.run P w) := by
  refine ⟨h.deleted, ?_, h.fresh.event e⟩
  have heff := Event.dishes_cases P w e
  generalize (e.run P w).db.dishes = rows at heff ⊢
  cases heff with
  | same => exact h.rows
  | @created v data id d' hid =>
    intro x hx hxid
    rcases List.mem_append.mp hx with hx | hx
    · exact h.rows x hx hxid
    · rw [List.mem_singleton.mp hx, hid] at hxid
      exact absurd rfl (hxid ▸ he v data)
  | @saved _ d' n hd' hlive =>
    intro x hx hxid
    rcases Rows.mem_modify.mp hx with ⟨hx, -⟩ | ⟨-, -, -, rfl⟩
    · exact h.rows x hx hxid
    · rw [Dish.saved_id] at hxid
      exact absurd hxid (h.live_ne hd' hlive)
  | cascaded hgone => exact fun x hx => h.rows x (List.mem_of_mem_filter hx)

lemma run (h : SoftDeleted d w) {events : List Event}
    (hevents : ∀ e ∈ events, NoDishWithId d.id e) : SoftDeleted d (runEvents P w events) := by
  induction events generalizing w with
  | nil => exact h
  | cons e events ih =>
    apply ih (h.step (hevents e (.head _)))
    intro e' he'
    exact hevents e' (.tail _ he')

/-- The row stays as long as its category does. -/
lemma row_step (h : SoftDeleted d w) (hd : d ∈ w.db.dishes) {e : Event}
    (hcat : d.categoryId ∈ (e.run P w).db.categories.map (·.id)) : d ∈ (e.run P w).db.dishes := by
  have heff := Event.dishes_cases P w e
  generalize (e.run P w).db.dishes = rows at heff ⊢
  cases heff with
  | same => exact hd
  | created hid => exact List.mem_append_left _ hd
  | saved hd' hlive =>
    exact Rows.mem_modify.mpr (.inl ⟨hd, fun hid => h.live_ne hd' hlive hid.symm⟩)
  | cascaded hgone =>
    obtain ⟨c, hc, hid⟩ := List.mem_map.mp hcat
    refine List.mem_filter.mpr ⟨hd, decide_eq_true ?_⟩
    rw [← hid]
    exact hgone c hc

lemma row_run (h : SoftDeleted d w) (hd : d ∈ w.db.dishes) {events : List Event}
    (hevents : ∀ e ∈ events, NoDishWithId d.id e)
    (hcat : EveryState P (fun w => d.categoryId ∈ w.db.categories.map (·.id)) w events) :
    d ∈ (runEvents P w events).db.dishes := by
  induction events generalizing w with
  | nil => exact hd
  | cons e events ih =>
    have hnext : d.categoryId ∈ (e.run P w).db.categories.map (·.id) := by
      cases events with
      | nil => exact hcat.2
      | cons => exact hcat.2.1
    exact ih (h.step (hevents e (.head _))) (h.row_step hd hnext)
      (fun e' he' => hevents e' (.tail _ he')) hcat.2

/-! ### What the operations see of it -/

lemma getDish (h : SoftDeleted d w) (v : Uuid) :
    (DishService.getDish d.id v).exec w = (.error (.http 404 "Dish not found"), w) := by
  have hnone : (Rows.get (·.id) d.id w.db.dishes).filter (fun d => d.deletedAt.isNone) = none := by
    rw [Option.filter_eq_none_iff]
    intro d' hget hlive
    exact h.live_ne (Rows.get_mem hget) (Option.isNone_iff_eq_none.mp hlive) (Rows.get_key hget)
  simp only [DishService.getDish, DishRepository.getById, Async.exec_select_bind, Bool.false_or,
    hnone]
  rfl

/-- Whatever asks for the dish first finds no dish. -/
lemma getDish_bind {α : Type} (h : SoftDeleted d w) (v : Uuid) (k : Dish → Async α) :
    (DishService.getDish d.id v >>= k).exec w = (.error (.http 404 "Dish not found"), w) :=
  Prog.exec_bind_error (h.getDish v)

/-- A selection of dishes that are not deleted does not have it. -/
lemma filter_eq (h : SoftDeleted d w) {p : Dish → Bool}
    (hp : ∀ d', p d' = true → d'.deletedAt = none) :
    w.db.dishes.filter p = (w.db.dishes.filter fun d' => d'.id ≠ d.id).filter p := by
  refine (Rows.filter_filter_eq fun d' hd' hpd => decide_eq_true ?_).symm
  exact h.live_ne hd' (hp d' hpd)

lemma getMenuBySlug (h : SoftDeleted d w) {scan : MenuScan} {slug : String} {menu : MenuResponse}
    (hmenu : ((getMenuBySlug scan slug).exec w).1 = .ok menu) : ¬ menu.HasDish d.id := by
  intro hdish
  obtain ⟨-, -, scan', hout⟩ := h.fresh.getMenuBySlug scan slug
  rw [hmenu] at hout
  cases hbuilt : builtMenu scan' slug w.db with
  | none =>
    rw [hbuilt] at hout
    cases hout
  | some m =>
    rw [hbuilt] at hout
    cases hout
    obtain ⟨d', hd', hid, -, hlive⟩ := hasDish_builtMenu hbuilt hdish
    exact h.live_ne hd' hlive hid

lemma listDishes (h : SoftDeleted d w) {v : Uuid} {f : DishFilter} {limit offset : ℕ}
    {scan : Scan Dish} {page : PaginatedResponse Dish} {w' : World}
    (hpage : (DishService.listDishes P v f limit offset scan).exec w = (.ok page, w')) :
    (∀ d' ∈ page.items, d'.id ≠ d.id) ∧
      ∃ r, Rows.get (·.ownerUserId) v w.db.restaurants = some r ∧
        page.total = ((w.db.dishes.filter fun d' => d'.id ≠ d.id).filter
          ((f.ofRestaurant r.id).matches P w.db)).length := by
  rcases DishService.listDishes_cases w v P f limit offset scan with
    ⟨status, detail, -, -, hrej⟩ | ⟨r, hr, -, ⟨e, hfail⟩ | ⟨rows, hrows, hx⟩⟩
  · rw [hrej] at hpage
    cases hpage
  · rw [hfail] at hpage
    cases hpage
  · rw [hx] at hpage
    cases hpage
    have hlive : ∀ d', (f.ofRestaurant r.id).matches P w.db d' = true → d'.deletedAt = none :=
      fun d' hd' => DishFilter.deletedAt_of_matches hd' rfl
    rw [h.filter_eq hlive] at hrows
    refine ⟨fun d' hd' => ?_, r, hr, by rw [hrows]⟩
    have hmem := List.mem_of_mem_drop (List.mem_of_mem_take hd')
    rw [mem_orderBy, (scan.perm _).mem_iff, hrows] at hmem
    exact of_decide_eq_true (List.mem_filter.mp (List.mem_of_mem_filter hmem)).2

lemma hasActiveDishes (h : SoftDeleted d w) (categoryId : Uuid) :
    (CategoryRepository.hasActiveDishes categoryId).exec w
      = (.ok (decide (((w.db.dishes.filter fun d' => d'.id ≠ d.id).filter fun d' =>
          d'.categoryId = categoryId ∧ d'.deletedAt.isNone).length > 0)), w) := by
  rw [← h.filter_eq fun d' hd' => Option.isNone_iff_eq_none.mp (of_decide_eq_true hd').2]
  rfl

lemma getNextPosition (h : SoftDeleted d w) (categoryId : Uuid) :
    (DishRepository.getNextPosition categoryId).exec w
      = (.ok (nextPosition (((w.db.dishes.filter fun d' => d'.id ≠ d.id).filter fun d' =>
          d'.categoryId = categoryId ∧ d'.deletedAt.isNone).map (·.position.val)).max?), w) := by
  rw [← h.filter_eq fun d' hd' => Option.isNone_iff_eq_none.mp (of_decide_eq_true hd').2]
  rfl

end SoftDeleted

/-! ### The deletion -/

/-- What a deletion returns is the row as it is from then on. -/
lemma DishService.delete_softDeleted {w w' : World} (hfresh : CacheFresh w) {u dishId : Uuid}
    {d : Dish} (h : (delete dishId u).exec w = (.ok d, w')) :
    d.id = dishId ∧ d ∈ w'.db.dishes ∧ SoftDeleted d w' := by
  rcases exec_delete w u dishId with ⟨status, detail, -, -, hrej⟩ | ⟨d₀, hd₀, hx⟩
  · rw [hrej] at h
    cases h
  · rcases save_cases w hd₀.get hx with ⟨e, hfail⟩ | ⟨n, db, hn, ht, hok⟩
    · rw [hfail] at h
      cases h
    · rw [hok] at h
      cases h
      cases hn
      have hrows : (w.flushed db).db.dishes = Rows.modify (·.id) d₀.id
          (fun _ => d₀.saved { d₀ with deletedAt := some w.now } w.now) w.db.dishes := by
        rw [World.flushed, ht]
      refine ⟨(Dish.saved_id _ _ _).trans (Rows.get_key hd₀.get), ?_, ?_, ?_, hfresh.flushed db⟩
      · rw [hrows]
        exact Rows.mem_modify.mpr (.inr ⟨d₀, Rows.get_mem hd₀.get, rfl, rfl⟩)
      · rw [Dish.saved_deletedAt]
        exact Option.some_ne_none _
      · intro x hx hid
        rw [hrows] at hx
        rcases Rows.mem_modify.mp hx with ⟨-, hne⟩ | ⟨-, -, -, rfl⟩
        · exact absurd (hid.trans (Dish.saved_id _ _ _)) hne
        · rfl

/-- After a dish was deleted, no state of the run shows, counts or finds it, and its row is the one
the deletion returned as long as its category is there. No later dish draws the same id. -/
theorem soft_deletion_final (P : Platform) (db : Database) (now : Time) (before after : List Event)
    (u dishId : Uuid) (d : Dish) (w : World)
    (hdelete : (DishService.delete dishId u).exec (runEvents P ⟨db, [], now⟩ before) = (.ok d, w))
    (hids : ∀ e ∈ after, NoDishWithId dishId e) :
    let w' := runEvents P w after
    (∀ v, (DishService.getDish dishId v).exec w' = (.error (.http 404 "Dish not found"), w')) ∧
    (∀ v data, (DishService.update dishId v data).exec w'
      = (.error (.http 404 "Dish not found"), w')) ∧
    (∀ v, (DishService.delete dishId v).exec w' = (.error (.http 404 "Dish not found"), w')) ∧
    (∀ v, (DishService.toggleAvailability dishId v).exec w'
      = (.error (.http 404 "Dish not found"), w')) ∧
    (∀ v f limit offset scan page w'',
      (DishService.listDishes P v f limit offset scan).exec w' = (.ok page, w'') →
        (∀ d' ∈ page.items, d'.id ≠ dishId) ∧
        ∃ r, Rows.get (·.ownerUserId) v w'.db.restaurants = some r ∧
          page.total = ((w'.db.dishes.filter fun d' => d'.id ≠ dishId).filter (DishFilter.matches P
            (f.ofRestaurant r.id) w'.db)).length) ∧
    (∀ scan slug menu, ((getMenuBySlug scan slug).exec w').1 = .ok menu → ¬ menu.HasDish dishId) ∧
    (∀ c, (CategoryRepository.hasActiveDishes c).exec w'
      = (.ok (decide (((w'.db.dishes.filter fun d' => d'.id ≠ dishId).filter fun d' =>
          d'.categoryId = c ∧ d'.deletedAt.isNone).length > 0)), w')) ∧
    (∀ c, (DishRepository.getNextPosition c).exec w'
      = (.ok (nextPosition (((w'.db.dishes.filter fun d' => d'.id ≠ dishId).filter fun d' =>
          d'.categoryId = c ∧ d'.deletedAt.isNone).map (·.position.val)).max?), w')) ∧
    (EveryState P (fun w => d.categoryId ∈ w.db.categories.map (·.id)) w after →
      Rows.get (·.id) dishId w'.db.dishes = some d) := by
  intro w'
  have hfresh : CacheFresh (runEvents P ⟨db, [], now⟩ before) :=
    (cacheFresh_of_empty db now).run before
  obtain ⟨rfl, hmem, hdel⟩ := DishService.delete_softDeleted hfresh hdelete
  have h : SoftDeleted d w' := hdel.run hids
  refine ⟨h.getDish, fun v data => h.getDish_bind v _, fun v => h.getDish_bind v _,
    fun v => h.getDish_bind v _, ?_, ?_, h.hasActiveDishes, h.getNextPosition, fun hcat => ?_⟩
  · intro v f limit offset scan page w'' hpage
    exact h.listDishes hpage
  · intro scan slug menu hmenu
    exact h.getMenuBySlug hmenu
  · exact Rows.get_of_mem w'.db.valid.dishId (hdel.row_run hmem hids hcat)

/-- The only dish is deleted, and then nobody can toggle or read it. -/
theorem soft_deletion_final_sopa :
    ∃ d w, (DishService.delete 30 1).exec ⟨sopaServed.db, [], 0⟩ = (.ok d, w) ∧
      ((DishService.getDish 30 2).exec (runEvents Platform.plain w
        [.tick 1, .request (.admin 1 (.dishToggle 30))])).1
          = .error (.http 404 "Dish not found") := by
  have hok : ((DishService.delete 30 1).exec ⟨sopaServed.db, [], 0⟩).1.isOk = true := by
    decide +kernel
  rcases hx : (DishService.delete 30 1).exec ⟨sopaServed.db, [], 0⟩ with ⟨r, w⟩
  rw [hx] at hok
  cases r with
  | error e => cases hok
  | ok d =>
    have hids : ∀ e ∈ [Event.tick 1, .request (.admin 1 (.dishToggle 30))], NoDishWithId 30 e := by
      intro e he v data heq
      subst heq
      simp at he
    have hfinal := soft_deletion_final Platform.plain sopaServed.db 0 []
      [.tick 1, .request (.admin 1 (.dishToggle 30))] 1 30 d w hx hids
    exact ⟨d, w, rfl, congrArg Prod.fst (hfinal.1 2)⟩

end LiveMenu
