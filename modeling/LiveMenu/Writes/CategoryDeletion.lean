import LiveMenu.Concurrent.Writes

/-!
# Deleting a category while dishes arrive

A deletion looks for dishes that are not deleted in one statement, loads the dishes of the category
in another, and deletes in a later transaction the category, every dish that is in it by then and
every dish that was loaded, wherever it is by then. A dish that was created or moved there in
between goes with it.
-/

namespace LiveMenu

/-- An operation of the user `user`. -/
structure AdminCall where
  user : Uuid
  op : AdminOp

/-- How far a deletion of a category is; every other operation stays at the start. -/
inductive DeletionPhase where
  | start
  /-- There was a dish that is not deleted. -/
  | refused
  /-- There was none. The dishes with these ids were loaded since. -/
  | checked (loaded : List Uuid)
  /-- The commit was made. -/
  | removed

namespace AdminCall

/-- The count of the dishes and the load of the dishes move the phase before the commit. -/
def next (op : AdminOp) (φ : DeletionPhase) (l : Label) (w : World) : DeletionPhase :=
  match op, φ, l with
  | .categoryDelete categoryId, .start, .select .dishes =>
    if (w.db.dishes.filter fun d => d.categoryId = categoryId ∧ d.deletedAt.isNone).length > 0
    then .refused else .checked []
  | .categoryDelete categoryId, .checked _, .select .dishes =>
    .checked ((w.db.dishes.filter fun d => d.categoryId = categoryId).map (·.id))
  | .categoryDelete _, .checked _, .commit _ => .removed
  | _, φ, _ => φ

end AdminCall

/-- Every dish still has its row. -/
def KeepsDishes (t t' : Tables) : Prop := ∀ d ∈ t.dishes, ∃ d' ∈ t'.dishes, d'.id = d.id

/-- A dish that is not deleted was there and not deleted, or its row is new. -/
def StaysDeleted (t t' : Tables) : Prop :=
  ∀ d' ∈ t'.dishes, d'.deletedAt = none →
    (∃ d ∈ t.dishes, d.id = d'.id ∧ d.deletedAt = none) ∨ ∀ d ∈ t.dishes, d.id ≠ d'.id

/-- What a step of an operation does to the rows of the dishes. -/
inductive RowStep (w w' : World) : AdminOp → DeletionPhase → Label → Prop
  | look {op φ l} (hdb : w'.db = w.db) : RowStep w w' op φ l
  | keep {op φ t} (hop : ∀ c, op ≠ .categoryDelete c)
      (hkeep : KeepsDishes w.db.toTables w'.db.toTables) : RowStep w w' op φ (.commit t)
  | deleteRestaurant {φ t} : RowStep w w' .restaurantDelete φ (.commit t)
  | deleteCategory {categoryId loaded t}
      (ht : w'.db.toTables = (w.db.toTables.deleteDishes loaded).deleteCategory categoryId) :
      RowStep w w' (.categoryDelete categoryId) (.checked loaded) (.commit t)

/-- The same, and no step takes a deletion of a dish back. -/
structure DishStep (w w' : World) (op : AdminOp) (φ : DeletionPhase) (l : Label) : Prop where
  rows : RowStep w w' op φ l
  deleted : StaysDeleted w.db.toTables w'.db.toTables

def AdminCall.monitor (call : AdminCall) : Monitor World Label DeletionPhase where
  next φ l w _ := AdminCall.next call.op φ l w
  allows φ l w w' := DishStep w w' call.op φ l

/-! ### The code follows the phases -/

section

variable {u : Uuid} {now : Time} {t t' : Tables} {op : AdminOp}

lemma keepsDishes_of_eq (h : t'.dishes = t.dishes) : KeepsDishes t t' :=
  fun d hd => ⟨d, h ▸ hd, rfl⟩

lemma keepsDishes_flush {old new : Dish} (h : t' = { t with
    dishes := Rows.modify (·.id) old.id (old.flush new now) t.dishes }) : KeepsDishes t t' := by
  subst h
  intro d hd
  by_cases hid : d.id = old.id
  · exact ⟨old.flush new now d, Rows.mem_modify.mpr (.inr ⟨d, hd, hid, rfl⟩), rfl⟩
  · exact ⟨d, Rows.mem_modify.mpr (.inl ⟨hd, hid⟩), rfl⟩

/-- Only deletions of categories and restaurants remove rows. -/
lemma AdminWrite.keepsDishes (h : AdminWrite u now t t' op)
    (hcategory : ∀ c, op ≠ .categoryDelete c)
    (hrestaurant : op ≠ .restaurantDelete) : KeepsDishes t t' := by
  cases h with
  | restaurantDelete => exact absurd rfl hrestaurant
  | categoryDelete => exact absurd rfl (hcategory _)
  | dishCreate hid ht => exact fun d hd => ⟨d, ht ▸ List.mem_append_left _ hd, rfl⟩
  | dishUpdate _ ht | dishDelete _ ht | dishToggle _ ht => exact keepsDishes_flush ht
  | restaurantCreate _ ht | restaurantUpdate ht | categoryCreate _ ht | categoryUpdate ht
  | categoryReorder _ ht | logout ht => exact keepsDishes_of_eq (by rw [ht])

lemma staysDeleted_of_subset (h : ∀ d ∈ t'.dishes, d ∈ t.dishes) : StaysDeleted t t' :=
  fun d hd hlive => .inl ⟨d, h d hd, rfl, hlive⟩

lemma staysDeleted_of_eq (h : t'.dishes = t.dishes) : StaysDeleted t t' :=
  staysDeleted_of_subset fun _ hd => h ▸ hd

/-- An instance that is saved as deleted only if it was loaded so leaves a deleted row deleted. -/
lemma staysDeleted_flush {old new : Dish} (hdel : new.deletedAt = none → old.deletedAt = none)
    (h : t' = { t with dishes := Rows.modify (·.id) old.id (old.flush new now) t.dishes }) :
    StaysDeleted t t' := by
  subst h
  intro d' hd' hlive
  obtain ⟨hd, -⟩ | ⟨d, hd, -, rfl⟩ := Rows.mem_modify.mp hd'
  · exact .inl ⟨d', hd, rfl, hlive⟩
  · refine .inl ⟨d, hd, rfl, ?_⟩
    have hcolumn : flushColumn old.deletedAt new.deletedAt d.deletedAt = none := hlive
    rw [flushColumn] at hcolumn
    split_ifs at hcolumn with hsame
    · exact hcolumn
    · exact absurd (hcolumn.trans (hdel hcolumn).symm) hsame

/-- No operation takes a deletion of a dish back. -/
lemma AdminWrite.staysDeleted {db db' : Database}
    (h : AdminWrite u now db.toTables db'.toTables op) :
    StaysDeleted db.toTables db'.toTables := by
  cases h with
  | restaurantDelete ht =>
    exact staysDeleted_of_subset fun d hd => List.mem_of_mem_filter (ht ▸ hd)
  | categoryDelete ht =>
    exact staysDeleted_of_subset fun d hd =>
      List.mem_of_mem_filter (List.mem_of_mem_filter (ht ▸ hd))
  | @dishCreate _ _ d hid ht =>
    intro d' hd' hlive
    have hrows : db'.dishes = db.dishes ++ [d] := by rw [ht]
    obtain hd | hd := List.mem_append.mp (hrows ▸ hd')
    · exact .inl ⟨d', hd, rfl, hlive⟩
    · obtain rfl := List.mem_singleton.mp hd
      have hnodup := db'.valid.dishId
      rw [hrows, List.map_append, List.nodup_append] at hnodup
      exact .inr fun d hd => hnodup.2.2 _ (List.mem_map_of_mem hd) _ (.head _)
  | dishUpdate hdel ht | dishDelete hdel ht | dishToggle hdel ht => exact staysDeleted_flush hdel ht
  | restaurantCreate _ ht | restaurantUpdate ht | categoryCreate _ ht | categoryUpdate ht
  | categoryReorder _ ht | logout ht => exact staysDeleted_of_eq (by rw [ht])

end

lemma DishStep.look {w w' : World} {op : AdminOp} {φ : DeletionPhase} {l : Label}
    (hdb : w'.db = w.db) : DishStep w w' op φ l :=
  ⟨.look hdb, staysDeleted_of_eq (by rw [hdb])⟩

section

variable (P : Platform) (u : Uuid)

/-- Operations that delete no category stay at the start. -/
lemma accepts_of_not_categoryDelete {op : AdminOp} (hop : ∀ c, op ≠ .categoryDelete c) :
    (AdminCall.mk u op).monitor.Accepts (fun _ _ => True) (op.code P u) .start := by
  refine ((AdminOp.writes P u op).accepts fun l w w' hstep => ⟨?_, ?_⟩).mono fun _ _ _ => trivial
  · rcases hstep with hdb | ⟨⟨t, rfl⟩, hwrite⟩
    · exact .look hdb
    · refine ⟨?_, hwrite.staysDeleted⟩
      by_cases hrestaurant : op = .restaurantDelete
      · subst hrestaurant
        exact .deleteRestaurant
      · exact .keep hop (hwrite.keepsDishes hop hrestaurant)
  · cases op <;> first | rfl | exact absurd rfl (hop _)

/-- The check of the owner reads no dish. -/
lemma accepts_verifyRestaurantOwnership {categoryId restaurantId : Uuid} {α : Type}
    {k : Unit → Async α}
    (hk : (AdminCall.mk u (.categoryDelete categoryId)).monitor.Accepts (fun _ _ => True) (k ())
      .start) :
    (AdminCall.mk u (.categoryDelete categoryId)).monitor.Accepts (fun _ _ => True)
      (CategoryService.verifyRestaurantOwnership restaurantId u >>= k) .start := by
  refine Monitor.accepts_bind (Async.accepts_select_bind fun w => ⟨.look rfl, ?_⟩)
  cases Rows.get (·.id) restaurantId w.db.restaurants with
  | none => exact Async.accepts_http trivial
  | some r =>
    dsimp only
    split_ifs
    · exact Async.accepts_http trivial
    · exact Monitor.accepts_pure hk

/-- A deletion of a category counts its dishes, and commits if there are none. -/
lemma accepts_categoryDelete (categoryId : Uuid) :
    (AdminCall.mk u (.categoryDelete categoryId)).monitor.Accepts (fun _ _ => True)
      ((AdminOp.categoryDelete categoryId).code P u) .start := by
  refine Monitor.accepts_map (Async.accepts_select_bind fun w => ⟨.look rfl, ?_⟩)
  cases hget : Rows.get (·.id) categoryId w.db.categories with
  | none => exact Async.accepts_http trivial
  | some c =>
    have hid := Rows.get_key hget
    refine accepts_verifyRestaurantOwnership u (Monitor.accepts_bind ?_)
    refine Async.accepts_select_bind fun w => ⟨.look rfl, Monitor.accepts_pure ?_⟩
    by_cases hcount : (w.db.dishes.filter fun d =>
        d.categoryId = categoryId ∧ d.deletedAt.isNone).length > 0
    · have hnext : AdminCall.next (.categoryDelete categoryId) .start (.select .dishes) w
          = .refused := if_pos hcount
      simp only [AdminCall.monitor, hnext, decide_eq_true hcount, if_true]
      exact Async.accepts_http trivial
    · have hnext : AdminCall.next (.categoryDelete categoryId) .start (.select .dishes) w
          = .checked [] := if_neg hcount
      simp only [AdminCall.monitor, hnext, decide_eq_false hcount, Bool.false_eq_true, if_false]
      refine Monitor.accepts_bind (Async.accepts_select_bind fun w => ⟨.look rfl, ?_⟩)
      refine Async.accepts_commit (fun w _ db hw => ⟨?_, ?_⟩) fun _ _ _ => ⟨.look rfl, trivial⟩
      · simp only [Except.bind_eq_ok_iff, Except.pure_eq_ok, Except.ok.injEq, Prod.mk.injEq] at hw
        obtain ⟨db', hdb, -, rfl⟩ := hw
        have ht := Database.write_ok hdb
        rw [hid] at ht
        exact ⟨.deleteCategory ht, staysDeleted_of_subset fun d hd =>
          List.mem_of_mem_filter (List.mem_of_mem_filter (ht ▸ hd))⟩
      · exact Monitor.accepts_modify fun _ => ⟨.look rfl, trivial⟩

/-- The code of every operation follows the phases. -/
lemma AdminCall.accepts (call : AdminCall) :
    call.monitor.Accepts (fun _ _ => True) (call.op.code P call.user) .start := by
  obtain ⟨u, op⟩ := call
  by_cases hop : ∃ c, op = .categoryDelete c
  · obtain ⟨c, rfl⟩ := hop
    exact accepts_categoryDelete P u c
  · exact accepts_of_not_categoryDelete P u fun c hc => hop ⟨c, hc⟩

end

/-! ### The process -/

/-- The dishes that are not deleted and lose their row. -/
def lostDishes (w w' : World) : List Dish :=
  w.db.dishes.filter fun d => d.deletedAt.isNone && !w'.db.dishes.any fun d' => d'.id = d.id

/-- Operations of any owners, interleaved at their awaits, while anything else happens that leaves
the dishes alone. The record has the dishes that were lost though their restaurant was not
deleted. -/
def catalogSystem (P : Platform) :
    System AdminCall DeletionPhase World Label Exc Response (List Dish) where
  program call := call.op.code P call.user
  init _ := .start
  monitor := AdminCall.monitor
  onStart cfg _ _ := cfg.ghost
  onStep cfg _ th _ w' :=
    match th.call.op with
    | .restaurantDelete => cfg.ghost
    | _                 => cfg.ghost ++ lostDishes cfg.state w'
  env := Background fun w => w.db.dishes

instance (P : Platform) : DecidableRel (catalogSystem P).env := fun w w' =>
  inferInstanceAs (Decidable (Background (fun w => w.db.dishes) w w'))

abbrev CatalogConfig : Type :=
  Config AdminCall DeletionPhase World Label Exc Response (List Dish)

/-- No call is under way and nothing is lost. -/
def catalogStart (db : Database) (now : Time) : CatalogConfig :=
  ⟨⟨db, [], now⟩, fun _ => none, []⟩

/-- A dish that is not deleted is in the category now and was not before. -/
def DishArrives (categoryId : Uuid) (t t' : Tables) : Prop :=
  ∃ d' ∈ t'.dishes, d'.categoryId = categoryId ∧ d'.deletedAt = none ∧
    ¬ ∃ d ∈ t.dishes, d.id = d'.id ∧ d.categoryId = categoryId ∧ d.deletedAt = none

/-- A row has one of the ids now, and none had it before. -/
def DrawnAgain (ids : List Uuid) (t t' : Tables) : Prop :=
  ∃ d' ∈ t'.dishes, d'.id ∈ ids ∧ ∀ d ∈ t.dishes, d.id ≠ d'.id

/-- The step brings no dish into a category whose deletion, another call, is past its check, and
draws the id of none that this deletion has loaded. -/
def NothingArrives : System.Guard AdminCall DeletionPhase World Label Exc Response (List Dish) :=
  fun cfg i th _ => ∀ l eff next, th.code = .step l eff next →
    ∀ j tj categoryId loaded, j ≠ i → cfg.threads j = some tj →
      tj.call.op = .categoryDelete categoryId → tj.phase = .checked loaded →
        ¬ DishArrives categoryId cfg.state.db.toTables (eff cfg.state).db.toTables ∧
          ¬ DrawnAgain loaded cfg.state.db.toTables (eff cfg.state).db.toTables

/-- No dish that is not deleted is in a category whose deletion is past its check or was loaded by
this deletion, and none was lost. -/
structure DishesSafe (cfg : CatalogConfig) : Prop where
  checked : ∀ j tj categoryId loaded, cfg.threads j = some tj →
    tj.call.op = .categoryDelete categoryId → tj.phase = .checked loaded →
      ∀ d ∈ cfg.state.db.dishes, d.categoryId = categoryId ∨ d.id ∈ loaded → d.deletedAt ≠ none
  lost : cfg.ghost = []

/-- Nothing is lost where every dish keeps its row. -/
lemma lostDishes_of_keeps {w w' : World} (h : KeepsDishes w.db.toTables w'.db.toTables) :
    lostDishes w w' = [] := by
  apply List.filter_eq_nil_iff.mpr
  intro d hd
  obtain ⟨d', hd', hid⟩ := h d hd
  have hany : (w'.db.dishes.any fun d' => d'.id = d.id) = true :=
    List.any_eq_true.mpr ⟨d', hd', decide_eq_true hid⟩
  simp [hany]

/-- A deletion that takes no dish that is not deleted loses none. -/
lemma lostDishes_of_deleteCategory {w w' : World} {categoryId : Uuid} {loaded : List Uuid}
    (ht : w'.db.toTables = (w.db.toTables.deleteDishes loaded).deleteCategory categoryId)
    (hnone : ∀ d ∈ w.db.dishes, d.categoryId = categoryId ∨ d.id ∈ loaded → d.deletedAt ≠ none) :
    lostDishes w w' = [] := by
  apply List.filter_eq_nil_iff.mpr
  intro d hd
  by_cases htaken : d.categoryId = categoryId ∨ d.id ∈ loaded
  · simp [Option.isNone_iff_eq_none, hnone d hd htaken]
  · obtain ⟨hcat, hloaded⟩ := not_or.mp htaken
    have hany : (w'.db.dishes.any fun d' => d'.id = d.id) = true := by
      rw [ht]
      exact List.any_eq_true.mpr ⟨d, List.mem_filter.mpr ⟨List.mem_filter.mpr
        ⟨hd, decide_eq_true hloaded⟩, decide_eq_true hcat⟩, decide_eq_true rfl⟩
    simp [hany]

/-- A deletion that is past its check after the step takes no dish that is not deleted, if it took
none before. -/
lemma AdminCall.next_checked {categoryId : Uuid} {φ : DeletionPhase} {l : Label} {w : World}
    {loaded : List Uuid} (h : next (.categoryDelete categoryId) φ l w = .checked loaded)
    (hφ : ∀ ids, φ = .checked ids → ∀ d ∈ w.db.dishes,
      d.categoryId = categoryId ∨ d.id ∈ ids → d.deletedAt ≠ none) :
    ∀ d ∈ w.db.dishes, d.categoryId = categoryId ∨ d.id ∈ loaded → d.deletedAt ≠ none := by
  simp only [next] at h
  split at h
  · rename_i cid hop
    cases hop
    split_ifs at h with hcount
    cases h
    rintro d hd (hcat | ⟨⟨⟩⟩) hlive
    refine hcount (List.length_pos_of_mem (a := d) ?_)
    exact List.mem_filter.mpr ⟨hd, decide_eq_true ⟨hcat, by rw [hlive]; rfl⟩⟩
  · rename_i cid ids hop
    cases hop
    cases h
    intro d hd htaken
    -- what is loaded is in the category
    refine hφ ids rfl d hd (.inl ?_)
    rcases htaken with hcat | hloaded
    · exact hcat
    · obtain ⟨d', hd', hid⟩ := List.mem_map.mp hloaded
      obtain ⟨hd', hcat⟩ := List.mem_filter.mp hd'
      rw [← Rows.eq_of_key_eq w.db.valid.dishId hd' hd hid]
      exact of_decide_eq_true hcat
  · cases h
  · exact hφ loaded h

/-- A deletion of a category that stays before its commit leaves the database alone. -/
lemma AdminCall.db_of_next_checked {w w' : World} {categoryId : Uuid} {φ : DeletionPhase}
    {l : Label} {loaded : List Uuid} (h : RowStep w w' (.categoryDelete categoryId) φ l)
    (hnext : next (.categoryDelete categoryId) φ l w = .checked loaded) : w'.db = w.db := by
  cases h with
  | look hdb => exact hdb
  | keep hop => exact absurd rfl (hop _)
  | deleteCategory ht => cases hnext

namespace DishesSafe

variable {P : Platform} {cfg : CatalogConfig}

lemma start (db : Database) (now : Time) : DishesSafe (catalogStart db now) := by
  refine ⟨?_, rfl⟩
  rintro j tj categoryId loaded ⟨⟩

lemma started (h : DishesSafe cfg) (i : ℕ) (c : AdminCall) :
    DishesSafe ((catalogSystem P).started cfg i c) := by
  refine ⟨fun j tj categoryId loaded hj hop hφ => ?_, h.lost⟩
  rw [System.started_thread] at hj
  split_ifs at hj
  · cases hj
    cases hφ
  · exact h.checked j tj categoryId loaded hj hop hφ

lemma background (h : DishesSafe cfg) {w : World} (hw : w.db.dishes = cfg.state.db.dishes) :
    DishesSafe { cfg with state := w } :=
  ⟨fun j tj categoryId loaded hj hop hφ d hd =>
    h.checked j tj categoryId loaded hj hop hφ d (hw ▸ hd), h.lost⟩

/-- What a call loses in a step that its monitor allows. -/
lemma lost_step (h : DishesSafe cfg) {i : ℕ}
    {th : Thread AdminCall DeletionPhase World Label Exc Response} {l : Label} {w' : World}
    (hi : cfg.threads i = some th) (hop : th.call.op ≠ .restaurantDelete)
    (hallow : RowStep cfg.state w' th.call.op th.phase l) : lostDishes cfg.state w' = [] := by
  generalize hφ : th.phase = φ at hallow
  generalize hcall : th.call.op = op at hallow hop
  cases hallow with
  | look hdb => exact lostDishes_of_keeps (keepsDishes_of_eq (by rw [hdb]))
  | keep _ hkeep => exact lostDishes_of_keeps hkeep
  | deleteRestaurant => exact absurd rfl hop
  | deleteCategory ht => exact lostDishes_of_deleteCategory ht (h.checked i th _ _ hi hcall hφ)

lemma stepped (h : DishesSafe cfg) {i : ℕ}
    {th : Thread AdminCall DeletionPhase World Label Exc Response} {l : Label}
    {eff : World → World} {next : World → Async Response} (hi : cfg.threads i = some th)
    (hcode : th.code = .step l eff next) (hmay : NothingArrives cfg i th l)
    (hallow : th.call.monitor.allows th.phase l cfg.state (eff cfg.state)) :
    DishesSafe ((catalogSystem P).stepped cfg i th l (eff cfg.state) (next cfg.state)) := by
  have hstep : DishStep cfg.state (eff cfg.state) th.call.op th.phase l := hallow
  constructor
  · intro j tj categoryId loaded hj hop hφ d hd htaken hlive
    rw [System.stepped_thread] at hj
    split_ifs at hj with hji
    · subst hji
      cases hj
      change AdminCall.next th.call.op th.phase l cfg.state = .checked loaded at hφ
      change th.call.op = .categoryDelete categoryId at hop
      have hrows := hstep.rows
      rw [hop] at hφ hrows
      have hdb : (eff cfg.state).db = cfg.state.db := AdminCall.db_of_next_checked hrows hφ
      exact AdminCall.next_checked hφ (fun ids => h.checked j th categoryId ids hi hop) d (hdb ▸ hd)
        htaken hlive
    · -- the deletion of another call would see the dish arrive, or its id drawn again
      obtain ⟨harrives, hdrawn⟩ := hmay l eff next hcode j tj categoryId loaded hji hj hop hφ
      rcases htaken with hcat | hloaded
      · refine harrives ⟨d, hd, hcat, hlive, ?_⟩
        rintro ⟨d', hd', -, hcat', hlive'⟩
        exact h.checked j tj categoryId loaded hj hop hφ d' hd' (.inl hcat') hlive'
      · obtain ⟨d', hd', hid, hlive'⟩ | hnew := hstep.deleted d hd hlive
        · exact h.checked j tj categoryId loaded hj hop hφ d' hd' (.inr (hid ▸ hloaded)) hlive'
        · exact hdrawn ⟨d, hd, hloaded, hnew⟩
  · simp only [System.stepped, catalogSystem]
    split
    · exact h.lost
    · rename_i hop
      rw [h.lost, h.lost_step hi hop hstep.rows, List.append_nil]

end DishesSafe

/-- In every interleaving where no dish arrives in a category between the check of its deletion and
the commit, and no new dish draws the id of one that a deletion has loaded, no dish that is not
deleted loses its row but with its restaurant. -/
theorem live_dishes_keep_rows (P : Platform) (db : Database) (now : Time) (cfg : CatalogConfig)
    (h : (catalogSystem P).Reach NothingArrives (catalogStart db now) cfg) : cfg.ghost = [] := by
  have hsafe : DishesSafe cfg := by
    refine h.monitored_code (Q := fun _ _ _ => True) (AdminCall.accepts P) ?_ (.start db now)
      ?_ ?_ ?_
    · rintro i th ⟨⟩
    · exact fun cfg i c hI _ => hI.started i c
    · exact fun cfg i th l eff next hI hi hcode hmay hallow => hI.stepped hi hcode hmay hallow
    · exact fun cfg s hI henv => hI.background henv.1
  exact hsafe.lost

/-! ### A dish arrives -/

/-- The only dish of the category is deleted. -/
def platosEmptied : World :=
  runEvents Platform.plain sopaServed [.request (.admin 1 (.dishDelete 30))]

def flan : DishCreate :=
  { categoryId := 20, name := ⟨"Flan", by decide⟩, price := ⟨⟨3, 0⟩, by decide⟩ }

/-- The call has returned without an exception. -/
def catalogReturned (cfg : CatalogConfig) (i : ℕ) : Bool :=
  match cfg.threads i with
  | some ⟨_, _, .done (.ok _)⟩ => true
  | _                          => false

/-- With no other call under way nothing can arrive. -/
lemma nothingArrives_alone {cfg : CatalogConfig} {i : ℕ}
    {th : Thread AdminCall DeletionPhase World Label Exc Response} {l : Label}
    (hidle : ∀ j, 1 ≤ j → cfg.threads j = none) (hi : cfg.threads i = some th) :
    NothingArrives cfg i th l := by
  intro l eff next _ j tj categoryId loaded hji hj
  have hnone : ∀ k tk, cfg.threads k = some tk → k = 0 := by
    intro k tk hk
    by_contra hne
    rw [hidle k (Nat.one_le_iff_ne_zero.mpr hne)] at hk
    cases hk
  exact absurd ((hnone j tj hj).trans (hnone i th hi).symm) hji

/-- The category is deleted while nothing else happens. -/
theorem live_dishes_keep_rows_alone :
    ∃ cfg : CatalogConfig, catalogReturned cfg 0 = true ∧ cfg.ghost = [] := by
  have hrun : ((catalogSystem Platform.plain).follow (fun _ _ => true)
      (.start 0 ⟨1, .categoryDelete 20⟩ :: List.replicate 6 (.run 0))
      (catalogStart platosEmptied.db 0)).any (fun cfg => catalogReturned cfg 0) = true := by
    decide +kernel
  obtain ⟨cfg, hreach, -, hret⟩ := System.exists_reach_of_follow_below (n := 1) (fun _ _ => rfl)
    (fun i c h => by simp at h; omega)
    (fun _ _ _ _ hidle hi _ => nothingArrives_alone hidle hi) hrun
  exact ⟨cfg, hret, live_dishes_keep_rows Platform.plain platosEmptied.db 0 cfg hreach⟩

/-- A dish is created between the check and the commit of the deletion: both calls succeed, and the
dish is gone. -/
theorem created_dish_lost :
    ∃ cfg,
      (catalogSystem Platform.plain).Reach System.Always (catalogStart platosEmptied.db 0) cfg ∧
      catalogReturned cfg 0 = true ∧ catalogReturned cfg 1 = true ∧
        cfg.ghost.map (·.id) = [31] := by
  have hrun : ((catalogSystem Platform.plain).follow (fun _ _ => true)
      (.start 0 ⟨1, .categoryDelete 20⟩ :: List.replicate 3 (.run 0) ++
        .start 1 ⟨1, .dishCreate flan 31⟩ :: List.replicate 6 (.run 1) ++
          List.replicate 3 (.run 0)) (catalogStart platosEmptied.db 0)).any (fun cfg =>
        (catalogReturned cfg 0 && catalogReturned cfg 1) && cfg.ghost.map (·.id) = [31])
          = true := by
    decide +kernel
  obtain ⟨cfg, hreach, hp⟩ := System.exists_reach_of_follow hrun
  simp only [Bool.and_eq_true, decide_eq_true_eq] at hp
  exact ⟨cfg, hreach, hp.1.1, hp.1.2, hp.2⟩

/-- A dish is created between the check and the load of the dishes, and moved to another category
before the commit: it is deleted there. -/
example : ((catalogSystem Platform.plain).follow (fun _ _ => true)
    (.start 0 ⟨1, .categoryDelete 20⟩ :: List.replicate 3 (.run 0) ++
      .start 1 ⟨1, .dishCreate flan 31⟩ :: List.replicate 6 (.run 1) ++ .run 0 ::
        .start 2 ⟨1, .dishUpdate 31 { categoryId := .set 21 }⟩ :: List.replicate 8 (.run 2) ++
          List.replicate 2 (.run 0))
    (catalogStart (runEvents Platform.plain platosEmptied
      [.request (.admin 1 (.categoryCreate { name := ⟨"Postres", by decide⟩ } 21))]).db 0)).any
    (fun cfg => (catalogReturned cfg 0 && catalogReturned cfg 2) &&
      cfg.ghost.map (fun d => (d.id, d.categoryId)) = [(31, 21)]) = true := by
  decide +kernel

end LiveMenu
