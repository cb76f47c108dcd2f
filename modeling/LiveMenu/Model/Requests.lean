import LiveMenu.Model.Analytics
import LiveMenu.Model.Auth

/-!
# Requests

All the operations of the services under one type, with what the caller and the environment supply:
arguments, random identifiers, the order of tied rows, the fuel of the slug search. A process that
serves its requests one at a time is a fold of `Event.run` over a list of events.
-/

namespace LiveMenu

/-- An operation that an authenticated owner calls. -/
inductive AdminOp where
  | restaurantGet
  | restaurantCreate (fuel : ℕ) (data : RestaurantCreate) (id : Uuid)
  | restaurantUpdate (fuel : ℕ) (data : RestaurantUpdate)
  | restaurantDelete
  | categoryList (activeOnly : Bool) (scan : Scan Category)
  | categoryCreate (data : CategoryCreate) (id : Uuid)
  | categoryUpdate (categoryId : Uuid) (data : CategoryUpdate)
  | categoryDelete (categoryId : Uuid)
  | categoryReorder (orderedIds : List Uuid)
  | dishList (f : DishFilter) (limit offset : ℕ) (scan : Scan Dish)
  | dishGet (dishId : Uuid)
  | dishCreate (data : DishCreate) (id : Uuid)
  | dishUpdate (dishId : Uuid) (data : DishUpdate)
  | dishDelete (dishId : Uuid)
  | dishToggle (dishId : Uuid)
  | analyticsGet (granularity : String) (fromDate toDate : Option PyDateTime)
      (scan : Scan (String × ℕ))
  | analyticsExport (fromDate toDate : Option PyDateTime) (scan : Scan ScanEvent)
  | logout

/-- What the operations return. -/
inductive Response where
  | none
  | restaurant (r : Restaurant)
  | category (c : Category)
  | categories (cs : List Category)
  | dish (d : Dish)
  | dishes (page : PaginatedResponse Dish)
  | analytics (a : AnalyticsResponse)
  | csv (text : String)
  | menu (m : MenuResponse)
  | auth (a : AuthResult)

/-- The call of an admin operation with `owner_user_id = u`. -/
def AdminOp.code (P : Platform) (u : Uuid) : AdminOp → Async Response
  | .restaurantGet                        => .restaurant <$> RestaurantService.getByOwner u
  | .restaurantCreate fuel data id        => .restaurant <$> RestaurantService.create fuel u data id
  | .restaurantUpdate fuel data           => .restaurant <$> RestaurantService.update fuel u data
  | .restaurantDelete                     => (fun _ => .none) <$> RestaurantService.delete u
  | .categoryList activeOnly scan         =>
    .categories <$> CategoryService.listCategories u activeOnly scan
  | .categoryCreate data id               => .category <$> CategoryService.create u data id
  | .categoryUpdate categoryId data       => .category <$> CategoryService.update categoryId u data
  | .categoryDelete categoryId            =>
    (fun _ => .none) <$> CategoryService.delete categoryId u
  | .categoryReorder orderedIds           =>
    (fun _ => .none) <$> CategoryService.reorder u orderedIds
  | .dishList f limit offset scan         =>
    .dishes <$> DishService.listDishes P u f limit offset scan
  | .dishGet dishId                       => .dish <$> DishService.getDish dishId u
  | .dishCreate data id                   => .dish <$> DishService.create u data id
  | .dishUpdate dishId data               => .dish <$> DishService.update dishId u data
  | .dishDelete dishId                    => .dish <$> DishService.delete dishId u
  | .dishToggle dishId                    => .dish <$> DishService.toggleAvailability dishId u
  | .analyticsGet granularity fromDate toDate scan =>
    .analytics <$> AnalyticsService.getAnalytics P u granularity fromDate toDate scan
  | .analyticsExport fromDate toDate scan =>
    .csv <$> AnalyticsService.exportAnalytics u fromDate toDate scan
  | .logout                               => (fun _ => .none) <$> AuthService.logout u

/-- An operation that is called with a bearer token, for its `CurrentUserId`. -/
def AdminOp.authorized (P : Platform) (token : String) (op : AdminOp) : Async Response := do
  let u ← getCurrentUserId P token
  op.code P u

/-- A request to the process. -/
inductive Request where
  | menu (scan : MenuScan) (slug : String)
  | viewMenu (scan : MenuScan) (slug : String) (client : Client) (id : Uuid)
  | admin (u : Uuid) (op : AdminOp)
  | register (email password : String) (draws : Draws)
  | login (email password : String) (draws : Draws)
  | refresh (token : String) (draws : Draws)

def Request.code (P : Platform) : Request → Async Response
  | .menu scan slug                 => .menu <$> MenuService.getMenuBySlug scan slug
  | .viewMenu scan slug client id   => .menu <$> MenuRouter.getMenu P scan slug client id
  | .admin u op                     => op.code P u
  | .register email password draws  => .auth <$> AuthService.register P email password draws
  | .login email password draws     => .auth <$> AuthService.login P email password draws
  | .refresh token draws            => .auth <$> AuthService.refresh P token draws

/-- What happens to a process: a request that runs to its end, or time passing. -/
inductive Event where
  | request (r : Request)
  | tick (delay : ℕ)

def Event.run (P : Platform) (w : World) : Event → World
  | .request r   => ((r.code P).exec w).2
  | .tick delay  => { w with now := w.now + delay }

/-- The world after a sequence of events. -/
def runEvents (P : Platform) (w : World) (events : List Event) : World :=
  events.foldl (Event.run P) w

/-- What every event preserves holds after every run. -/
lemma runEvents_invariant {P : Platform} {I : World → Prop}
    (hstep : ∀ w e, I w → I (Event.run P w e)) {w : World} (h : I w) (events : List Event) :
    I (runEvents P w events) := by
  induction events generalizing w with
  | nil => exact h
  | cons e events ih => exact ih (hstep w e h)

/-- Every step of a run meets a condition on the world before it and the event. -/
def EveryStep (P : Platform) (cond : World → Event → Prop) : World → List Event → Prop
  | _, []       => True
  | w, e :: es  => cond w e ∧ EveryStep P cond (e.run P w) es

/-- Every world of a run, the first and the last included, has a property. -/
def EveryState (P : Platform) (I : World → Prop) : World → List Event → Prop
  | w, []       => I w
  | w, e :: es  => I w ∧ EveryState P I (e.run P w) es

lemma everyStep_append {P : Platform} {cond : World → Event → Prop} {w : World}
    {es es' : List Event} :
    EveryStep P cond w (es ++ es') ↔
      EveryStep P cond w es ∧ EveryStep P cond (runEvents P w es) es' := by
  induction es generalizing w with
  | nil => exact (iff_of_eq (true_and _)).symm
  | cons e es ih => exact (and_congr_right' ih).trans and_assoc.symm

/-- What every step that meets the condition preserves holds in every state of a run whose steps
all meet it. -/
lemma EveryStep.everyState {P : Platform} {cond : World → Event → Prop} {I : World → Prop}
    (hstep : ∀ w e, cond w e → I w → I (e.run P w)) {w : World} {events : List Event}
    (h : EveryStep P cond w events) (h0 : I w) : EveryState P I w events := by
  induction events generalizing w with
  | nil => exact h0
  | cons e es ih => exact ⟨h0, ih h.2 (hstep w e h.1 h0)⟩

lemma EveryStep.mono {P : Platform} {cond cond' : World → Event → Prop} {w : World}
    {events : List Event} (h : EveryStep P cond w events) (hcond : ∀ w e, cond w e → cond' w e) :
    EveryStep P cond' w events := by
  induction events generalizing w with
  | nil => trivial
  | cons e es ih => exact ⟨hcond w e h.1, ih h.2⟩

lemma EveryState.mono {P : Platform} {I J : World → Prop} {w : World} {events : List Event}
    (h : EveryState P I w events) (hIJ : ∀ w, I w → J w) : EveryState P J w events := by
  induction events generalizing w with
  | nil => exact hIJ w h
  | cons e es ih => exact ⟨hIJ w h.1, ih h.2⟩

/-- The last world of a run is one of its worlds. -/
lemma EveryState.last {P : Platform} {I : World → Prop} {w : World} {events : List Event}
    (h : EveryState P I w events) : I (runEvents P w events) := by
  induction events generalizing w with
  | nil => exact h
  | cons e es ih => exact ih h.2

/-- A condition asked of the steps from worlds with a property holds at every step of a run whose
worlds all have it. -/
lemma EveryState.everyStep {P : Platform} {I : World → Prop} {cond : World → Event → Prop}
    {w : World} {events : List Event} (h : EveryState P I w events)
    (hstep : EveryStep P (fun w e => I w → cond w e) w events) : EveryStep P cond w events := by
  induction events generalizing w with
  | nil => trivial
  | cons e es ih => exact ⟨hstep.1 h.1, ih h.2 hstep.2⟩

@[simp] lemma runEvents_append (P : Platform) (w : World) (es es' : List Event) :
    runEvents P w (es ++ es') = runEvents P (runEvents P w es) es' := List.foldl_append

/-- A process that has just started on a database with two users. -/
def World.sample : World where
  db := {
    users := [
      ⟨1, ⟨"ana@example.com", by decide⟩, ⟨"hash", by decide⟩, 0, 0⟩,
      ⟨2, ⟨"luis@example.com", by decide⟩, ⟨"hash", by decide⟩, 0, 0⟩]
    restaurants := []
    categories := []
    dishes := []
    scanEvents := []
    refreshTokens := []
    valid := by decide }
  cache := []
  now := 0

/-- The registration of the first user. -/
def registerAna : Event :=
  .request (.register "ana@example.com" "secret" ⟨1, "salt", 100, 101, 102⟩)

/-- The first user has a restaurant with one category and one dish. -/
def sopaServed : World := runEvents Platform.plain World.sample [
  .request (.admin 1 (.restaurantCreate 5 { name := ⟨"Casa", by decide⟩ } 10)),
  .request (.admin 1 (.categoryCreate { name := ⟨"Platos", by decide⟩ } 20)),
  .request (.admin 1 (.dishCreate
    { categoryId := 20, name := ⟨"Sopa", by decide⟩, price := ⟨⟨5, 0⟩, by decide⟩ } 30))]

/-- The order of storage, for every query of a menu. -/
def MenuScan.stored : MenuScan := ⟨Scan.stored Category, Scan.stored Dish⟩

end LiveMenu
