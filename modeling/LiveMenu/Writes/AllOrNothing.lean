import LiveMenu.Lib.Commit
import LiveMenu.Concurrent.Api
import LiveMenu.Concurrent.Lookups

/-!
# The operations of the owners are all or nothing

An operation looks things up, commits once, and reads back what it has written. Whichever of its
awaited calls raises, or where its task is cancelled, the database is as it was or as the whole
operation leaves it; together with other requests it still changes the database at most once.
-/

namespace LiveMenu

namespace Async

variable {α β ρ : Type}

/-- The coroutine never changes the database. -/
abbrev KeepsDb (p : Async α) : Prop := p.Quiet World.db

/-- The coroutine changes the database at most once. -/
abbrev CommitsOnce (p : Async α) : Prop := p.ChangesOnce World.db

lemma Queries.keepsDb {p : Async α} (h : p.Queries) : p.KeepsDb := by
  induction p with
  | done r => exact Prog.quiet_done r
  | step l eff next ih =>
    obtain ⟨-, rfl, hnext⟩ := h
    exact fun w _ => ⟨rfl, fun _ => ih w (hnext w)⟩

lemma keepsDb_pure (a : α) : (pure a : Async α).KeepsDb := Prog.quiet_done _

lemma keepsDb_cacheInvalidatePrefix (pre : String) : (cacheInvalidatePrefix pre).KeepsDb :=
  Prog.keeps_modify (fun _ _ => rfl) trivial

/-! ### Before, at and after the commit -/

lemma Queries.bind_commitsOnce {p : Async α} {k : α → Async β} (hp : p.Queries)
    (hk : ∀ a, (k a).CommitsOnce) : (p >>= k).CommitsOnce :=
  hp.keepsDb.bind_changesOnce hk

/-- A look for one row, which can be missing. -/
lemma commitsOnce_find {t : Table} {query : Database → Option ρ} {k : Option ρ → Async α}
    (hnone : (k none).CommitsOnce) (hsome : ∀ r, (k (some r)).CommitsOnce) :
    (select t query >>= k).CommitsOnce := by
  refine (queries_select t query).bind_commitsOnce fun o => ?_
  cases o with
  | none => exact hnone
  | some r => exact hsome r

lemma commitsOnce_commit (t : Table) (write : Time → Database → Except DbError (α × Database)) :
    (commit t write).CommitsOnce := Prog.changesOnce_attempt _ _

lemma commitsOnce_insert (t : Table) (row : Time → Except DbError ρ) (tables : Tables → ρ → Tables)
    (find : Uuid → Tables → Option ρ) (id : Uuid) : (insert t row tables find id).CommitsOnce :=
  (commitsOnce_commit _ _).bind_quiet fun _ => (queries_refresh _ _).keepsDb

lemma commitsOnce_save (t : Table) (update : Time → Database → Except DbError Database)
    (find : Uuid → Tables → Option ρ) (id : Uuid) : (save t update find id).CommitsOnce :=
  (commitsOnce_commit _ _).bind_quiet fun _ => (queries_refresh _ _).keepsDb

/-- The pages of a menu are dropped after the commit. -/
lemma commitsOnce_invalidate {p : Async α} (hp : p.CommitsOnce) (pre : String) :
    (p >>= fun a => cacheInvalidatePrefix pre >>= fun _ => pure a).CommitsOnce :=
  hp.bind_quiet fun a => (keepsDb_cacheInvalidatePrefix pre).bind fun _ => keepsDb_pure a

end Async

open Async

/-! ### The operations -/

lemma DishService.queries_listDishes (P : Platform) (u : Uuid) (f : DishFilter) (limit offset : ℕ)
    (scan : Scan Dish) : (listDishes P u f limit offset scan).Queries := by
  apply (queries_select _ _).bind
  intro o
  cases o with
  | none => exact queries_http _ _
  | some r =>
    refine (queries_whenSome _ fun _ => queries_verifyCategoryOwnership _ _).bind fun _ => ?_
    exact (DishRepository.queries_listDishes P _ limit offset scan).bind fun _ => queries_pure _

lemma CategoryService.queries_listCategories (u : Uuid) (activeOnly : Bool) (scan : Scan Category) :
    (listCategories u activeOnly scan).Queries := by
  apply (queries_select _ _).bind
  intro o
  cases o with
  | none => exact queries_http _ _
  | some r => exact queries_select _ _

lemma AnalyticsService.queries_getAnalytics (P : Platform) (u : Uuid) (granularity : String)
    (fromDate toDate : Option PyDateTime) (scan : Scan (String × ℕ)) :
    (getAnalytics P u granularity fromDate toDate scan).Queries := by
  apply (queries_select _ _).bind
  intro o
  cases o with
  | none => exact queries_http _ _
  | some r =>
    refine (AnalyticsRepository.queries_query _ _ _ _).bind fun _ => ?_
    refine (AnalyticsRepository.queries_query _ _ _ _).bind fun _ => ?_
    refine (AnalyticsRepository.queries_query _ _ _ _).bind fun _ => ?_
    exact (AnalyticsRepository.queries_query _ _ _ _).bind fun _ => queries_pure _

lemma AnalyticsService.queries_exportAnalytics (u : Uuid)
    (fromDate toDate : Option PyDateTime) (scan : Scan ScanEvent) :
    (exportAnalytics u fromDate toDate scan).Queries := by
  apply (queries_select _ _).bind
  intro o
  cases o with
  | none => exact queries_http _ _
  | some r => exact (AnalyticsRepository.queries_query _ _ _ _).bind fun _ => queries_pure _

lemma DishRepository.commitsOnce_save (d : Dish) (new : Except DbError Dish) :
    (save d new).CommitsOnce := Async.commitsOnce_save _ _ _ _

/-- Every operation of an owner commits at most once. -/
lemma AdminOp.commitsOnce (P : Platform) (u : Uuid) (op : AdminOp) : (op.code P u).CommitsOnce := by
  have hmap : ∀ {α β : Type} {f : α → β} {p : Async α}, p.CommitsOnce → (f <$> p).CommitsOnce :=
    fun hp => hp.bind_quiet fun a => keepsDb_pure _
  have hnone : ∀ {α : Type} (status : ℕ) (detail : String),
      (Async.http status detail : Async α).CommitsOnce := fun _ _ => Prog.changesOnce_done _
  cases op with
  | restaurantGet => exact hmap (RestaurantService.queries_getByOwner u).keepsDb.changesOnce
  | restaurantCreate fuel data id =>
    refine hmap (commitsOnce_find ?_ fun r => hnone _ _)
    exact (RestaurantService.queries_ensureUniqueSlug _ _ _).bind_commitsOnce fun slug =>
      commitsOnce_insert _ _ _ _ _
  | restaurantUpdate fuel data =>
    refine hmap ((RestaurantService.queries_getByOwner u).bind_commitsOnce fun r => ?_)
    refine (RestaurantService.queries_updatedSlug _ _ _).bind_commitsOnce fun slug => ?_
    exact commitsOnce_invalidate (commitsOnce_save _ _ _ _) _
  | restaurantDelete =>
    refine hmap ((RestaurantService.queries_getByOwner u).bind_commitsOnce fun r => ?_)
    refine Prog.ChangesOnce.bind_quiet ?_ fun _ => keepsDb_cacheInvalidatePrefix _
    exact (queries_select _ _).bind_commitsOnce fun _ => commitsOnce_commit _ _
  | categoryList activeOnly scan =>
    exact hmap (CategoryService.queries_listCategories u activeOnly scan).keepsDb.changesOnce
  | categoryCreate data id =>
    refine hmap (commitsOnce_find (hnone _ _) fun r => commitsOnce_invalidate ?_ _)
    refine Queries.bind_commitsOnce (queries_orElse _ ?_) fun position =>
      commitsOnce_insert _ _ _ _ _
    exact (queries_select _ _).bind fun _ => queries_pure _
  | categoryUpdate categoryId data =>
    refine hmap (commitsOnce_find (hnone _ _) fun c => ?_)
    refine (CategoryService.queries_verifyRestaurantOwnership _ _).bind_commitsOnce fun _ => ?_
    exact commitsOnce_invalidate (commitsOnce_save _ _ _ _) _
  | categoryDelete categoryId =>
    refine hmap (commitsOnce_find (hnone _ _) fun c => ?_)
    refine (CategoryService.queries_verifyRestaurantOwnership _ _).bind_commitsOnce fun _ => ?_
    refine (CategoryRepository.queries_hasActiveDishes _).bind_commitsOnce fun active => ?_
    split_ifs
    · exact hnone _ _
    · refine Prog.ChangesOnce.bind_quiet ?_ fun _ => keepsDb_cacheInvalidatePrefix _
      exact (queries_select _ _).bind_commitsOnce fun _ => commitsOnce_commit _ _
  | categoryReorder ids =>
    refine hmap (commitsOnce_find (hnone _ _) fun r => ?_)
    refine (CategoryService.queries_verifyOrderedIds _ _).bind_commitsOnce fun _ => ?_
    exact (commitsOnce_commit _ _).bind_quiet fun _ => keepsDb_cacheInvalidatePrefix _
  | dishList f limit offset scan =>
    exact hmap (DishService.queries_listDishes P u f limit offset scan).keepsDb.changesOnce
  | dishGet dishId => exact hmap (DishService.queries_getDish dishId u).keepsDb.changesOnce
  | dishCreate data id =>
    refine hmap ((DishService.queries_verifyCategoryOwnership _ _).bind_commitsOnce fun _ => ?_)
    refine commitsOnce_invalidate ?_ _
    refine Queries.bind_commitsOnce (queries_orElse _ ?_) fun position =>
      commitsOnce_insert _ _ _ _ _
    exact (queries_select _ _).bind fun _ => queries_pure _
  | dishUpdate dishId data =>
    refine hmap ((DishService.queries_getDish dishId u).bind_commitsOnce fun d => ?_)
    refine Queries.bind_commitsOnce
      (queries_whenSome _ fun _ => DishService.queries_verifyCategoryOwnership _ _) fun _ => ?_
    exact commitsOnce_invalidate (DishRepository.commitsOnce_save _ _) _
  | dishDelete dishId =>
    refine hmap ((DishService.queries_getDish dishId u).bind_commitsOnce fun d => ?_)
    refine commitsOnce_invalidate ?_ _
    exact queries_clock.bind_commitsOnce fun now => DishRepository.commitsOnce_save _ _
  | dishToggle dishId =>
    refine hmap ((DishService.queries_getDish dishId u).bind_commitsOnce fun d => ?_)
    exact commitsOnce_invalidate (DishRepository.commitsOnce_save _ _) _
  | analyticsGet granularity fromDate toDate scan =>
    exact hmap
      (AnalyticsService.queries_getAnalytics P u granularity fromDate toDate
        scan).keepsDb.changesOnce
  | analyticsExport fromDate toDate scan =>
    exact hmap
      (AnalyticsService.queries_exportAnalytics u fromDate toDate scan).keepsDb.changesOnce
  | logout =>
    refine hmap ((queries_select _ _).bind_commitsOnce fun tokens => ?_)
    exact queries_clock.bind_commitsOnce fun now => commitsOnce_commit _ _

/-! ### All or nothing -/

/-- Whichever awaited call number `n` of an owner's operation raises, whatever it raises (an error
of the database, or the cancellation of the task): the database is as it was or as the whole
operation leaves it. In every interleaving of all requests, no operation changes the database after
it has changed it once. -/
theorem admin_operation_all_or_nothing (P : Platform) (u : Uuid) (op : AdminOp) :
    (∀ fails e n w, (((op.code P u).failAt fails e n).exec w).2.db = w.db ∨
      (((op.code P u).failAt fails e n).exec w).2.db = ((op.code P u).exec w).2.db) ∧
    ∀ db now i l eff next l' eff' next' (cfg cfg' : ApiConfig), Serves P (apiStart db now) cfg →
      cfg.threads i = some ⟨.admin u op, (), .step l eff next⟩ →
      (eff cfg.state).db ≠ cfg.state.db →
      Serves P ((apiSystem P).stepped cfg i ⟨.admin u op, (), .step l eff next⟩ l (eff cfg.state)
        (next cfg.state)) cfg' →
      cfg'.threads i = some ⟨.admin u op, (), .step l' eff' next'⟩ →
      (eff' cfg'.state).db = cfg'.state.db := by
  refine ⟨fun fails e n w => (AdminOp.commitsOnce P u op).exec_failAt n w, ?_⟩
  intro db now i l eff next l' eff' next' cfg cfg' h hi hchange h' hi'
  have honce : Async.CommitsOnce (.step l eff next) := by
    refine System.Reach.code (R := Async.CommitsOnce) h (fun _ _ _ s hs => hs.next s) ?_ hi
      fun _ => AdminOp.commitsOnce P u op
    rintro th ⟨⟩
  have hquiet : Async.KeepsDb (.step l' eff' next') := by
    refine System.Reach.code (R := Async.KeepsDb) h' (fun _ _ _ s hs => (hs.next s).2) ?_ hi' ?_
    · intro th hth
      rw [System.stepped_thread, if_pos rfl, Option.some.injEq] at hth
      exact hth ▸ honce.quiet_of_ne hchange
    · intro hnone
      rw [System.stepped_thread, if_pos rfl] at hnone
      cases hnone
  exact (hquiet.next cfg'.state).1

/-- A toggle of a dish that waits for an awaited call. -/
def waitingToggle (cfg : ApiConfig) (i : ℕ) :
    Option (Uuid × Uuid × Label × (World → World) × (World → Async Response)) :=
  match cfg.threads i with
  | some ⟨.admin u (.dishToggle dishId), _, .step l eff next⟩ => some (u, dishId, l, eff, next)
  | _                                                         => none

lemma waitingToggle_eq_some {cfg : ApiConfig} {i : ℕ} {u dishId : Uuid} {l : Label}
    {eff : World → World} {next : World → Async Response}
    (h : waitingToggle cfg i = some (u, dishId, l, eff, next)) :
    cfg.threads i = some ⟨.admin u (.dishToggle dishId), (), .step l eff next⟩ := by
  rw [waitingToggle] at h
  split at h
  · cases h
    assumption
  · cases h

def isStep (p : Async Response) : Bool :=
  match p with
  | .step _ _ _ => true
  | .done _     => false

/-- The toggle of the soup that is about to commit, and what it does after that. -/
theorem admin_operation_all_or_nothing_toggle :
    ∃ cfg l eff next l' eff' next', Serves Platform.plain (apiStart sopaServed.db 0) cfg ∧
      cfg.threads 0 = some ⟨.admin 1 (.dishToggle 30), (), .step l eff next⟩ ∧
      (eff cfg.state).db.dishes.map (·.available) = [false] ∧
      cfg.state.db.dishes.map (·.available) = [true] ∧
      next cfg.state = .step l' eff' next' ∧ (eff' (eff cfg.state)).db = (eff cfg.state).db := by
  have hrun : ((apiSystem Platform.plain).follow (fun _ _ => true)
      (.start 0 (.admin 1 (.dishToggle 30)) :: List.replicate 3 (.run 0))
      (apiStart sopaServed.db 0)).any (fun cfg => (waitingToggle cfg 0).any fun t =>
        ((t.1 = 1 && t.2.1 = 30) && isStep (t.2.2.2.2 cfg.state)) &&
          ((t.2.2.2.1 cfg.state).db.dishes.map (·.available) = [false] &&
            cfg.state.db.dishes.map (·.available) = [true])) = true := by
    decide +kernel
  obtain ⟨cfg, h, -, hcfg⟩ := System.exists_reach_of_follow_below (n := 1) (fun _ _ => rfl)
    (fun i c h => by simp at h; omega) (fun _ _ _ _ _ _ _ => trivial) hrun
  simp only [Option.any_eq_true, Bool.and_eq_true, decide_eq_true_eq] at hcfg
  obtain ⟨⟨_, _, l, eff, next⟩, hwaiting, ⟨⟨rfl, rfl⟩, hstep⟩, hafter, hbefore⟩ := hcfg
  have hi := waitingToggle_eq_some hwaiting
  cases hnext : next cfg.state with
  | done r =>
    have hstep : isStep (next cfg.state) = true := hstep
    rw [hnext] at hstep
    cases hstep
  | step l' eff' next' =>
    refine ⟨cfg, l, eff, next, l', eff', next', h, hi, hafter, hbefore, hnext, ?_⟩
    have hchange : (eff cfg.state).db ≠ cfg.state.db := by
      intro hsame
      have hafter : (eff cfg.state).db.dishes.map (·.available) = [false] := hafter
      rw [hsame, hbefore] at hafter
      cases hafter
    refine (admin_operation_all_or_nothing Platform.plain 1 (.dishToggle 30)).2 sopaServed.db 0 0 l
      eff next l' eff' next' cfg _ h hi hchange .refl ?_
    rw [System.stepped_thread, if_pos rfl, hnext]

end LiveMenu
