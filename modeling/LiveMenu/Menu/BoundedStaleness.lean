import LiveMenu.Menu.Content
import LiveMenu.Menu.DeploymentHistory

/-!
# How stale a menu can be

No process drops what another one has cached, so a menu may be answered long after the dishes on it
are gone. How long is bounded: a cached menu expires 300 seconds after it was stored, and it was
stored at most the duration of one read after its first row was read.
-/

namespace LiveMenu

open MenuService

/-! ### The clock -/

/-- A read that goes to the database returns at most `delta` after its first query: it stores the
menu it has built and returns in the same step. -/
def AnswersWithin (delta : Time) :
    System.Guard RoutedRequest MenuPhase Deployment Label Exc Response DeploymentHistory :=
  fun cfg i th _ => ∀ menu, th.phase = .built menu →
    cfg.state.now ≤ cfg.ghost.time (cfg.ghost.source i) + delta

lemma MenuStep.read_world {w w' : World} {scan : MenuScan} {slug : String} {φ φ' : MenuPhase}
    {l : Label} (h : MenuStep w w' (.menu scan slug) φ l φ') : w'.db = w.db ∧ w'.now = w.now := by
  cases h with
  | hit _ hw | miss hw | find _ hw | absent hw | list hw | listNone _ hw | load hw | store hw =>
    subst hw
    exact ⟨rfl, rfl⟩

/-- No step moves the clock or a category. -/
lemma ProcessStep.keeps {w w' : World} {r : Request} {φ φ' : MenuPhase} {l : Label}
    (h : ProcessStep w w' r φ l φ') :
    w'.now = w.now ∧ KeepsRestaurants w.db.toTables w'.db.toTables := by
  cases h with
  | read hr hmenu =>
    obtain ⟨hdb, hnow⟩ := hmenu.read_world
    exact ⟨hnow, keepsRestaurants_of_same (by rw [hdb])⟩
  | mutate hstay hr hnow hcache hdb => exact ⟨hnow, hdb⟩

/-- The recorded times do not decrease, and from one moment to the next no category moves to another
restaurant. -/
structure Clocked (h : DeploymentHistory) (s : Deployment) : Prop where
  mono : ∀ k k', k ≤ k' → k' < h.moment → h.time k ≤ h.time k'
  le_now : ∀ k < h.moment, h.time k ≤ s.now
  keeps : ∀ k, k + 1 < h.moment → KeepsRestaurants (h.db k).toTables (h.db (k + 1)).toTables
  keeps_last : ∀ k, k + 1 = h.moment → KeepsRestaurants (h.db k).toTables s.db.toTables

namespace Clocked

variable {h : DeploymentHistory} {s s' : Deployment}

lemma empty (db : Database) (s : Deployment) : Clocked (.empty db) s := by
  refine ⟨?_, ?_, ?_, ?_⟩
  · exact fun k k' _ hk => absurd hk (Nat.not_lt_zero k')
  · exact fun k hk => absurd hk (Nat.not_lt_zero k)
  · exact fun k hk => absurd hk (Nat.not_lt_zero (k + 1))
  · exact fun k hk => absurd hk (Nat.succ_ne_zero k)

lemma background (hc : Clocked h s) (hdb : s'.db = s.db) (hnow : s.now ≤ s'.now) :
    Clocked h s' where
  mono := hc.mono
  le_now k hk := (hc.le_now k hk).trans hnow
  keeps := hc.keeps
  keeps_last k hk := by
    rw [hdb]
    exact hc.keeps_last k hk

lemma stepped (hc : Clocked h s) {p i : ℕ} {w' : World} {r : Request} {φ φ' : MenuPhase} {l : Label}
    (hstep : ProcessStep ((Deployment.process p).get s) w' r φ l φ') :
    Clocked (h.stepped p i l ((Deployment.process p).get s)) ((Deployment.process p).set s w') := by
  obtain ⟨hnow, hkeep⟩ := hstep.keeps
  have hsplit : ∀ k < h.moment + 1, k < h.moment ∨ k = h.moment := fun k =>
    Nat.lt_succ_iff_lt_or_eq.mp
  refine ⟨fun k k' hkk hk' => ?_, fun k hk => ?_, fun k hk => ?_, fun k hk => ?_⟩
  · rcases hsplit k' hk' with hlt | rfl
    · rw [DeploymentHistory.stepped_time (hkk.trans_lt hlt), DeploymentHistory.stepped_time hlt]
      exact hc.mono k k' hkk hlt
    · rw [DeploymentHistory.stepped_time_self]
      rcases hkk.lt_or_eq with hlt | rfl
      · rw [DeploymentHistory.stepped_time hlt]
        exact hc.le_now k hlt
      · exact DeploymentHistory.stepped_time_self.le
  · show _ ≤ w'.now
    rw [hnow]
    rcases hsplit k hk with hlt | rfl
    · rw [DeploymentHistory.stepped_time hlt]
      exact hc.le_now k hlt
    · exact DeploymentHistory.stepped_time_self.le
  · have hk' : k < h.moment := Nat.lt_of_succ_lt_succ hk
    rw [DeploymentHistory.stepped_db hk']
    rcases hsplit (k + 1) hk with hlt | heq
    · rw [DeploymentHistory.stepped_db hlt]
      exact hc.keeps k hlt
    · rw [heq, DeploymentHistory.stepped_db_self]
      exact hc.keeps_last k heq
  · obtain rfl : k = h.moment := Nat.succ.inj hk
    rw [DeploymentHistory.stepped_db_self]
    exact hkeep

/-- While a category is there it belongs to the same restaurant. -/
lemma restaurant_eq (hc : Clocked h s) {c v : Uuid} {k k' : ℕ} (hkk : k ≤ k') (hk' : k' < h.moment)
    (hthere : ∀ n, k ≤ n → n ≤ k' → ∃ x ∈ (h.db n).categories, x.id = c)
    (hlast : ∀ x ∈ (h.db k').categories, x.id = c → x.restaurantId = v) :
    ∃ x ∈ (h.db k).categories, x.id = c ∧ x.restaurantId = v := by
  induction k', hkk using Nat.le_induction with
  | base =>
    obtain ⟨x, hx, hid⟩ := hthere k le_rfl le_rfl
    exact ⟨x, hx, hid, hlast x hx hid⟩
  | succ n hkn ih =>
    apply ih (by omega) (fun m hkm hmn => hthere m hkm (by omega))
    intro x hx hid
    obtain ⟨x', hx', hid'⟩ := hthere (n + 1) (by omega) le_rfl
    rw [← hc.keeps n hk' x hx x' hx' (hid'.trans hid.symm)]
    exact hlast x' hx' hid'

end Clocked

/-! ### Ages -/

/-- The record as it was after `k` steps. -/
def MenuHistory.before (h : MenuHistory) (k : ℕ) : MenuHistory := { h with moment := k }

/-- Call `i` returned a menu that was put together before, and its first row was not read long
before. -/
structure AnsweredInTime (delta : Time) (h : DeploymentHistory) (p i : ℕ) (slug : String)
    (menu : MenuResponse) : Prop where
  lt_moment : h.returned i < h.moment
  age : h.time (h.returned i) ≤ h.time (h.source i) + delta + Time.seconds 300
  assembled : ((h.of p).before (h.returned i)).Assembled slug (h.source i) menu

/-- No cached menu is valid for long after its first row was read, and every read that has its menu
was answered in time. -/
structure Expiring (delta : Time) (cfg : DeploymentConfig) : Prop where
  traced : Traced cfg
  clocked : Clocked cfg.ghost cfg.state
  cached : ∀ p, ∀ e ∈ cfg.state.caches p, cfg.ghost.cachedAt p e.1 < cfg.ghost.moment ∧
    e.2.2 ≤ cfg.ghost.time (cfg.ghost.cachedAt p e.1) + delta + Time.seconds 300
  answered : ∀ i th scan slug menu, cfg.threads i = some th →
    th.call.request.reads = some (scan, slug) → th.phase = .answered menu →
      AnsweredInTime delta cfg.ghost th.call.process i slug menu

lemma MenuHistory.Assembled.source_lt {h : MenuHistory} {slug : String} {k : ℕ}
    {menu : MenuResponse} (ha : h.Assembled slug k menu) : k < h.moment := by
  obtain ⟨scan, r, t, t', hkt, htt, ht', -, -⟩ := ha
  omega

/-- Steps that are not its own leave an answered call as it is. -/
lemma AnsweredInTime.stepped {delta : Time} {h : DeploymentHistory} {p q i j : ℕ} {l : Label}
    {w : World} {slug : String} {menu : MenuResponse} (ha : AnsweredInTime delta h q j slug menu)
    (hsource : (h.stepped p i l w).source j = h.source j)
    (hreturned : (h.stepped p i l w).returned j = h.returned j) :
    AnsweredInTime delta (h.stepped p i l w) q j slug menu := by
  have hsourcelt : h.source j < h.moment := ha.assembled.source_lt.trans ha.lt_moment
  refine ⟨?_, ?_, ?_⟩
  · rw [hreturned]
    exact ha.lt_moment.trans (Nat.lt_succ_self _)
  · rw [hreturned, hsource, DeploymentHistory.stepped_time ha.lt_moment,
      DeploymentHistory.stepped_time hsourcelt]
    exact ha.age
  · rw [hreturned, hsource]
    refine ha.assembled.continues ⟨le_rfl, fun t ht => ?_⟩
    exact DeploymentHistory.stepped_db (i := i) (l := l) (ht.trans ha.lt_moment)

/-- A call that gets a menu now gets one that is recorded. -/
lemma AnsweredInTime.now {delta : Time} {h : DeploymentHistory} {p i : ℕ} {l : Label} {w : World}
    {slug : String} {menu : MenuResponse}
    (hreturned : (h.stepped p i l w).returned i = h.moment)
    (ha : (h.of p).Assembled slug ((h.stepped p i l w).source i) menu)
    (hage : w.now ≤ h.time ((h.stepped p i l w).source i) + delta + Time.seconds 300) :
    AnsweredInTime delta (h.stepped p i l w) p i slug menu := by
  refine ⟨?_, ?_, ?_⟩
  · rw [hreturned]
    exact Nat.lt_succ_self _
  · rw [hreturned, DeploymentHistory.stepped_time_self, DeploymentHistory.stepped_time ha.source_lt]
    exact hage
  · rw [hreturned]
    exact ha.continues ⟨le_rfl, fun t ht => DeploymentHistory.stepped_db (i := i) (l := l) ht⟩

/-- A menu is stored with its time of expiry. -/
lemma MenuStep.expires {w w' : World} {scan : MenuScan} {slug : String} {φ φ' : MenuPhase}
    {e : String × MenuResponse × Time} (h : MenuStep w w' (.menu scan slug) φ (.cacheSet e.1) φ')
    (he : e ∈ w'.cache) : e.2.2 = w.now + Time.seconds 300 := by
  generalize hl : Label.cacheSet e.1 = l at h
  cases h with
  | store hw =>
    subst hw
    rcases Cache.mem_store he with rfl | ⟨-, hkey⟩
    · rfl
    · exact absurd (Label.cacheSet.inj hl) hkey
  | hit _ _ | miss _ | find _ _ | absent _ | list _ | listNone _ _ | load _ => cases hl

namespace Expiring

variable {P : Platform} {cfg : DeploymentConfig} {delta : Time}

lemma deployed (db : Database) (now : Time) : Expiring delta (deployed db now) := by
  refine ⟨.deployed db now, .empty db _, fun p => List.forall_mem_nil _, ?_⟩
  rintro i th scan slug menu ⟨⟩

lemma started (h : Expiring delta cfg) (i : ℕ) (c : RoutedRequest) :
    Expiring delta ((deploymentSystem P).started cfg i c) := by
  refine ⟨h.traced.started i c, h.clocked, h.cached, fun j th scan slug menu hj hreads hφ => ?_⟩
  rw [System.started_thread] at hj
  split_ifs at hj
  · cases hj
    cases hφ
  · exact h.answered j th scan slug menu hj hreads hφ

lemma background (h : Expiring delta cfg) {s : Deployment} (hdb : s.db = cfg.state.db)
    (hs : ∀ p, ∀ e ∈ s.caches p, e ∈ cfg.state.caches p) (hnow : cfg.state.now ≤ s.now) :
    Expiring delta { cfg with state := s } :=
  ⟨h.traced.background hs, h.clocked.background hdb hnow, fun p e he => h.cached p e (hs p e he),
    h.answered⟩

section

variable {i : ℕ} {th : Thread RoutedRequest MenuPhase Deployment Label Exc Response} {l : Label}
  {w' : World}

/-- What a process has cached after a step was there before, or it is stored by a read that returns
in time. -/
lemma cached_step (h : Expiring delta cfg) (hi : cfg.threads i = some th)
    (hmay : AnswersWithin delta cfg i th l) {φ' : MenuPhase}
    (hstep : ProcessStep ((Deployment.process th.call.process).get cfg.state) w' th.call.request
      th.phase l φ') {e : String × MenuResponse × Time} (he : e ∈ w'.cache) :
    ((cfg.ghost.of th.call.process).stepped i l
        ((Deployment.process th.call.process).get cfg.state)).cachedAt e.1 < cfg.ghost.moment ∧
      e.2.2 ≤ cfg.ghost.time (((cfg.ghost.of th.call.process).stepped i l
        ((Deployment.process th.call.process).get cfg.state)).cachedAt e.1) + delta +
          Time.seconds 300 := by
  cases hstep with
  | @read scan slug _ _ _ hr hmenu =>
    rcases hmenu.mem_cache he with ⟨hmem, hl⟩ | ⟨scan', slug', hcall, hφ, rfl, hkey⟩
    · rw [MenuHistory.stepped_cachedAt hl]
      exact h.cached _ e hmem
    · have hcached : ((cfg.ghost.of th.call.process).stepped i (.cacheSet e.1)
          ((Deployment.process th.call.process).get cfg.state)).cachedAt e.1
            = cfg.ghost.source i := Function.update_self _ _ _
      have hknows := h.traced.calls i th scan slug hi hr
      rw [hφ] at hknows
      have hnow : cfg.state.now ≤ cfg.ghost.time (cfg.ghost.source i) + delta := hmay _ hφ
      rw [hcached, hmenu.expires he]
      exact ⟨MenuHistory.Assembled.source_lt hknows, Int.add_le_add_right hnow _⟩
  | mutate hstay hr hnow hcache hdb =>
    rw [MenuHistory.stepped_cachedAt (hcache.1 e.1)]
    exact h.cached _ e (hcache.2 e he)

/-- A read gets its menu from the cache before it has expired, or it stores the menu in time. -/
lemma answered_step (h : Expiring delta cfg) (hi : cfg.threads i = some th)
    (hmay : AnswersWithin delta cfg i th l) {φ' : MenuPhase}
    (hstep : ProcessStep ((Deployment.process th.call.process).get cfg.state) w' th.call.request
      th.phase l φ') {scan : MenuScan} {slug : String} {menu : MenuResponse}
    (hreads : th.call.request.reads = some (scan, slug)) (hφ' : φ' = .answered menu) :
    AnsweredInTime delta (cfg.ghost.stepped th.call.process i l
      ((Deployment.process th.call.process).get cfg.state)) th.call.process i slug menu := by
  cases hstep with
  | mutate hstay hr hnow hcache hdb =>
    obtain ⟨-, t, rfl⟩ := hr (hreads ▸ rfl)
    exact (h.answered i th scan slug menu hi hreads (hstay.symm.trans hφ')).stepped rfl rfl
  | @read scan' slug' _ _ _ hr hmenu =>
    cases hreads.symm.trans hr
    have hknows := h.traced.calls i th scan slug hi hreads
    generalize hφ : th.phase = φ at hmenu hknows
    cases hmenu with
    | hit hget hw =>
      cases hφ'
      obtain ⟨expiresAt, hmem, hexpires⟩ := Cache.cacheGet_some hget
      obtain ⟨hlt, hage⟩ := h.cached _ _ hmem
      obtain ⟨slug', hkey, ha⟩ := h.traced.caches _ _ hmem
      cases cacheKey_injective hkey
      have hsource : (cfg.ghost.stepped th.call.process i (.cacheGet (cacheKey slug))
          ((Deployment.process th.call.process).get cfg.state)).source i
            = cfg.ghost.cachedAt th.call.process (cacheKey slug) := Function.update_self _ _ _
      refine .now (Function.update_self _ _ _) ?_ ?_
      · rw [hsource]
        exact ha
      · rw [hsource]
        exact hexpires.trans hage
    | store hw =>
      cases hφ'
      have hnow : cfg.state.now ≤ cfg.ghost.time (cfg.ghost.source i) + delta := hmay _ hφ
      refine .now (Function.update_self _ _ _) hknows (hnow.trans ?_)
      exact Int.le_add_of_nonneg_right (by decide)
    | _ => cases hφ'

lemma stepped (h : Expiring delta cfg) {s' : Deployment} (code : Prog Deployment Label Exc Response)
    (hi : cfg.threads i = some th) (hmay : AnswersWithin delta cfg i th l)
    (hallow : th.call.monitor.allows th.phase l cfg.state s') :
    Expiring delta ((deploymentSystem P).stepped cfg i th l s' code) := by
  have htraced := h.traced.stepped (P := P) code hi hallow
  obtain ⟨w', rfl, hstep⟩ := hallow
  refine ⟨htraced, h.clocked.stepped hstep, fun q e he => ?_,
    fun j tj scan slug menu hj hreads hφ => ?_⟩
  · have hlast : ∀ k, k < cfg.ghost.moment ∧
        e.2.2 ≤ cfg.ghost.time k + delta + Time.seconds 300 →
          k < cfg.ghost.moment + 1 ∧ e.2.2 ≤ (cfg.ghost.stepped th.call.process i l
            ((Deployment.process th.call.process).get cfg.state)).time k + delta +
              Time.seconds 300 := by
      rintro k ⟨hlt, hle⟩
      rw [DeploymentHistory.stepped_time hlt]
      exact ⟨hlt.trans (Nat.lt_succ_self _), hle⟩
    apply hlast _
    by_cases hq : q = th.call.process
    · subst hq
      have hcaches : (Function.update cfg.state.caches th.call.process w'.cache) th.call.process
          = w'.cache := Function.update_self _ _ _
      have hcached : (cfg.ghost.stepped th.call.process i l
          ((Deployment.process th.call.process).get cfg.state)).cachedAt th.call.process
            = ((cfg.ghost.of th.call.process).stepped i l
              ((Deployment.process th.call.process).get cfg.state)).cachedAt :=
        Function.update_self _ _ _
      show (cfg.ghost.stepped th.call.process i l _).cachedAt th.call.process e.1 < _ ∧
        _ ≤ cfg.ghost.time ((cfg.ghost.stepped th.call.process i l _).cachedAt th.call.process e.1)
          + _ + _
      rw [hcached]
      exact h.cached_step hi hmay hstep (hcaches ▸ he)
    · have hcaches : (Function.update cfg.state.caches th.call.process w'.cache) q
          = cfg.state.caches q := Function.update_of_ne hq _ _
      show (cfg.ghost.stepped th.call.process i l _).cachedAt q e.1 < _ ∧
        _ ≤ cfg.ghost.time ((cfg.ghost.stepped th.call.process i l _).cachedAt q e.1) + _ + _
      rw [DeploymentHistory.stepped_cachedAt_of_ne hq]
      exact h.cached q e (hcaches ▸ he)
  · rw [System.stepped_thread] at hj
    split_ifs at hj with hji
    · subst hji
      cases hj
      exact h.answered_step hi hmay hstep hreads hφ
    · refine (h.answered j tj scan slug menu hj hreads hφ).stepped ?_ ?_
      · exact DeploymentHistory.stepped_source_of_ne hji
      · exact DeploymentHistory.stepped_returned_of_ne hji

end

end Expiring

/-! ### Hidden dishes -/

/-- Why nobody who asks for the slug is to see the dish `d` of the category `c`, for one and the
same reason from the time `a` to the time `b`. -/
inductive HiddenThroughout (h : DeploymentHistory) (a b : Time) (slug : String) (d c : Uuid) : Prop
  /-- The dish is unavailable or deleted. -/
  | dish (hdish : h.Throughout a b fun t => ∀ x ∈ t.dishes, x.id = d →
      x.available = false ∨ x.deletedAt.isSome)
  /-- The category is inactive. -/
  | category (hcategory : h.Throughout a b fun t => ∀ x ∈ t.categories, x.id = c → x.active = false)
  /-- The dish is there, and the restaurant of its category does not hold the slug. -/
  | slug (hthere : h.Throughout a b fun t => ∃ x ∈ t.dishes, x.id = d)
      (hslug : h.Throughout a b fun t => ∀ x ∈ t.categories, x.id = c →
        ∀ r ∈ t.restaurants, r.id = x.restaurantId → r.slug.val ≠ slug)
  /-- There is no restaurant `rid`, or it does not hold the slug, and the category is in no other
  one. -/
  | restaurant (rid : Uuid)
      (hone : h.Throughout a b fun t => ∀ x ∈ t.categories, x.id = c → x.restaurantId = rid)
      (hslug : h.Throughout a b fun t => ∀ r ∈ t.restaurants, r.id = rid → r.slug.val ≠ slug)

/-- The time of the last cache access of call `i`: when it got its menu. -/
def DeploymentHistory.answeredAt (h : DeploymentHistory) (i : ℕ) : Time := h.time (h.returned i)

/-- A menu was put together from what the database had in the time before it was returned. -/
lemma AnsweredInTime.window {delta : Time} {h : DeploymentHistory} {s : Deployment} {p i : ℕ}
    {slug : String} {menu : MenuResponse} (ha : AnsweredInTime delta h p i slug menu)
    (hc : Clocked h s) {k : ℕ} (hsource : h.source i ≤ k) (hk : k < h.returned i) :
    k < h.moment ∧ h.answeredAt i - Time.seconds 300 - delta ≤ h.time k ∧
      h.time k ≤ h.answeredAt i := by
  have hlt := hk.trans ha.lt_moment
  have hage := ha.age
  have hfirst := hc.mono _ k hsource hlt
  have hlast := hc.mono k _ hk.le ha.lt_moment
  refine ⟨hlt, ?_, hlast⟩
  rw [DeploymentHistory.answeredAt, sub_le_iff_le_add, sub_le_iff_le_add]
  exact hage.trans (Int.add_le_add_right (Int.add_le_add_right hfirst _) _)

/-- In every interleaving of requests to any number of processes, in which a read that goes to the
database takes at most `delta` from its first query to its return: a dish that was in one category
and hidden from a slug for one reason throughout the last 300 seconds and `delta` is on no menu that
a process returns for the slug. -/
theorem hidden_dish_not_returned (P : Platform) (db : Database) (now delta : Time)
    {cfg : DeploymentConfig}
    (h : (deploymentSystem P).Reach (AnswersWithin delta) (deployed db now) cfg) (i : ℕ)
    (slug : String) (menu : MenuResponse) (hread : answeredMenu cfg i = some (slug, menu))
    (t : Time) (ht : cfg.ghost.answeredAt i = t) (d c : Uuid)
    (hstays : cfg.ghost.Throughout (t - Time.seconds 300 - delta) t fun t =>
      ∀ x ∈ t.dishes, x.id = d → x.categoryId = c)
    (hhidden : HiddenThroughout cfg.ghost (t - Time.seconds 300 - delta) t slug d c) :
    ¬ menu.HasDish d := by
  have hexpiring : Expiring delta cfg := by
    refine h.monitored (RoutedRequest.accepts P) (accepts_of_deployed db now) (.deployed db now)
      ?_ ?_ ?_
    · exact fun cfg i c hI _ => hI.started i c
    · exact fun cfg i th l s' code hI hi hmay hallow => hI.stepped code hi hmay hallow
    · exact fun cfg s' hI hs => hI.background hs.1 hs.2.1 hs.2.2
  obtain ⟨call, φ, scan, hi, hreads⟩ := exists_of_answeredMenu hread
  obtain ⟨m, hm, hφ⟩ := h.accepts (RoutedRequest.accepts P) (accepts_of_deployed db now) i _ hi
    (hreads ▸ rfl) _ rfl
  cases hm
  have hanswer := hexpiring.answered i _ scan slug menu hi hreads hφ
  obtain ⟨scan', r, k, k', hsk, hkk, hk', hget, hmenu⟩ := hanswer.assembled
  subst ht
  intro hdish
  rw [hmenu] at hdish
  obtain ⟨x, hx, y, hy, hyd, hyx, hvisible⟩ := hasDish_menuResponse hdish
  obtain ⟨hxmem, hxr, hactive⟩ := mem_activeCategories.mp hx
  obtain ⟨hymem, -⟩ := mem_loadedDishes.mp hy
  have hwindow : ∀ n, cfg.ghost.source i ≤ n → n ≤ k' → n < cfg.ghost.moment ∧
      cfg.ghost.answeredAt i - Time.seconds 300 - delta ≤ cfg.ghost.time n ∧
        cfg.ghost.time n ≤ cfg.ghost.answeredAt i := fun n hsn hnk =>
    hanswer.window hexpiring.clocked hsn (hnk.trans_lt hk')
  obtain ⟨hlt₁, hfrom₁, hto₁⟩ := hwindow (cfg.ghost.source i) le_rfl (hsk.trans hkk)
  obtain ⟨hlt₂, hfrom₂, hto₂⟩ := hwindow k hsk hkk
  obtain ⟨hlt₃, hfrom₃, hto₃⟩ := hwindow k' (hsk.trans hkk) le_rfl
  have hxc : x.id = c := hyx.symm.trans (hstays k' hlt₃ hfrom₃ hto₃ y hymem hyd)
  have hrmem := Rows.get_mem hget
  have hrslug := Rows.get_key hget
  cases hhidden with
  | dish h =>
    rcases h k' hlt₃ hfrom₃ hto₃ y hymem hyd with hunavailable | hdeleted
    · rw [hvisible.1] at hunavailable
      cases hunavailable
    · rw [hvisible.2] at hdeleted
      cases hdeleted
  | category h =>
    have hinactive := h k hlt₂ hfrom₂ hto₂ x hxmem hxc
    rw [hactive] at hinactive
    cases hinactive
  | slug hthere hslug =>
    -- the category was in this restaurant when the restaurant was read, as it was later
    obtain ⟨z, hz, hzc, hzr⟩ := hexpiring.clocked.restaurant_eq (c := c) (v := r.id) hsk hlt₂
      (fun n hsn hnk => by
        obtain ⟨hlt, hfrom, hto⟩ := hwindow n hsn (hnk.trans hkk)
        obtain ⟨y', hy', hyd'⟩ := hthere n hlt hfrom hto
        have hc := hstays n hlt hfrom hto y' hy' hyd'
        exact List.mem_map.mp (hc ▸ (cfg.ghost.db n).valid.dishCategoryFk y' hy'))
      (fun x' hx' hx'c => by
        rw [Rows.eq_of_key_eq (cfg.ghost.db k).valid.categoryId hx' hxmem (hx'c.trans hxc.symm),
          hxr])
    exact hslug _ hlt₁ hfrom₁ hto₁ z hz hzc r hrmem hzr.symm hrslug
  | restaurant rid hone hslug =>
    have hrid : r.id = rid := hxr.symm.trans (hone k hlt₂ hfrom₂ hto₂ x hxmem hxc)
    exact hslug _ hlt₁ hfrom₁ hto₁ r hrmem hrid hrslug

/-! ### A dish deleted by another process -/

/-- Process 0 reads Ana's menu, process 1 deletes its dish, and process 0 reads the menu again. -/
def readWhileDeleted : List (Choice RoutedRequest Deployment) :=
  .start 0 ⟨0, .menu MenuScan.stored "casa"⟩ :: List.replicate 5 (.run 0) ++
    .start 1 ⟨1, .admin 1 (.dishDelete 30)⟩ :: List.replicate 7 (.run 1) ++
    .start 2 ⟨0, .menu MenuScan.stored "casa"⟩ :: [.run 2]

/-- Process 0 reads the menu once more. -/
def readLater : List (Choice RoutedRequest Deployment) :=
  .start 3 ⟨0, .menu MenuScan.stored "casa"⟩ :: List.replicate 5 (.run 3)

/-- The dishes on the menu that call `i` has returned. -/
def answeredIds (cfg : DeploymentConfig) (i : ℕ) : List Uuid :=
  match answeredMenu cfg i with
  | some (_, m) => m.categories.flatMap fun c => c.dishes.map (·.id)
  | none        => []

/-- Call `i` stores no menu whose first row was read before. -/
def answersAtOnce (cfg : DeploymentConfig) (i : ℕ) : Bool :=
  match cfg.threads i with
  | some ⟨_, .built _, _⟩ => cfg.state.now ≤ cfg.ghost.time (cfg.ghost.source i)
  | _                     => true

lemma answersWithin_of_checked {cfg : DeploymentConfig} {i : ℕ}
    {th : Thread RoutedRequest MenuPhase Deployment Label Exc Response} {l : Label}
    (hi : cfg.threads i = some th) (hok : answersAtOnce cfg i = true) :
    AnswersWithin 0 cfg i th l := by
  intro menu hφ
  obtain ⟨call, φ, code⟩ := th
  cases hφ
  simp only [answersAtOnce, hi, decide_eq_true_eq] at hok
  exact hok.trans_eq (add_zero _).symm

/-- The deleted dish is still on the second menu of process 0, and 301 seconds later it is gone. -/
theorem hidden_dish_not_returned_sopa :
    ∃ cfg : DeploymentConfig, (deploymentSystem Platform.plain).Reach (AnswersWithin 0)
        (deployed sopaServed.db 0) cfg ∧ answeredIds cfg 2 = [30] ∧
      ∃ menu, answeredMenu cfg 3 = some ("casa", menu) ∧ ¬ menu.HasDish 30 := by
  -- the schedules leave the background alone, and the clock moves between them
  let _ : DecidableRel (deploymentSystem Platform.plain).env := Classical.decRel _
  have hrun : ((deploymentSystem Platform.plain).follow answersAtOnce readWhileDeleted
      (deployed sopaServed.db 0)).any (fun cfg => cfg.state.now ≤ Time.seconds 301 &&
        ((deploymentSystem Platform.plain).follow answersAtOnce readLater
          { cfg with state := { cfg.state with now := Time.seconds 301 } }).any fun cfg =>
            answeredIds cfg 2 = [30] && ((answeredMenu cfg 3).any fun r => r.1 = "casa") &&
              cfg.ghost.answeredAt 3 = Time.seconds 301 &&
                decide (∀ k < cfg.ghost.moment, Time.seconds 1 ≤ cfg.ghost.time k →
                  ∀ x ∈ (cfg.ghost.db k).dishes, x.id = 30 →
                    x.categoryId = 20 ∧ x.deletedAt.isSome)) = true := by
    decide +kernel
  obtain ⟨cfg₁, h₁, hcfg₁⟩ := System.exists_reach_of_checked
    (fun _ _ _ _ => answersWithin_of_checked) hrun
  simp only [Bool.and_eq_true, decide_eq_true_eq] at hcfg₁
  obtain ⟨hnow, hrun₂⟩ := hcfg₁
  have htick : (deploymentSystem Platform.plain).Reach (AnswersWithin 0) cfg₁
      { cfg₁ with state := { cfg₁.state with now := Time.seconds 301 } } :=
    .single (.env cfg₁ _ ⟨rfl, fun _ _ he => he, hnow⟩)
  obtain ⟨cfg₂, h₂, hcfg₂⟩ := System.exists_reach_of_checked
    (fun _ _ _ _ => answersWithin_of_checked) hrun₂
  simp only [Bool.and_eq_true, decide_eq_true_eq, Option.any_eq_true] at hcfg₂
  obtain ⟨⟨⟨hstale, ⟨slug, menu⟩, hread, rfl⟩, htime⟩, hdeleted⟩ := hcfg₂
  have h := (h₁.trans htick).trans h₂
  refine ⟨cfg₂, h, hstale, menu, hread, ?_⟩
  refine hidden_dish_not_returned Platform.plain sopaServed.db 0 0 h 3 "casa" menu hread _ htime
    30 20 ?_ (.dish ?_)
  · exact fun k hk hfrom _ x hx hid => (hdeleted k hk hfrom x hx hid).1
  · exact fun k hk hfrom _ x hx hid => .inr (hdeleted k hk hfrom x hx hid).2

end LiveMenu
