import LiveMenu.Menu.Calls

/-!
# Where menus come from

Reads and changes of menus in one process, interleaved at their awaits, with a record of the
database that each step found. Whatever a read returns or the cache holds was put together from
rows that the database had at recorded moments.
-/

namespace LiveMenu

open MenuService

/-! ### The record -/

/-- What happened so far, stamped with the number of steps made before. -/
structure MenuHistory where
  moment : ℕ
  /-- The database that each step found. -/
  db : ℕ → Database
  /-- When a change made its commit. -/
  committed : ℕ → Option ℕ
  /-- When the first of the rows was read that a call builds its menu from. -/
  source : ℕ → ℕ
  /-- The same for the menu that is cached under a key. -/
  cachedAt : String → ℕ

namespace MenuHistory

/-- Nothing has happened yet. -/
def empty (db : Database) : MenuHistory := ⟨0, fun _ => db, fun _ => none, fun _ => 0, fun _ => 0⟩

/-- Call `i` makes the step `l` in the world `w`. A cached menu is as old as the cache says, one
that is built is as old as its first query. -/
def stepped (h : MenuHistory) (i : ℕ) (l : Label) (w : World) : MenuHistory where
  moment := h.moment + 1
  db := Function.update h.db h.moment w.db
  committed :=
    match l with
    | .commit _ => Function.update h.committed i (some h.moment)
    | _         => h.committed
  source :=
    match l with
    | .cacheGet key        => Function.update h.source i (h.cachedAt key)
    | .select .restaurants => Function.update h.source i h.moment
    | _                    => h.source
  cachedAt :=
    match l with
    | .cacheSet key => Function.update h.cachedAt key (h.source i)
    | _             => h.cachedAt

/-- The menu was put together from the restaurant that had the slug at the moment `s` and from
categories and dishes that the database had then or later. -/
def Assembled (h : MenuHistory) (slug : String) (s : ℕ) (menu : MenuResponse) : Prop :=
  ∃ scan r t t', s ≤ t ∧ t ≤ t' ∧ t' < h.moment ∧
    Rows.get (·.slug.val) slug (h.db s).restaurants = some r ∧
    menu = menuResponse r (activeCategories scan r.id (h.db t))
      (loadedDishes scan (activeCategories scan r.id (h.db t)) (h.db t'))

/-- The recorded moments are where the cached menus come from. -/
def Accounts (h : MenuHistory) (cache : Cache MenuResponse) : Prop :=
  ∀ e ∈ cache, ∃ slug, e.1 = cacheKey slug ∧ h.Assembled slug (h.cachedAt e.1) e.2.1

/-- One history goes on where the other ends. -/
structure Continues (h h' : MenuHistory) : Prop where
  moment : h.moment ≤ h'.moment
  db : ∀ t < h.moment, h'.db t = h.db t

variable {h h' : MenuHistory} {i j : ℕ} {l : Label} {w : World}

lemma Assembled.continues {slug : String} {s : ℕ} {menu : MenuResponse}
    (ha : h.Assembled slug s menu) (hc : Continues h h') : h'.Assembled slug s menu := by
  obtain ⟨scan, r, t, t', hst, htt, ht', hget, hmenu⟩ := ha
  refine ⟨scan, r, t, t', hst, htt, lt_of_lt_of_le ht' hc.moment, ?_, ?_⟩
  · rw [hc.db s (by omega), hget]
  · rw [hc.db t (by omega), hc.db t' ht', hmenu]

lemma continues_stepped (h : MenuHistory) (i : ℕ) (l : Label) (w : World) :
    Continues h (h.stepped i l w) :=
  ⟨Nat.le_succ _, fun _ ht => Function.update_of_ne ht.ne _ _⟩

@[simp] lemma stepped_moment : (h.stepped i l w).moment = h.moment + 1 := rfl

@[simp] lemma stepped_db_self : (h.stepped i l w).db h.moment = w.db := Function.update_self _ _ _

lemma stepped_committed (hj : ∀ t, l = .commit t → j ≠ i) :
    (h.stepped i l w).committed j = h.committed j := by
  cases l <;> first | rfl | exact Function.update_of_ne (hj _ rfl) _ _

lemma stepped_source (hj : j ≠ i) : (h.stepped i l w).source j = h.source j := by
  cases l with
  | cacheGet key => exact Function.update_of_ne hj _ _
  | select t => cases t <;> first | rfl | exact Function.update_of_ne hj _ _
  | _ => rfl

lemma stepped_cachedAt {key : String} (hl : l ≠ .cacheSet key) :
    (h.stepped i l w).cachedAt key = h.cachedAt key := by
  cases l with
  | cacheSet key' =>
    refine Function.update_of_ne ?_ _ _
    rintro rfl
    exact hl rfl
  | _ => rfl

end MenuHistory

/-! ### The process -/

/-- Reads and changes of menus in one process, while anything else happens that stores no menu. -/
def menuSystem (P : Platform) :
    System MenuCall MenuPhase World Label Exc Response MenuHistory where
  program call := call.request.code P
  init _ := .start
  monitor := MenuCall.monitor
  onStart cfg _ _ := cfg.ghost
  onStep cfg i _ l _ := cfg.ghost.stepped i l cfg.state
  env w w' := (∀ e ∈ w'.cache, e ∈ w.cache) ∧ w.now ≤ w'.now

instance (P : Platform) : DecidableRel (menuSystem P).env := fun w w' =>
  inferInstanceAs (Decidable ((∀ e ∈ w'.cache, e ∈ w.cache) ∧ w.now ≤ w'.now))

abbrev MenuConfig : Type := Config MenuCall MenuPhase World Label Exc Response MenuHistory

/-- A process that has just started. -/
def opening (db : Database) (now : Time) : MenuConfig :=
  ⟨⟨db, [], now⟩, fun _ => none, MenuHistory.empty db⟩

/-- The change `i` has returned without an exception. -/
def changed (cfg : MenuConfig) (i : ℕ) : Bool :=
  match cfg.threads i with
  | some ⟨.change .., _, .done (.ok _)⟩ => true
  | _                                   => false

/-- The slug and the menu of the read `j` that has returned. -/
def returnedMenu (cfg : MenuConfig) (j : ℕ) : Option (String × MenuResponse) :=
  match cfg.threads j with
  | some ⟨.menu _ slug, _, .done (.ok (.menu m))⟩ => some (slug, m)
  | _                                             => none

lemma accepts_of_opening (db : Database) (now : Time) :
    ∀ i th, (opening db now).threads i = some th →
      th.call.monitor.Accepts th.call.Ends th.code th.phase := by
  rintro i th ⟨⟩

lemma exists_of_changed {cfg : MenuConfig} {i : ℕ} (h : changed cfg i = true) :
    ∃ u op hop φ a, cfg.threads i = some ⟨.change u op hop, φ, .done (.ok a)⟩ := by
  rw [changed] at h
  split at h
  · rename_i u op hop φ a hi
    exact ⟨u, op, hop, φ, a, hi⟩
  · cases h

lemma exists_of_returnedMenu {cfg : MenuConfig} {j : ℕ} {slug : String} {menu : MenuResponse}
    (h : returnedMenu cfg j = some (slug, menu)) :
    ∃ scan φ, cfg.threads j = some ⟨.menu scan slug, φ, .done (.ok (.menu menu))⟩ := by
  rw [returnedMenu] at h
  split at h
  · rename_i scan slug' φ m hj
    cases h
    exact ⟨scan, φ, hj⟩
  · cases h

/-! ### What the calls know -/

/-- What call `i` knows about the history in each phase. -/
def MenuPhase.Knows (h : MenuHistory) (i : ℕ) : MenuCall → MenuPhase → Prop
  | .menu _ slug, .found r => h.source i < h.moment ∧
    Rows.get (·.slug.val) slug (h.db (h.source i)).restaurants = some r
  | .menu scan slug, .listed r categories => ∃ t, h.source i ≤ t ∧ t < h.moment ∧
    Rows.get (·.slug.val) slug (h.db (h.source i)).restaurants = some r ∧
    categories = activeCategories scan r.id (h.db t)
  | .menu _ slug, .built m | .menu _ slug, .answered m => h.Assembled slug (h.source i) m
  | .change .., .committed | .change .., .flushed => ∃ c, h.committed i = some c ∧ c < h.moment
  | _, _ => True

lemma MenuPhase.Knows.continues {h h' : MenuHistory} {i : ℕ} {call : MenuCall} {φ : MenuPhase}
    (hk : φ.Knows h i call) (hc : h.Continues h') (hsource : h'.source i = h.source i)
    (hcommitted : h'.committed i = h.committed i) : φ.Knows h' i call := by
  have hmoment := hc.moment
  have hpast : (∃ c, h.committed i = some c ∧ c < h.moment) →
      ∃ c, h'.committed i = some c ∧ c < h'.moment := by
    rintro ⟨c, hci, hlt⟩
    exact ⟨c, hcommitted.trans hci, by omega⟩
  cases call with
  | menu scan slug =>
    have hassembled : ∀ {m}, h.Assembled slug (h.source i) m →
        h'.Assembled slug (h'.source i) m := by
      intro m ha
      rw [hsource]
      exact ha.continues hc
    cases φ with
    | found r =>
      obtain ⟨hlt, hget⟩ := hk
      refine ⟨by omega, ?_⟩
      rw [hsource, hc.db _ hlt, hget]
    | listed r categories =>
      obtain ⟨t, hst, htm, hget, hcats⟩ := hk
      refine ⟨t, by omega, by omega, ?_, ?_⟩
      · rw [hsource, hc.db _ (by omega), hget]
      · rw [hc.db _ htm, hcats]
    | built m => exact hassembled hk
    | answered m => exact hassembled hk
    | _ => trivial
  | change u op hop =>
    cases φ with
    | committed => exact hpast hk
    | flushed => exact hpast hk
    | _ => trivial

/-- What every call knows is true, and every cached menu was assembled at the recorded moments. -/
structure Recorded (cfg : MenuConfig) : Prop where
  calls : ∀ i th, cfg.threads i = some th → th.phase.Knows cfg.ghost i th.call
  cache : ∀ e ∈ cfg.state.cache, ∃ slug, e.1 = cacheKey slug ∧
    cfg.ghost.Assembled slug (cfg.ghost.cachedAt e.1) e.2.1

/-- A cached menu was there before under its key, or it is the one that the step stores. -/
lemma MenuStep.mem_cache {w w' : World} {call : MenuCall} {φ φ' : MenuPhase} {l : Label}
    (h : MenuStep w w' call φ l φ') {e : String × MenuResponse × Time} (he : e ∈ w'.cache) :
    (e ∈ w.cache ∧ l ≠ .cacheSet e.1) ∨ ∃ scan slug, call = .menu scan slug ∧
      φ = .built e.2.1 ∧ l = .cacheSet e.1 ∧ e.1 = cacheKey slug := by
  cases h with
  | hit hget hw =>
    subst hw
    exact .inl ⟨Cache.mem_cacheGet he, Label.noConfusion⟩
  | miss hw =>
    subst hw
    exact .inl ⟨Cache.mem_cacheGet he, Label.noConfusion⟩
  | store hw =>
    subst hw
    rcases Cache.mem_store he with rfl | ⟨he, hkey⟩
    · exact .inr ⟨_, _, rfl, rfl, rfl, rfl⟩
    · exact .inl ⟨he, fun hl => hkey (Label.cacheSet.inj hl).symm⟩
  | flush hw =>
    subst hw
    exact .inl ⟨(Cache.mem_cacheInvalidatePrefix.mp he).1, Label.noConfusion⟩
  | commit hcache => exact .inl ⟨hcache ▸ he, Label.noConfusion⟩
  | look hl hw =>
    refine .inl ⟨hw ▸ he, ?_⟩
    rintro rfl
    exact hl.elim
  | find _ hw => exact .inl ⟨hw ▸ he, Label.noConfusion⟩
  | absent hw => exact .inl ⟨hw ▸ he, Label.noConfusion⟩
  | list hw => exact .inl ⟨hw ▸ he, Label.noConfusion⟩
  | listNone _ hw => exact .inl ⟨hw ▸ he, Label.noConfusion⟩
  | load hw => exact .inl ⟨hw ▸ he, Label.noConfusion⟩

section

variable {h : MenuHistory} {i : ℕ} {call : MenuCall} {φ φ' : MenuPhase} {l : Label} {w w' : World}

/-- A call that makes a step knows what its new phase stands for. -/
lemma MenuStep.knows (hstep : MenuStep w w' call φ l φ') (hcache : h.Accounts w.cache)
    (hknows : φ.Knows h i call) : φ'.Knows (h.stepped i l w) i call := by
  have hc := MenuHistory.continues_stepped h i l w
  cases hstep with
  | @hit scan slug menu hget hw =>
    obtain ⟨expiresAt, hmem, -⟩ := Cache.cacheGet_some hget
    obtain ⟨slug', hkey, ha⟩ := hcache _ hmem
    cases cacheKey_injective hkey
    have hsource : (h.stepped i (.cacheGet (cacheKey slug)) w).source i
        = h.cachedAt (cacheKey slug) := Function.update_self _ _ _
    exact (congrArg (MenuHistory.Assembled _ slug · menu) hsource).mpr (ha.continues hc)
  | miss hw => trivial
  | @find scan slug r hget hw =>
    have hsource : (h.stepped i (.select .restaurants) w).source i
        = h.moment := Function.update_self _ _ _
    constructor
    · rw [hsource]
      exact Nat.lt_succ_self _
    · rw [hsource, MenuHistory.stepped_db_self, hget]
  | absent hw => trivial
  | @list scan slug r hw =>
    obtain ⟨hlt, hget⟩ := hknows
    refine ⟨h.moment, hlt.le, Nat.lt_succ_self _, ?_, ?_⟩
    · exact (congrArg (fun db : Database => Rows.get (·.slug.val) slug db.restaurants)
        (hc.db _ hlt)).trans hget
    · rw [MenuHistory.stepped_db_self]
  | @listNone scan slug r hnil hw =>
    obtain ⟨hlt, hget⟩ := hknows
    refine ⟨scan, r, h.moment, h.moment, hlt.le, le_rfl, Nat.lt_succ_self _, ?_, ?_⟩
    · exact (congrArg (fun db : Database => Rows.get (·.slug.val) slug db.restaurants)
        (hc.db _ hlt)).trans hget
    · rw [MenuHistory.stepped_db_self, hnil]
      rfl
  | @load scan slug r categories hw =>
    obtain ⟨t, hst, ht, hget, hcats⟩ := hknows
    refine ⟨scan, r, t, h.moment, hst, ht.le, Nat.lt_succ_self _, ?_, ?_⟩
    · exact (congrArg (fun db : Database => Rows.get (·.slug.val) slug db.restaurants)
        (hc.db _ (lt_of_le_of_lt hst ht))).trans hget
    · rw [MenuHistory.stepped_db_self, hc.db t ht, hcats]
  | store hw => exact MenuHistory.Assembled.continues hknows hc
  | look hl hw =>
    have hcommitted : (h.stepped i l w).committed i = h.committed i := by
      apply MenuHistory.stepped_committed
      rintro t rfl
      exact hl.elim
    have hpast : (∃ c, h.committed i = some c ∧ c < h.moment) →
        ∃ c, (h.stepped i l w).committed i = some c ∧ c < h.moment + 1 := by
      rintro ⟨c, hci, hlt⟩
      exact ⟨c, hcommitted.trans hci, hlt.trans (Nat.lt_succ_self _)⟩
    cases φ with
    | committed => exact hpast hknows
    | flushed => exact hpast hknows
    | _ => trivial
  | commit hcache => exact ⟨h.moment, Function.update_self _ _ _, Nat.lt_succ_self _⟩
  | flush hw => exact hknows.imp fun c hci => ⟨hci.1, hci.2.trans (Nat.lt_succ_self _)⟩

/-- A step leaves a cache of menus whose origin is recorded. -/
lemma MenuStep.accounts (hstep : MenuStep w w' call φ l φ') (hcache : h.Accounts w.cache)
    (hknows : φ.Knows h i call) : (h.stepped i l w).Accounts w'.cache := by
  intro e he
  have hc := MenuHistory.continues_stepped h i l w
  rcases hstep.mem_cache he with ⟨hmem, hl⟩ | ⟨scan, slug, rfl, rfl, rfl, hkey⟩
  · obtain ⟨slug, hkey, ha⟩ := hcache e hmem
    refine ⟨slug, hkey, ?_⟩
    rw [MenuHistory.stepped_cachedAt hl]
    exact ha.continues hc
  · refine ⟨slug, hkey, ?_⟩
    have hcached : (h.stepped i (.cacheSet e.1) w).cachedAt e.1 = h.source i :=
      Function.update_self _ _ _
    rw [hcached]
    exact MenuHistory.Assembled.continues hknows hc

end

namespace Recorded

variable {P : Platform} {cfg : MenuConfig}

lemma opening (db : Database) (now : Time) : Recorded (opening db now) := by
  refine ⟨?_, List.forall_mem_nil _⟩
  rintro i th ⟨⟩

lemma started (h : Recorded cfg) (i : ℕ) (c : MenuCall) :
    Recorded ((menuSystem P).started cfg i c) := by
  refine ⟨fun j th hj => ?_, h.cache⟩
  rw [System.started_thread] at hj
  split_ifs at hj
  · cases hj
    cases c <;> trivial
  · exact h.calls j th hj

lemma background (h : Recorded cfg) {w : World} (hw : ∀ e ∈ w.cache, e ∈ cfg.state.cache) :
    Recorded { cfg with state := w } :=
  ⟨h.calls, fun e he => h.cache e (hw e he)⟩

lemma stepped (h : Recorded cfg) {i : ℕ}
    {th : Thread MenuCall MenuPhase World Label Exc Response} {l : Label} {w' : World}
    (code : Async Response) (hi : cfg.threads i = some th)
    (hallow : th.call.monitor.allows th.phase l cfg.state w') :
    Recorded ((menuSystem P).stepped cfg i th l w' code) := by
  refine ⟨fun j tj hj => ?_, MenuStep.accounts hallow h.cache (h.calls i th hi)⟩
  rw [System.stepped_thread] at hj
  split_ifs at hj with hji
  · subst hji
    cases hj
    exact MenuStep.knows hallow h.cache (h.calls j th hi)
  · exact (h.calls j tj hj).continues (MenuHistory.continues_stepped _ _ _ _)
      (MenuHistory.stepped_source hji) (MenuHistory.stepped_committed fun _ _ => hji)

end Recorded

end LiveMenu
