import LiveMenu.Menu.History

/-!
# No stale menu after an acknowledged change, if nothing old is stored after a flush

A change drops every cached menu before it returns. A read that was under way then may store what it
read before the change was committed, and later reads are answered with it. If no read stores a
menu that is older than a change which has already flushed, this cannot happen.
-/

namespace LiveMenu

open MenuService

/-! ### Fresh caches -/

/-- A change that has dropped the cached menus made its commit at the moment `c`. -/
def FlushedAt (cfg : MenuConfig) (c : ℕ) : Prop :=
  ∃ i th, cfg.threads i = some th ∧ th.phase = .flushed ∧ cfg.ghost.committed i = some c

/-- A read stores its menu only if it began its queries after the commits of all the changes that
have dropped the cached menus so far. -/
def StoresInTime : System.Guard MenuCall MenuPhase World Label Exc Response MenuHistory :=
  fun cfg i th l => (∃ m, th.phase = .built m) → (∃ key, l = .cacheSet key) →
    ∀ c, FlushedAt cfg c → c < cfg.ghost.source i

/-- Every cached menu is younger than the changes that have flushed. -/
structure FreshCache (cfg : MenuConfig) : Prop where
  recorded : Recorded cfg
  younger : ∀ e ∈ cfg.state.cache, ∀ c, FlushedAt cfg c → c < cfg.ghost.cachedAt e.1

/-- The read has the first of its rows, or a menu. -/
def MenuPhase.HasRead : MenuPhase → Prop
  | .found _ | .listed .. | .built _ | .answered _ => True
  | _                                              => False

/-- A change reaches its last phase by dropping the cached menus, and stays there. -/
lemma MenuStep.flushed {w w' : World} {call : MenuCall} {φ : MenuPhase} {l : Label}
    (h : MenuStep w w' call φ l .flushed) :
    (φ = .flushed ∧ l.IsQuery) ∨ w'.cache = w.cache.cacheInvalidatePrefix "menu:" := by
  cases h with
  | look hl _ => exact .inl ⟨rfl, hl⟩
  | flush hw => exact .inr (congrArg World.cache hw)

lemma MenuStep.of_flushed {w w' : World} {call : MenuCall} {φ' : MenuPhase} {l : Label}
    (h : MenuStep w w' call .flushed l φ') : φ' = .flushed ∧ l.IsQuery := by
  cases h with
  | look hl _ => exact ⟨rfl, hl⟩

lemma stepped_committed_of_query {h : MenuHistory} {i j : ℕ} {l : Label} {w : World}
    (hl : l.IsQuery) : (h.stepped i l w).committed j = h.committed j := by
  apply MenuHistory.stepped_committed
  rintro t rfl
  exact hl.elim

/-- Nothing is left of a cache of menus after a flush. -/
lemma Recorded.cache_flush {cfg : MenuConfig} (h : Recorded cfg) :
    cfg.state.cache.cacheInvalidatePrefix "menu:" = [] := by
  apply List.eq_nil_iff_forall_not_mem.mpr
  intro e he
  obtain ⟨hmem, hpre⟩ := Cache.mem_cacheInvalidatePrefix.mp he
  obtain ⟨slug, hkey, -⟩ := h.cache e hmem
  rw [hkey, cacheKey_startswith] at hpre
  cases hpre

section

variable {P : Platform} {cfg : MenuConfig}

lemma flushedAt_of_started {i : ℕ} {call : MenuCall} {c : ℕ}
    (h : FlushedAt ((menuSystem P).started cfg i call) c) : FlushedAt cfg c := by
  obtain ⟨j, th, hj, hφ, hc⟩ := h
  rw [System.started_thread] at hj
  split_ifs at hj
  · cases hj
    cases hφ
  · exact ⟨j, th, hj, hφ, hc⟩

/-- A change that has flushed had done so before, or it does now and the cache is empty. -/
lemma flushedAt_of_stepped (h : Recorded cfg) {i : ℕ}
    {th : Thread MenuCall MenuPhase World Label Exc Response} {l : Label} {w' : World}
    {code : Async Response} (hi : cfg.threads i = some th)
    (hallow : th.call.monitor.allows th.phase l cfg.state w') {c : ℕ}
    (hc : FlushedAt ((menuSystem P).stepped cfg i th l w' code) c) :
    FlushedAt cfg c ∨ w'.cache = [] := by
  obtain ⟨j, tj, hj, hφ, hcommitted⟩ := hc
  rw [System.stepped_thread] at hj
  split_ifs at hj with hji
  · subst hji
    cases hj
    have hnext : th.call.next th.phase l cfg.state = .flushed := hφ
    have hstep : MenuStep cfg.state w' th.call th.phase l .flushed := hnext ▸ hallow
    rcases hstep.flushed with ⟨hphase, hl⟩ | hcache
    · exact .inl ⟨j, th, hi, hphase, (stepped_committed_of_query hl).symm.trans hcommitted⟩
    · exact .inr (hcache.trans h.cache_flush)
  · refine .inl ⟨j, tj, hj, hφ, ?_⟩
    exact (MenuHistory.stepped_committed fun _ _ => hji).symm.trans hcommitted

namespace FreshCache

lemma started (h : FreshCache cfg) (i : ℕ) (call : MenuCall) :
    FreshCache ((menuSystem P).started cfg i call) :=
  ⟨h.recorded.started i call, fun e he c hc => h.younger e he c (flushedAt_of_started hc)⟩

lemma background (h : FreshCache cfg) {w : World} (hw : ∀ e ∈ w.cache, e ∈ cfg.state.cache) :
    FreshCache { cfg with state := w } :=
  ⟨h.recorded.background hw, fun e he => h.younger e (hw e he)⟩

lemma stepped (h : FreshCache cfg) {i : ℕ}
    {th : Thread MenuCall MenuPhase World Label Exc Response} {l : Label} {w' : World}
    (code : Async Response) (hi : cfg.threads i = some th) (hmay : StoresInTime cfg i th l)
    (hallow : th.call.monitor.allows th.phase l cfg.state w') :
    FreshCache ((menuSystem P).stepped cfg i th l w' code) := by
  refine ⟨h.recorded.stepped code hi hallow, fun e he c hc => ?_⟩
  rcases flushedAt_of_stepped h.recorded hi hallow hc with hflushed | hempty
  · rcases MenuStep.mem_cache hallow he with ⟨hmem, hl⟩ | ⟨scan, slug, hcall, hφ, rfl, hkey⟩
    · have hcached := MenuHistory.stepped_cachedAt (h := cfg.ghost) (i := i) (w := cfg.state) hl
      exact lt_of_lt_of_eq (h.younger e hmem c hflushed) hcached.symm
    · have hcached : (cfg.ghost.stepped i (.cacheSet e.1) cfg.state).cachedAt e.1
          = cfg.ghost.source i := Function.update_self _ _ _
      exact lt_of_lt_of_eq (hmay ⟨_, hφ⟩ ⟨_, rfl⟩ c hflushed) hcached.symm
  · have he : e ∈ w'.cache := he
    rw [hempty] at he
    cases he

end FreshCache

/-! ### After an acknowledged change -/

/-- The change `i` has flushed after its commit at the moment `c`, and what the `late` reads have
was read later. -/
structure ReadLater (i c : ℕ) (late : ℕ → Prop) (cfg : MenuConfig) : Prop where
  fresh : FreshCache cfg
  flushed : ∃ u op hop code, cfg.threads i = some ⟨.change u op hop, .flushed, code⟩ ∧
    cfg.ghost.committed i = some c
  reads : ∀ j scan slug φ code, late j → cfg.threads j = some ⟨.menu scan slug, φ, code⟩ →
    φ.HasRead → c < cfg.ghost.source j

namespace ReadLater

variable {i c : ℕ} {late : ℕ → Prop}

lemma flushedAt (h : ReadLater i c late cfg) : FlushedAt cfg c := by
  obtain ⟨u, op, hop, code, hi, hc⟩ := h.flushed
  exact ⟨i, _, hi, rfl, hc⟩

lemma lt_moment (h : ReadLater i c late cfg) : c < cfg.ghost.moment := by
  obtain ⟨u, op, hop, code, hi, hc⟩ := h.flushed
  obtain ⟨c', hc', hlt⟩ := h.fresh.recorded.calls i _ hi
  rw [hc] at hc'
  cases hc'
  exact hlt

lemma started (h : ReadLater i c late cfg) {k : ℕ} (call : MenuCall) (hk : cfg.threads k = none) :
    ReadLater i c late ((menuSystem P).started cfg k call) := by
  obtain ⟨u, op, hop, code, hi, hc⟩ := h.flushed
  have hne : i ≠ k := by
    rintro rfl
    rw [hk] at hi
    cases hi
  refine ⟨h.fresh.started k call, ⟨u, op, hop, code, ?_, hc⟩,
    fun j scan slug φ code' hj hth hφ => ?_⟩
  · rw [System.started_thread, if_neg hne, hi]
  · rw [System.started_thread] at hth
    split_ifs at hth
    · cases hth
      exact hφ.elim
    · exact h.reads j scan slug φ code' hj hth hφ

/-- What a step adds to a late read is younger than the change. -/
lemma lt_source (h : ReadLater i c late cfg) {j : ℕ} {scan : MenuScan} {slug : String}
    {φ φ' : MenuPhase} {l : Label} {w' : World} (hread : φ.HasRead → c < cfg.ghost.source j)
    (hstep : MenuStep cfg.state w' (.menu scan slug) φ l φ') (hφ' : φ'.HasRead) :
    c < (cfg.ghost.stepped j l cfg.state).source j := by
  cases hstep with
  | hit hget hw =>
    obtain ⟨expiresAt, hmem, -⟩ := Cache.cacheGet_some hget
    have hsource : (cfg.ghost.stepped j (.cacheGet (cacheKey slug)) cfg.state).source j
        = cfg.ghost.cachedAt (cacheKey slug) := Function.update_self _ _ _
    exact lt_of_lt_of_eq (h.fresh.younger _ hmem c h.flushedAt) hsource.symm
  | miss hw => exact hφ'.elim
  | find hget hw =>
    have hsource : (cfg.ghost.stepped j (.select .restaurants) cfg.state).source j
        = cfg.ghost.moment := Function.update_self _ _ _
    exact lt_of_lt_of_eq h.lt_moment hsource.symm
  | absent hw => exact hφ'.elim
  | list hw => exact hread trivial
  | listNone hnil hw => exact hread trivial
  | load hw => exact hread trivial
  | store hw => exact hread trivial

lemma stepped (h : ReadLater i c late cfg) {k : ℕ}
    {th : Thread MenuCall MenuPhase World Label Exc Response} {l : Label} {w' : World}
    (code : Async Response) (hk : cfg.threads k = some th) (hmay : StoresInTime cfg k th l)
    (hallow : th.call.monitor.allows th.phase l cfg.state w') :
    ReadLater i c late ((menuSystem P).stepped cfg k th l w' code) := by
  refine ⟨h.fresh.stepped code hk hmay hallow, ?_, fun j scan slug φ code' hj hth hφ => ?_⟩
  · obtain ⟨u, op, hop, code', hi, hc⟩ := h.flushed
    by_cases hik : i = k
    · subst hik
      rw [hi] at hk
      cases hk
      obtain ⟨hnext, hl⟩ := MenuStep.of_flushed hallow
      refine ⟨u, op, hop, code, ?_, (stepped_committed_of_query hl).trans hc⟩
      rw [System.stepped_thread, if_pos rfl]
      exact congrArg (fun φ => some (Thread.mk (MenuCall.change u op hop) φ code)) hnext
    · refine ⟨u, op, hop, code', ?_, (MenuHistory.stepped_committed fun _ _ => hik).trans hc⟩
      rw [System.stepped_thread, if_neg hik, hi]
  · rw [System.stepped_thread] at hth
    split_ifs at hth with hjk
    · subst hjk
      obtain ⟨call, ψ, code₀⟩ := th
      cases hth
      exact h.lt_source (h.reads j scan slug ψ code₀ hj hk) hallow hφ
    · exact lt_of_lt_of_eq (h.reads j scan slug φ code' hj hth hφ)
        (MenuHistory.stepped_source hjk).symm

end ReadLater

end

/-- In every interleaving of reads and changes in which no read stores a menu that is older than the
commit of a change that has flushed: once a change has returned, what a read that begins then
returns was read after the commit of the change. -/
theorem menu_read_after_change (P : Platform) (db : Database) (now : Time)
    {cfg₁ cfg₂ : MenuConfig} (h₁ : (menuSystem P).Reach StoresInTime (opening db now) cfg₁)
    (i : ℕ) (hchanged : changed cfg₁ i) (h₂ : (menuSystem P).Reach StoresInTime cfg₁ cfg₂)
    (j : ℕ) (hlater : cfg₁.threads j = none) (slug : String) (menu : MenuResponse)
    (hread : returnedMenu cfg₂ j = some (slug, menu)) :
    ∃ c, cfg₂.ghost.committed i = some c ∧ c < cfg₂.ghost.source j ∧
      cfg₂.ghost.Assembled slug (cfg₂.ghost.source j) menu := by
  have hprog := MenuCall.accepts P
  have haccepts := h₁.accepts hprog (accepts_of_opening db now)
  have hfresh : FreshCache cfg₁ := by
    refine h₁.monitored hprog (accepts_of_opening db now) ?_ ?_ ?_ ?_
    · exact ⟨.opening db now, List.forall_mem_nil _⟩
    · exact fun cfg i call hI _ => hI.started i call
    · exact fun cfg i th l w' code hI hi hmay hallow => hI.stepped code hi hmay hallow
    · exact fun cfg w' hI hw => hI.background hw.1
  obtain ⟨u, op, hop, φ, a, hi⟩ := exists_of_changed hchanged
  have hφ : φ = .flushed := haccepts i _ hi a rfl
  subst hφ
  obtain ⟨c, hc, -⟩ := hfresh.recorded.calls i _ hi
  have hlate : ReadLater i c (fun j => cfg₁.threads j = none) cfg₂ := by
    refine h₂.monitored hprog haccepts ⟨hfresh, ⟨u, op, hop, _, hi, hc⟩, ?_⟩ ?_ ?_ ?_
    · intro j scan slug φ code hj hth
      rw [hj] at hth
      cases hth
    · exact fun cfg k call hI hk => hI.started call hk
    · exact fun cfg k th l w' code hI hk hmay hallow => hI.stepped code hk hmay hallow
    · exact fun cfg w' hI hw => ⟨hI.fresh.background hw.1, hI.flushed, hI.reads⟩
  obtain ⟨scan, ψ, hj⟩ := exists_of_returnedMenu hread
  obtain ⟨m, hm, hψ⟩ := h₂.accepts hprog haccepts j _ hj _ rfl
  cases hm
  subst hψ
  obtain ⟨u, op, hop, code, -, hc⟩ := hlate.flushed
  exact ⟨c, hc, hlate.reads j scan slug _ _ hlater hj trivial, hlate.fresh.recorded.calls j _ hj⟩

/-! ### A deleted dish -/

/-- Call 0 reads Ana's menu: `before` steps of it come before the deletion of the dish by call 1,
the others after it. -/
def readAroundDeletion (before after : ℕ) : List (Choice MenuCall World) :=
  .start 0 (.menu MenuScan.stored "casa") :: List.replicate before (.run 0) ++
    .start 1 (.change 1 (.dishDelete 30) trivial) :: List.replicate 7 (.run 1) ++
    List.replicate after (.run 0)

/-- Call 2 reads the menu. -/
def readAgain (steps : ℕ) : List (Choice MenuCall World) :=
  .start 2 (.menu MenuScan.stored "casa") :: List.replicate steps (.run 2)

/-- The dishes that the menu of call `j` shows. -/
def shownIds (cfg : MenuConfig) (j : ℕ) : List Uuid :=
  match returnedMenu cfg j with
  | some (_, m) => m.categories.flatMap fun c => c.dishes.map (·.id)
  | none        => []

/-- If call `i` is about to store a menu, the changes below 3 that have flushed are older. -/
def storesInTime (cfg : MenuConfig) (i : ℕ) : Bool :=
  match cfg.threads i with
  | some ⟨_, .built _, _⟩ => (List.range 3).all fun k =>
    match cfg.threads k, cfg.ghost.committed k with
    | some ⟨_, .flushed, _⟩, some c => c < cfg.ghost.source i
    | _, _                          => true
  | _ => true

lemma storesInTime_of_checked {cfg : MenuConfig} {i : ℕ}
    {th : Thread MenuCall MenuPhase World Label Exc Response} {l : Label}
    (hidle : ∀ j, 3 ≤ j → cfg.threads j = none) (hi : cfg.threads i = some th)
    (hok : storesInTime cfg i = true) : StoresInTime cfg i th l := by
  rintro ⟨m, hφ⟩ - c ⟨k, ⟨call, φ, code⟩, hk, rfl, hc⟩
  obtain ⟨call', φ', code'⟩ := th
  cases hφ
  simp only [storesInTime, hi, List.all_eq_true, List.mem_range] at hok
  by_cases hk3 : k < 3
  · simpa only [hk, hc, decide_eq_true_eq] using hok k hk3
  · rw [hidle k (Nat.not_lt.mp hk3)] at hk
    cases hk

/-- The first read has stored its menu when the dish is deleted: the second one is answered from
the database, without the dish. -/
theorem menu_read_after_change_sopa :
    ∃ cfg₁ cfg₂ menu, (menuSystem Platform.plain).Reach StoresInTime
        (opening sopaServed.db 0) cfg₁ ∧ changed cfg₁ 1 = true ∧
      (menuSystem Platform.plain).Reach StoresInTime cfg₁ cfg₂ ∧
      returnedMenu cfg₂ 2 = some ("casa", menu) ∧ shownIds cfg₂ 0 = [30] ∧ shownIds cfg₂ 2 = [] ∧
      ∃ c, cfg₂.ghost.committed 1 = some c ∧ c < cfg₂.ghost.source 2 ∧
        cfg₂.ghost.Assembled "casa" (cfg₂.ghost.source 2) menu := by
  have hrun : ((menuSystem Platform.plain).follow storesInTime (readAroundDeletion 5 0)
      (opening sopaServed.db 0)).any (fun cfg₁ =>
        (changed cfg₁ 1 && (cfg₁.threads 2).isNone) &&
          ((menuSystem Platform.plain).follow storesInTime (readAgain 5) cfg₁).any fun cfg₂ =>
            (returnedMenu cfg₂ 2).any (fun r => r.1 = "casa") &&
              (shownIds cfg₂ 0 = [30] && shownIds cfg₂ 2 = [])) = true := by
    decide +kernel
  obtain ⟨cfg₁, h₁, hidle, hcfg₁⟩ := System.exists_reach_of_follow_below (n := 3) (fun _ _ => rfl)
    (fun i c h => by simp [readAroundDeletion] at h; omega)
    (fun _ _ _ _ => storesInTime_of_checked) hrun
  simp only [Bool.and_eq_true] at hcfg₁
  obtain ⟨⟨hchanged, hlater⟩, hrun₂⟩ := hcfg₁
  obtain ⟨cfg₂, h₂, -, hcfg₂⟩ := System.exists_reach_of_follow_below hidle
    (fun i c h => by simp [readAgain] at h; omega) (fun _ _ _ _ => storesInTime_of_checked) hrun₂
  simp only [Bool.and_eq_true, decide_eq_true_eq, Option.any_eq_true] at hcfg₂
  obtain ⟨⟨⟨slug, menu⟩, hread, rfl⟩, hshown, hgone⟩ := hcfg₂
  exact ⟨cfg₁, cfg₂, menu, h₁, hchanged, h₂, hread, hshown, hgone,
    menu_read_after_change Platform.plain sopaServed.db 0 h₁ 1 hchanged h₂ 2
      (Option.isNone_iff_eq_none.mp hlater) "casa" menu hread⟩

/-- The first read stores its menu after the deletion of the dish has returned: the second one is
answered with it and shows the dish, which is deleted. -/
theorem menu_read_before_change :
    ∃ cfg₁ cfg₂ menu, (menuSystem Platform.plain).Reach System.Always
        (opening sopaServed.db 0) cfg₁ ∧ changed cfg₁ 1 = true ∧ cfg₁.threads 2 = none ∧
      (menuSystem Platform.plain).Reach System.Always cfg₁ cfg₂ ∧
      returnedMenu cfg₂ 2 = some ("casa", menu) ∧
      shownIds cfg₂ 2 = [30] ∧ cfg₁.state.db.dishes.all (·.deletedAt.isSome) = true ∧
      ¬ ∃ c, cfg₂.ghost.committed 1 = some c ∧ c < cfg₂.ghost.source 2 := by
  have hrun : ((menuSystem Platform.plain).follow (fun _ _ => true) (readAroundDeletion 4 1)
      (opening sopaServed.db 0)).any (fun cfg₁ =>
        (changed cfg₁ 1 && (cfg₁.threads 2).isNone) &&
        (cfg₁.state.db.dishes.all (·.deletedAt.isSome) &&
          ((menuSystem Platform.plain).follow (fun _ _ => true) (readAgain 1) cfg₁).any fun cfg₂ =>
            (returnedMenu cfg₂ 2).any (fun r => r.1 = "casa") && (shownIds cfg₂ 2 = [30] &&
              ¬ (cfg₂.ghost.committed 1).any (· < cfg₂.ghost.source 2)))) = true := by
    decide +kernel
  obtain ⟨cfg₁, h₁, hcfg₁⟩ := System.exists_reach_of_follow hrun
  simp only [Bool.and_eq_true] at hcfg₁
  obtain ⟨⟨hchanged, hlater⟩, hdeleted, hrun₂⟩ := hcfg₁
  obtain ⟨cfg₂, h₂, hcfg₂⟩ := System.exists_reach_of_follow hrun₂
  simp only [Bool.and_eq_true, decide_eq_true_eq, Option.any_eq_true] at hcfg₂
  obtain ⟨⟨⟨slug, menu⟩, hread, rfl⟩, hshown, hold⟩ := hcfg₂
  exact ⟨cfg₁, cfg₂, menu, h₁, hchanged, Option.isNone_iff_eq_none.mp hlater, h₂, hread, hshown,
    hdeleted, hold⟩

end LiveMenu
