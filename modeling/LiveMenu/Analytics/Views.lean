import LiveMenu.Analytics.Export
import LiveMenu.Analytics.Summary
import LiveMenu.Menu.Transparency
import LiveMenu.Writes.AcceptedBodies

/-!
# Analytics count the views of the menu

A view of a menu inserts one scan event for the restaurant whose menu it returned, from the cache or
not, and nothing else inserts or removes one but the deletion of the restaurant.
-/

namespace LiveMenu

open MenuService

/-! ### Recording a view -/

/-- The database can take the scan event of a view: its texts have no NUL, its identifier is new and
the clock shows a `datetime`. -/
def ViewStorable (w : World) : Event → Prop
  | .request (.viewMenu _ _ client id) =>
    NoNul (client.userAgent.getD "unknown") ∧ (∀ referer ∈ client.referer, NoNul referer) ∧
      id ∉ w.db.scanEvents.map (·.id) ∧ Representable w.now
  | _ => True

instance (w : World) (scan : MenuScan) (slug : String) (client : Client) (id : Uuid) :
    Decidable (ViewStorable w (.request (.viewMenu scan slug client id))) :=
  inferInstanceAs (Decidable (nul ∉ (client.userAgent.getD "unknown").toList ∧
    (∀ referer ∈ client.referer, nul ∉ referer.toList) ∧ id ∉ w.db.scanEvents.map (·.id) ∧
    Representable w.now))

/-- The event of a view goes to the restaurant of the menu. -/
lemma exec_recordScan_storable (P : Platform) {menu : MenuResponse} {client : Client} {id : Uuid}
    {w : World} {scan : MenuScan} {slug : String}
    (h : ViewStorable w (.request (.viewMenu scan slug client id)))
    (hfk : menu.restaurantId ∈ w.db.restaurants.map (·.id)) :
    ∃ db event, (recordScan P menu client id).exec w = (.ok (), { w with db := db }) ∧
      db.toTables = { w.db.toTables with scanEvents := w.db.scanEvents ++ [event] } ∧
      event.restaurantId = menu.restaurantId ∧ event.timestamp = w.now := by
  obtain ⟨hagent, hreferer, hid, -⟩ := h
  obtain ⟨userAgent, hagent⟩ := PgText.ofString_isOk.mpr hagent
  obtain ⟨referrer, hreferer⟩ := (nullable_isOk_iff (fun _ => PgText.ofString_isOk) _).mpr hreferer
  obtain ⟨event, hevent⟩ : ∃ event : ScanEvent, event = ⟨id, menu.restaurantId, w.now, userAgent,
    hashIp P (client.host.getD "unknown"), referrer⟩ := ⟨_, rfl⟩
  have hvalid : { w.db.toTables with scanEvents := w.db.scanEvents ++ [event] }.Constraints :=
    w.db.valid.insertScanEvent (hevent ▸ hid) (hevent ▸ hfk)
  refine ⟨⟨_, hvalid⟩, event, ?_, rfl, by rw [hevent], by rw [hevent]⟩
  rw [recordScan, Prog.exec_handle, Async.exec_commit, hagent, hreferer]
  simp only [bind, Except.bind]
  rw [← hevent, Database.write_of hvalid]
  rfl

/-! ### Scan events over a run -/

/-- The successful views of a menu of the restaurant in an event. -/
def Event.views (P : Platform) (w : World) (restaurantId : Uuid) : Event → ℕ
  | .request (.viewMenu scan slug client id) =>
    match ((MenuRouter.getMenu P scan slug client id).exec w).1 with
    | .ok menu => if menu.restaurantId = restaurantId then 1 else 0
    | .error _ => 0
  | _ => 0

/-- What an event does to the scan events, with the view it counts as. -/
inductive ScanEventsEffect (P : Platform) (w : World) (e : Event) : List ScanEvent → Prop
  | same (hviews : ∀ rid, e.views P w rid = 0) : ScanEventsEffect P w e w.db.scanEvents
  | viewed {s : ScanEvent} (hviews : ∀ rid, e.views P w rid = if s.restaurantId = rid then 1 else 0)
      (hnow : Representable s.timestamp) : ScanEventsEffect P w e (w.db.scanEvents ++ [s])
  | deleted {rid : Uuid} (hviews : ∀ rid, e.views P w rid = 0)
      (hgone : rid ∉ (e.run P w).db.restaurants.map (·.id)) :
      ScanEventsEffect P w e (w.db.scanEvents.filter fun s => s.restaurantId ≠ rid)

/-- A menu that a fresh cache returns is one of a restaurant that exists. -/
lemma CacheFresh.restaurant_mem {w : World} (h : CacheFresh w) {scan : MenuScan} {slug : String}
    {menu : MenuResponse} (hmenu : ((MenuService.getMenuBySlug scan slug).exec w).1 = .ok menu) :
    menu.restaurantId ∈ w.db.restaurants.map (·.id) := by
  obtain ⟨-, -, scan', hout⟩ := h.getMenuBySlug scan slug
  rw [hmenu] at hout
  cases hbuilt : builtMenu scan' slug w.db with
  | none =>
    rw [hbuilt] at hout
    cases hout
  | some built =>
    rw [hbuilt] at hout
    cases hout
    obtain ⟨r, hr, hid⟩ := builtMenu_eq_some scan' slug hbuilt
    rw [hid]
    exact List.mem_map_of_mem (Rows.get_mem hr)

lemma Event.scanEvents_cases (P : Platform) {w : World} {e : Event} (hw : CacheFresh w)
    (he : ViewStorable w e) : ScanEventsEffect P w e (e.run P w).db.scanEvents := by
  cases e with
  | tick delay => exact .same fun rid => rfl
  | request r =>
    have hpublic := Request.tables P w r
    cases r with
    | viewMenu scan slug client id =>
      obtain ⟨w', rfl, hdb, hnow, ⟨e, hx⟩ | ⟨menu, hmenu, hx⟩⟩ :=
        MenuRouter.getMenu_cases P w scan slug client id
      · have hviews : ∀ rid, views P w rid (.request (.viewMenu scan slug client id)) = 0 := by
          intro rid
          rw [views, hx]
        rw [run, Request.code, Prog.exec_map, hx, hdb]
        exact .same hviews
      · have hfk := hw.restaurant_mem hmenu
        rw [← hdb] at hfk
        have he' : ViewStorable ((MenuService.getMenuBySlug scan slug).exec w).2
            (.request (.viewMenu scan slug client id)) := by
          rw [ViewStorable, hdb, hnow]
          exact he
        obtain ⟨db, s, hrec, ht, hrid, htime⟩ := exec_recordScan_storable P he' hfk
        rw [run, Request.code, Prog.exec_map, hx, hrec, ht, hdb]
        refine .viewed (fun rid => ?_) (htime ▸ he'.2.2.2)
        rw [views, hx, hrid]
    | admin u op =>
      have hviews : ∀ rid, views P w rid (.request (.admin u op)) = 0 := fun _ => rfl
      rw [run, Request.code]
      rcases AdminOp.cases P u op w with ⟨e, hfail⟩ | ⟨r, w', hrun, heff⟩
      · rw [hfail]
        exact .same hviews
      · have hw' : (Event.request (.admin u op)).run P w = w' := by
          rw [run, Request.code, hrun]
        rw [hrun]
        cases heff with
        | @restaurantDelete r db hr hdb =>
          simp only [World.flushed, hdb]
          refine .deleted hviews ?_
          rw [hw']
          simp [World.flushed, hdb, Tables.deleteRestaurant]
        | restaurantCreate _ _ _ hdb | restaurantUpdate _ _ _ hdb | categoryCreate _ _ hdb
        | categoryUpdate _ _ _ hdb | categoryDelete _ _ hdb | categoryReorder _ _ _ hdb
        | dishCreate _ _ hdb | dishUpdate _ _ _ hdb | dishDelete _ _ hdb | dishToggle _ _ hdb
        | logout hdb =>
          simp only [World.flushed, hdb]
          exact .same hviews
        | restaurantGet | categoryList | dishList | dishGet | analyticsGet | analyticsExport =>
          exact .same hviews
    | menu | register | login | refresh =>
      obtain ⟨users, scanEvents, refreshTokens, ht, hscans⟩ := hpublic (by simp)
      rw [run, ht, hscans (by simp)]
      exact .same fun rid => rfl

/-- The stored scan events of a restaurant. -/
def storedScans (restaurantId : Uuid) (w : World) : ℕ :=
  (w.db.scanEvents.filter fun s => s.restaurantId = restaurantId).length

/-- The successful views of a menu of the restaurant in a run since the restaurant was created, with
`n` of them before the run. -/
def viewsSinceCreated (P : Platform) (restaurantId : Uuid) : ℕ → World → List Event → ℕ
  | n, _, []       => n
  | n, w, e :: es  =>
    let w' := e.run P w
    viewsSinceCreated P restaurantId
      (if restaurantId ∈ w'.db.restaurants.map (·.id) then n + e.views P w restaurantId else 0)
      w' es

lemma storedScans_eq_zero {restaurantId : Uuid} {w : World}
    (h : restaurantId ∉ w.db.restaurants.map (·.id)) : storedScans restaurantId w = 0 := by
  rw [storedScans, List.length_eq_zero_iff, List.filter_eq_nil_iff]
  intro s hs heq
  exact h (of_decide_eq_true heq ▸ w.db.valid.scanEventRestaurantFk s hs)

/-- An event adds the views it counts as, and the deletion of the restaurant removes all. -/
lemma storedScans_run (P : Platform) {w : World} {e : Event} (restaurantId : Uuid)
    (hw : CacheFresh w) (he : ViewStorable w e) :
    storedScans restaurantId (e.run P w)
      = if restaurantId ∈ (e.run P w).db.restaurants.map (·.id)
        then storedScans restaurantId w + e.views P w restaurantId else 0 := by
  by_cases hmem : restaurantId ∈ (e.run P w).db.restaurants.map (·.id)
  · rw [if_pos hmem]
    have heffect := Event.scanEvents_cases P hw he
    rw [storedScans]
    generalize hscans : (e.run P w).db.scanEvents = scanEvents at heffect ⊢
    cases heffect with
    | same hviews => rw [hviews, storedScans, Nat.add_zero]
    | @viewed s hviews hnow =>
      rw [hviews, storedScans, List.filter_append, List.length_append]
      congr 1
      by_cases heq : s.restaurantId = restaurantId
      · rw [if_pos heq, List.filter_singleton, decide_eq_true heq]
        rfl
      · rw [if_neg heq, List.filter_singleton, decide_eq_false heq]
        rfl
    | @deleted rid hviews hgone =>
      rw [hviews, storedScans, Nat.add_zero, List.filter_filter]
      congr 1
      apply List.filter_congr
      intro s _
      by_cases heq : s.restaurantId = restaurantId
      · have hne : s.restaurantId ≠ rid := by
          rintro rfl
          exact hgone (heq ▸ hmem)
        simp [heq ▸ hne, heq]
      · simp [heq]
  · rw [if_neg hmem, storedScans_eq_zero hmem]

/-- Every timestamp that a run stores is that of a `datetime`. -/
def ScansRepresentable (w : World) : Prop := ∀ s ∈ w.db.scanEvents, Representable s.timestamp

lemma ScansRepresentable.run {P : Platform} {w : World} {e : Event} (h : ScansRepresentable w)
    (hw : CacheFresh w) (he : ViewStorable w e) : ScansRepresentable (e.run P w) := by
  have heffect := Event.scanEvents_cases P hw he
  rw [ScansRepresentable]
  generalize (e.run P w).db.scanEvents = scanEvents at heffect ⊢
  cases heffect with
  | same hviews => exact h
  | viewed hviews hnow =>
    intro s hs
    rcases List.mem_append.mp hs with hs | hs
    · exact h s hs
    · rw [List.mem_singleton.mp hs]
      exact hnow
  | deleted hviews hgone => exact fun s hs => h s (List.mem_of_mem_filter hs)

/-- The scan events that a run has stored are the views of it. -/
lemma storedScans_runEvents (P : Platform) {w : World} {events : List Event} (restaurantId : Uuid)
    (hw : CacheFresh w) (hevents : EveryStep P ViewStorable w events) :
    storedScans restaurantId (runEvents P w events)
      = viewsSinceCreated P restaurantId (storedScans restaurantId w) w events := by
  induction events generalizing w with
  | nil => rfl
  | cons e es ih =>
    obtain ⟨he, hes⟩ := hevents
    rw [viewsSinceCreated, ← storedScans_run P restaurantId hw he]
    exact ih (hw.event e) hes

lemma ScansRepresentable.runEvents {P : Platform} {w : World} {events : List Event}
    (h : ScansRepresentable w) (hw : CacheFresh w) (hevents : EveryStep P ViewStorable w events) :
    ScansRepresentable (runEvents P w events) := by
  induction events generalizing w with
  | nil => exact h
  | cons e es ih => exact ih (h.run hw hevents.1) (hw.event e) hevents.2

/-! ### The analytics of a run -/

/-- The platform where every period is a day. -/
def Platform.dated : Platform :=
  { Platform.plain with dateTrunc := fun _ t => t - t % Time.days 1 }

lemma Platform.dated_dates : Platform.dated.Dates where
  dateTrunc := by
    -- the calendar begins and ends with a day
    have hday : ∀ t : ℤ, 0 ≤ t + 62135596800000000 ∧ t + 62135596800000000 < 315537897600000000 →
        0 ≤ t - t % 86400000000 + 62135596800000000 ∧
          t - t % 86400000000 + 62135596800000000 < 315537897600000000 := by omega
    intro granularity _ t ht
    exact hday t ht

/-- The first view builds the menu, the second finds it in the cache a day later. -/
def twoViews : List Event := [
  .request (.viewMenu .stored "casa" ⟨some "10.0.0.7", some "Firefox", none⟩ 40),
  .tick 86400000000,
  .request (.viewMenu .stored "casa" ⟨none, some "Safari, \"mobile\"", some "https://casa"⟩ 41)]

end LiveMenu
