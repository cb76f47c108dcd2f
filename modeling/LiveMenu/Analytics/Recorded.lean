import LiveMenu.Concurrent.Api

/-!
# Where scan events come from

In every interleaving a scan event that was not there at first is the event of one view: it has the
id that the view has drawn and the data of its client, and its restaurant had the slug of the view.
-/

namespace LiveMenu

variable {P : Platform}

/-- A call of `cfg` is the view that has recorded the event, of a restaurant that was stored since
`first` under the slug of the view. -/
def FromView (P : Platform) (first cfg : ApiConfig) (e : ScanEvent) : Prop :=
  ∃ i th scan slug client at', cfg.threads i = some th ∧
    th.call = .viewMenu scan slug client e.id ∧ IsScanBy P client at' e ∧
    ∃ r, During P first cfg Tables.restaurants r ∧ r.slug.val = slug ∧ r.id = e.restaurantId

/-- An event was there at first, or was recorded. -/
def scansRecorded (P : Platform) (db : Database) (first cfg : ApiConfig) : Facts where
  scanEvent e := e ∈ db.scanEvents ∨ FromView P first cfg e

lemma scansRecorded_kept (db : Database) (first cfg : ApiConfig) :
    Facts.Kept P (Facts.during {} P first cfg).withMenus (scansRecorded P db first cfg)
      fun req => ∃ i th, cfg.threads i = some th ∧ th.call = req where
  record hok hmenu hrid hscan := by
    obtain ⟨i, th, hi, hcall⟩ := hok
    obtain ⟨r, cs, ds, hr, hslug, -, -, rfl⟩ := Facts.built_of_served hmenu
    exact .inr ⟨i, th, _, _, _, _, hi, hcall, hscan, r, hr.2, hslug, hrid.symm⟩

/-- In every interleaving of all requests, every stored scan event was stored at first or is the
event of a view: it has the id that the view has drawn and the address hash, the agent and the
referrer of its client, and is of a restaurant that was stored, in some state since the start of the
process, under the slug that was asked for. -/
theorem scans_recorded (P : Platform) (db : Database) (now : Time) {cfg : ApiConfig}
    (h : Serves P (apiStart db now) cfg) :
    ∀ e ∈ cfg.state.db.scanEvents, e ∈ db.scanEvents ∨ FromView P (apiStart db now) cfg e := by
  have hrows : ∀ mid, Serves P (apiStart db now) mid → Serves P mid cfg →
      (Facts.during {} P (apiStart db now) cfg).rows.Hold mid.state :=
    fun mid hmid hrest => ((hold_nothing mid.state).during hmid hrest).rows
  refine ((scansRecorded_kept db _ cfg).along h hrows
    (fun i th hi => ⟨i, th, hi, rfl⟩) ?_).scanEvents
  exact { hold_nothing _ with scanEvents := fun e he => .inl he }

/-- Two guests look at Ana's menu at a time. -/
theorem scans_recorded_twice :
    ∃ cfg, Serves Platform.plain (apiStart sopaServed.db 0) cfg ∧
      cfg.state.db.scanEvents.map (·.id) = [41, 40] ∧
      ∀ e ∈ cfg.state.db.scanEvents,
        FromView Platform.plain (apiStart sopaServed.db 0) cfg e := by
  have hrun : ((apiSystem Platform.plain).follow (fun _ _ => true)
      (.start 0 (.viewMenu MenuScan.stored "casa" ⟨some "10.0.0.1", some "Firefox", none⟩ 40) ::
        .start 1 (.viewMenu MenuScan.stored "casa" ⟨some "10.0.0.2", none, some "qr"⟩ 41) ::
          [0, 1, 0, 1, 0, 1, 0, 1, 0, 1, 1, 0].map .run) (apiStart sopaServed.db 0)).any (fun cfg =>
        cfg.state.db.scanEvents.map (·.id) = [41, 40]) = true := by
    decide +kernel
  obtain ⟨cfg, h, hscans⟩ := System.exists_reach_of_follow hrun
  refine ⟨cfg, h, of_decide_eq_true hscans, fun e he => ?_⟩
  have hnone : sopaServed.db.scanEvents = [] := by decide +kernel
  refine (scans_recorded Platform.plain sopaServed.db 0 h e he).resolve_left fun hfirst => ?_
  rw [hnone] at hfirst
  cases hfirst

end LiveMenu
