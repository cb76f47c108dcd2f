import LiveMenu.Model.CsvExport
import LiveMenu.Model.Services

/-!
# Scan events and analytics

The public routes that record a scan event, the analytics queries and their export.
-/

namespace LiveMenu

/-! ### Recording -/

/-- What a request tells about its client. -/
structure Client where
  host : Option String
  userAgent : Option String
  referer : Option String

/-- `_hash_ip`. -/
def hashIp (P : Platform) (ip : String) : Varchar 64 := P.sha256 (P.ipHashSalt ++ ":" ++ ip)

/-- Insert a scan event; every exception is swallowed. -/
def recordScan (P : Platform) (menu : MenuResponse) (client : Client) (id : Uuid) : Async Unit :=
  (Async.commit .scanEvents fun now db => do
    let userAgent ← PgText.ofString (client.userAgent.getD "unknown")
    let referrer ← nullable PgText.ofString client.referer
    let event : ScanEvent :=
      ⟨id, menu.restaurantId, now, userAgent, hashIp P (client.host.getD "unknown"), referrer⟩
    let db ← Database.write { db.toTables with scanEvents := db.scanEvents ++ [event] }
    return ((), db)).handle fun _ => pure ()

/-- `GET /api/v1/menu/{slug}` and `GET /m/{slug}`: the menu, with its view recorded. -/
def MenuRouter.getMenu (P : Platform) (scan : MenuScan) (slug : String) (client : Client)
    (id : Uuid) :
    Async MenuResponse := do
  let menu ← MenuService.getMenuBySlug scan slug
  recordScan P menu client id
  return menu

/-! ### Queries -/

/-- `_end_of_day`. -/
def endOfDay (dt : PyDateTime) : Except Exc PyDateTime :=
  if dt.wall % Time.days 1 = 0 then do
    let next ← dt.shift (dt.wall + Time.days 1)
    next.shift (next.wall - 1)
  else
    .ok dt

/-- The bounds the filters put on timestamps, or the exception of computing them. -/
def dateBounds (fromDate toDate : Option PyDateTime) :
    Except Exc (Option Time × Option Time) := do
  let lo ← match fromDate with
    | none   => .ok none
    | some d => d.instant.map some
  let hi ← match toDate with
    | none   => .ok none
    | some d => do
      let d ← endOfDay d
      d.instant.map some
  return (lo, hi)

/-- The WHERE clauses every analytics query repeats. -/
def selectsScan (restaurantId : Uuid) (bounds : Option Time × Option Time) (e : ScanEvent) :
    Bool :=
  decide (e.restaurantId = restaurantId) &&
  (match bounds.1 with | none => true | some lo => decide (lo ≤ e.timestamp)) &&
  (match bounds.2 with | none => true | some hi => decide (e.timestamp ≤ hi))

/-- `GROUP BY key`: each key that occurs, with the number of rows that have it. -/
def groupCount {κ : Type} [DecidableEq κ] (key : ScanEvent → κ) (rows : List ScanEvent) :
    List (κ × ℕ) :=
  ((rows.map key).dedup).map fun k => (k, (rows.filter fun e => key e = k).length)

namespace AnalyticsRepository

/-- Run a query over the selected scan events. -/
def query {α : Type} (restaurantId : Uuid) (fromDate toDate : Option PyDateTime)
    (q : List ScanEvent → α) : Async α :=
  match dateBounds fromDate toDate with
  | .error e   => Prog.raise e
  | .ok bounds => Async.select .scanEvents fun db =>
    q (db.scanEvents.filter (selectsScan restaurantId bounds))

def getTotalScans (restaurantId : Uuid) (fromDate toDate : Option PyDateTime) : Async ℕ :=
  query restaurantId fromDate toDate List.length

def getScansByPeriod (P : Platform) (restaurantId : Uuid) (granularity : String)
    (fromDate toDate : Option PyDateTime) : Async (List (Time × ℕ)) :=
  query restaurantId fromDate toDate fun rows =>
    orderBy Prod.fst (groupCount (fun e => P.dateTrunc granularity e.timestamp) rows)

def getScansByHour (P : Platform) (restaurantId : Uuid) (fromDate toDate : Option PyDateTime) :
    Async (List (ℕ × ℕ)) :=
  query restaurantId fromDate toDate fun rows =>
    orderBy Prod.fst (groupCount (fun e => P.extractHour e.timestamp) rows)

def getTopUserAgents (restaurantId : Uuid) (limit : ℕ) (fromDate toDate : Option PyDateTime)
    (scan : Scan (String × ℕ)) : Async (List (String × ℕ)) :=
  query restaurantId fromDate toDate fun rows =>
    (orderBy (fun g => OrderDual.toDual g.2)
      (scan.order (groupCount (fun e => e.userAgent.val) rows))).take limit

def getScanEventsForExport (restaurantId : Uuid) (fromDate toDate : Option PyDateTime)
    (scan : Scan ScanEvent) : Async (List ScanEvent) :=
  query restaurantId fromDate toDate fun rows =>
    orderBy (fun e => OrderDual.toDual e.timestamp) (scan.order rows)

end AnalyticsRepository

structure AnalyticsResponse where
  totalScans : ℕ
  scansByPeriod : List (String × ℕ)
  scansByHour : List (ℕ × ℕ)
  topUserAgents : List (String × ℕ)

namespace AnalyticsService

def getAnalytics (P : Platform) (ownerUserId : Uuid) (granularity : String)
    (fromDate toDate : Option PyDateTime) (scan : Scan (String × ℕ)) :
    Async AnalyticsResponse := do
  match ← RestaurantRepository.getByOwnerId ownerUserId with
  | none => Async.http 404 "Restaurant not found"
  | some restaurant => do
    let granularity :=
      if granularity ∈ ["day", "week", "month"] then granularity else "day"
    let totalScans ← AnalyticsRepository.getTotalScans restaurant.id fromDate toDate
    let byPeriod ←
      AnalyticsRepository.getScansByPeriod P restaurant.id granularity fromDate toDate
    let byHour ← AnalyticsRepository.getScansByHour P restaurant.id fromDate toDate
    let top ← AnalyticsRepository.getTopUserAgents restaurant.id 5 fromDate toDate scan
    return {
      totalScans := totalScans
      scansByPeriod := byPeriod.map fun item => ((PyDateTime.utc item.1).isoformat, item.2)
      scansByHour := byHour
      topUserAgents := top }

def exportAnalytics (ownerUserId : Uuid) (fromDate toDate : Option PyDateTime)
    (scan : Scan ScanEvent) : Async String := do
  match ← RestaurantRepository.getByOwnerId ownerUserId with
  | none => Async.http 404 "Restaurant not found"
  | some restaurant => do
    let events ←
      AnalyticsRepository.getScanEventsForExport restaurant.id fromDate toDate scan
    let csvData := CsvExport.scanEventsToCsvData (events.map CsvExport.ScanFields.ofRow)
    return CsvExport.exportToCsv csvData CsvExport.columns

end AnalyticsService

end LiveMenu
