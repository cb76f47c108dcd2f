import LiveMenu.Lib.Zoom
import LiveMenu.Model.Requests

/-!
# The processes of the API

The deployment runs several processes of the API on one database. Each keeps the menus it has read
in a cache of its own, and none of them sees what another one caches or drops.
-/

namespace LiveMenu

/-- The database and the clock, which all processes share, and the cache of each process. -/
structure Deployment where
  db : Database
  caches : ℕ → Cache MenuResponse
  now : Time

/-- What process `p` works on. -/
def Deployment.process (p : ℕ) : View Deployment World where
  get s := ⟨s.db, s.caches p, s.now⟩
  set s w := ⟨w.db, Function.update s.caches p w.cache, w.now⟩

/-- A request, and the process it is routed to. -/
structure RoutedRequest where
  process : ℕ
  request : Request

/-- The process runs the code of the request. -/
def RoutedRequest.code (P : Platform) (c : RoutedRequest) : Prog Deployment Label Exc Response :=
  (c.request.code P).zoom (Deployment.process c.process) id id

end LiveMenu
