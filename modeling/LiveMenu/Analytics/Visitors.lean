import LiveMenu.Analytics.Views
import LiveMenu.Http.ClientAddress

/-!
# Who a scan event tells apart

A scan event hashes the address of the socket peer, the limiter takes the client from
`X-Forwarded-For`. Behind a proxy the peer is the proxy, for every visitor.
-/

namespace LiveMenu

/-- What a request tells about its client. -/
def HttpRequest.client (r : HttpRequest) : Client where
  host := r.clientHost
  userAgent := r.header "user-agent"
  referer := r.header "referer"

/-- A request that is answered with a menu and leaves a scan event. Other requests may run after its
menu is read and before its event is recorded. -/
def RecordsScan (P : Platform) (r : HttpRequest) (e : ScanEvent) : Prop :=
  ∃ scan slug menu w w' id, ((MenuService.getMenuBySlug scan slug).exec w).1 = .ok menu ∧
    ((recordScan P menu r.client id).exec w').2.db.scanEvents = w'.db.scanEvents ++ [e]

/-- A successful request for a public menu that came through `N` trusted proxies. -/
structure Visit (P : Platform) (N : ℕ) where
  request : HttpRequest
  event : ScanEvent
  recorded : RecordsScan P request event
  /-- The directly connected peer. -/
  peer : String
  peerHost : request.clientHost = some peer
  peerKnown : peer ≠ ""
  /-- What the client sent as `X-Forwarded-For`, and what the proxies appended. -/
  value : Option String
  hops : List Hop
  proxies : hops.length = N
  header : request.header "x-forwarded-for" = forwarded value hops

/-- The address that the first proxy saw. -/
def Visit.visitor {P : Platform} {N : ℕ} (v : Visit P N) : Option String :=
  v.hops.head?.map Hop.address

/-! ### The recorded hash -/

/-- A view without anything in between records its event. -/
lemma recordsScan_getMenu {P : Platform} {w w' : World} {scan : MenuScan} {slug : String}
    {r : HttpRequest} {id : Uuid} {menu : MenuResponse} {e : ScanEvent}
    (h : (MenuRouter.getMenu P scan slug r.client id).exec w = (.ok menu, w'))
    (he : w'.db.scanEvents = w.db.scanEvents ++ [e]) : RecordsScan P r e := by
  obtain ⟨w₁, -, hdb, -, ⟨_, hx⟩ | ⟨m, hmenu, hx⟩⟩ :=
    MenuRouter.getMenu_cases P w scan slug r.client id
  · rw [hx] at h
    cases h
  · rw [hx] at h
    cases h
    rw [← hdb] at he
    exact ⟨scan, slug, menu, w, w₁, id, hmenu, he⟩

lemma ipHash_of_recordScan {P : Platform} {menu : MenuResponse} {client : Client} {id : Uuid}
    {w : World} {e : ScanEvent}
    (h : ((recordScan P menu client id).exec w).2.db.scanEvents = w.db.scanEvents ++ [e]) :
    e.ipHash = hashIp P (client.host.getD "unknown") := by
  obtain ⟨db, events, ht, hx, hevents⟩ := exec_recordScan_cases P menu client id w
  have hscans : events = w.db.scanEvents ++ [e] := by
    rw [hx] at h
    rw [← h]
    exact (congrArg Tables.scanEvents ht).symm
  rcases hevents with hsame | ⟨e', happended, hhash⟩
  · rw [hsame] at hscans
    simp at hscans
  · rw [happended, List.append_cancel_left_eq] at hscans
    cases hscans
    exact hhash

namespace Visit

variable {P : Platform} {N : ℕ} (v : Visit P N)

/-- The hash is the one of the peer. -/
lemma ipHash_event : v.event.ipHash = hashIp P v.peer := by
  obtain ⟨_, _, _, _, _, _, -, hrec⟩ := v.recorded
  rw [ipHash_of_recordScan hrec, HttpRequest.client, v.peerHost, Option.getD_some]

/-- Without proxies the client is the peer. -/
lemma clientIp_direct (h : N = 0) : v.request.clientIp N = v.peer := by
  have hnone : (N : ℤ) ≤ 0 := by simp [h]
  rw [HttpRequest.clientIp_untrusted hnone, HttpRequest.remoteAddress, v.peerHost]
  simp [Option.filter, v.peerKnown]

/-- Behind proxies the client is what the first of them saw. -/
lemma clientIp_proxied (h : N ≠ 0) : some (v.request.clientIp N) = v.visitor := by
  have hlength := v.proxies
  have hheader := v.header
  rw [visitor]
  cases hhops : v.hops with
  | nil =>
    rw [hhops, List.length_nil] at hlength
    exact absurd hlength.symm h
  | cons hop hops =>
    rw [hhops] at hlength hheader
    have hclient := HttpRequest.clientIp_forwarded hheader
    rw [hlength] at hclient
    rw [hclient]
    rfl

end Visit

/-- Two scan events tell their visitors apart as the limiter does if and only if there is no proxy,
or their peers are the same exactly if their visitors are. -/
theorem scanEvents_identify_visitor_iff {P : Platform} {N : ℕ} (v₁ v₂ : Visit P N)
    (hsha : hashIp P v₁.peer = hashIp P v₂.peer → v₁.peer = v₂.peer) :
    (v₁.event.ipHash = v₂.event.ipHash ↔ v₁.request.clientIp N = v₂.request.clientIp N) ↔
      N = 0 ∨ (v₁.peer = v₂.peer ↔ v₁.visitor = v₂.visitor) := by
  have hhash : v₁.event.ipHash = v₂.event.ipHash ↔ v₁.peer = v₂.peer := by
    rw [v₁.ipHash_event, v₂.ipHash_event]
    exact ⟨hsha, congrArg _⟩
  rw [hhash]
  by_cases hN : N = 0
  · rw [v₁.clientIp_direct hN, v₂.clientIp_direct hN]
    simp [hN]
  · rw [← v₁.clientIp_proxied hN, ← v₂.clientIp_proxied hN]
    simp [hN]

/-! ### Visits through a load balancer -/

/-- A visitor opens the menu through one proxy. -/
lemma exists_visit (hop : Hop) (peer : String) (hpeer : peer ≠ "") :
    ∃ v : Visit Platform.plain 1, v.peer = peer ∧ v.visitor = some hop.address ∧
      v.request = ⟨[("x-forwarded-for", hop.address)], some peer⟩ := by
  have hserved : ((MenuService.getMenuBySlug .stored "casa").exec sopaServed).1.toOption.any
      (fun m => m.restaurantId ∈ sopaServed.db.restaurants.map (·.id)) = true := by
    decide +kernel
  rcases hread : ((MenuService.getMenuBySlug .stored "casa").exec sopaServed).1 with e | menu
  · rw [hread] at hserved
    cases hserved
  · rw [hread] at hserved
    have hfk : menu.restaurantId ∈ sopaServed.db.restaurants.map (·.id) :=
      of_decide_eq_true hserved
    have hagent : nul ∉ "unknown".toList := by decide
    have hstorable : ViewStorable sopaServed
        (.request (.viewMenu .stored "casa" ⟨some peer, none, none⟩ 40)) :=
      ⟨hagent, by simp, by decide +kernel, by decide +kernel⟩
    obtain ⟨db, event, hx, ht, -⟩ := exec_recordScan_storable Platform.plain hstorable hfk
    have hclient : HttpRequest.client ⟨[("x-forwarded-for", hop.address)], some peer⟩
        = ⟨some peer, none, none⟩ := by
      simp [HttpRequest.client, HttpRequest.header]
    have hrecorded : RecordsScan Platform.plain
        ⟨[("x-forwarded-for", hop.address)], some peer⟩ event := by
      refine ⟨.stored, "casa", menu, sopaServed, sopaServed, 40, hread, ?_⟩
      rw [hclient, hx]
      exact congrArg Tables.scanEvents ht
    exact ⟨⟨_, event, hrecorded, peer, rfl, hpeer, none, [hop], rfl, rfl⟩, rfl, rfl, rfl⟩

/-- Another visitor of the same load balancer. -/
def otherHop : Hop :=
  ⟨[], "203.0.113.8", List.forall_mem_nil _, by decide, by decide, by decide⟩

/-- The two visitors reach different instances of the load balancer. -/
theorem scanEvents_identify_visitor_instances :
    ∃ v₁ v₂ : Visit Platform.plain 1, v₁.visitor ≠ v₂.visitor ∧
      (v₁.event.ipHash = v₂.event.ipHash ↔ v₁.request.clientIp 1 = v₂.request.clientIp 1) := by
  obtain ⟨v₁, hpeer₁, hvisitor₁, -⟩ := exists_visit HttpRequest.visitorHop "10.0.0.2" (by decide)
  obtain ⟨v₂, hpeer₂, hvisitor₂, -⟩ := exists_visit otherHop "10.0.0.3" (by decide)
  have hvisitor : v₁.visitor ≠ v₂.visitor := by
    rw [hvisitor₁, hvisitor₂]
    decide
  have hpeer : v₁.peer ≠ v₂.peer := by
    rw [hpeer₁, hpeer₂]
    decide
  have hsha : hashIp Platform.plain v₁.peer = hashIp Platform.plain v₂.peer →
      v₁.peer = v₂.peer := by
    intro h
    rw [hpeer₁, hpeer₂] at h
    exact absurd h (by decide +kernel)
  have hcond := iff_of_false hpeer hvisitor
  exact ⟨v₁, v₂, hvisitor, (scanEvents_identify_visitor_iff v₁ v₂ hsha).mpr (.inr hcond)⟩

/-- Behind one instance both are recorded as the same visitor. -/
theorem visitors_of_one_proxy :
    ∃ v₁ v₂ : Visit Platform.plain 1,
      (hashIp Platform.plain v₁.peer = hashIp Platform.plain v₂.peer → v₁.peer = v₂.peer) ∧
      v₁.event.ipHash = v₂.event.ipHash ∧ v₁.request.clientIp 1 ≠ v₂.request.clientIp 1 := by
  obtain ⟨v₁, hpeer₁, -, hrequest₁⟩ := exists_visit HttpRequest.visitorHop "10.0.0.2" (by decide)
  obtain ⟨v₂, hpeer₂, -, hrequest₂⟩ := exists_visit otherHop "10.0.0.2" (by decide)
  have hpeer : v₁.peer = v₂.peer := hpeer₁.trans hpeer₂.symm
  refine ⟨v₁, v₂, fun _ => hpeer, ?_, ?_⟩
  · rw [v₁.ipHash_event, v₂.ipHash_event, hpeer]
  · rw [hrequest₁, hrequest₂]
    decide

end LiveMenu
