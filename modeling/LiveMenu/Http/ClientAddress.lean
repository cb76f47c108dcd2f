import Mathlib.Tactic.Common
import LiveMenu.Model.RateLimit

/-!
# The address of the client

Each trusted proxy appends the address of its peer to `X-Forwarded-For`. The entry that `_client_ip`
counts from the right is the one of the first trusted proxy, whatever the client sent.
-/

namespace LiveMenu

/-! ### Proxies -/

/-- What a proxy appends to the header: the address of its peer, after a comma and blanks. -/
structure Hop where
  blanks : List Char
  address : String
  blank : ∀ c ∈ blanks, isPySpace c = true
  nonempty : address ≠ ""
  noComma : ',' ∉ address.toList
  trimmed : strip address.toList = address.toList

/-- The header after a proxy, which sets it if there was none. -/
def Hop.append (hop : Hop) : Option String → String
  | none        => hop.address
  | some value  => value ++ "," ++ String.ofList hop.blanks ++ hop.address

/-- The header of a request that has gone through the proxies. -/
def forwarded (value : Option String) (hops : List Hop) : Option String :=
  hops.foldl (fun value hop => some (hop.append value)) value

@[simp] lemma forwarded_nil (value : Option String) : forwarded value [] = value := rfl

@[simp] lemma forwarded_cons (value : Option String) (hop : Hop) (hops : List Hop) :
    forwarded value (hop :: hops) = forwarded (some (hop.append value)) hops := rfl

/-! ### Entries of the header -/

lemma strip_append_blanks {blanks : List Char} (h : ∀ c ∈ blanks, isPySpace c = true)
    (s : List Char) : strip (blanks ++ s) = strip s := by
  rw [strip, List.dropWhile_append_of_pos h, strip]

namespace HttpRequest

/-- The entries of the header that are not blank. -/
def entries (value : Option String) : List String := (value.map forwardedParts).getD []

@[simp] lemma entries_none : entries none = [] := rfl

@[simp] lemma entries_some (xff : String) : entries (some xff) = forwardedParts xff := rfl

lemma forwardedParts_blanks_address {blanks : List Char}
    (hblank : ∀ c ∈ blanks, isPySpace c = true) (hop : Hop) :
    forwardedParts (String.ofList blanks ++ hop.address) = [hop.address] := by
  have hcomma : ',' ∉ blanks ++ hop.address.toList := by
    intro h
    rcases List.mem_append.mp h with h | h
    · exact absurd (hblank _ h) (by decide)
    · exact hop.noComma h
  rw [forwardedParts, splitCommas, String.toList_append, String.toList_ofList,
    List.splitOn_eq_singleton hcomma, List.map_singleton, strip_append_blanks hblank, hop.trimmed]
  simp [hop.nonempty]

/-- A proxy adds one entry at the end. -/
lemma forwardedParts_append (value : Option String) (hop : Hop) :
    forwardedParts (hop.append value) = entries value ++ [hop.address] := by
  cases value with
  | none =>
    have hnone : ∀ c ∈ ([] : List Char), isPySpace c = true := by simp
    have h := forwardedParts_blanks_address hnone hop
    simpa [Hop.append] using h
  | some value =>
    have hvalue : (value ++ "," ++ String.ofList hop.blanks ++ hop.address).toList
        = value.toList ++ ',' :: (String.ofList hop.blanks ++ hop.address).toList := by
      simp
    rw [Hop.append, forwardedParts, splitCommas, hvalue, List.splitOn_append_cons_self,
      List.map_append, List.filter_append, List.map_append]
    exact congrArg _ (forwardedParts_blanks_address hop.blank hop)

lemma entries_forwarded (value : Option String) (hops : List Hop) :
    entries (forwarded value hops) = entries value ++ hops.map Hop.address := by
  induction hops generalizing value with
  | nil => simp
  | cons hop hops ih =>
    rw [forwarded_cons, ih, entries_some, forwardedParts_append, List.map_cons, List.append_assoc,
      List.singleton_append]

lemma forwarded_isSome (value : Option String) (hop : Hop) (hops : List Hop) :
    (forwarded value (hop :: hops)).isSome = true := by
  induction hops generalizing value hop with
  | nil => rfl
  | cons next hops ih => exact ih (some (hop.append value)) next

/-- The entry that is taken is the one of the first proxy. -/
lemma clientIp_forwarded {r : HttpRequest} {value : Option String} {hop : Hop} {hops : List Hop}
    (h : r.header "x-forwarded-for" = forwarded value (hop :: hops)) :
    r.clientIp (hop :: hops).length = hop.address := by
  obtain ⟨xff, hxff⟩ := Option.isSome_iff_exists.mp (forwarded_isSome value hop hops)
  have hparts : forwardedParts xff = entries value ++ hop.address :: hops.map Hop.address := by
    simpa [hxff] using entries_forwarded value (hop :: hops)
  have hpos : ((hop :: hops).length : ℤ) > 0 := by simp
  have hidx : (max 0 (((forwardedParts xff).length : ℤ) - (hop :: hops).length)).toNat
      = (entries value).length := by
    simp [hparts]
  rw [clientIp, if_pos hpos, h, hxff]
  simp only [hidx]
  simp [hparts]

/-- Without trusted proxies the header is not read. -/
lemma clientIp_untrusted {trustedProxies : ℤ} (h : trustedProxies ≤ 0) (r : HttpRequest) :
    r.clientIp trustedProxies = r.remoteAddress := by
  rw [clientIp, if_neg (not_lt.mpr h)]

/-- The client cannot choose its address: with trusted proxies it is the one that the first of them
appended, whatever the client sent, and without any the header does not matter. -/
theorem clientIp_not_spoofed :
    (∀ (hop : Hop) (hops : List Hop) (value₁ value₂ : Option String) (r₁ r₂ : HttpRequest),
      r₁.header "x-forwarded-for" = forwarded value₁ (hop :: hops) →
      r₂.header "x-forwarded-for" = forwarded value₂ (hop :: hops) →
        r₁.clientIp (hop :: hops).length = r₂.clientIp (hop :: hops).length ∧
        r₁.clientIp (hop :: hops).length = hop.address) ∧
      ∀ r₁ r₂ : HttpRequest, r₁.clientHost = r₂.clientHost → r₁.clientIp 0 = r₂.clientIp 0 := by
  constructor
  · intro hop hops value₁ value₂ r₁ r₂ h₁ h₂
    rw [clientIp_forwarded h₁, clientIp_forwarded h₂]
    exact ⟨rfl, rfl⟩
  · intro r₁ r₂ h
    rw [clientIp_untrusted (Int.le_refl 0), clientIp_untrusted (Int.le_refl 0), remoteAddress, h,
      remoteAddress]

/-- The front end of a load balancer sees this visitor. -/
def visitorHop : Hop :=
  ⟨[' '], "203.0.113.7", List.forall_mem_singleton.mpr (by decide), by decide, by decide, by decide⟩

/-- One client claims another address, one sends blanks and commas. -/
theorem clientIp_not_spoofed_once :
    clientIp 1 ⟨[("x-forwarded-for", "6.6.6.6, 203.0.113.7")], none⟩
        = clientIp 1 ⟨[("x-forwarded-for", " ,, 203.0.113.7")], none⟩ ∧
      clientIp 1 ⟨[("x-forwarded-for", "6.6.6.6, 203.0.113.7")], none⟩ = "203.0.113.7" :=
  clientIp_not_spoofed.1 visitorHop [] (some "6.6.6.6") (some " ,") _ _ (by decide) (by decide)

end HttpRequest

end LiveMenu
