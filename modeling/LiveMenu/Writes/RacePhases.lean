import LiveMenu.Concurrent.Writes
import LiveMenu.Writes.AcceptedBodies

/-!
# Calls that race for emails, owners and slugs

Registrations, and creations and updates of restaurants, look whether an email, an owner or a slug
is free and write it in a later transaction. The phases of such a call record what its lookups
found, and what must not be taken when it commits.
-/

namespace LiveMenu

inductive RaceCall where
  | register (email password : String) (draws : Draws)
  | create (fuel : ℕ) (ownerUserId : Uuid) (data : RestaurantCreate) (id : Uuid)
  | update (fuel : ℕ) (ownerUserId : Uuid) (data : RestaurantUpdate)

/-- How far a call is. -/
inductive RacePhase where
  | start
  /-- The email or the owner is taken, or there is no restaurant to update. -/
  | refused
  /-- The search for a slug, and the restaurant that is updated, if any. -/
  | searching (old : Option Restaurant) (counter : ℕ)
  /-- Everything that was looked up is free. -/
  | ready (old : Option Restaurant) (slug : Option String)
  /-- The row is committed. -/
  | written (id : Uuid)
  /-- The refresh token of a registration is committed. -/
  | stored
  /-- A commit was refused, or a committed row was not found again. -/
  | conflict

/-- The commit of the row has been tried. -/
def RacePhase.Past : RacePhase → Prop
  | .written _ | .stored | .conflict => True
  | .start | .refused | .searching _ _ | .ready _ _ => False

namespace RaceCall

def code (P : Platform) : RaceCall → Async Response
  | .register email password draws => .auth <$> AuthService.register P email password draws
  | .create fuel u data id         => .restaurant <$> RestaurantService.create fuel u data id
  | .update fuel u data            => .restaurant <$> RestaurantService.update fuel u data

/-- The slug that the search starts from. -/
def baseSlug : RaceCall → String
  | .register _ _ _     => ""
  | .create _ _ data _  => generateSlug data.name.val
  | .update _ _ data    =>
    match data.name with
    | .set name => generateSlug name.val
    | _         => ""

/-- The first query: is the email or the owner taken, and what restaurant is updated? -/
def checked (P : Platform) (db : Database) : RaceCall → RacePhase
  | .register email _ _ =>
    if db.users.any fun u => u.email.val = P.strLower email then .refused else .ready none none
  | .create _ u _ _ =>
    match Rows.get (·.ownerUserId) u db.restaurants with
    | some _ => .refused
    | none   => .searching none 0
  | .update _ u data =>
    match Rows.get (·.ownerUserId) u db.restaurants with
    | none   => .refused
    | some r =>
      match data.name.value with
      | none   => .ready (some r) none
      | some _ => .searching (some r) 0

/-- A restaurant other than the updated one has the slug, and the update changes it. -/
def slugCollides (t : Tables) (old : Restaurant) : Option String → Bool
  | none      => false
  | some slug => slug ≠ old.slug.val ∧ t.restaurants.any fun r => r.slug.val = slug ∧ r.id ≠ old.id

/-- The commit of the row. -/
def committed (w w' : World) (old : Option Restaurant) (slug : Option String) :
    RaceCall → RacePhase
  | .register _ _ draws =>
    if w'.db.users = w.db.users then .conflict else .written draws.userId
  | .create _ _ _ id    =>
    if w'.db.restaurants = w.db.restaurants then .conflict else .written id
  | .update _ _ _       =>
    match old with
    | none   => .conflict
    | some r =>
      if r.id ∈ w.db.restaurants.map (·.id) ∧ slugCollides w.db.toTables r slug = false then
        .written r.id
      else .conflict

/-- The row is found again. -/
def finds (db : Database) (id : Uuid) : RaceCall → Bool
  | .register _ _ _ => (Rows.get (·.id) id db.users).isSome
  | _               => (Rows.get (·.id) id db.restaurants).isSome

def next (P : Platform) (call : RaceCall) (φ : RacePhase) (l : Label) (w w' : World) : RacePhase :=
  match φ, l with
  | .start, .select _ => call.checked P w.db
  | .searching old counter, .select _ =>
    let slug := slugCandidate call.baseSlug counter
    if RestaurantService.slugIsFree (Rows.get (·.slug.val) slug w.db.restaurants)
        (old.map (·.id)) then
      .ready old (some slug)
    else .searching old (counter + 1)
  | .ready old slug, .commit _ => call.committed w w' old slug
  | .written id, .refresh _ => if call.finds w.db id then .written id else .conflict
  | .written _, .commit _ =>
    if w'.db.refreshTokens = w.db.refreshTokens then .conflict else .stored
  | .stored, .refresh _ =>
    match call with
    | .register _ _ draws =>
      if (Rows.get (·.id) draws.tokenId w.db.refreshTokens).isSome then .stored else .conflict
    | _ => .stored
  | φ, _ => φ

/-! ### What a call needs -/

/-- The texts of the call fit their columns, and the search is shorter than the longest suffix a
slug has room for. -/
def Storable (P : Platform) : RaceCall → Prop
  | .register email password draws =>
    ((P.strLower email).length ≤ 255 ∧ NoNul (P.strLower email)) ∧
      ∃ hash, P.hashPassword draws.salt password = .ok hash ∧ NoNul hash
  | .create fuel _ data _ => fuel < 10 ^ 49 ∧ data.Storable
  | .update fuel _ data   => fuel < 10 ^ 49 ∧ data.Storable

/-- What the next commit writes is not taken: the email, the owner, the slug and what was drawn at
random. The owner of a new restaurant is a user. -/
def Unopposed (P : Platform) (t : Tables) : RaceCall → RacePhase → Prop
  | .register email _ draws, .ready _ _ =>
    (∀ u ∈ t.users, u.email.val ≠ P.strLower email) ∧ draws.userId ∉ t.users.map (·.id)
  | .register _ _ draws, .written _ =>
    draws.tokenId ∉ t.refreshTokens.map (·.id) ∧
      ∀ c : Claims, c.jti = draws.refreshJti →
        P.sha256 (P.jwtEncode c) ∉ t.refreshTokens.map (·.tokenHash)
  | .create _ u _ id, .ready _ slug =>
    (∀ r ∈ t.restaurants, r.ownerUserId ≠ u) ∧ (∀ s ∈ slug, ¬ t.SlugTaken s none) ∧
      id ∉ t.restaurants.map (·.id) ∧ u ∈ t.users.map (·.id)
  | .update _ _ _, .ready (some old) slug => slugCollides t old slug = false
  | _, _ => True

/-- What the phase of a call says of the tables. -/
def Holds (P : Platform) (t : Tables) : RaceCall → RacePhase → Prop
  | .register email _ _, .refused => ∃ u ∈ t.users, u.email.val = P.strLower email
  | .register email _ draws, .written id =>
    id = draws.userId ∧ ∃ u ∈ t.users, u.id = draws.userId ∧ u.email.val = P.strLower email
  | .register email _ draws, .stored =>
    (∃ u ∈ t.users, u.id = draws.userId ∧ u.email.val = P.strLower email) ∧
      draws.tokenId ∈ t.refreshTokens.map (·.id)
  | .create _ u _ _, .refused => ∃ r ∈ t.restaurants, r.ownerUserId = u
  | .create _ u _ id, .written id' => id' = id ∧ ∃ r ∈ t.restaurants, r.id = id ∧ r.ownerUserId = u
  | .update _ u _, .searching (some old) _ => ∃ r ∈ t.restaurants, r.id = old.id ∧ r.ownerUserId = u
  | .update _ u _, .ready (some old) _ => ∃ r ∈ t.restaurants, r.id = old.id ∧ r.ownerUserId = u
  | .update _ u _, .written id => ∃ r ∈ t.restaurants, r.id = id ∧ r.ownerUserId = u
  | _, .conflict => False
  | _, _ => True

end RaceCall

/-- Every user keeps its id and email, every restaurant its id and owner, every token its id. -/
structure KeepsKeys (t t' : Tables) : Prop where
  users : ∀ u ∈ t.users, ∃ u' ∈ t'.users, u'.id = u.id ∧ u'.email = u.email
  restaurants : ∀ r ∈ t.restaurants, ∃ r' ∈ t'.restaurants,
    r'.id = r.id ∧ r'.ownerUserId = r.ownerUserId
  refreshTokens : ∀ k ∈ t.refreshTokens, ∃ k' ∈ t'.refreshTokens, k'.id = k.id

/-- Every restaurant has a slug that a restaurant had before, or the new one. -/
def AddsSlug (t t' : Tables) : Prop :=
  ∃ slug, ∀ r ∈ t'.restaurants, r.slug.val = slug ∨ ∃ r' ∈ t.restaurants, r'.slug = r.slug

/-- What a step of a call may do: the keys are kept; the restaurants are changed by the commit of
the row alone, which adds a slug at most; and a call whose texts fit stays clear of a conflict if
the step is unopposed. -/
structure RaceCall.Allows (P : Platform) (call : RaceCall) (φ : RacePhase) (l : Label)
    (w w' : World) : Prop where
  keeps : KeepsKeys w.db.toTables w'.db.toTables
  slugs : w'.db.restaurants = w.db.restaurants ∨
    ¬ φ.Past ∧ (call.next P φ l w w').Past ∧ AddsSlug w.db.toTables w'.db.toTables
  holds : call.Storable P → ((∃ t, l = .commit t) → call.Unopposed P w.db.toTables φ) →
    call.Holds P w.db.toTables φ → call.Holds P w'.db.toTables (call.next P φ l w w')

def RaceCall.monitor (P : Platform) (call : RaceCall) : Monitor World Label RacePhase where
  next := call.next P
  allows := call.Allows P

/-! ### What stays -/

namespace KeepsKeys

variable {t t' : Tables}

lemma refl (t : Tables) : KeepsKeys t t :=
  ⟨fun u hu => ⟨u, hu, rfl, rfl⟩, fun r hr => ⟨r, hr, rfl, rfl⟩, fun k hk => ⟨k, hk, rfl⟩⟩

lemma insertUser (t : Tables) (u : User) : KeepsKeys t { t with users := t.users ++ [u] } :=
  { refl t with users := fun u hu => ⟨u, List.mem_append_left _ hu, rfl, rfl⟩ }

lemma insertRestaurant (t : Tables) (r : Restaurant) :
    KeepsKeys t { t with restaurants := t.restaurants ++ [r] } :=
  { refl t with restaurants := fun r hr => ⟨r, List.mem_append_left _ hr, rfl, rfl⟩ }

lemma insertRefreshToken (t : Tables) (k : RefreshToken) :
    KeepsKeys t { t with refreshTokens := t.refreshTokens ++ [k] } :=
  { refl t with refreshTokens := fun k hk => ⟨k, List.mem_append_left _ hk, rfl⟩ }

lemma flushRestaurant (t : Tables) (old new : Restaurant) (now : Time) :
    KeepsKeys t { t with
      restaurants := Rows.modify (·.id) old.id (old.flush new now) t.restaurants } := by
  refine { refl t with restaurants := fun r hr => ?_ }
  by_cases hid : r.id = old.id
  · exact ⟨old.flush new now r, Rows.mem_modify.mpr (.inr ⟨r, hr, hid, rfl⟩), rfl, rfl⟩
  · exact ⟨r, Rows.mem_modify.mpr (.inl ⟨hr, hid⟩), rfl, rfl⟩

/-- The rows of other tables do not matter. -/
lemma of_eq (husers : t'.users = t.users) (hrestaurants : t'.restaurants = t.restaurants)
    (htokens : t'.refreshTokens = t.refreshTokens) : KeepsKeys t t' := by
  constructor
  · rw [husers]
    exact (refl t).users
  · rw [hrestaurants]
    exact (refl t).restaurants
  · rw [htokens]
    exact (refl t).refreshTokens

end KeepsKeys

namespace AddsSlug

lemma refl (t : Tables) : AddsSlug t t := ⟨"", fun r hr => .inr ⟨r, hr, rfl⟩⟩

lemma insert (t : Tables) (r : Restaurant) :
    AddsSlug t { t with restaurants := t.restaurants ++ [r] } := by
  refine ⟨r.slug.val, fun r' hr' => ?_⟩
  rcases List.mem_append.mp hr' with hr' | hr'
  · exact .inr ⟨r', hr', rfl⟩
  · obtain rfl := List.mem_singleton.mp hr'
    exact .inl rfl

lemma flush (t : Tables) (old new : Restaurant) (now : Time) :
    AddsSlug t { t with
      restaurants := Rows.modify (·.id) old.id (old.flush new now) t.restaurants } := by
  refine ⟨new.slug.val, fun r' hr' => ?_⟩
  rcases Rows.mem_modify.mp hr' with ⟨hr, -⟩ | ⟨r, hr, -, rfl⟩
  · exact .inr ⟨r', hr, rfl⟩
  · by_cases hsame : new.slug = old.slug
    · exact .inr ⟨r, hr, (if_pos hsame).symm⟩
    · exact .inl (congrArg Varchar.val (if_neg hsame))

end AddsSlug

namespace RaceCall

variable {P : Platform} {call : RaceCall} {φ : RacePhase} {t t' : Tables} {w w' : World} {l : Label}

/-- A user is found under its email as long as keys are kept. -/
lemma exists_user_mono (h : KeepsKeys t t') {p : Uuid → Varchar 255 → Prop}
    (hu : ∃ u ∈ t.users, p u.id u.email) : ∃ u ∈ t'.users, p u.id u.email := by
  obtain ⟨u, hu, hp⟩ := hu
  obtain ⟨u', hu', hid, hemail⟩ := h.users u hu
  exact ⟨u', hu', by rwa [hid, hemail]⟩

lemma exists_restaurant_mono (h : KeepsKeys t t') {p : Uuid → Uuid → Prop}
    (hr : ∃ r ∈ t.restaurants, p r.id r.ownerUserId) :
    ∃ r ∈ t'.restaurants, p r.id r.ownerUserId := by
  obtain ⟨r, hr, hp⟩ := hr
  obtain ⟨r', hr', hid, howner⟩ := h.restaurants r hr
  exact ⟨r', hr', by rwa [hid, howner]⟩

/-- What a phase says stays true while the other calls go on. -/
lemma Holds.mono (h : KeepsKeys t t') (hφ : call.Holds P t φ) : call.Holds P t' φ := by
  cases call with
  | register email password draws =>
    cases φ with
    | refused =>
      exact exists_user_mono h (p := fun _ e => e.val = P.strLower email) hφ
    | written id =>
      exact ⟨hφ.1, exists_user_mono h
        (p := fun i e => i = draws.userId ∧ e.val = P.strLower email) hφ.2⟩
    | stored =>
      refine ⟨exists_user_mono h
        (p := fun i e => i = draws.userId ∧ e.val = P.strLower email) hφ.1, ?_⟩
      obtain ⟨k, hk, hid⟩ := List.mem_map.mp hφ.2
      obtain ⟨k', hk', hid'⟩ := h.refreshTokens k hk
      exact List.mem_map.mpr ⟨k', hk', hid'.trans hid⟩
    | _ => exact hφ
  | create fuel u data id =>
    cases φ with
    | refused => exact exists_restaurant_mono h (p := fun _ o => o = u) hφ
    | written id' =>
      exact ⟨hφ.1, exists_restaurant_mono h (p := fun i o => i = id ∧ o = u) hφ.2⟩
    | _ => exact hφ
  | update fuel u data =>
    cases φ with
    | searching old counter =>
      cases old with
      | none => trivial
      | some old => exact exists_restaurant_mono h (p := fun i o => i = old.id ∧ o = u) hφ
    | ready old slug =>
      cases old with
      | none => trivial
      | some old => exact exists_restaurant_mono h (p := fun i o => i = old.id ∧ o = u) hφ
    | written id => exact exists_restaurant_mono h (p := fun i o => i = id ∧ o = u) hφ
    | _ => exact hφ

/-- A step that leaves the database alone only has to move the phase well. -/
lemma allows_look (h : call.Holds P w.db.toTables φ →
    call.Holds P w.db.toTables (call.next P φ l w w)) : call.Allows P φ l w w :=
  ⟨.refl _, .inl rfl, fun _ _ hφ => h hφ⟩

lemma allows_flush {cache : Cache MenuResponse} (h : call.Holds P w.db.toTables φ →
    call.Holds P w.db.toTables (call.next P φ l w { w with cache := cache })) :
    call.Allows P φ l w { w with cache := cache } :=
  ⟨.refl _, .inl rfl, fun _ _ hφ => h hφ⟩

/-! ### The code follows the phases -/

/-- The search has looked up every candidate that its fuel is for. -/
def OutOfFuel (fuel : ℕ) (φ : RacePhase) (r : Except Exc Response) : Prop :=
  (∃ old, φ = .searching old (fuel + 1)) ∧ r = .error .unfinished

/-- How a call may end in a phase. -/
def Ended : RaceCall → RacePhase → Except Exc Response → Prop
  | .register _ _ _, φ, r =>
    (φ = .stored ∧ ∃ a, r = .ok (.auth a)) ∨
      φ = .refused ∧ r = .error (.http 409 "Email already registered")
  | .create fuel _ _ _, φ, r =>
    ((∃ id, φ = .written id) ∧ ∃ x, r = .ok (.restaurant x)) ∨
      (φ = .refused ∧ r = .error (.http 409 "User already has a restaurant")) ∨ OutOfFuel fuel φ r
  | .update fuel _ _, φ, r =>
    ((∃ id, φ = .written id) ∧ ∃ x, r = .ok (.restaurant x)) ∨
      (φ = .refused ∧ r = .error (.http 404 "Restaurant not found")) ∨ OutOfFuel fuel φ r

/-- A call whose texts fit ends as its phase says, unless there was a conflict. -/
def Ends (P : Platform) (call : RaceCall) (φ : RacePhase) (r : Except Exc Response) : Prop :=
  call.Storable P → φ ≠ .conflict → call.Ended φ r

lemma ends_conflict (r : Except Exc Response) : call.Ends P .conflict r := fun _ h => absurd rfl h

end RaceCall

end LiveMenu
